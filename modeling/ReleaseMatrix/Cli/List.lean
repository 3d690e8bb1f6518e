import ReleaseMatrix.Cli.Project

/- Listing the release matrix. Names come from the descriptors alone, so that a listing does not
   depend on the environment of the call. -/
namespace ReleaseMatrix.Cli

structure VariantRow where
  index : Nat
  variant : String
  overrides : List String
  archive : String
  binary : String
  buildMode : Option String
  deriving DecidableEq, Repr

namespace VariantRow

def new (index : Nat) (d : VariantDescriptor) (v : NormalizedVariant) : VariantRow :=
  ⟨index, v.label, d.strings, v.target.archiveName, v.target.binaryName, v.target.buildMode⟩

def toJson (r : VariantRow) : Json :=
  .object
    ([("index", Json.ofNat r.index), ("variant", .text r.variant),
        ("overrides", Json.ofTexts r.overrides), ("archive", .text r.archive),
        ("binary", .text r.binary)] ++
      (r.buildMode.map fun mode => ("build_mode", Json.text mode)).toList)

def line (r : VariantRow) : String :=
  "  " ++ Text.padLeft 3 (Decimal.ofNat r.index) ++ "  " ++ Text.padRight 28 r.variant ++ " " ++
    r.archive ++ (match r.buildMode with
      | some mode => " " ++ mode
      | none => "")

end VariantRow

def rowsOf (n : Normalizer) : List (Nat × VariantDescriptor) → Except VariantError (List VariantRow)
  | [] => .ok []
  | (index, d) :: rest =>
    match n.normalize d [] with
    | .error e => .error e
    | .ok v =>
      match rowsOf n rest with
      | .error e => .error e
      | .ok rows => .ok (.new index d v :: rows)

def variantRows (c : Config) : Except VariantError (List VariantRow) :=
  match c.catalog with
  | .error e => .error e
  | .ok catalog => rowsOf c.normalizer catalog.entries

def endLines (lines : List String) : String := String.join (lines.map fun line => line ++ "\n")

def listing (g : GlobalOptions) (p : Project) (rows : List VariantRow) : String :=
  match g.format with
  | .json => (Json.list (rows.map VariantRow.toJson)).pretty ++ "\n"
  | .text =>
    if g.quiet then endLines (rows.map VariantRow.archive)
    else endLines
      ([p.config.project.name ++ " " ++ p.config.project.version ++ " - " ++
          Output.variants rows.length] ++
        (p.file.map fun file => "  config: " ++ file.text).toList ++ [""] ++
        rows.map VariantRow.line)

def list (s : Session) (g : GlobalOptions) (t : FileTree) : Reply :=
  match loadProject s g t with
  | .error e => .failed t (.ofProject e)
  | .ok p =>
    match variantRows p.config with
    | .error e => .failed t (.ofVariant e)
    | .ok rows => ⟨t, listing g p rows, .success⟩

end ReleaseMatrix.Cli
