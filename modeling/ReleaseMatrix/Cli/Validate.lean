import ReleaseMatrix.Cli.List

/- Checking a project: its configuration, its variants, and the files and tools that it needs. -/
namespace ReleaseMatrix.Cli

structure Findings where
  errors : List String
  warnings : List String
  deriving DecidableEq, Repr

def variantFinding? (n : Normalizer) (entry : Nat × VariantDescriptor) : Option String :=
  match n.normalize entry.2 [] with
  | .ok _ => none
  | .error e => some ("Variant " ++ Decimal.ofNat entry.1 ++ ": " ++ e.message)

def variantFindings (c : Config) : List String :=
  match c.catalog with
  | .error e => ["Variants: " ++ e.message]
  | .ok catalog => catalog.entries.filterMap (variantFinding? c.normalizer)

def companionFinding? (p : Project) (t : FileTree) (what : String) (path : Path) : Option String :=
  let full := p.root.join path
  if t.isFile full then none else some (what ++ " not found at " ++ full.text)

def profileFinding? (p : Project) (t : FileTree) : Option String :=
  p.config.build.pgoProfile.bind fun profile =>
    let full := p.root.join profile
    if t.isFile full then none
    else some ("PGO profile not found at " ++ full.text ++ "; the compiler will reject -pgo")

def toolFinding? (h : Host) (t : FileTree) (program : String) : Option String :=
  match h.installed? t program with
  | some _ => none
  | none => some ("'" ++ program ++ "' is not installed or not on PATH")

def dropRepeats : List String → List String
  | [] => []
  | a :: rest =>
    match dropRepeats rest with
    | [] => [a]
    | b :: more => if a = b then a :: more else a :: b :: more

def checkProject (h : Host) (p : Project) (t : FileTree) : Findings where
  errors := variantFindings p.config ++
    (companionFinding? p t "Readme" p.config.project.readme).toList ++
    (companionFinding? p t "License" p.config.project.license).toList
  warnings := dropRepeats ((profileFinding? p t).toList ++
    [p.config.build.compiler, p.config.generator.program].filterMap (toolFinding? h t))

/-- A strict check has no warnings, only errors. -/
def Findings.strictly (f : Findings) : Findings := ⟨f.errors ++ f.warnings, []⟩

def Findings.passed (f : Findings) : Bool := f.errors.isEmpty

def optionalProject (loaded : Except ProjectError Project) : Option Project := loaded.toOption

def findings (h : Host) (t : FileTree) : Except ProjectError Project → Findings
  | .ok p => checkProject h p t
  | .error e => ⟨["Configuration: " ++ Text.joinWith ": " (e.message :: e.causes)], []⟩

def findingsJson (p : Option Project) (f : Findings) : Json :=
  .object
    [("config_path", Json.ofOption (fun file => .text file.text) (p.bind Project.file)),
      ("errors", Json.ofTexts f.errors), ("valid", .bool f.passed),
      ("variants", Json.ofOption (fun p => Json.ofNat p.config.variants.length) p),
      ("warnings", Json.ofTexts f.warnings)]

def projectLines (p : Project) : List String :=
  ["  Config: " ++ (p.file.map Path.text).getD "built-in defaults", "  Root: " ++ p.root.text,
    "  Variants: " ++ Decimal.ofNat p.config.variants.length, ""]

def findingLines (title mark : String) (items : List String) : List String :=
  if items.isEmpty then [] else title :: items.map (fun item => "  " ++ mark ++ " " ++ item) ++ [""]

def verdictLine (f : Findings) : String :=
  if !f.passed then
    Output.failMark ++ " Validation failed with " ++ Decimal.ofNat f.errors.length ++ " error(s)"
  else if f.warnings.isEmpty then Output.passMark ++ " All checks passed"
  else Output.passMark ++ " Validation passed with " ++ Decimal.ofNat f.warnings.length ++
    " warning(s)"

def findingsText (p : Option Project) (f : Findings) : String :=
  endLines (["Validation Results", ""] ++ (p.map projectLines).getD [] ++
    findingLines "Errors:" Output.failMark f.errors ++ findingLines "Warnings:" "!" f.warnings ++
    [verdictLine f])

def validate (s : Session) (g : GlobalOptions) (strict : Bool) (t : FileTree) : Reply :=
  let loaded := loadProject s g t
  let found := findings s.host t loaded
  let found := if strict then found.strictly else found
  let told := match g.format with
    | .json => (findingsJson (optionalProject loaded) found).pretty ++ "\n"
    | .text => if g.quiet then "" else findingsText (optionalProject loaded) found
  ⟨t, told, if found.passed then .success else .silent validationCode⟩

end ReleaseMatrix.Cli
