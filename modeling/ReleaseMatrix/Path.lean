import ReleaseMatrix.Text

/- File paths as they are written. A path keeps its text; components, parents and joins are
   read off the text. -/
namespace ReleaseMatrix

structure Path where
  text : String
  deriving DecidableEq, Repr, Inhabited

namespace Path

inductive Component where
  | root
  | current
  | parent
  | name (text : String)
  deriving DecidableEq, Repr

def Component.text : Component → String
  | .root => "/"
  | .current => "."
  | .parent => ".."
  | .name s => s

def isAbsoluteText : List Char → Bool
  | '/' :: _ => true
  | _ => false

def isAbsolute (p : Path) : Bool := isAbsoluteText p.text.toList

def Component.ofPiece (piece : List Char) : Option Component :=
  if piece = [] ∨ piece = ['.'] then none
  else if piece = ['.', '.'] then some .parent
  else some (.name (String.ofList piece))

/-- Repeated slashes and dots inside a path drop out; a dot in front of a relative path stays. -/
def componentsOf (cs : List Char) : List Component :=
  let pieces := Text.splitAll '/' cs
  let body := pieces.filterMap Component.ofPiece
  match pieces with
  | [] :: _ :: _ => .root :: body
  | ['.'] :: _ => .current :: body
  | _ => body

def components (p : Path) : List Component := componentsOf p.text.toList

def same (p q : Path) : Bool := decide (p.components = q.components)

def endsWithSlash (cs : List Char) : Bool := cs.getLast? == some '/'

/-- An absolute path replaces the base; otherwise exactly one slash is put between, unless the
   base is empty or has one already. -/
def join (base p : Path) : Path :=
  if p.isAbsolute then p
  else if base.text = "" then p
  else if endsWithSlash base.text.toList then ⟨base.text ++ p.text⟩
  else ⟨base.text ++ "/" ++ p.text⟩

def dropEmptyEnds : List Char → List Char
  | '/' :: cs => dropEmptyEnds cs
  | ['.'] => []
  | '.' :: '/' :: cs => dropEmptyEnds cs
  | cs => cs

def splitLead : List Char → List Char × List Char
  | '/' :: cs => (['/'], cs)
  | ['.'] => (['.'], [])
  | '.' :: '/' :: cs => (['.'], '/' :: cs)
  | cs => ([], cs)

def bodyParent (body : List Char) : Option (List Char) :=
  match dropEmptyEnds body.reverse with
  | [] => none
  | cs => some (dropEmptyEnds (cs.dropWhile (· != '/'))).reverse

def parentText (cs : List Char) : Option (List Char) :=
  let (lead, body) := splitLead cs
  match bodyParent body with
  | some rest => some (lead ++ rest)
  | none => if lead = ['.'] then some [] else none

def parent (p : Path) : Option Path := (parentText p.text.toList).map fun cs => ⟨String.ofList cs⟩

def fileName (p : Path) : Option String :=
  match p.components.getLast? with
  | some (.name s) => some s
  | _ => none

def extension (p : Path) : Option String :=
  p.fileName.bind fun name =>
    match Text.cut? '.' name.toList.reverse with
    | some (_, []) => none
    | some (ext, _) => some (String.ofList ext.reverse)
    | none => none

def fileStem (p : Path) : Option String :=
  p.fileName.map fun name =>
    match Text.cut? '.' name.toList.reverse with
    | some (_, []) => name
    | some (_, stem) => String.ofList stem.reverse
    | none => name

def ancestorsFuel : Nat → Path → List Path
  | 0, p => [p]
  | fuel + 1, p =>
    match p.parent with
    | none => [p]
    | some up => p :: ancestorsFuel fuel up

/-- The path and its parents, nearest first; a parent's text is shorter, so the length bounds them. -/
def ancestors (p : Path) : List Path := ancestorsFuel p.text.length p

def joinAll (base : Path) (cs : List Component) : Path := cs.foldl (fun p c => p.join ⟨c.text⟩) base

end Path
end ReleaseMatrix
