import Std.Data.ExtTreeMap
import ReleaseMatrix.FileTree.Error
import ReleaseMatrix.Text.Utf8

/- A tree of files and directories, kept as what stands at each place in it. -/
namespace ReleaseMatrix

/-- The names that lead to a place, the innermost first; the empty list is the top. -/
abbrev Location := List String

inductive Entry where
  | file (content : Bytes) (executable : Bool)
  | directory
  deriving DecidableEq, Repr

structure FileTree where
  entries : Std.ExtTreeMap Location Entry

namespace FileTree

def empty : FileTree := ⟨∅⟩

instance : EmptyCollection FileTree := ⟨empty⟩
instance : Inhabited FileTree := ⟨empty⟩

def entry? (t : FileTree) : Location → Option Entry
  | [] => some .directory
  | name :: outer => t.entries[name :: outer]?

def put (t : FileTree) (loc : Location) (e : Entry) : FileTree := ⟨t.entries.insert loc e⟩

def erase (t : FileTree) (loc : Location) : FileTree := ⟨t.entries.erase loc⟩

def toList (t : FileTree) : List (Location × Entry) := t.entries.toList

def eraseAll (t : FileTree) (loc : Location) : FileTree :=
  ⟨t.entries.filter fun l _ => !loc.isSuffixOf l⟩

def children (t : FileTree) (loc : Location) : List String :=
  t.toList.filterMap fun p =>
    match p.1 with
    | name :: outer => if outer = loc then some name else none
    | [] => none

inductive Hop where
  | here
  | up
  | name (text : String)
  deriving DecidableEq, Repr

def Hop.ofPiece (piece : List Char) : Option Hop :=
  if piece = [] then none
  else if piece = ['.'] then some .here
  else if piece = ['.', '.'] then some .up
  else some (.name (String.ofList piece))

/-- A slash at the end of a path asks for a directory, as a final dot does. -/
def hopsOf (cs : List Char) : List Hop :=
  let hops := (Text.splitAll '/' cs).filterMap Hop.ofPiece
  if Path.endsWithSlash cs && !hops.isEmpty then hops ++ [.here] else hops

def maxNameBytes : Nat := 255

def step (t : FileTree) (loc : Location) (hop : Hop) : Except IoError Location :=
  match t.entry? loc with
  | none => .error .notFound
  | some (.file _ _) => .error .notDirectory
  | some .directory =>
    match hop with
    | .here => .ok loc
    | .up => .ok loc.tail
    | .name s => if maxNameBytes < s.utf8ByteSize then .error .nameTooLong else .ok (s :: loc)

def walk (t : FileTree) : Location → List Hop → Except IoError Location
  | loc, [] => .ok loc
  | loc, hop :: rest =>
    match t.step loc hop with
    | .error e => .error e
    | .ok next => t.walk next rest

/-- Where a path leads, whether or not something stands there. Paths start at the top. -/
def locate (t : FileTree) (p : Path) : Except IoError Location :=
  if p.text = "" then .error .notFound
  else if Text.contains p.text '\x00' then .error .nulInPath
  else t.walk [] (hopsOf p.text.toList)

def Hop.next (loc : Location) : Hop → Location
  | .here => loc
  | .up => loc.tail
  | .name s => s :: loc

def trailFrom : Location → List Hop → List Location
  | loc, [] => [loc]
  | loc, hop :: rest => loc :: trailFrom (hop.next loc) rest

def trail (p : Path) : List Location := trailFrom [] (hopsOf p.text.toList)

def open? (t : FileTree) (p : Path) : Except IoError Entry :=
  match t.locate p with
  | .error e => .error e
  | .ok loc =>
    match t.entry? loc with
    | none => .error .notFound
    | some e => .ok e

def exists? (t : FileTree) (p : Path) : Bool :=
  match t.open? p with
  | .ok _ => true
  | .error _ => false

def isFile (t : FileTree) (p : Path) : Bool :=
  match t.open? p with
  | .ok (.file _ _) => true
  | _ => false

def isDirectory (t : FileTree) (p : Path) : Bool :=
  match t.open? p with
  | .ok .directory => true
  | _ => false

def isExecutable (t : FileTree) (p : Path) : Bool :=
  match t.open? p with
  | .ok (.file _ executable) => executable
  | _ => false

end FileTree

def Entry.read : Entry → Except IoError Bytes
  | .file content _ => .ok content
  | .directory => .error .isDirectory

def Entry.size : Entry → Nat
  | .file content _ => content.length
  | .directory => 4096

end ReleaseMatrix
