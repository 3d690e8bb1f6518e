import ReleaseMatrix.Archive.Format
import ReleaseMatrix.Build.Error
import ReleaseMatrix.FileTree.Change

/- Writing an archive: into a temporary file beside the destination, which takes the place of the
   destination once it is complete. -/
namespace ReleaseMatrix

structure ArchiveEntry where
  source : Path
  name : String
  mode : Nat
  deriving DecidableEq, Repr

namespace Archive

def temporaryStart : String := ".gantry-"
def temporaryEnd : String := ".zip.tmp"

def temporaryName (number : Nat) : String :=
  temporaryStart ++ Decimal.zeroPadded 6 number ++ temporaryEnd

/-- A place in a directory where nothing stands and that none of the paths comes by: the names of
   temporary files are random, so that no path of a call hits on one. There are more candidates
   than places that are taken. -/
def freshPlace (t : FileTree) (dir : Location) (paths : List Path) : Location :=
  let taken := t.entries.keys ++ paths.flatMap FileTree.trail
  let free := (List.range (taken.length + 1)).find? fun n => !taken.contains (temporaryName n :: dir)
  temporaryName (free.getD 0) :: dir

def makeTemporary (t : FileTree) (dir : Path) (paths : List Path) :
    Except IoError (FileTree × Location) :=
  let sample := dir.join ⟨temporaryName 0⟩
  match t.slot sample with
  | .error e => .error (.atPath e sample)
  | .ok .reached => .error (.atPath .isDirectory sample)
  | .ok (.named place _) =>
    let temporary := freshPlace t place.tail paths
    .ok (t.put temporary (.file [] false), temporary)

inductive Step where
  | create
  | source (position : Nat)
  | start (position : Nat)
  | content (position : Nat)
  | finish
  | rename
  deriving DecidableEq, Repr

/-- Steps that fail although the tree allows them, as on a full disk. -/
abbrev Faults := Step → Option BuildError

def noFaults : Faults := fun _ => none

def attempt {α : Type} (fault : Option BuildError) (result : Except BuildError α) :
    Except BuildError α :=
  match fault with
  | some e => .error e
  | none => result

def maxLevel : Nat := 264

def levelSupported (level : Nat) : Bool := 1 ≤ level && level ≤ maxLevel

def regularMode (mode : Nat) : Nat := 0o100000 + mode % 0o1000

def largeMember : IoError := .other "Large file option has not been set"

def openSource (t : FileTree) (entry : ArchiveEntry) : Except BuildError Entry :=
  match t.open? entry.source with
  | .error e => .error (.companionFile entry.source e)
  | .ok source => .ok source

def endMember (members : List Packed) : Except BuildError Unit :=
  if members.any fun m => mark32 < m.data.length then .error (.archive (.io largeMember)) else .ok ()

def nameMember (members : List Packed) (name : String) : Except BuildError Unit :=
  if members.any fun m => m.name == name then .error (.archive (.duplicateName name))
  else if mark16 < (Utf8.encode name).length then .error (.archive .nameTooLong)
  else .ok ()

def startMember (level : Nat) (members : List Packed) (entry : ArchiveEntry) :
    Except BuildError Unit :=
  if !levelSupported level then .error (.archive .unsupportedLevel)
  else do
    endMember members
    nameMember members entry.name

def readSource (source : Entry) : Except BuildError Bytes :=
  match source.read with
  | .error e => .error (.io e)
  | .ok content => if mark32 < content.length then .error (.io largeMember) else .ok content

/-- Opens the source, starts the member, reads the content: the first that fails is the error. -/
def addEntry (faults : Faults) (t : FileTree) (level : Nat) (members : List Packed)
    (entry : ArchiveEntry) : Except BuildError (List Packed) := do
  let source ← attempt (faults (.source members.length)) (openSource t entry)
  attempt (faults (.start members.length)) (startMember level members entry)
  let content ← attempt (faults (.content members.length)) (readSource source)
  .ok (members ++ [pack level entry.name (regularMode entry.mode) content])

/-- Every state that the tree goes through, in order, and how it ended. -/
structure Writing where
  states : List FileTree
  result : Except BuildError Unit

def Writing.tree (w : Writing) (start : FileTree) : FileTree := w.states.getLast?.getD start

def Writing.prepend (state : FileTree) (w : Writing) : Writing := { w with states := state :: w.states }

def abandon (t : FileTree) (temporary : Location) (e : BuildError) : Writing :=
  ⟨[t.erase temporary], .error e⟩

def fill (t : FileTree) (temporary : Location) (content : Bytes) : FileTree :=
  t.put temporary (.file content false)

def land (t : FileTree) (temporary : Location) (destination : Path) : Except BuildError FileTree :=
  match t.moveFrom temporary destination with
  | .error e => .error (.io e)
  | .ok landed => .ok landed

/-- What a file can hold at most: its length is a signed number of eight bytes. -/
def maxFileLength : Nat := Nat.pow 2 63 - 1

def closeArchive (members : List Packed) : Except BuildError Bytes := do
  endMember members
  if maxFileLength < (encode members).length then .error (.archive (.io .fileTooLarge))
  else .ok (encode members)

def finish (faults : Faults) (t : FileTree) (temporary : Location) (destination : Path)
    (members : List Packed) : Writing :=
  match attempt (faults .finish) (closeArchive members) with
  | .error e => abandon t temporary e
  | .ok bytes =>
    let complete := fill t temporary bytes
    let moved : Writing := match attempt (faults .rename) (land complete temporary destination) with
      | .ok landed => ⟨[landed], .ok ()⟩
      | .error e => abandon complete temporary e
    moved.prepend complete

def addEntries (faults : Faults) (temporary : Location) (destination : Path) (level : Nat) :
    FileTree → List Packed → List ArchiveEntry → Writing
  | t, members, [] => finish faults t temporary destination members
  | t, members, entry :: rest =>
    match addEntry faults t level members entry with
    | .error e => abandon t temporary e
    | .ok members =>
      let grown := fill t temporary (locals members)
      (addEntries faults temporary destination level grown members rest).prepend grown

def begin? (t : FileTree) (destination : Path) (entries : List ArchiveEntry) :
    Except BuildError (FileTree × Location) :=
  (makeTemporary t (destination.parent.getD ⟨"."⟩)
    (destination :: entries.map ArchiveEntry.source)).mapError .io

def writeUnder (faults : Faults) (t : FileTree) (destination : Path) (entries : List ArchiveEntry)
    (level : Nat) : Writing :=
  match attempt (faults .create) (begin? t destination entries) with
  | .error e => ⟨[], .error e⟩
  | .ok (started, temporary) =>
    (addEntries faults temporary destination level started [] entries).prepend started

def writeTo (t : FileTree) (destination : Path) (entries : List ArchiveEntry) (level : Nat) :
    Writing :=
  writeUnder noFaults t destination entries level

end Archive
end ReleaseMatrix
