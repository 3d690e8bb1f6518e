import ReleaseMatrix.FileTree.Basic

/- Reading and changing files: a change gives the new tree or the reason it was refused. -/
namespace ReleaseMatrix.FileTree

def read (t : FileTree) (p : Path) : Except IoError Bytes :=
  match t.open? p with
  | .error e => .error e
  | .ok e => e.read

def readText (t : FileTree) (p : Path) : Except IoError String :=
  match t.read p with
  | .error e => .error e
  | .ok bytes =>
    match Utf8.decode? bytes with
    | some s => .ok s
    | none => .error .invalidUtf8

structure Target where
  before : List Hop
  last : Hop
  slash : Bool

def Target.ofText (cs : List Char) : Option Target :=
  match ((Text.splitAll '/' cs).filterMap Hop.ofPiece).reverse with
  | [] => none
  | last :: before => some ⟨before.reverse, last, Path.endsWithSlash cs⟩

inductive Slot where
  | named (loc : Location) (slash : Bool)
  /-- the top, or a directory reached by a dot -/
  | reached

def slotOf (t : FileTree) (target : Target) : Except IoError Slot :=
  match t.walk [] target.before with
  | .error e => .error e
  | .ok dir =>
    match t.step dir target.last with
    | .error e => .error e
    | .ok loc =>
      match target.last with
      | .name _ => .ok (.named loc target.slash)
      | _ => .ok .reached

def slot (t : FileTree) (p : Path) : Except IoError Slot :=
  if p.text = "" then .error .notFound
  else if Text.contains p.text '\x00' then .error .nulInPath
  else match Target.ofText p.text.toList with
    | none => .ok .reached
    | some target => t.slotOf target

/-- A file that is there keeps its mode, a new one is not executable. -/
def write (t : FileTree) (p : Path) (content : Bytes) : Except IoError FileTree :=
  match t.slot p with
  | .error e => .error e
  | .ok .reached => .error .isDirectory
  | .ok (.named loc slash) =>
    match t.entry? loc with
    | some .directory => .error .isDirectory
    | some (.file _ executable) =>
      if slash then .error .notDirectory else .ok (t.put loc (.file content executable))
    | none => if slash then .error .isDirectory else .ok (t.put loc (.file content false))

def remove (t : FileTree) (p : Path) : Except IoError FileTree :=
  match t.slot p with
  | .error e => .error e
  | .ok .reached => .error .isDirectory
  | .ok (.named loc slash) =>
    match t.entry? loc with
    | none => .error .notFound
    | some .directory => .error .isDirectory
    | some (.file _ _) => if slash then .error .notDirectory else .ok (t.erase loc)

def removeIfPresent (t : FileTree) (p : Path) : Except IoError FileTree :=
  match t.remove p with
  | .error .notFound => .ok t
  | result => result

def makeDirectory (t : FileTree) (p : Path) : Except IoError FileTree :=
  match t.slot p with
  | .error e => .error e
  | .ok .reached => .error .alreadyExists
  | .ok (.named loc _) =>
    match t.entry? loc with
    | some _ => .error .alreadyExists
    | none => .ok (t.put loc .directory)

def ensureDirectory (t : FileTree) (p : Path) : Except IoError FileTree :=
  match t.makeDirectory p with
  | .ok made => .ok made
  | .error e => if t.isDirectory p then .ok t else .error e

/-- Makes the first of the paths; each of the others is the parent of the one before it and is
   made first when the one before lacks a parent. What was made on the way to a failure stays. -/
def ensureNested (t : FileTree) : List Path → FileTree × Option IoError
  | [] => (t, some .notFound)
  | p :: parents =>
    match t.ensureDirectory p with
    | .ok made => (made, none)
    | .error .notFound =>
      match t.ensureNested parents with
      | (made, some e) => (made, some e)
      | (made, none) =>
        match made.ensureDirectory p with
        | .ok all => (all, none)
        | .error e => (made, some e)
    | .error e => (t, some e)

def makeDirectories (t : FileTree) (p : Path) : FileTree × Option IoError :=
  t.ensureNested p.ancestors

def moveFrom (t : FileTree) (source : Location) (target : Path) : Except IoError FileTree :=
  match t.slot target with
  | .error e => .error e
  | .ok .reached => .error .busy
  | .ok (.named targetLoc slash) =>
    match t.entry? source with
    | none => .error .notFound
    | some .directory => .error .isDirectory
    | some file =>
      if slash then .error .notDirectory
      else match t.entry? targetLoc with
        | some .directory => .error .isDirectory
        | _ => .ok ((t.erase source).put targetLoc file)

def rename (t : FileTree) (source target : Path) : Except IoError FileTree :=
  match t.slot source with
  | .error e => .error e
  | .ok .reached => .error .busy
  | .ok (.named sourceLoc _) => t.moveFrom sourceLoc target

end ReleaseMatrix.FileTree
