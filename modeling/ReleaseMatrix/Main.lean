import ReleaseMatrix.Cli.Run
import ReleaseMatrix.Shell.Run

/- The program. A call works on a snapshot of the directory it is made in, with the shell and the
   utilities for its tools, and what it has changed is then put into that directory. -/
namespace ReleaseMatrix.Main

def entryOf (content : Bytes) : Entry := .file content (content.take 2 == [35, 33])

partial def snapshot (t : FileTree) (dir : Path) : IO FileTree := do
  let mut t := (t.makeDirectories dir).1
  for found in ← ((← IO.currentDir) / dir.text).readDir do
    let path := dir.join ⟨found.fileName⟩
    if ← found.path.isDir then t ← snapshot t path
    else
      let content ← IO.FS.readBinFile found.path
      match t.locate path with
      | .ok loc => t := t.put loc (entryOf content.toList)
      | .error _ => pure ()
  return t

def variablesOf (content : Bytes) : List (String × String) :=
  (content.splitBy fun a b => a != 0 && b != 0).filterMap fun piece =>
    (Utf8.decode? piece).bind fun text =>
      (Text.cut? '=' text.toList).map fun p => (String.ofList p.1, String.ofList p.2)

def processDirectory : String := "/proc/self"

def environment : IO Environment := do
  let content ← IO.FS.readBinFile ((← IO.currentDir) / (processDirectory ++ "/environ"))
  return .ofList (variablesOf content.toList)

def startMoment : IO Time.Moment := do
  let told ← ((← IO.currentDir) / processDirectory).metadata
  return ⟨told.modified.sec, told.modified.nsec.toNat⟩

def textOf (loc : Location) : String := (Shell.pathOf loc).text

def removeGone (before after : FileTree) : IO Unit := do
  let gone := before.toList.filter fun e => (after.entry? e.1).isNone
  for (loc, entry) in gone.mergeSort fun a b => b.1.length ≤ a.1.length do
    match entry with
    | .directory => IO.FS.removeDir (textOf loc)
    | .file _ _ => IO.FS.removeFile (textOf loc)

def writeNew (before after : FileTree) : IO Unit := do
  for (loc, entry) in after.toList do
    if before.entry? loc ≠ some entry then
      match entry with
      | .directory => IO.FS.createDirAll (textOf loc)
      | .file content _ =>
        IO.FS.createDirAll (textOf loc.tail)
        IO.FS.writeBinFile (textOf loc) ⟨content.toArray⟩

def run (args : List String) : IO UInt32 := do
  let here : Path := ⟨(← IO.currentDir).toString⟩
  let before := Shell.install (← snapshot ∅ here)
  let moment ← startMoment
  let session : Cli.Session := ⟨Shell.host (← environment) here, ⟨moment, fun _ => 0, 0⟩⟩
  let result := Cli.run session args before
  removeGone before result.tree
  writeNew before result.tree
  (← IO.getStdout).putStr result.stdout
  (← IO.getStderr).putStr result.stderr
  return result.exit.toUInt32

end ReleaseMatrix.Main

def main (args : List String) : IO UInt32 := ReleaseMatrix.Main.run args
