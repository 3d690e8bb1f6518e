import ReleaseMatrix.Build.CommandLine
import ReleaseMatrix.Build.Error
import ReleaseMatrix.Host.Basic

/- Running the commands of a build. -/
namespace ReleaseMatrix

def startHint (commandLine : String) (e : IoError) : String :=
  "Could not start `" ++ commandLine ++ "`: " ++ e.message

def Exit.code? : Exit → Option Int
  | .code n => some n
  | .signal _ => none

def commandResult (i : Invocation) (commandLine : String) :
    Except IoError Finished → Except BuildError Unit
  | .error .notFound => .error (.toolNotFound i.program (startHint commandLine .notFound))
  | .error e => .error (.io e)
  | .ok f =>
    if f.exit = .code 0 then .ok ()
    else .error (.commandFailed commandLine f.exit.code? (Utf8.decodeLossy f.stdout)
      (Utf8.decodeLossy f.stderr))

def runCommand (h : Host) (i : Invocation) (commandLine : String) (t : FileTree) :
    FileTree × Except BuildError Unit :=
  let run := h.spawn i t
  (run.1, commandResult i commandLine run.2)

def checkInstalled (h : Host) (program hint : String) (t : FileTree) : Except BuildError Unit :=
  match h.installed? t program with
  | some _ => .ok ()
  | none => .error (.toolNotFound program hint)

end ReleaseMatrix
