import ReleaseMatrix.FileTree.Basic
import ReleaseMatrix.Variant.Environment

/- Starting programs: where they are looked up, and what comes of running them. -/
namespace ReleaseMatrix

inductive Exit where
  | code (n : Nat)
  | signal (n : Nat)
  deriving DecidableEq, Repr

structure Finished where
  exit : Exit
  stdout : Bytes
  stderr : Bytes
  deriving DecidableEq, Repr

structure Invocation where
  program : String
  args : List String
  overrides : List (String × String)
  directory : Path
  deriving DecidableEq, Repr

structure Process where
  file : Path
  name : String
  args : List String
  env : Environment
  directory : Path
  input : Bytes

abbrev ProcessRun := FileTree × Except IoError Finished

structure Host where
  env : Environment
  directory : Path
  execute : Process → FileTree → ProcessRun

namespace Host

def pathVariable : String := "PATH"

def defaultSearchPath : String := "/bin:/usr/bin"

def hasSlash (program : String) : Bool := Text.contains program '/'

def searchDirectories (directory : Path) (searchPath : String) : List Path :=
  (Text.splitAll ':' searchPath.toList).map fun piece => directory.join ⟨String.ofList piece⟩

/-- The files that a program name may mean, in order: one path when the name has a slash. -/
def programFiles (directory : Path) (searchPath program : String) : List Path :=
  if program = "" then []
  else if hasSlash program then [directory.join ⟨program⟩]
  else (searchDirectories directory searchPath).map fun dir => dir.join ⟨program⟩

def refusal? (t : FileTree) (file : Path) : Option IoError :=
  match t.open? file with
  | .error e => some e
  | .ok .directory => some .permissionDenied
  | .ok (.file _ executable) => if executable then none else some .permissionDenied

def passesOver : IoError → Bool
  | .notFound => true
  | .notDirectory => true
  | .permissionDenied => true
  | _ => false

/-- Tries one file after another. A refusal for lack of permission is what is reported in the end,
   else the last error. -/
def startFirst (t : FileTree) (start : Path → ProcessRun) (denied : Bool) (last : IoError) :
    List Path → ProcessRun
  | [] => (t, .error (if denied then .permissionDenied else last))
  | file :: rest =>
    let run : ProcessRun := match refusal? t file with
      | some e => (t, .error e)
      | none => start file
    match run.2 with
    | .ok _ => run
    | .error e =>
      if passesOver e then
        startFirst t start (denied || decide (e = .permissionDenied)) e rest
      else run

def standardShell : Path := ⟨"/bin/sh"⟩

/-- A file in no format that can be executed is taken for a script. -/
def withShell (execute : Process → FileTree → ProcessRun) (p : Process) (t : FileTree) : ProcessRun :=
  match execute p t with
  | (after, .error .execFormat) =>
    match refusal? after standardShell with
    | some _ => (after, .error .execFormat)
    | none =>
      execute { p with file := standardShell, name := "sh", args := p.file.text :: p.args } after
  | run => run

def hasNul (s : String) : Bool := Text.contains s '\x00'

def Invocation.hasNul (i : Invocation) : Bool :=
  Host.hasNul i.program || i.args.any Host.hasNul || Host.hasNul i.directory.text ||
    i.overrides.any fun p => Host.hasNul p.1 || Host.hasNul p.2

/-- Runs a program to its end with no input. A search path among the overrides is used for the
   look-up of a bare program name; files found so may also be scripts without a first line that
   says so. -/
def spawn (h : Host) (i : Invocation) (t : FileTree) : ProcessRun :=
  if Invocation.hasNul i then (t, .error .nulInArgument)
  else match t.open? i.directory with
    | .error e => (t, .error e)
    | .ok (.file _ _) => (t, .error .notDirectory)
    | .ok .directory =>
      let env := h.env.setAll i.overrides
      let ownSearch := !hasSlash i.program && i.overrides.any fun p => p.1 == pathVariable
      let searchPath := ((if ownSearch then env else h.env).get? pathVariable).getD defaultSearchPath
      let execute := if ownSearch then withShell h.execute else h.execute
      let start (file : Path) : ProcessRun :=
        execute ⟨file, i.program, i.args, env, i.directory, []⟩ t
      startFirst t start false .notFound (programFiles i.directory searchPath i.program)

/-- Where the check for an installed program looks: a path of several components is one file seen
   from the current directory, a single name is looked up. -/
def installedFiles (h : Host) (program : String) : List Path :=
  if 1 < (Path.mk program).components.length then [h.directory.join ⟨program⟩]
  else match h.env.get? pathVariable with
    | none => []
    | some searchPath => (searchDirectories h.directory searchPath).map fun dir => dir.join ⟨program⟩

def installed? (h : Host) (t : FileTree) (program : String) : Option Path :=
  (h.installedFiles program).find? t.isExecutable

end Host
end ReleaseMatrix
