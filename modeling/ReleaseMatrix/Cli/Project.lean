import ReleaseMatrix.Cli.Options
import ReleaseMatrix.Config.Load
import ReleaseMatrix.Host.Basic
import ReleaseMatrix.Release.Run

/- What a command works on, and what it replies. -/
namespace ReleaseMatrix.Cli

structure Session where
  host : Host
  clock : Clock

structure Fault where
  messages : List String
  code : Int
  deriving DecidableEq, Repr

def generalCode : Int := 1
def configurationCode : Int := 2
def ioCode : Int := 7
def variantsFailedCode : Int := 11
def validationCode : Nat := 5

def processCode (code : Int) : Nat := if 1 ≤ code ∧ code ≤ 255 then code.toNat else 1

def Fault.line (f : Fault) : String := Output.failMark ++ " " ++ Text.joinWith ": " f.messages ++ "\n"

def Fault.plain (message : String) : Fault := ⟨[message], generalCode⟩

def Fault.ofIo (e : IoError) : Fault := .plain e.message

def Fault.ofBuild (e : BuildError) : Fault := ⟨e.message :: e.causes, e.exitCode⟩

def projectCode : ProjectError → Int
  | .config _ => configurationCode
  | .variant _ => validationCode
  | .io _ => ioCode

def Fault.ofProject (e : ProjectError) : Fault := ⟨e.message :: e.causes, projectCode e⟩

def Fault.ofVariant (e : VariantError) : Fault := ⟨[e.message], validationCode⟩

inductive Ending where
  | success
  | silent (code : Nat)
  | fault (f : Fault)
  | unprintable
  deriving DecidableEq, Repr

structure Reply where
  tree : FileTree
  stdout : String
  ending : Ending

def Ending.code : Ending → Nat
  | success => 0
  | silent code => code
  | fault f => processCode f.code
  | unprintable => 101

def Ending.stderr : Ending → String
  | fault f => f.line
  | unprintable => "the build time cannot be written\n"
  | _ => ""

def Reply.failed (tree : FileTree) (f : Fault) : Reply := ⟨tree, "", .fault f⟩

def successLine (message : String) : String := Output.passMark ++ " " ++ message ++ "\n"

def workingDirectory (s : Session) (g : GlobalOptions) : Path :=
  match g.directory with
  | some dir => s.host.directory.join dir
  | none => s.host.directory

structure Project where
  config : Config
  file : Option Path
  root : Path

def loadFile (s : Session) (g : GlobalOptions) (t : FileTree) : Except ProjectError Project :=
  let dir := workingDirectory s g
  match g.config with
  | some path =>
    let file := dir.join path
    (Config.load t file).map fun c => ⟨c, some file, dir⟩
  | none =>
    (Config.loadOrDefault t dir).map fun (c, file) =>
      ⟨c, file, (file.map Config.projectRoot).getD dir⟩

def loadProject (s : Session) (g : GlobalOptions) (t : FileTree) : Except ProjectError Project :=
  (loadFile s g t).map fun p => { p with config := p.config.override s.host.env.get? }

end ReleaseMatrix.Cli
