import ReleaseMatrix.Config.Template
import ReleaseMatrix.Path
import ReleaseMatrix.Release.Output

/- What can be asked for on the command line. -/
namespace ReleaseMatrix.Cli

def programName : String := "gantry"
def programVersion : String := "0.1.0"

inductive CommandName where
  | build
  | list
  | init
  | validate
  | completions
  deriving DecidableEq, Repr

def CommandName.text : CommandName → String
  | build => "build"
  | list => "list"
  | init => "init"
  | validate => "validate"
  | completions => "completions"

def commandNames : List CommandName := [.build, .list, .init, .validate, .completions]

def CommandName.ofText? (s : String) : Option CommandName := commandNames.find? fun c => c.text == s

inductive ShellName where
  | bash
  | elvish
  | fish
  | powershell
  | zsh
  deriving DecidableEq, Repr

def ShellName.text : ShellName → String
  | bash => "bash"
  | elvish => "elvish"
  | fish => "fish"
  | powershell => "powershell"
  | zsh => "zsh"

def shellNames : List ShellName := [.bash, .elvish, .fish, .powershell, .zsh]

def ShellName.ofText? (s : String) : Option ShellName := shellNames.find? fun n => n.text == s

structure GlobalOptions where
  verbose : Bool := false
  quiet : Bool := false
  format : OutputFormat := .text
  directory : Option Path := none
  config : Option Path := none
  deriving DecidableEq, Repr

def GlobalOptions.showText (g : GlobalOptions) : Bool := g.format == .text && !g.quiet

structure BuildOptions where
  index : Option Nat := none
  version : Option String := none
  output : Option Path := none
  dryRun : Bool := false
  strict : Bool := false
  skipChecks : Bool := false
  deriving DecidableEq, Repr

structure InitOptions where
  force : Bool := false
  format : ConfigFormat := .toml
  output : Option Path := none
  deriving DecidableEq, Repr

inductive Command where
  | build (options : BuildOptions)
  | list
  | init (options : InitOptions)
  | validate (strict : Bool)
  | completions (shell : Option ShellName) (output : Option Path)
  deriving DecidableEq, Repr

inductive Request where
  | run (globals : GlobalOptions) (command : Command)
  | showHelp
  | showVersion (command : Option CommandName)
  | usageFault
  deriving DecidableEq, Repr

end ReleaseMatrix.Cli
