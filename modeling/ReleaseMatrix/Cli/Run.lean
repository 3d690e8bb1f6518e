import ReleaseMatrix.Cli.Arguments
import ReleaseMatrix.Cli.Build
import ReleaseMatrix.Cli.Completions
import ReleaseMatrix.Cli.Init
import ReleaseMatrix.Cli.Validate

/- One call of the program. -/
namespace ReleaseMatrix.Cli

structure Result where
  tree : FileTree
  stdout : String
  stderr : String
  exit : Nat

def usageLine : String := "Usage: " ++ programName ++ " [OPTIONS] <COMMAND>\n"

def helpText : String :=
  "Build a Go release matrix into versioned archives\n\n" ++ usageLine ++ "\nCommands:\n" ++
    String.join (commandNames.map fun c => "  " ++ c.text ++ "\n")

def usageCode : Nat := 2

def versionLine (command : Option CommandName) : String :=
  programName ++ (match command with
    | some c => "-" ++ c.text
    | none => "") ++ " " ++ programVersion ++ "\n"

def Command.run (s : Session) (g : GlobalOptions) (t : FileTree) : Command → Reply
  | .build o => Cli.build s g o t
  | .list => Cli.list s g t
  | .init o => Cli.init s g o t
  | .validate strict => Cli.validate s g strict t
  | .completions shell output => Cli.completions s g shell output t

def Reply.result (r : Reply) : Result := ⟨r.tree, r.stdout, r.ending.stderr, r.ending.code⟩

def run (s : Session) (args : List String) (t : FileTree) : Result :=
  match Request.ofArguments args with
  | .run g command => (command.run s g t).result
  | .showHelp => ⟨t, helpText, "", 0⟩
  | .showVersion command => ⟨t, versionLine command, "", 0⟩
  | .usageFault => ⟨t, "", usageLine, usageCode⟩

end ReleaseMatrix.Cli
