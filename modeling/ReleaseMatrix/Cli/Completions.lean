import ReleaseMatrix.Cli.Project

/- Completion scripts for shells: they offer the names of the commands. -/
namespace ReleaseMatrix.Cli

def offered : String := Text.joinWith " " (commandNames.map CommandName.text ++ ["help"])

def script : ShellName → String
  | .bash => "complete -W \"" ++ offered ++ "\" " ++ programName ++ "\n"
  | .zsh => "#compdef " ++ programName ++ "\n_arguments '1: :(" ++ offered ++ ")'\n"
  | .fish => "complete -c " ++ programName ++ " -f -a \"" ++ offered ++ "\"\n"
  | .powershell =>
    "Register-ArgumentCompleter -Native -CommandName '" ++ programName ++
      "' -ScriptBlock \x7b '" ++ offered ++ "' -split ' ' \x7d\n"
  | .elvish =>
    "set edit:completion:arg-completer[" ++ programName ++ "] = \x7b|@words| all [" ++ offered ++
      "] \x7d\n"

def scriptFileName : ShellName → String
  | .bash => programName ++ ".bash"
  | .zsh => "_" ++ programName
  | .fish => programName ++ ".fish"
  | .powershell => "_" ++ programName ++ ".ps1"
  | .elvish => programName ++ ".elv"

def shellVariable : String := "SHELL"

def shellOfPath? (p : Path) : Option ShellName :=
  p.fileStem.bind fun stem =>
    if stem = "powershell_ise" then some .powershell else ShellName.ofText? stem

def detectShell? (env : Environment) : Option ShellName :=
  (env.get? shellVariable).bind fun path => shellOfPath? ⟨path⟩

def undetected : Fault := .plain "Cannot detect the shell from $SHELL; pass one explicitly"

def scriptFile (s : Session) (t : FileTree) (shell : ShellName) (target : Path) : Path :=
  if t.isDirectory (s.host.directory.join target) then target.join ⟨scriptFileName shell⟩
  else target

def completions (s : Session) (g : GlobalOptions) (shell : Option ShellName) (output : Option Path)
    (t : FileTree) : Reply :=
  match shell.orElse fun _ => detectShell? s.host.env with
  | none => .failed t undetected
  | some shell =>
    match output with
    | none => ⟨t, script shell, .success⟩
    | some target =>
      let file := scriptFile s t shell target
      match t.write (s.host.directory.join file) (Utf8.encode (script shell)) with
      | .error e => .failed t (.ofIo e)
      | .ok written =>
        let told := successLine (shell.text ++ " completions written to " ++ file.text)
        ⟨written, if g.quiet then "" else told, .success⟩

end ReleaseMatrix.Cli
