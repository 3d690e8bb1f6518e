import ReleaseMatrix.Cli.Project

/- Writing a configuration file with all defaults. -/
namespace ReleaseMatrix.Cli

def InitOptions.file (o : InitOptions) (dir : Path) : Path :=
  dir.join (o.output.getD ⟨o.format.fileName⟩)

def nextSteps (file : Path) : String :=
  "\nNext steps:\n  1. Edit " ++ file.text ++ " to set your project and release matrix\n" ++
    "  2. Run gantry validate to check every variant\n" ++
    "  3. Run gantry build to build the archives\n"

def init (s : Session) (g : GlobalOptions) (o : InitOptions) (t : FileTree) : Reply :=
  let file := o.file (workingDirectory s g)
  if t.exists? file && !o.force then
    .failed t (.plain ("Configuration file already exists at " ++ file.text ++
      ". Use --force to overwrite."))
  else
    match t.write file (Utf8.encode o.format.template) with
    | .error e => .failed t (.ofIo e)
    | .ok written =>
      let told := successLine ("Created configuration at " ++ file.text) ++ nextSteps file
      ⟨written, if g.quiet then "" else told, .success⟩

end ReleaseMatrix.Cli
