import ReleaseMatrix.Build.Command
import ReleaseMatrix.Build.Tools
import ReleaseMatrix.Config.Basic
import ReleaseMatrix.FileTree.Change

/- A generator that runs a command in the output directory. -/
namespace ReleaseMatrix

structure CommandGenerator where
  program : String
  argTemplates : List String
  output : String
  source : Path
  deriving DecidableEq, Repr

namespace CommandGenerator

def ofConfig (c : Config) : CommandGenerator :=
  ⟨c.generator.program, c.generator.args, c.generator.output, c.project.source⟩

/-- The arguments with the project source, as seen from the output directory, filled in. -/
def args (g : CommandGenerator) (l : Layout) : List String :=
  g.argTemplates.map fun arg => Text.replace arg sourcePlaceholder (l.fromOutputDir g.source).text

def commandLine (g : CommandGenerator) (l : Layout) : String :=
  CommandLine.render g.program (g.args l)

def installHint : String := "Install it or change config_gen.program"

def check (g : CommandGenerator) (h : Host) (t : FileTree) : Except BuildError Unit :=
  checkInstalled h g.program installHint t

def invocation (g : CommandGenerator) (l : Layout) : Invocation :=
  ⟨g.program, g.args l, [], l.outputDir⟩

def target (g : CommandGenerator) (l : Layout) : Path := l.outputFile ⟨g.output⟩

def staleFault (target : Path) (e : IoError) : BuildError :=
  .generationCaused ("cannot remove stale " ++ target.text) (.io e)

/-- What an earlier run left is removed first, so that it cannot pass for the output of this one. -/
def generate (g : CommandGenerator) (h : Host) (l : Layout) (t : FileTree) : ToolRun :=
  let line := g.commandLine l
  match t.removeIfPresent (g.target l) with
  | .error e => (t, .error (staleFault (g.target l) e))
  | .ok cleared =>
    match runCommand h (g.invocation l) line cleared with
    | (after, .error e) => (after, .error (.generationCaused ("`" ++ line ++ "` failed") e))
    | (after, .ok ()) =>
      if after.isFile (g.target l) then (after, .ok (g.target l))
      else
        let fault := "`" ++ line ++ "` did not produce " ++ (g.target l).text
        (after, .error (.generation fault))

def toGenerator (g : CommandGenerator) (h : Host) : Generator := ⟨g.check h, g.generate h⟩

end CommandGenerator
end ReleaseMatrix
