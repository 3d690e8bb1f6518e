import ReleaseMatrix.Build.Command
import ReleaseMatrix.Build.Tools
import ReleaseMatrix.Config.Basic

/- The Go compiler: one call a variant, in the output directory, with the environment of the
   variant over that of the caller. -/
namespace ReleaseMatrix

structure GoCompiler where
  program : String
  source : Path
  pgoProfile : Option Path
  trimpath : Bool
  strip : Bool
  versionSymbol : String
  buildTimeSymbol : String
  deriving DecidableEq, Repr

namespace GoCompiler

def id : String := "go"

def ofConfig (c : Config) : GoCompiler :=
  ⟨c.build.compiler, c.project.source, c.build.pgoProfile, c.build.trimpath, c.build.strip,
    c.build.versionSymbol, c.build.buildTimeSymbol⟩

def ldflags (g : GoCompiler) (s : Stamp) : String :=
  Text.joinWith " "
    ((if g.strip then ["-s -w"] else []) ++
      ["-buildid=", "-X " ++ g.versionSymbol ++ "=" ++ s.version,
        "-X " ++ g.buildTimeSymbol ++ "=" ++ s.buildTime])

def args (g : GoCompiler) (r : CompileRequest) : List String :=
  let target := r.variant.target
  let profile := g.pgoProfile.map fun p => "-pgo=" ++ (r.layout.fromOutputDir p).text
  ["build"] ++ target.buildMode.toList ++ profile.toList ++
    (if g.trimpath then ["-trimpath"] else []) ++
    ["-ldflags", g.ldflags r.stamp, "-o", target.binaryName, (r.layout.fromOutputDir g.source).text]

def commandLine (g : GoCompiler) (r : CompileRequest) : String :=
  CommandLine.render g.program (g.args r)

def installHint : String := "Install Go from https://go.dev/dl/ or point build.compiler at it"

def check (g : GoCompiler) (h : Host) (t : FileTree) : Except BuildError Unit :=
  checkInstalled h g.program installHint t

def invocation (g : GoCompiler) (r : CompileRequest) : Invocation :=
  ⟨g.program, g.args r, r.variant.env.toList, r.layout.outputDir⟩

/-- The binary has to be there when the command has succeeded. -/
def compile (g : GoCompiler) (h : Host) (r : CompileRequest) (t : FileTree) : ToolRun :=
  match runCommand h (g.invocation r) (g.commandLine r) t with
  | (after, .error e) => (after, .error e)
  | (after, .ok ()) =>
    if after.isFile r.binary then (after, .ok r.binary)
    else (after, .error (.artifactNotFound r.binary))

def toCompiler (g : GoCompiler) (h : Host) : Compiler := ⟨g.check h, g.commandLine, g.compile h⟩

end GoCompiler
end ReleaseMatrix
