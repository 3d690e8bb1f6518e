import ReleaseMatrix.Proofs.Release.Outputs

/- Tools that follow a script, as the tools of a run in a test do: they change their own output only, so
   what is asked of tools elsewhere can be had. -/
namespace ReleaseMatrix

open FileTree

def writeScripted (script : Except BuildError Bytes) (t : FileTree) (target : Path) : ToolRun :=
  match script with
  | .error e => (t, .error e)
  | .ok content =>
    match t.write target content with
    | .error e => (t, .error (.io e))
    | .ok written => (written, .ok target)

def scriptedCompiler (script : CompileRequest → Except BuildError Bytes) : Compiler where
  check _ := .ok ()
  commandLine r := r.binary.text
  compile r t := writeScripted (script r) t r.binary

def scriptedGenerator (script : Except BuildError Bytes) (output : String) : Generator where
  check _ := .ok ()
  generate l t := writeScripted script t (l.outputFile ⟨output⟩)

/-- A release of three variants for one name of the binary; the second does not compile. -/
def smallRelease : Release where
  config := { variants := builtinVariants.take 3 }
  root := ⟨"/"⟩
  options := {}
  ambient := []
  epoch := some "0"
  compiler := scriptedCompiler fun request =>
    if request.variant.target.arch = some "arm64" then .error (.io .notFound)
    else .ok (Utf8.encode request.variant.label)
  generator := scriptedGenerator (.ok [7]) "config.yaml"

def smallTree : FileTree :=
  let project := ((∅ : FileTree).put ["README.md"] (.file [1] false)).put ["LICENSE"] (.file [2] false)
  (project.put ["release"] .directory).put ["mosdns", "release"] (.file [9] true)

def generatedTree : FileTree := smallTree.put ["config.yaml", "release"] (.file [7] false)

def stillClock : Clock := ⟨.utc ⟨0, 0⟩, fun _ => 0, 0⟩

end ReleaseMatrix
