import ReleaseMatrix.Build.CommandGenerator
import ReleaseMatrix.Build.Go
import ReleaseMatrix.Cli.Project

/- Building the release matrix. -/
namespace ReleaseMatrix.Cli

def BuildOptions.apply (o : BuildOptions) (p : Project) : Project :=
  { p with config := { p.config with
      project := { p.config.project with version := o.version.getD p.config.project.version }
      build := { p.config.build with outputDir := o.output.getD p.config.build.outputDir } } }

def BuildOptions.runOptions (o : BuildOptions) : RunOptions := ⟨o.index, o.dryRun, !o.skipChecks⟩

def release (s : Session) (o : BuildOptions) (p : Project) : Release :=
  { config := p.config
    root := p.root
    options := o.runOptions
    ambient := s.host.env.toList
    epoch := s.host.env.get? epochVariable
    compiler := (GoCompiler.ofConfig p.config).toCompiler s.host
    generator := (CommandGenerator.ofConfig p.config).toGenerator s.host }

def announcement (p : Project) : String :=
  "→ Building " ++ p.config.project.name ++ " " ++ p.config.project.version ++ " into " ++
    (p.root.join p.config.build.outputDir).text ++ "\n"

def failedVariants (s : Summary) : String :=
  Decimal.ofNat s.failedCount ++ " of " ++ Output.variants s.reports.length ++ " failed"

def buildEnding (o : BuildOptions) (s : Summary) : Ending :=
  if !s.isSuccess && o.strict then .fault ⟨[failedVariants s], variantsFailedCode⟩ else .success

def buildReport (g : GlobalOptions) (o : BuildOptions) (s : Summary) : String :=
  let result := if g.format == .json || !g.quiet
    then "\n" ++ (Output.ofSummary s).render g.format else ""
  let hint := if !s.isSuccess && !o.strict && g.showText
    then "! " ++ failedVariants s ++ " (use --strict to fail the run)\n" else ""
  result ++ hint

def Ending.ofFailure : Failure → Ending
  | .error e => .fault (.ofBuild e)
  | .unprintableTime => .unprintable

def build (s : Session) (g : GlobalOptions) (o : BuildOptions) (t : FileTree) : Reply :=
  match loadProject s g t with
  | .error e => .failed t (.ofProject e)
  | .ok loaded =>
    let p := o.apply loaded
    let opening := if g.showText then announcement p else ""
    let run := (release s o p).run s.clock t
    match run.result with
    | .error e => ⟨run.tree, opening, .ofFailure e⟩
    | .ok summary => ⟨run.tree, opening ++ buildReport g o summary, buildEnding o summary⟩

end ReleaseMatrix.Cli
