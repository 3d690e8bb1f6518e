import ReleaseMatrix.Build.Packager
import ReleaseMatrix.Release.Plan
import ReleaseMatrix.Release.Summary

/- A release run: plan, stamp and tools are checked first; then the output directory is made, the
   sample configuration generated, and each planned variant compiled and packed in order. -/
namespace ReleaseMatrix

structure RunOptions where
  index : Option Nat := none
  dryRun : Bool := false
  checkTools : Bool := true
  deriving DecidableEq, Repr

/-- What a run reads off the clock: the time it starts, and how many milliseconds a variant at a
   position and the whole run take. -/
structure Clock where
  now : Time.LocalTime
  variantMs : Nat → Nat
  totalMs : Nat

/-- A release of the project at a root, with its tools and surroundings, to which belong the steps of
    packing a variant that fail although the tree allows them. -/
structure Release where
  config : Config
  root : Path
  options : RunOptions
  ambient : List (String × String)
  epoch : Option String
  compiler : Compiler
  generator : Generator
  faults : NormalizedVariant → FileTree → Archive.Faults := fun _ _ => Archive.noFaults

/-- What happens in a run, in order. A call of a tool comes with the trees before and after it. -/
inductive Event where
  | generated (before after : FileTree)
  | started (position total : Nat) (variant : NormalizedVariant)
  | compiled (request : CompileRequest) (before : FileTree) (run : ToolRun)
  | finished (report : Report)

structure Run where
  tree : FileTree
  events : List Event
  result : Except Failure Summary

namespace Release

def layout (r : Release) : Layout := Layout.new r.root r.config.build.outputDir

def plan? (r : Release) : Except BuildError (List PlannedVariant) :=
  plan r.config r.ambient r.options.index

def request (r : Release) (s : Stamp) (v : NormalizedVariant) : CompileRequest := ⟨v, s, r.layout⟩

def report (p : PlannedVariant) (outcome : Outcome) (ms : Nat) : Report :=
  ⟨p.index, p.variant.label, p.variant.target.archiveName, p.variant.target.binaryName, outcome, ms⟩

def prepare (r : Release) (now : Time.LocalTime) (t : FileTree) :
    Except Failure (List PlannedVariant × Stamp) :=
  match r.plan? with
  | .error e => .error (.error e)
  | .ok planned =>
    match Stamp.ofConfig r.config r.epoch now with
    | .error e => .error e
    | .ok stamp =>
      if r.options.checkTools then
        match r.compiler.check t with
        | .error e => .error (.error e)
        | .ok () =>
          match r.generator.check t with
          | .error e => .error (.error e)
          | .ok () => .ok (planned, stamp)
      else .ok (planned, stamp)

structure VariantRun where
  tree : FileTree
  events : List Event
  outcome : Outcome

def packager (r : Release) : Packager := Packager.ofConfig r.config r.layout

def packVariant (r : Release) (s : Stamp) (v : NormalizedVariant) (t : FileTree) :
    FileTree × Outcome :=
  match r.packager.package (r.faults v t) v s t with
  | (after, .ok artifact) => (after, .packaged artifact)
  | (after, .error e) => (after, .packageFailed e.message)

/-- A binary that is there before is removed first, so that a variant is packed with the binary of
   its own compilation only. -/
def buildVariant (r : Release) (s : Stamp) (v : NormalizedVariant) (t : FileTree) : VariantRun :=
  let request := r.request s v
  match t.removeIfPresent request.binary with
  | .error e => ⟨t, [], .compileFailed (BuildError.io e).message⟩
  | .ok cleared =>
    let run := r.compiler.compile request cleared
    let event := Event.compiled request cleared run
    match run.2 with
    | .error e => ⟨run.1, [event], .compileFailed e.message⟩
    | .ok _ =>
      let packed := r.packVariant s v run.1
      ⟨packed.1, [event], packed.2⟩

def buildFrom (r : Release) (s : Stamp) (clock : Clock) (total : Nat) :
    Nat → FileTree → List PlannedVariant → FileTree × List Event × List Report
  | _, t, [] => (t, [], [])
  | position, t, p :: rest =>
    let run := r.buildVariant s p.variant t
    let done := report p run.outcome (clock.variantMs position)
    let (tree, events, reports) := r.buildFrom s clock total (position + 1) run.tree rest
    (tree, .started position total p.variant :: (run.events ++ .finished done :: events),
      done :: reports)

def summary (r : Release) (s : Stamp) (clock : Clock) (reports : List Report) : Summary :=
  ⟨s.version, s.buildTime, r.layout.outputDir, reports, clock.totalMs, r.options.dryRun⟩

def plannedReport (r : Release) (s : Stamp) (p : PlannedVariant) : Report :=
  report p (.planned (r.compiler.commandLine (r.request s p.variant))) 0

/-- The whole run. Nothing is changed before all checks have passed, nor in a dry run; a variant that
   fails leaves the others to be built. -/
def run (r : Release) (clock : Clock) (t : FileTree) : Run :=
  match r.prepare clock.now t with
  | .error e => ⟨t, [], .error e⟩
  | .ok (planned, stamp) =>
    if r.options.dryRun then
      ⟨t, [], .ok (r.summary stamp clock (planned.map (r.plannedReport stamp)))⟩
    else
      match t.makeDirectories r.layout.outputDir with
      | (made, some e) => ⟨made, [], .error (.error (.outputDirectory r.layout.outputDir e))⟩
      | (made, none) =>
        let generation := r.generator.generate r.layout made
        let generated := Event.generated made generation.1
        match generation.2 with
        | .error e => ⟨generation.1, [generated], .error (.error e)⟩
        | .ok _ =>
          let (tree, events, reports) :=
            r.buildFrom stamp clock planned.length 0 generation.1 planned
          ⟨tree, generated :: events, .ok (r.summary stamp clock reports)⟩

end Release
end ReleaseMatrix
