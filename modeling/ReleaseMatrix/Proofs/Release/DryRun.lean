import ReleaseMatrix.Proofs.Release.Phases

/- A dry run beside the run that it stands for. Both pass the same checks, and part before the output
   directory is made; from there on the run does for each variant what the dry run has listed. -/
namespace ReleaseMatrix.Release

variable {t : FileTree} {planned : List PlannedVariant}

def asDry (r : Release) (dry : Bool) : Release := { r with options := { r.options with dryRun := dry } }

/-- How a run ends that has passed its checks but gets no output directory or no sample. -/
inductive Unready (layout : Layout) (generator : Generator) (t : FileTree) : Run → Prop where
  | directory (made : FileTree) (e : IoError)
      (failed : t.makeDirectories layout.outputDir = (made, some e)) :
      Unready layout generator t ⟨made, [], .error (.error (.outputDirectory layout.outputDir e))⟩
  | sample (made after : FileTree) (e : BuildError)
      (directory : t.makeDirectories layout.outputDir = (made, none))
      (failed : generator.generate layout made = (after, .error e)) :
      Unready layout generator t ⟨after, [.generated made after], .error (.error e)⟩

/-- What is logged of the work on a request that starts from `left`, with its outcome: the compiler
    gets that very request, unless the place of the binary cannot be cleared for it. -/
inductive HandedOver (compiler : Compiler) (request : CompileRequest) (left : FileTree) :
    List Event → Outcome → Prop where
  | stuck (e : IoError) (refused : left.removeIfPresent request.binary = .error e) :
      HandedOver compiler request left [] (.compileFailed (BuildError.io e).message)
  | called (cleared : FileTree) (outcome : Outcome)
      (clear : left.removeIfPresent request.binary = .ok cleared)
      (done : ∀ command, outcome ≠ .planned command) :
      HandedOver compiler request left
        [.compiled request cleared (compiler.compile request cleared)] outcome

/-- The line of a dry run about a planned variant, against what the loop with that log has made of it
    when the variants before it have left `earlier`. -/
structure Foretold (r : Release) (s : Stamp) (p : PlannedVariant)
    (earlier : FileTree × List Event × List Report) (events : List Event) (position total : Nat)
    (listed done : Report) : Prop where
  names : done.names = listed.names
  command : listed.outcome = .planned (r.compiler.commandLine (r.request s p.variant))
  not_planned : ∀ command, done.outcome ≠ .planned command
  handed : ∃ calls later, HandedOver r.compiler (r.request s p.variant) earlier.1 calls done.outcome ∧
    events = earlier.2.1 ++ .started position total p.variant :: (calls ++ .finished done :: later)

/-- A listing against the summary of the loop that starts from `ready`. -/
structure Predicted (r : Release) (s : Stamp) (clock : Clock) (planned : List PlannedVariant)
    (ready : FileTree) (events : List Event) (listing summary : Summary) : Prop where
  version : summary.version = listing.version
  buildTime : summary.buildTime = listing.buildTime
  outputDir : summary.outputDir = listing.outputDir
  names : summary.reports.map Report.names = listing.reports.map Report.names
  variants : ∀ (i : Nat) p listed done, planned[i]? = some p → listing.reports[i]? = some listed →
    summary.reports[i]? = some done →
      Foretold r s p (r.buildFrom s clock planned.length 0 ready (planned.take i)) events i
        planned.length listed done

/-- How a run ends that has passed its checks: before its loop, or with what the listing says of it. -/
inductive Followed (r : Release) (s : Stamp) (clock : Clock) (planned : List PlannedVariant)
    (t : FileTree) (listing : Summary) (wet : Run) : Prop where
  | unready (stopped : Unready r.layout r.generator t wet)
  | looped (made ready : FileTree) (sample : Path) (events : List Event) (summary : Summary)
      (directory : t.makeDirectories r.layout.outputDir = (made, none))
      (generated : r.generator.generate r.layout made = (ready, .ok sample))
      (logged : wet.events = .generated made ready :: events) (ended : wet.result = .ok summary)
      (predicted : Predicted r s clock planned ready events listing summary)

/-- What a dry run tells about the run of a release from the same tree. -/
structure Predicts (r : Release) (clock : Clock) (t : FileTree) (dry wet : Run) : Prop where
  untouched : dry.tree = t ∧ dry.events = []
  refused : ∀ e, dry.result = .error e → wet = ⟨t, [], .error e⟩
  listed : ∀ listing, dry.result = .ok listing → ∃ planned s, r.plan? = .ok planned ∧
    Stamp.ofConfig r.config r.epoch clock.now = .ok s ∧
    listing.reports = planned.map (r.plannedReport s) ∧ Followed r s clock planned t listing wet

theorem pack_not_planned (r : Release) (s : Stamp) (v : NormalizedVariant) (t : FileTree)
    (command : String) : (r.packVariant s v t).2 ≠ .planned command := by
  intro planned
  unfold packVariant at planned
  split at planned
  · cases planned
  · cases planned

theorem variant_handed (r : Release) (s : Stamp) (v : NormalizedVariant) (t : FileTree) :
    HandedOver r.compiler (r.request s v) t (r.buildVariant s v t).events
      (r.buildVariant s v t).outcome := by
  have step := variant_step r s v t
  generalize r.buildVariant s v t = built at step ⊢
  cases step with
  | stuck e fault => exact .stuck e fault
  | uncompiled cleared run e clear call fault =>
    subst call
    refine .called cleared _ clear ?_
    intro command planned
    cases planned
  | compiled cleared run path clear call done =>
    subst call
    exact .called cleared _ clear (pack_not_planned r s v _)

theorem HandedOver.not_planned {compiler : Compiler} {request : CompileRequest} {left : FileTree}
    {calls : List Event} {outcome : Outcome}
    (handed : HandedOver compiler request left calls outcome) (command : String) :
    outcome ≠ .planned command := by
  cases handed with
  | stuck e refused =>
    intro planned
    cases planned
  | called cleared outcome clear done => exact done command

theorem loop_foretold (r : Release) (s : Stamp) (clock : Clock) (t : FileTree) {i : Nat}
    {p : PlannedVariant} {done : Report} (here : planned[i]? = some p)
    (reported : (r.buildFrom s clock planned.length 0 t planned).2.2[i]? = some done) :
    Foretold r s p (r.buildFrom s clock planned.length 0 t (planned.take i))
      (r.buildFrom s clock planned.length 0 t planned).2.1 i planned.length (r.plannedReport s p)
      done := by
  obtain ⟨⟨later, events⟩, at_place, _⟩ := loop_at r s clock planned.length 0 t here
  -- The loop starts at zero, so a variant has the same position in it as in the listing.
  rw [Nat.zero_add] at events at_place
  rw [at_place] at reported
  obtain rfl := Option.some.inj reported
  have handed := variant_handed r s p.variant
    (r.buildFrom s clock planned.length 0 t (planned.take i)).1
  exact ⟨rfl, rfl, handed.not_planned, _, later, handed, events⟩

def listing (r : Release) (s : Stamp) (clock : Clock) (planned : List PlannedVariant) : Summary :=
  (r.asDry true).summary s clock (planned.map (r.plannedReport s))

theorem loop_predicted (r : Release) (s : Stamp) (before clock : Clock) (t : FileTree)
    (planned : List PlannedVariant) :
    let built := r.buildFrom s clock planned.length 0 t planned
    Predicted r s clock planned t built.2.1 (r.listing s before planned)
      (r.summary s clock built.2.2) where
  version := rfl
  buildTime := rfl
  outputDir := rfl
  names := by
    simp only [summary, listing, List.map_map]
    exact loop_reports r s clock planned.length 0 t planned
  variants := by
    intro i p listed done here line reported
    simp only [summary, listing, List.getElem?_map, here, Option.map_some, Option.some.injEq] at line
    obtain rfl := line
    exact loop_foretold r s clock t here reported

theorem prepared_followed (r : Release) (before clock : Clock) {s : Stamp}
    (ready : r.prepare clock.now t = .ok (planned, s)) (wet : r.options.dryRun = false) :
    Followed r s clock planned t (r.listing s before planned) (r.run clock t) := by
  rcases directory : t.makeDirectories r.layout.outputDir with ⟨made, _ | e⟩
  · rcases generation : r.generator.generate r.layout made with ⟨after, e | sample⟩
    · rw [run_without_sample ready wet directory generation]
      exact .unready (.sample made after e directory generation)
    · rw [run_with_sample ready wet directory generation]
      exact .looped made after sample _ _ directory generation rfl rfl
        (loop_predicted r s before clock after planned)
  · rw [run_without_directory ready wet directory]
    exact .unready (.directory made e directory)

theorem dry_run_predicts (r : Release) (clock : Clock) (variantMs : Nat → Nat) (totalMs : Nat)
    (t : FileTree) :
    Predicts (r.asDry false) ⟨clock.now, variantMs, totalMs⟩ t ((r.asDry true).run clock t)
      ((r.asDry false).run ⟨clock.now, variantMs, totalMs⟩ t) := by
  -- The checks do not ask whether the run is dry, so both runs come past them or neither does.
  cases ready : r.prepare clock.now t with
  | error e =>
    have dry : (r.asDry true).run clock t = ⟨t, [], .error e⟩ := run_unprepared ready
    have wet : (r.asDry false).run ⟨clock.now, variantMs, totalMs⟩ t = ⟨t, [], .error e⟩ :=
      run_unprepared ready
    rw [dry, wet]
    refine ⟨⟨rfl, rfl⟩, ?_, ?_⟩
    · rintro _ ⟨⟩
      rfl
    · rintro listing ⟨⟩
  | ok checked =>
    obtain ⟨planned, s⟩ := checked
    have dry := run_listed (r := r.asDry true) ready rfl
    have followed := prepared_followed (r.asDry false) clock ⟨clock.now, variantMs, totalMs⟩ ready rfl
    rw [dry]
    refine ⟨⟨rfl, rfl⟩, ?_, ?_⟩
    · rintro e ⟨⟩
    · rintro _ ⟨⟩
      obtain ⟨plan, stamped, _⟩ := prepare_ok_iff.mp ready
      exact ⟨planned, s, plan, stamped, rfl, followed⟩

end ReleaseMatrix.Release
