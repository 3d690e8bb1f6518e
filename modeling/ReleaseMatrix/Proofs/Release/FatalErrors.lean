import ReleaseMatrix.Proofs.Build.Commands
import ReleaseMatrix.Proofs.Release.Errors
import ReleaseMatrix.Proofs.Release.Planning
import ReleaseMatrix.Proofs.Release.Scripted

/- Which errors end a run whose tools are commands. Every error that ends a run is fatal, and so is one
   error that does not: that the program of the compiler is missing when it is to be started, which the
   report of the variant takes like any other failure. -/
namespace ReleaseMatrix.Release

variable {r : Release} {g : GoCompiler} {c : CommandGenerator} {h : Host} {clock : Clock}
variable {t left : FileTree} {s : Stamp} {v : NormalizedVariant} {e : BuildError} {outcome : Outcome}

def withCommands (r : Release) (g : GoCompiler) (c : CommandGenerator) (h : Host) : Release :=
  { r with compiler := g.toCompiler h, generator := c.toGenerator h }

/-- The place of the binary can be cleared, and then the program of the compiler is not found. -/
def Unstarted (r : Release) (g : GoCompiler) (h : Host) (s : Stamp) (v : NormalizedVariant)
    (left : FileTree) : Prop :=
  ∃ cleared, left.removeIfPresent (r.request s v).binary = .ok cleared ∧
    (h.spawn (g.invocation (r.request s v)) cleared).2 = .error .notFound

/-- How far the fatal errors are the ones that end a run. -/
structure FatalErrors (r : Release) (g : GoCompiler) (h : Host) (clock : Clock) (t : FileTree) :
    Prop where
  /-- Every error that ends the run is fatal. -/
  ends : ∀ e, (r.run clock t).result = .error (.error e) → e.isFatal = true
  /-- Every report of a failure has an error behind it. -/
  behind : ∀ summary report, (r.run clock t).result = .ok summary → report ∈ summary.reports →
    report.outcome.isFailure = true → ∃ s p left e, r.Reported clock t s p left report ∧
      r.Recorded s p.variant left e report.outcome
  /-- That error is fatal only where the program of the compiler could not be started, and there it
      is. -/
  recorded : ∀ s p left report e, r.Reported clock t s p left report →
    r.Recorded s p.variant left e report.outcome →
      (e.isFatal = true ↔ r.Unstarted g h s p.variant left)
  /-- No report of packing has a fatal error behind it. -/
  packed : ∀ s p left report e message, r.Reported clock t s p left report →
    r.Recorded s p.variant left e report.outcome → report.outcome = .packageFailed message →
      e.isFatal = false

theorem plan_fatal {config : Config} {ambient : List (String × String)} {index : Option Nat}
    (fault : plan config ambient index = .error e) : e.isFatal = true := by
  cases plan_error_iff.mp fault <;> rfl

theorem ends_fatal (ended : (r.withCommands g c h).EndsWith clock t e) : e.isFatal = true := by
  cases ended with
  | refused e refused =>
    cases refused with
    | plan e fault => exact plan_fatal fault
    | stamp planned detail plan fault => rfl
    | compilerCheck planned stamp e plan stamped asked fault =>
      obtain ⟨rfl, _⟩ := check_error fault
      rfl
    | generatorCheck planned stamp e plan stamped asked passed fault =>
      obtain ⟨rfl, _⟩ := check_error fault
      rfl
  | directory planned stamp made cause ready wet fault => rfl
  | generation planned stamp made after e ready wet directory fault =>
    rcases CommandGenerator.generate_error (congrArg Prod.snd fault) with ⟨_, rfl⟩ | ⟨_, _, rfl⟩ <;> rfl

theorem recorded_fatal_iff (usual : ∀ v t, (r.faults v t).Usual)
    (recorded : (r.withCommands g c h).Recorded s v left e outcome) :
    e.isFatal = true ↔ (r.withCommands g c h).Unstarted g h s v left := by
  cases recorded with
  | clearing cause fault =>
    constructor
    · intro fatal
      cases fatal
    · rintro ⟨cleared, clear, _⟩
      cases fault.symm.trans clear
  | compiling cleared e clear fault =>
    rw [GoCompiler.compile_fatal_iff fault]
    constructor
    · intro missing
      exact ⟨cleared, clear, missing⟩
    · rintro ⟨other, clear', missing⟩
      cases clear.symm.trans clear'
      exact missing
  | packing cleared compiled binary e clear call fault =>
    have safe := (Packager.package_packing (usual v compiled) fault).not_fatal
    constructor
    · intro fatal
      rw [safe] at fatal
      cases fatal
    · rintro ⟨other, clear', missing⟩
      cases clear.symm.trans clear'
      -- The compiler has reported success, so its program was started.
      cases (congrArg Prod.snd call).symm.trans (GoCompiler.compile_missing missing)

theorem unstarted_recorded (unstarted : (r.withCommands g c h).Unstarted g h s v left) :
    ∃ e, (r.withCommands g c h).Recorded s v left e
      ((r.withCommands g c h).buildVariant s v left).outcome := by
  obtain ⟨cleared, clear, missing⟩ := unstarted
  have failed : ((r.withCommands g c h).compiler.compile ((r.withCommands g c h).request s v)
      cleared).2 = _ := GoCompiler.compile_missing missing
  simp only [buildVariant, clear, failed]
  exact ⟨_, .compiling cleared _ clear failed⟩

theorem run_failure_recorded {summary : Summary} {report : Report}
    (ended : (r.run clock t).result = .ok summary) (wet : r.options.dryRun = false)
    (mem : report ∈ summary.reports) (failed : report.outcome.isFailure = true) :
    ∃ s p left e, r.Reported clock t s p left report ∧ r.Recorded s p.variant left e report.outcome := by
  obtain ⟨s, p, left, reported⟩ := run_reported ended wet mem
  obtain ⟨planned, made, after, sample, i, _, _, _, _, _, _, rfl⟩ := id reported
  obtain ⟨e, recorded⟩ := failure_recorded failed
  exact ⟨s, p, left, e, reported, recorded⟩

theorem fatal_errors (r : Release) (g : GoCompiler) (c : CommandGenerator) (h : Host) (clock : Clock)
    (t : FileTree) (usual : ∀ v t, (r.faults v t).Usual) :
    FatalErrors (r.withCommands g c h) g h clock t where
  ends e failed := ends_fatal (run_error_iff.mp failed)
  behind := by
    intro summary report ended mem failed
    cases wet : (r.withCommands g c h).options.dryRun with
    | false => exact run_failure_recorded ended wet mem failed
    | true =>
      cases ready : (r.withCommands g c h).prepare clock.now t with
      | error e =>
        rw [run_unprepared ready] at ended
        cases ended
      | ok checked =>
        rw [run_listed ready wet] at ended
        cases ended
        obtain ⟨p, _, rfl⟩ := List.mem_map.mp mem
        cases failed
  recorded s p left report e _ recorded := recorded_fatal_iff usual recorded
  packed := by
    intro s p left report e message _ recorded packing
    rw [packing] at recorded
    cases recorded with
    | packing cleared compiled binary e clear call fault =>
      exact (Packager.package_packing (usual p.variant compiled) fault).not_fatal

def sampleHost : Host where
  env := ∅
  directory := ⟨"/"⟩
  execute p t :=
    match t.write (p.directory.join ⟨"config.yaml"⟩) [7] with
    | .ok written => (written, .ok ⟨.code 0, [], []⟩)
    | .error e => (t, .error e)

def unchecked : Release := { smallRelease with options := { checkTools := false } }

def missingGo : GoCompiler := { GoCompiler.ofConfig smallRelease.config with program := "/go" }

def ownGenerator : CommandGenerator :=
  { CommandGenerator.ofConfig smallRelease.config with program := "/gen" }

def generatorTree : FileTree := smallTree.put ["gen"] (.file [] true)

theorem small_unstarted : ∃ s p left report e,
    (unchecked.withCommands missingGo ownGenerator sampleHost).Reported stillClock generatorTree s p
      left report ∧
    (unchecked.withCommands missingGo ownGenerator sampleHost).Recorded s p.variant left e
      report.outcome ∧
    (unchecked.withCommands missingGo ownGenerator sampleHost).Unstarted missingGo sampleHost s
      p.variant left := by
  have checked : (((unchecked.withCommands missingGo ownGenerator sampleHost).prepare stillClock.now
      generatorTree).toOption.any fun ready => ready.1[0]?.any fun p =>
        let made := generatorTree.makeDirectories unchecked.layout.outputDir
        let generated := ownGenerator.generate sampleHost unchecked.layout made.1
        let request := unchecked.request ready.2 p.variant
        made.2.isNone && generated.2.toOption.any fun _ =>
          (generated.1.removeIfPresent request.binary).toOption.any fun cleared =>
            (sampleHost.spawn (missingGo.invocation request) cleared).2 == .error .notFound) = true := by
    decide +kernel
  obtain ⟨⟨planned, s⟩, ready, checked⟩ := Result.ok_of_any checked
  obtain ⟨p, here, checked⟩ := (Option.any_eq_true _ _).mp checked
  rw [Bool.and_eq_true] at checked
  obtain ⟨there, worked⟩ := checked
  obtain ⟨sample, generation, worked⟩ := Result.ok_of_any worked
  obtain ⟨cleared, clear, missing⟩ := Result.ok_of_any worked
  have directory := Option.isNone_iff_eq_none.mp there
  have unstarted : (unchecked.withCommands missingGo ownGenerator sampleHost).Unstarted missingGo
      sampleHost s p.variant _ := ⟨cleared, clear, beq_iff_eq.mp missing⟩
  obtain ⟨e, recorded⟩ := unstarted_recorded unstarted
  exact ⟨s, p, _, _, e, ⟨planned, _, _, sample, 0, ready, rfl, Prod.ext rfl directory,
    Prod.ext rfl generation, here, rfl, rfl⟩, recorded, unstarted⟩

/-- A report of a release without its compiler, and the fatal error behind it. -/
theorem missing_compiler_reported : ∃ s p left report e,
    (∀ v t, (unchecked.faults v t).Usual) ∧
    (unchecked.withCommands missingGo ownGenerator sampleHost).Reported stillClock generatorTree s p
      left report ∧
    (unchecked.withCommands missingGo ownGenerator sampleHost).Recorded s p.variant left e
      report.outcome ∧ e.isFatal = true := by
  obtain ⟨s, p, left, report, e, reported, recorded, unstarted⟩ := small_unstarted
  have usual : ∀ v t, (unchecked.faults v t).Usual := fun v t => Archive.none_usual
  have errors := fatal_errors unchecked missingGo ownGenerator sampleHost stillClock generatorTree usual
  have fatal := (errors.recorded s p left report e reported recorded).mpr unstarted
  exact ⟨s, p, left, report, e, usual, reported, recorded, fatal⟩

/-- The error behind a report can be one that counts as the end of a run. -/
theorem fatal_not_always_ending : ¬ ∀ (r : Release) (g : GoCompiler) (c : CommandGenerator) (h : Host)
    (clock : Clock) (t : FileTree), (∀ v t, (r.faults v t).Usual) → ∀ s p left report e,
      (r.withCommands g c h).Reported clock t s p left report →
        (r.withCommands g c h).Recorded s p.variant left e report.outcome → e.isFatal = false := by
  intro always
  obtain ⟨s, p, left, report, e, reported, recorded, unstarted⟩ := small_unstarted
  have usual : ∀ v t, (unchecked.faults v t).Usual := fun v t => Archive.none_usual
  have harmless := always _ _ _ _ _ _ usual s p left report e reported recorded
  rw [(recorded_fatal_iff usual recorded).mpr unstarted] at harmless
  cases harmless

end ReleaseMatrix.Release
