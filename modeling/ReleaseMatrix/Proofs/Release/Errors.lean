import ReleaseMatrix.Proofs.Release.Steps

/- The errors of a run: those that it ends with, each with the phase that it comes from, and those that
   are behind the reports of variants that failed, of which a report keeps no more than the message. -/
namespace ReleaseMatrix.Release

variable {r : Release} {clock : Clock} {now : Time.LocalTime} {t left : FileTree} {s stamp : Stamp}
variable {planned : List PlannedVariant} {v : NormalizedVariant} {e : BuildError} {summary : Summary}
variable {report : Report} {outcome : Outcome}

inductive Refused (r : Release) (now : Time.LocalTime) (t : FileTree) : BuildError → Prop where
  | plan (e : BuildError) (fault : r.plan? = .error e) : Refused r now t e
  | stamp (planned : List PlannedVariant) (detail : String) (plan : r.plan? = .ok planned)
      (fault : Stamp.ofConfig r.config r.epoch now = .error (.error (.timestamp detail))) :
      Refused r now t (.timestamp detail)
  | compilerCheck (planned : List PlannedVariant) (stamp : Stamp) (e : BuildError)
      (plan : r.plan? = .ok planned) (stamped : Stamp.ofConfig r.config r.epoch now = .ok stamp)
      (asked : r.options.checkTools = true) (fault : r.compiler.check t = .error e) :
      Refused r now t e
  | generatorCheck (planned : List PlannedVariant) (stamp : Stamp) (e : BuildError)
      (plan : r.plan? = .ok planned) (stamped : Stamp.ofConfig r.config r.epoch now = .ok stamp)
      (asked : r.options.checkTools = true) (passed : r.compiler.check t = .ok ())
      (fault : r.generator.check t = .error e) : Refused r now t e

inductive EndsWith (r : Release) (clock : Clock) (t : FileTree) : BuildError → Prop where
  | refused (e : BuildError) (refused : r.Refused clock.now t e) : EndsWith r clock t e
  | directory (planned : List PlannedVariant) (stamp : Stamp) (made : FileTree) (cause : IoError)
      (ready : r.prepare clock.now t = .ok (planned, stamp)) (wet : r.options.dryRun = false)
      (fault : t.makeDirectories r.layout.outputDir = (made, some cause)) :
      EndsWith r clock t (.outputDirectory r.layout.outputDir cause)
  | generation (planned : List PlannedVariant) (stamp : Stamp) (made after : FileTree)
      (e : BuildError) (ready : r.prepare clock.now t = .ok (planned, stamp))
      (wet : r.options.dryRun = false)
      (directory : t.makeDirectories r.layout.outputDir = (made, none))
      (fault : r.generator.generate r.layout made = (after, .error e)) : EndsWith r clock t e

theorem timeText_error {format : String} {epoch : Option String}
    (failed : Stamp.timeText format epoch now = .error (.error e)) : ∃ detail, e = .timestamp detail := by
  have told : ∀ detail, Stamp.fault detail = .error (.error e) → ∃ detail, e = .timestamp detail := by
    rintro detail ⟨⟩
    exact ⟨detail, rfl⟩
  have written : ∀ items zone moment, Stamp.write items zone moment ≠ .error (.error e) := by
    intro items zone moment failed
    unfold Stamp.write at failed
    split at failed <;> cases failed
  unfold Stamp.timeText at failed
  split at failed
  · exact told _ failed
  · split at failed
    · exact absurd failed (written _ _ _)
    · split at failed
      · exact told _ failed
      · split at failed
        · exact told _ failed
        · exact absurd failed (written _ _ _)

theorem stamp_error {c : Config} {epoch : Option String}
    (failed : Stamp.ofConfig c epoch now = .error (.error e)) : ∃ detail, e = .timestamp detail := by
  unfold Stamp.ofConfig at failed
  split at failed
  · rename_i time
    rw [Except.error.inj failed] at time
    exact timeText_error time
  · cases failed

theorem prepare_error_iff : r.prepare now t = .error (.error e) ↔ r.Refused now t e := by
  constructor
  · intro failed
    unfold prepare at failed
    split at failed
    · rename_i fault
      cases failed
      exact .plan _ fault
    · rename_i planned plan
      split at failed
      · rename_i fault
        cases failed
        obtain ⟨detail, rfl⟩ := stamp_error fault
        exact .stamp planned detail plan fault
      · rename_i stamp stamped
        split at failed
        · rename_i asked
          split at failed
          · rename_i fault
            cases failed
            exact .compilerCheck planned stamp _ plan stamped asked fault
          · rename_i passed
            split at failed
            · rename_i fault
              cases failed
              exact .generatorCheck planned stamp _ plan stamped asked passed fault
            · cases failed
        · cases failed
  · intro refused
    cases refused with
    | plan e fault => simp only [prepare, fault]
    | stamp planned detail plan fault => simp only [prepare, plan, fault]
    | compilerCheck planned stamp e plan stamped asked fault =>
      simp only [prepare, plan, stamped, asked, fault, if_true]
    | generatorCheck planned stamp e plan stamped asked passed fault =>
      simp only [prepare, plan, stamped, asked, passed, fault, if_true]

theorem run_error_iff : (r.run clock t).result = .error (.error e) ↔ r.EndsWith clock t e := by
  constructor
  · intro failed
    cases ready : r.prepare clock.now t with
    | error f =>
      rw [run_unprepared ready] at failed
      cases failed
      exact .refused e (prepare_error_iff.mp ready)
    | ok checked =>
      obtain ⟨planned, stamp⟩ := checked
      cases wet : r.options.dryRun with
      | true =>
        rw [run_listed ready wet] at failed
        cases failed
      | false =>
        rcases directory : t.makeDirectories r.layout.outputDir with ⟨made, _ | cause⟩
        · rcases generation : r.generator.generate r.layout made with ⟨after, fault | sample⟩
          · rw [run_without_sample ready wet directory generation] at failed
            cases failed
            exact .generation planned stamp made after e ready wet directory generation
          · rw [run_with_sample ready wet directory generation] at failed
            cases failed
        · rw [run_without_directory ready wet directory] at failed
          cases failed
          exact .directory planned stamp made cause ready wet directory
  · intro ended
    cases ended with
    | refused e refused => rw [run_unprepared (prepare_error_iff.mpr refused)]
    | directory planned stamp made cause ready wet fault => rw [run_without_directory ready wet fault]
    | generation planned stamp made after e ready wet directory fault =>
      rw [run_without_sample ready wet directory fault]

theorem prepare_unprintable_iff : r.prepare now t = .error .unprintableTime ↔
    ∃ planned, r.plan? = .ok planned ∧
      Stamp.ofConfig r.config r.epoch now = .error .unprintableTime := by
  constructor
  · intro unready
    unfold prepare at unready
    split at unready
    · cases unready
    · rename_i planned plan
      split at unready
      · rename_i fault
        cases unready
        exact ⟨planned, plan, fault⟩
      · split at unready
        · split at unready
          · cases unready
          · split at unready <;> cases unready
        · cases unready
  · rintro ⟨planned, plan, fault⟩
    simp only [prepare, plan, fault]

theorem run_unprintable_iff : (r.run clock t).result = .error .unprintableTime ↔
    r.prepare clock.now t = .error .unprintableTime := by
  cases ready : r.prepare clock.now t with
  | error f => simp only [run_unprepared ready, Except.error.injEq]
  | ok checked =>
    simp only [run, ready, reduceCtorEq, iff_false]
    intro failed
    split at failed
    · cases failed
    · split at failed
      · cases failed
      · split at failed <;> cases failed

/-- The report of a run on a variant, with the tree that the work on the variant began with. -/
def Reported (r : Release) (clock : Clock) (t : FileTree) (s : Stamp) (p : PlannedVariant)
    (left : FileTree) (report : Report) : Prop :=
  ∃ planned made after sample i,
    r.prepare clock.now t = .ok (planned, s) ∧ r.options.dryRun = false ∧
    t.makeDirectories r.layout.outputDir = (made, none) ∧
    r.generator.generate r.layout made = (after, .ok sample) ∧ planned[i]? = some p ∧
    left = (r.buildFrom s clock planned.length 0 after (planned.take i)).1 ∧
    report = Release.report p (r.buildVariant s p.variant left).outcome (clock.variantMs i)

/-- The error that became the outcome of the work on a variant. -/
inductive Recorded (r : Release) (s : Stamp) (v : NormalizedVariant) (t : FileTree) :
    BuildError → Outcome → Prop where
  | clearing (cause : IoError) (fault : t.removeIfPresent (r.request s v).binary = .error cause) :
      Recorded r s v t (.io cause) (.compileFailed (BuildError.io cause).message)
  | compiling (cleared : FileTree) (e : BuildError)
      (clear : t.removeIfPresent (r.request s v).binary = .ok cleared)
      (fault : (r.compiler.compile (r.request s v) cleared).2 = .error e) :
      Recorded r s v t e (.compileFailed e.message)
  | packing (cleared compiled : FileTree) (binary : Path) (e : BuildError)
      (clear : t.removeIfPresent (r.request s v).binary = .ok cleared)
      (call : r.compiler.compile (r.request s v) cleared = (compiled, .ok binary))
      (fault : (r.packager.package (r.faults v compiled) v s compiled).2 = .error e) :
      Recorded r s v t e (.packageFailed e.message)

theorem failure_recorded (failed : (r.buildVariant s v t).outcome.isFailure = true) :
    ∃ e, r.Recorded s v t e (r.buildVariant s v t).outcome := by
  have step := variant_step r s v t
  generalize r.buildVariant s v t = built at step failed ⊢
  cases step with
  | stuck cause fault => exact ⟨_, .clearing cause fault⟩
  | uncompiled cleared run e clear call fault =>
    subst call
    exact ⟨e, .compiling cleared e clear fault⟩
  | compiled cleared run path clear call done =>
    have called : r.compiler.compile (r.request s v) cleared = (run.1, .ok path) :=
      call.trans (Prod.ext rfl done)
    rcases packing : r.packager.package (r.faults v run.1) v s run.1 with ⟨after, e | artifact⟩
    · have ended : (r.packVariant s v run.1).2 = .packageFailed e.message := by
        simp only [packVariant, packing]
      simp only [ended]
      exact ⟨e, .packing cleared run.1 path e clear called (by rw [packing])⟩
    · have ended : (r.packVariant s v run.1).2 = .packaged artifact := by
        simp only [packVariant, packing]
      simp only [ended] at failed
      cases failed

theorem run_reported (ended : (r.run clock t).result = .ok summary) (wet : r.options.dryRun = false)
    (mem : report ∈ summary.reports) : ∃ s p left, r.Reported clock t s p left report := by
  cases summarized ended with
  | listed planned stamp _ dry => simp [wet] at dry
  | built planned stamp made after sample ready _ directory generation =>
    obtain ⟨i, bound, rfl⟩ := List.getElem_of_mem mem
    have place := List.getElem?_eq_getElem bound
    have listed : i < planned.length := by
      rwa [← loop_length r stamp clock planned.length 0 after planned]
    have here := List.getElem?_eq_getElem listed
    have at_place := (loop_at r stamp clock planned.length 0 after here).2.1
    rw [Nat.zero_add] at at_place
    have same := Option.some.inj (place.symm.trans at_place)
    exact ⟨stamp, planned[i], _, planned, made, after, sample, i, ready, wet, directory, generation,
      here, rfl, same⟩

end ReleaseMatrix.Release
