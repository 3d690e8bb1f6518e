import ReleaseMatrix.Release.Run

/- What one step of a run can do: the checks, the work on a variant, the loop over the variants and
   the phases of the whole run, each with everything that decides how it goes. -/
namespace ReleaseMatrix

theorem Outcome.packaged_of_artifact {o : Outcome} {artifact : Artifact}
    (found : o.artifact? = some artifact) : o = .packaged artifact := by
  cases o with
  | packaged a => exact congrArg _ (Option.some.inj found)
  | compileFailed e => simp [artifact?] at found
  | packageFailed e => simp [artifact?] at found
  | planned c => simp [artifact?] at found

namespace Release

variable {r : Release} {now : Time.LocalTime} {clock : Clock} {t made after : FileTree} {stamp : Stamp}
variable {planned : List PlannedVariant}

theorem selection_of_plan (ok : r.plan? = .ok planned) :
    r.config.validate = .ok () ∧ ∃ catalog,
      selection r.config r.options.index = .ok catalog ∧
      normalizeAll r.config.normalizer r.ambient catalog.entries = .ok planned := by
  unfold plan? plan at ok
  split at ok
  · simp at ok
  · rename_i valid
    split at ok
    · simp at ok
    · rename_i catalog selected
      split at ok
      · simp at ok
      · rename_i normal
        obtain rfl := Except.ok.inj ok
        exact ⟨valid, catalog, selected, normal⟩

theorem plan_of_selection {catalog : Catalog} (valid : r.config.validate = .ok ())
    (selected : selection r.config r.options.index = .ok catalog)
    (normal : normalizeAll r.config.normalizer r.ambient catalog.entries = .ok planned) :
    r.plan? = .ok planned := by
  simp [plan?, plan, valid, selected, normal]

theorem prepare_ok_iff : r.prepare now t = .ok (planned, stamp) ↔
    r.plan? = .ok planned ∧ Stamp.ofConfig r.config r.epoch now = .ok stamp ∧
      (r.options.checkTools = true → r.compiler.check t = .ok () ∧ r.generator.check t = .ok ()) := by
  unfold prepare
  cases r.plan? with
  | error e => simp
  | ok p =>
    cases Stamp.ofConfig r.config r.epoch now with
    | error e => simp
    | ok s =>
      cases r.options.checkTools with
      | false => simp
      | true => cases r.compiler.check t <;> cases r.generator.check t <;> simp

/-- What the work on one variant can come to. -/
inductive VariantStep (r : Release) (s : Stamp) (v : NormalizedVariant) (t : FileTree) :
    VariantRun → Prop where
  | stuck (e : IoError) (fault : t.removeIfPresent (r.request s v).binary = .error e) :
      VariantStep r s v t ⟨t, [], .compileFailed (BuildError.io e).message⟩
  | uncompiled (cleared : FileTree) (run : ToolRun) (e : BuildError)
      (clear : t.removeIfPresent (r.request s v).binary = .ok cleared)
      (call : r.compiler.compile (r.request s v) cleared = run) (fault : run.2 = .error e) :
      VariantStep r s v t ⟨run.1, [.compiled (r.request s v) cleared run], .compileFailed e.message⟩
  | compiled (cleared : FileTree) (run : ToolRun) (path : Path)
      (clear : t.removeIfPresent (r.request s v).binary = .ok cleared)
      (call : r.compiler.compile (r.request s v) cleared = run) (done : run.2 = .ok path) :
      VariantStep r s v t ⟨(r.packVariant s v run.1).1, [.compiled (r.request s v) cleared run],
        (r.packVariant s v run.1).2⟩

theorem variant_step (r : Release) (s : Stamp) (v : NormalizedVariant) (t : FileTree) :
    VariantStep r s v t (r.buildVariant s v t) := by
  cases clear : t.removeIfPresent (r.request s v).binary with
  | error e =>
    have ended : r.buildVariant s v t = ⟨t, [], .compileFailed (BuildError.io e).message⟩ := by
      simp only [buildVariant, clear]
    rw [ended]
    exact .stuck e clear
  | ok cleared =>
    cases done : (r.compiler.compile (r.request s v) cleared).2 with
    | error e =>
      have ended := VariantStep.uncompiled cleared _ e clear rfl done
      simpa only [buildVariant, clear, done] using ended
    | ok path =>
      have ended := VariantStep.compiled cleared _ path clear rfl done
      simpa only [buildVariant, clear, done] using ended

theorem loop_turn (r : Release) (s : Stamp) (clock : Clock) (total position : Nat) (t : FileTree)
    (p : PlannedVariant) (rest : List PlannedVariant) :
    r.buildFrom s clock total position t (p :: rest) =
      let run := r.buildVariant s p.variant t
      let done := report p run.outcome (clock.variantMs position)
      let later := r.buildFrom s clock total (position + 1) run.tree rest
      (later.1, .started position total p.variant :: (run.events ++ .finished done :: later.2.1),
        done :: later.2.2) := rfl

theorem loop_append (r : Release) (s : Stamp) (clock : Clock) (total position : Nat) (t : FileTree)
    (first rest : List PlannedVariant) :
    r.buildFrom s clock total position t (first ++ rest) =
      let before := r.buildFrom s clock total position t first
      let later := r.buildFrom s clock total (position + first.length) before.1 rest
      (later.1, before.2.1 ++ later.2.1, before.2.2 ++ later.2.2) := by
  induction first generalizing position t with
  | nil => rfl
  | cons p first ih =>
    simp only [List.cons_append, loop_turn, ih, List.length_cons, List.append_assoc]
    rw [Nat.add_assoc, Nat.add_comm 1]

theorem loop_length (r : Release) (s : Stamp) (clock : Clock) (total position : Nat) (t : FileTree)
    (planned : List PlannedVariant) :
    (r.buildFrom s clock total position t planned).2.2.length = planned.length := by
  induction planned generalizing position t with
  | nil => rfl
  | cons p rest ih => simp only [loop_turn, List.length_cons, ih]

theorem loop_at (r : Release) (s : Stamp) (clock : Clock) (total position : Nat) (t : FileTree)
    {i : Nat} {p : PlannedVariant} (here : planned[i]? = some p) :
    let left := r.buildFrom s clock total position t (planned.take i)
    let built := r.buildVariant s p.variant left.1
    let done := report p built.outcome (clock.variantMs (position + i))
    let all := r.buildFrom s clock total position t planned
    (∃ later, all.2.1 = left.2.1 ++ .started (position + i) total p.variant ::
        (built.events ++ .finished done :: later)) ∧
      all.2.2[i]? = some done ∧
      (r.buildFrom s clock total position t (planned.take (i + 1))).1 = built.tree := by
  obtain ⟨bound, at_place⟩ := List.getElem?_eq_some_iff.mp here
  have split : planned = planned.take i ++ p :: planned.drop (i + 1) := by
    rw [← at_place, ← List.drop_eq_getElem_cons bound, List.take_append_drop]
  have up_to : planned.take (i + 1) = planned.take i ++ [p] := by
    rw [List.take_add_one, here, Option.toList_some]
  have before : (planned.take i).length = i := by
    rw [List.length_take, Nat.min_eq_left (Nat.le_of_lt bound)]
  have all := loop_append r s clock total position t (planned.take i) (p :: planned.drop (i + 1))
  rw [← split, before] at all
  simp only [loop_turn] at all
  refine ⟨⟨_, by rw [all]⟩, ?_, ?_⟩
  · have count := loop_length r s clock total position t (planned.take i)
    rw [before] at count
    rw [all, List.getElem?_append_right (Nat.le_of_eq count), count, Nat.sub_self,
      List.getElem?_cons_zero]
  · simp only [up_to, loop_append, loop_turn]
    rfl

theorem run_unprepared {e : Failure} (stopped : r.prepare clock.now t = .error e) :
    r.run clock t = ⟨t, [], .error e⟩ := by
  simp only [run, stopped]

theorem run_listed (ready : r.prepare clock.now t = .ok (planned, stamp))
    (dry : r.options.dryRun = true) :
    r.run clock t = ⟨t, [], .ok (r.summary stamp clock (planned.map (r.plannedReport stamp)))⟩ := by
  simp only [run, ready, dry, if_true]

section Phases

variable (ready : r.prepare clock.now t = .ok (planned, stamp)) (wet : r.options.dryRun = false)
include ready wet

theorem run_without_directory {e : IoError}
    (directory : t.makeDirectories r.layout.outputDir = (made, some e)) :
    r.run clock t = ⟨made, [], .error (.error (.outputDirectory r.layout.outputDir e))⟩ := by
  simp [run, ready, wet, directory]

theorem run_without_sample {e : BuildError}
    (directory : t.makeDirectories r.layout.outputDir = (made, none))
    (generation : r.generator.generate r.layout made = (after, .error e)) :
    r.run clock t = ⟨after, [.generated made after], .error (.error e)⟩ := by
  simp [run, ready, wet, directory, generation]

theorem run_with_sample {sample : Path}
    (directory : t.makeDirectories r.layout.outputDir = (made, none))
    (generation : r.generator.generate r.layout made = (after, .ok sample)) :
    let built := r.buildFrom stamp clock planned.length 0 after planned
    r.run clock t = ⟨built.1, .generated made after :: built.2.1,
      .ok (r.summary stamp clock built.2.2)⟩ := by
  simp [run, ready, wet, directory, generation]

end Phases

inductive Summarized (r : Release) (clock : Clock) (t : FileTree) : Summary → Prop where
  | listed (planned : List PlannedVariant) (stamp : Stamp)
      (ready : r.prepare clock.now t = .ok (planned, stamp)) (dry : r.options.dryRun = true) :
      Summarized r clock t (r.summary stamp clock (planned.map (r.plannedReport stamp)))
  | built (planned : List PlannedVariant) (stamp : Stamp) (made after : FileTree) (sample : Path)
      (ready : r.prepare clock.now t = .ok (planned, stamp)) (wet : r.options.dryRun = false)
      (directory : t.makeDirectories r.layout.outputDir = (made, none))
      (generation : r.generator.generate r.layout made = (after, .ok sample)) :
      Summarized r clock t
        (r.summary stamp clock (r.buildFrom stamp clock planned.length 0 after planned).2.2)

theorem summarized {s : Summary} (ended : (r.run clock t).result = .ok s) : r.Summarized clock t s := by
  cases ready : r.prepare clock.now t with
  | error e =>
    rw [run_unprepared ready] at ended
    cases ended
  | ok checked =>
    obtain ⟨planned, stamp⟩ := checked
    cases wet : r.options.dryRun with
    | true =>
      rw [run_listed ready wet] at ended
      cases ended
      exact .listed planned stamp ready wet
    | false =>
      rcases directory : t.makeDirectories r.layout.outputDir with ⟨made, _ | e⟩
      · rcases generation : r.generator.generate r.layout made with ⟨after, e | sample⟩
        · rw [run_without_sample ready wet directory generation] at ended
          cases ended
        · rw [run_with_sample ready wet directory generation] at ended
          cases ended
          exact .built planned stamp made after sample ready wet directory generation
      · rw [run_without_directory ready wet directory] at ended
        cases ended

end Release
end ReleaseMatrix
