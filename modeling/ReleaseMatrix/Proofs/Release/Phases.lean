import ReleaseMatrix.Proofs.FileTree.Change
import ReleaseMatrix.Proofs.Release.Planning
import ReleaseMatrix.Proofs.Release.Steps

/- The order of what a run does: checks before any change, one call of the generator before any
   compilation, and then a report for each planned variant whatever becomes of the others. That a
   tool is not called shows in the log, and in that another tool in its place changes nothing. -/
namespace ReleaseMatrix

namespace Event

def isGenerate : Event → Bool
  | .generated _ _ => true
  | _ => false

def isCompile : Event → Bool
  | .compiled _ _ _ => true
  | _ => false

def request? : Event → Option CompileRequest
  | .compiled request _ _ => some request
  | _ => none

end Event

/-- What a report says of a variant besides what became of it. -/
def Report.names (r : Report) : Nat × String × String × String :=
  (r.index, r.variant, r.archiveName, r.binaryName)

def PlannedVariant.names (p : PlannedVariant) : Nat × String × String × String :=
  (p.index, p.variant.label, p.variant.target.archiveName, p.variant.target.binaryName)

namespace Release

inductive Halted (r : Release) (now : Time.LocalTime) (t : FileTree) : Prop where
  | configuration (e : ProjectError) (fault : r.config.validate = .error e)
  | selection (e : VariantError) (fault : Release.selection r.config r.options.index = .error e)
  | normalization (catalog : Catalog) (entry : Nat × VariantDescriptor) (e : VariantError)
      (selected : Release.selection r.config r.options.index = .ok catalog)
      (member : entry ∈ catalog.entries)
      (fault : r.config.normalizer.normalize entry.2 r.ambient = .error e)
  | stamp (e : Failure) (fault : Stamp.ofConfig r.config r.epoch now = .error e)
  | compilerCheck (e : BuildError) (asked : r.options.checkTools = true)
      (fault : r.compiler.check t = .error e)
  | generatorCheck (e : BuildError) (asked : r.options.checkTools = true)
      (fault : r.generator.check t = .error e)
  | dryRun (asked : r.options.dryRun = true)

def withCompile (r : Release) (compile : CompileRequest → FileTree → ToolRun) : Release :=
  { r with compiler := { r.compiler with compile := compile } }

def withGenerate (r : Release) (generate : Layout → FileTree → ToolRun) : Release :=
  { r with generator := { r.generator with generate := generate } }

/-- What a run promises about the order of its work, from any tree and with any tools. -/
structure PhaseOrder (r : Release) (clock : Clock) (t : FileTree) : Prop where
  /-- Nothing is changed and no tool is called before all checks have passed. -/
  halted : r.Halted clock.now t → (r.run clock t).tree = t ∧ (r.run clock t).events = [] ∧
    ∀ compile generate, ((r.withCompile compile).withGenerate generate).run clock t = r.run clock t
  generated_once : ((r.run clock t).events.filter Event.isGenerate).length ≤ 1
  generated_first : (r.run clock t).events.Pairwise fun earlier later =>
    earlier.isCompile = true → later.isGenerate = false
  /-- Without an output directory neither tool is called, and every file is as it was. -/
  no_directory : ∀ made e, ¬ r.Halted clock.now t →
    t.makeDirectories r.layout.outputDir = (made, some e) →
    r.run clock t = ⟨made, [], .error (.error (.outputDirectory r.layout.outputDir e))⟩ ∧
      FileTree.AddsDirectories t made ∧
      ∀ compile generate, ((r.withCompile compile).withGenerate generate).run clock t = r.run clock t
  /-- Without a sample configuration nothing is compiled, and what the generator left stays. -/
  no_sample : ∀ made after e, ¬ r.Halted clock.now t →
    t.makeDirectories r.layout.outputDir = (made, none) →
    r.generator.generate r.layout made = (after, .error e) →
    r.run clock t = ⟨after, [.generated made after], .error (.error e)⟩ ∧
      ∀ compile, (r.withCompile compile).run clock t = r.run clock t
  /-- Otherwise every selected variant of the catalog gets its report, in plan order. -/
  complete : ∀ made after sample, ¬ r.Halted clock.now t →
    t.makeDirectories r.layout.outputDir = (made, none) →
    r.generator.generate r.layout made = (after, .ok sample) →
    ∃ catalog planned stamp summary,
      Release.selection r.config r.options.index = .ok catalog ∧ r.plan? = .ok planned ∧
      Stamp.ofConfig r.config r.epoch clock.now = .ok stamp ∧
      (r.run clock t).result = .ok summary ∧
      summary.reports.map Report.names = planned.map PlannedVariant.names ∧
      summary.reports.map Report.index = catalog.entries.map Prod.fst ∧
      ((r.run clock t).events.filterMap Event.request?).Sublist
        (planned.map fun p => r.request stamp p.variant)

variable {r : Release} {now : Time.LocalTime} {clock : Clock} {t : FileTree} {stamp : Stamp}
variable {planned : List PlannedVariant}

theorem normalizeAll_ok {n : Normalizer} {ambient : List (String × String)}
    {entries : List (Nat × VariantDescriptor)} :
    (∃ plan, normalizeAll n ambient entries = .ok plan) ↔
      ∀ entry ∈ entries, ∃ v, n.normalize entry.2 ambient = .ok v := by
  induction entries with
  | nil => simp [normalizeAll]
  | cons entry rest ih =>
    obtain ⟨index, d⟩ := entry
    simp only [List.forall_mem_cons, ← ih, normalizeAll]
    cases n.normalize d ambient with
    | error e => simp
    | ok v => cases normalizeAll n ambient rest <;> simp

theorem prepared_not_halted (ok : r.prepare now t = .ok (planned, stamp))
    (wet : r.options.dryRun = false) : ¬ r.Halted now t := by
  obtain ⟨plan, stamped, checked⟩ := prepare_ok_iff.mp ok
  obtain ⟨valid, catalog, selected, normal⟩ := selection_of_plan plan
  intro halted
  cases halted with
  | configuration e fault => simp [valid] at fault
  | selection e fault => simp [selected] at fault
  | normalization other entry e otherwise_ member fault =>
    obtain rfl : catalog = other := by simpa [selected] using otherwise_
    obtain ⟨v, fine⟩ := normalizeAll_ok.mp ⟨planned, normal⟩ entry member
    simp [fine] at fault
  | stamp e fault => simp [stamped] at fault
  | compilerCheck e asked fault => simp [(checked asked).1] at fault
  | generatorCheck e asked fault => simp [(checked asked).2] at fault
  | dryRun asked => simp [wet] at asked

theorem prepared_of_not_halted (going : ¬ r.Halted now t) :
    r.options.dryRun = false ∧ ∃ planned stamp, r.prepare now t = .ok (planned, stamp) := by
  have wet : r.options.dryRun = false := by
    cases asked : r.options.dryRun with
    | false => rfl
    | true => exact absurd (.dryRun asked) going
  have valid : r.config.validate = .ok () := by
    cases fault : r.config.validate with
    | error e => exact absurd (.configuration e fault) going
    | ok u => rfl
  obtain ⟨catalog, selected⟩ : ∃ catalog, selection r.config r.options.index = .ok catalog := by
    cases fault : selection r.config r.options.index with
    | error e => exact absurd (.selection e fault) going
    | ok catalog => exact ⟨catalog, rfl⟩
  obtain ⟨planned, normal⟩ : ∃ planned, normalizeAll r.config.normalizer r.ambient
      catalog.entries = .ok planned := normalizeAll_ok.mpr fun entry member => by
      cases fault : r.config.normalizer.normalize entry.2 r.ambient with
      | error e => exact absurd (.normalization catalog entry e selected member fault) going
      | ok v => exact ⟨v, rfl⟩
  obtain ⟨stamp, stamped⟩ : ∃ stamp, Stamp.ofConfig r.config r.epoch now = .ok stamp := by
    cases fault : Stamp.ofConfig r.config r.epoch now with
    | error e => exact absurd (.stamp e fault) going
    | ok stamp => exact ⟨stamp, rfl⟩
  have checked : r.options.checkTools = true →
      r.compiler.check t = .ok () ∧ r.generator.check t = .ok () := by
    intro asked
    constructor
    · cases fault : r.compiler.check t with
      | error e => exact absurd (.compilerCheck e asked fault) going
      | ok u => rfl
    · cases fault : r.generator.check t with
      | error e => exact absurd (.generatorCheck e asked fault) going
      | ok u => rfl
  exact ⟨wet, planned, stamp,
    prepare_ok_iff.mpr ⟨plan_of_selection valid selected normal, stamped, checked⟩⟩

theorem variant_events (r : Release) (s : Stamp) (v : NormalizedVariant) (t : FileTree) :
    (∀ e ∈ (r.buildVariant s v t).events, e.isGenerate = false) ∧
      ((r.buildVariant s v t).events.filterMap Event.request?).Sublist [r.request s v] := by
  have step := variant_step r s v t
  generalize r.buildVariant s v t = built at step ⊢
  cases step <;> simp [Event.isGenerate, Event.request?]

theorem loop_reports (r : Release) (s : Stamp) (clock : Clock) (total position : Nat) (t : FileTree)
    (planned : List PlannedVariant) :
    (r.buildFrom s clock total position t planned).2.2.map Report.names =
      planned.map PlannedVariant.names := by
  induction planned generalizing position t with
  | nil => rfl
  | cons p rest ih =>
    simp only [loop_turn, List.map_cons, ih]
    rfl

theorem loop_events (r : Release) (s : Stamp) (clock : Clock) (total position : Nat) (t : FileTree)
    (planned : List PlannedVariant) :
    (∀ e ∈ (r.buildFrom s clock total position t planned).2.1, e.isGenerate = false) ∧
      ((r.buildFrom s clock total position t planned).2.1.filterMap Event.request?).Sublist
        (planned.map fun p => r.request s p.variant) := by
  induction planned generalizing position t with
  | nil => simp [buildFrom]
  | cons p rest ih =>
    obtain ⟨silent, called⟩ := variant_events r s p.variant t
    obtain ⟨later_silent, later_called⟩ :=
      ih (position + 1) (r.buildVariant s p.variant t).tree
    constructor
    · intro e member
      simp only [loop_turn, List.mem_cons, List.mem_append] at member
      rcases member with rfl | own | rfl | later
      · rfl
      · exact silent e own
      · rfl
      · exact later_silent e later
    · simp only [loop_turn, List.filterMap_cons, List.filterMap_append, Event.request?,
        List.map_cons]
      exact called.append later_called

theorem run_halted (halted : r.Halted clock.now t) :
    ∃ result, r.run clock t = ⟨t, [], result⟩ := by
  unfold run
  split
  · exact ⟨_, rfl⟩
  · rename_i planned stamp ready
    split
    · exact ⟨_, rfl⟩
    · rename_i wet
      exact absurd halted (prepared_not_halted ready (by simpa using wet))

theorem prepare_withTools (r : Release) (compile : CompileRequest → FileTree → ToolRun)
    (generate : Layout → FileTree → ToolRun) (now : Time.LocalTime) (t : FileTree) :
    ((r.withCompile compile).withGenerate generate).prepare now t = r.prepare now t := rfl

theorem generate_first (r : Release) (clock : Clock) (t : FileTree) :
    (r.run clock t).events = [] ∨ ∃ before after later,
      (r.run clock t).events = .generated before after :: later ∧
        ∀ e ∈ later, e.isGenerate = false := by
  by_cases halted : r.Halted clock.now t
  · obtain ⟨result, ended⟩ := run_halted halted
    exact .inl (by rw [ended])
  · obtain ⟨wet, planned, stamp, ready⟩ := prepared_of_not_halted halted
    rcases directory : t.makeDirectories r.layout.outputDir with ⟨made, _ | e⟩
    · rcases generation : r.generator.generate r.layout made with ⟨after, e | sample⟩
      · rw [run_without_sample ready wet directory generation]
        exact .inr ⟨made, after, [], rfl, by simp⟩
      · rw [run_with_sample ready wet directory generation]
        exact .inr ⟨made, after, _, rfl, (loop_events r stamp clock _ 0 after planned).1⟩
    · rw [run_without_directory ready wet directory]
      exact .inl rfl

theorem run_keeps_phase_order (r : Release) (clock : Clock) (t : FileTree) :
    PhaseOrder r clock t where
  halted := by
    intro halted
    obtain ⟨result, ended⟩ := run_halted halted
    refine ⟨by rw [ended], by rw [ended], fun compile generate => ?_⟩
    unfold run at ended ⊢
    rw [prepare_withTools]
    cases ready : r.prepare clock.now t with
    | error e => rfl
    | ok checked =>
      -- Where all checks pass, a dry run is the only reason left to stop.
      have dry : r.options.dryRun = true := by
        cases wet : r.options.dryRun with
        | true => rfl
        | false => exact absurd halted (prepared_not_halted ready wet)
      have dry' : ((r.withCompile compile).withGenerate generate).options.dryRun = true := dry
      simp only [dry, dry', if_true]
      rfl
  generated_once := by
    rcases generate_first r clock t with none_ | ⟨before, after, later, log, silent⟩
    · simp [none_]
    · have rest : later.filter Event.isGenerate = [] :=
        List.filter_eq_nil_iff.mpr fun e member => by simp [silent e member]
      rw [log, List.filter_cons_of_pos (by rfl), rest]
      exact Nat.le_refl 1
  generated_first := by
    rcases generate_first r clock t with none_ | ⟨before, after, later, log, silent⟩
    · simp [none_]
    · rw [log, List.pairwise_cons]
      refine ⟨fun e _ compiling => by simp [Event.isCompile] at compiling, ?_⟩
      exact List.Pairwise.imp_of_mem (fun _ member _ _ => silent _ member)
        (List.pairwise_of_forall (R := fun _ _ => True) fun _ _ => trivial)
  no_directory := by
    intro made e going directory
    obtain ⟨wet, planned, stamp, ready⟩ := prepared_of_not_halted going
    have adds := FileTree.directories_added t r.layout.outputDir
    rw [directory] at adds
    refine ⟨run_without_directory ready wet directory, adds, fun compile generate => ?_⟩
    rw [run_without_directory ready wet directory]
    exact run_without_directory (r := (r.withCompile compile).withGenerate generate) ready wet
      directory
  no_sample := by
    intro made after e going directory generation
    obtain ⟨wet, planned, stamp, ready⟩ := prepared_of_not_halted going
    refine ⟨run_without_sample ready wet directory generation, fun compile => ?_⟩
    rw [run_without_sample ready wet directory generation]
    exact run_without_sample (r := r.withCompile compile) ready wet directory generation
  complete := by
    intro made after sample going directory generation
    obtain ⟨wet, planned, stamp, ready⟩ := prepared_of_not_halted going
    obtain ⟨plan, stamped, _⟩ := prepare_ok_iff.mp ready
    obtain ⟨_, catalog, selected, normal⟩ := selection_of_plan plan
    have ended := run_with_sample ready wet directory generation
    have names := loop_reports r stamp clock planned.length 0 after planned
    refine ⟨catalog, planned, stamp, _, selected, plan, stamped, by rw [ended], names, ?_, ?_⟩
    · have indexes := congrArg (List.map Prod.fst) names
      rw [List.map_map, List.map_map] at indexes
      exact indexes.trans (normalizeAll_index normal)
    · rw [ended]
      exact (loop_events r stamp clock _ 0 after planned).2

end Release
end ReleaseMatrix
