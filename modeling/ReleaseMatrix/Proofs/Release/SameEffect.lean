import ReleaseMatrix.Proofs.Build.Recoding
import ReleaseMatrix.Proofs.Release.Phases

/- Two runs whose tools have the same effect and may only give other reasons for their failures: the
   trees are the same all along, the same variants fail, and the runs end alike. -/
namespace ReleaseMatrix

def Summary.failing (s : Summary) : List Bool := s.reports.map fun report => report.outcome.isFailure

theorem Summary.failedCount_eq (s : Summary) : s.failedCount = s.failing.count true := by
  rw [failing, List.count, List.countP_map, failedCount, failures, List.countP_eq_length_filter]
  congr 2
  funext report
  simp

namespace Release

variable {r : Release} {compile : CompileRequest → FileTree → ToolRun}
variable {generate : Layout → FileTree → ToolRun}

def withTools (r : Release) (compile : CompileRequest → FileTree → ToolRun)
    (generate : Layout → FileTree → ToolRun) : Release :=
  (r.withCompile compile).withGenerate generate

section Compiling

variable (generate)
variable (compiling : ∀ request t, SameEffect (compile request t) (r.compiler.compile request t))
include compiling

theorem variant_same_effect (s : Stamp) (v : NormalizedVariant) (t : FileTree) :
    ((r.withTools compile generate).buildVariant s v t).tree = (r.buildVariant s v t).tree ∧
      ((r.withTools compile generate).buildVariant s v t).outcome.isFailure =
        (r.buildVariant s v t).outcome.isFailure := by
  have request : (r.withTools compile generate).request s v = r.request s v := rfl
  have call : ∀ cleared, (r.withTools compile generate).compiler.compile (r.request s v) cleared =
      compile (r.request s v) cleared := fun _ => rfl
  cases clear : t.removeIfPresent (r.request s v).binary with
  | error e => simp only [buildVariant, request, clear, and_self]
  | ok cleared =>
    simp only [buildVariant, request, clear, call]
    rcases (compiling (r.request s v) cleared).cases with ⟨after, e, e', one, other⟩ | same
    · simp only [one, other]
      exact ⟨trivial, rfl⟩
    · rw [same]
      split <;> exact ⟨rfl, rfl⟩

theorem loop_same_effect (s : Stamp) (clock : Clock) (total position : Nat) (t : FileTree)
    (planned : List PlannedVariant) :
    ((r.withTools compile generate).buildFrom s clock total position t planned).2.2.map
        (fun report => report.outcome.isFailure) =
      (r.buildFrom s clock total position t planned).2.2.map fun report => report.outcome.isFailure := by
  induction planned generalizing position t with
  | nil => rfl
  | cons p rest ih =>
    obtain ⟨tree, failing⟩ := variant_same_effect generate compiling s p.variant t
    simp only [loop_turn, List.map_cons, report, tree, failing, ih]

end Compiling

/-- How two such runs end: with the same error, with errors of their generators for the same
    directory, or with the same variants failing. -/
inductive EndsAlike (layout : Layout) (generate generate' : Layout → FileTree → ToolRun) :
    Except Failure Summary → Except Failure Summary → Prop where
  | error (e : Failure) : EndsAlike layout generate generate' (.error e) (.error e)
  | generation (made : FileTree) (e e' : BuildError) (one : (generate layout made).2 = .error e)
      (other : (generate' layout made).2 = .error e') :
      EndsAlike layout generate generate' (.error (.error e)) (.error (.error e'))
  | summary (s s' : Summary) (same : s.failing = s'.failing) :
      EndsAlike layout generate generate' (.ok s) (.ok s')

theorem run_same_effect
    (compiling : ∀ request t, SameEffect (compile request t) (r.compiler.compile request t))
    (generating : ∀ l t, SameEffect (generate l t) (r.generator.generate l t)) (clock : Clock)
    (t : FileTree) :
    EndsAlike r.layout generate r.generator.generate
      ((r.withTools compile generate).run clock t).result (r.run clock t).result := by
  generalize other : r.withTools compile generate = r'
  have prepared : r'.prepare clock.now t = r.prepare clock.now t := by
    subst other
    rfl
  cases ready : r.prepare clock.now t with
  | error e =>
    rw [run_unprepared ready, run_unprepared (prepared.trans ready)]
    exact .error e
  | ok checked =>
    obtain ⟨planned, s⟩ := checked
    have ready' := prepared.trans ready
    cases wet : r.options.dryRun with
    | true =>
      have wet' : r'.options.dryRun = true := by
        subst other
        exact wet
      rw [run_listed ready wet, run_listed ready' wet']
      refine .summary _ _ ?_
      simp only [Summary.failing, summary, List.map_map]
      rfl
    | false =>
      have wet' : r'.options.dryRun = false := by
        subst other
        exact wet
      have layout : r'.layout = r.layout := by
        subst other
        rfl
      rcases directory : t.makeDirectories r.layout.outputDir with ⟨made, _ | e⟩
      · have directory' : t.makeDirectories r'.layout.outputDir = (made, none) := layout ▸ directory
        have generator : r'.generator.generate r'.layout made = generate r.layout made := by
          subst other
          rfl
        rcases (generating r.layout made).cases with ⟨after, e, e', one, two⟩ | same
        · rw [run_without_sample ready wet directory two,
            run_without_sample ready' wet' directory' (generator.trans one)]
          exact .generation made e e' (congrArg Prod.snd one) (congrArg Prod.snd two)
        · rcases generation : r.generator.generate r.layout made with ⟨after, e | sample⟩
          · rw [run_without_sample ready wet directory generation,
              run_without_sample ready' wet' directory' ((generator.trans same).trans generation)]
            exact .error _
          · rw [run_with_sample ready wet directory generation,
              run_with_sample ready' wet' directory' ((generator.trans same).trans generation)]
            refine .summary _ _ ?_
            subst other
            exact loop_same_effect generate compiling s clock planned.length 0 after planned
      · have directory' : t.makeDirectories r'.layout.outputDir = (made, some e) := layout ▸ directory
        rw [run_without_directory ready wet directory, run_without_directory ready' wet' directory',
          layout]
        exact .error _

end Release
end ReleaseMatrix
