import ReleaseMatrix.Build.CommandGenerator
import ReleaseMatrix.Build.Go

/- What the programs of a machine say of themselves, against what they do. Whatever they print and
   whichever code they fail with, commands that compile and generate leave the same tree and succeed or
   fail alike. -/
namespace ReleaseMatrix

structure SameEffect {α : Type} (one other : FileTree × Except BuildError α) : Prop where
  tree : one.1 = other.1
  made : one.2.toOption = other.2.toOption

theorem SameEffect.cases {α : Type} {one other : FileTree × Except BuildError α}
    (same : SameEffect one other) :
    (∃ after e e', one = (after, .error e) ∧ other = (after, .error e')) ∨ one = other := by
  obtain ⟨after, result⟩ := one
  obtain ⟨after', result'⟩ := other
  obtain ⟨rfl, made⟩ := same
  cases result with
  | error e =>
    cases result' with
    | error e' => exact .inl ⟨after, e, e', rfl, rfl⟩
    | ok a => cases made
  | ok a =>
    cases result' with
    | error e' => cases made
    | ok a' =>
      cases made
      exact .inr rfl

/-- Another account of what finished programs have left, with success for success. -/
structure Recoding where
  recode : Finished → Finished
  success_iff : ∀ done, (recode done).exit = .code 0 ↔ done.exit = .code 0

namespace Recoding

variable (f : Recoding)

def run (result : ProcessRun) : ProcessRun := (result.1, result.2.map f.recode)

@[simp]
theorem run_error (t : FileTree) (e : IoError) : f.run (t, .error e) = (t, .error e) := rfl

@[simp]
theorem run_ok (t : FileTree) (done : Finished) : f.run (t, .ok done) = (t, .ok (f.recode done)) := rfl

def host (h : Host) : Host := { h with execute := fun p t => f.run (h.execute p t) }

variable {h : Host} {t : FileTree}

theorem withShell_recoded (execute : Process → FileTree → ProcessRun) (p : Process) (t : FileTree) :
    Host.withShell (fun p t => f.run (execute p t)) p t = f.run (Host.withShell execute p t) := by
  unfold Host.withShell
  rcases called : execute p t with ⟨after, e | done⟩
  · by_cases script : e = .execFormat
    · subst script
      simp only [called, run_error]
      cases Host.refusal? after Host.standardShell <;> rfl
    · simp [called, script]
  · simp only [called, run_ok]

theorem startFirst_recoded (start : Path → ProcessRun) (denied : Bool) (last : IoError)
    (files : List Path) :
    Host.startFirst t (fun file => f.run (start file)) denied last files =
      f.run (Host.startFirst t start denied last files) := by
  induction files generalizing denied last with
  | nil => rfl
  | cons file rest ih =>
    unfold Host.startFirst
    cases Host.refusal? t file with
    | some e =>
      simp only [ih]
      split <;> rfl
    | none =>
      rcases start file with ⟨after, e | done⟩
      · simp only [run_error, ih]
        split <;> rfl
      · simp only [run_ok]

theorem spawn_recoded (h : Host) (i : Invocation) (t : FileTree) :
    (f.host h).spawn i t = f.run (h.spawn i t) := by
  unfold Host.spawn
  split
  · rfl
  · split
    · rfl
    · rfl
    · simp only [← startFirst_recoded]
      congr 1
      funext file
      split
      · rw [← withShell_recoded]
        rfl
      · rfl

theorem command_recoded (h : Host) (i : Invocation) (line : String) (t : FileTree) :
    SameEffect (runCommand (f.host h) i line t) (runCommand h i line t) := by
  simp only [runCommand, spawn_recoded]
  rcases h.spawn i t with ⟨after, e | done⟩
  · exact ⟨rfl, rfl⟩
  · refine ⟨rfl, ?_⟩
    simp only [run_ok, commandResult, f.success_iff]
    split <;> rfl

end Recoding

theorem GoCompiler.compile_recoded (g : GoCompiler) (f : Recoding) (h : Host) (r : CompileRequest)
    (t : FileTree) : SameEffect (g.compile (f.host h) r t) (g.compile h r t) := by
  unfold GoCompiler.compile
  rcases (f.command_recoded h (g.invocation r) (g.commandLine r) t).cases with
    ⟨after, e, e', one, other⟩ | same
  · rw [one, other]
    exact ⟨rfl, rfl⟩
  · rw [same]
    exact ⟨rfl, rfl⟩

theorem CommandGenerator.generate_recoded (c : CommandGenerator) (f : Recoding) (h : Host) (l : Layout)
    (t : FileTree) : SameEffect (c.generate (f.host h) l t) (c.generate h l t) := by
  unfold CommandGenerator.generate
  cases t.removeIfPresent (c.target l) with
  | error e => exact ⟨rfl, rfl⟩
  | ok cleared =>
    simp only
    rcases (f.command_recoded h (c.invocation l) (c.commandLine l) cleared).cases with
      ⟨after, e, e', one, other⟩ | same
    · rw [one, other]
      exact ⟨rfl, rfl⟩
    · rw [same]
      exact ⟨rfl, rfl⟩

end ReleaseMatrix
