import ReleaseMatrix.Proofs.FileTree.Directories
import ReleaseMatrix.Proofs.Release.Amendments
import ReleaseMatrix.Proofs.Release.Deed

/- A run once more, from the tree that a run has left: every phase finds what it would make and makes it
   again, so the tree stays and the result is the same, whatever the clocks say. -/
namespace ReleaseMatrix

open FileTree ReleaseMatrix.Path

def Summary.timeless (s : Summary) : Summary :=
  { s with reports := s.reports.map Report.timeless, durationMs := 0 }

namespace Release

variable {r : Release} {planned : List PlannedVariant} {t u made after : FileTree}
variable {clock later : Clock} {stamp : Stamp}

/-- What makes a release come out the same once more: an epoch that is pinned, plain names, companions
    that no output is in the way of, and tools that set their own output, as they were asked to. -/
structure Repeatable (r : Release) (t : FileTree) : Prop where
  pinned : (Stamp.pinned? r.epoch).isSome = true
  plain : ∀ planned, r.plan? = .ok planned →
    ∀ name ∈ outputNames planned, Path.fileName ⟨name⟩ = some name
  sample_apart : ∀ planned, r.plan? = .ok planned →
    r.config.generator.output ∉ outputNames planned
  companions_clear : ∀ planned, r.plan? = .ok planned →
    ∀ c ∈ r.companions, Clear r planned t c
  generator : r.generator.Performs r.config.generator.output
  compiler : r.compiler.SetsBinary
  faults : ∀ v (a b : FileTree), r.faults v a = r.faults v b

/-- The checks that were asked for answer the same on both trees. -/
def SameChecks (r : Release) (t u : FileTree) : Prop :=
  r.options.checkTools = true →
    r.compiler.check u = r.compiler.check t ∧ r.generator.check u = r.generator.check t

/-- How a run ends that follows one: in the same way but for the times it took, or with a file that now
    is on the way to the output directory and was to be one before. -/
inductive SameEnd (r : Release) (t : FileTree) (first second : Except Failure Summary) : Prop where
  | same (timeless : second.map Summary.timeless = first.map Summary.timeless)
  | onTheWay (before : first = .error (.error (.outputDirectory r.layout.outputDir .alreadyExists)))
      (after : second = .error (.error (.outputDirectory r.layout.outputDir .notDirectory)))
      (climbs : Rooted t → .up ∈ way r.layout.outputDir.text.toList)

theorem prepare_again (pinned : (Stamp.pinned? r.epoch).isSome = true) (checks : SameChecks r t u)
    (now next : Time.LocalTime) : r.prepare next u = r.prepare now t := by
  have stamp : Stamp.ofConfig r.config r.epoch next = Stamp.ofConfig r.config r.epoch now :=
    stamp_pinned pinned
  unfold prepare
  rw [stamp]
  cases asked : r.options.checkTools with
  | false => rfl
  | true =>
    obtain ⟨compiler, generator⟩ := checks asked
    rw [compiler, generator]

namespace Repeatable

theorem names (setting : Repeatable r t) (plan : r.plan? = .ok planned) : PlainOutputs r planned :=
  ⟨setting.plain planned plan, Config.sample_plain (selection_of_plan plan).1,
    setting.sample_apart planned plan⟩

theorem generated (setting : Repeatable r t) (plan : r.plan? = .ok planned)
    (directory : t.makeDirectories r.layout.outputDir = (made, none))
    {result : Except BuildError Path}
    (generation : r.generator.generate r.layout made = (after, result)) :
    Reached after r.layout.outputDir ∧ KeepsDirectories t after ∧
      ∀ u, Reached u r.layout.outputDir →
        u.entry? (r.config.generator.output :: placeOf r.layout.outputDir) =
          after.entry? (r.config.generator.output :: placeOf r.layout.outputDir) →
        u.makeDirectories r.layout.outputDir = (u, none) ∧
          r.generator.generate r.layout u = (u, result) := by
  have plain := plain_of_fileName (setting.names plan).sample_plain
  obtain ⟨added, there⟩ := directories_made directory
  have reached := Reached.of_directory there
  obtain ⟨d, performs⟩ := setting.generator r.layout
  have course : ∀ u, Reached u r.layout.outputDir → r.generator.generate r.layout u =
      d.course u r.layout.outputDir r.config.generator.output :=
    fun u reached => (performs u).trans (Deed.perform_child reached plain)
  rw [course made reached] at generation
  have kept : KeepsDirectories made after := by
    have keeps := d.course_keeps made r.layout.outputDir r.config.generator.output
    rwa [generation] at keeps
  refine ⟨reached.along fun l mem => kept l (reached.passed l mem), added.trans kept, ?_⟩
  intro u still left
  refine ⟨directories_still there still, ?_⟩
  have again := d.course_again made r.layout.outputDir r.config.generator.output (u := u)
  rw [generation] at again
  rw [course u still, again left]

end Repeatable

theorem wet_again (setting : Repeatable r t) (ready : r.prepare clock.now t = .ok (planned, stamp))
    (again : r.prepare later.now (r.run clock t).tree = .ok (planned, stamp))
    (wet : r.options.dryRun = false) :
    (r.run later (r.run clock t).tree).tree = (r.run clock t).tree ∧
      SameEnd r t (r.run clock t).result (r.run later (r.run clock t).tree).result := by
  obtain ⟨plan, _, _⟩ := prepare_ok_iff.mp ready
  have names := setting.names plan
  rcases directory : t.makeDirectories r.layout.outputDir with ⟨made, _ | e⟩
  · rcases generation : r.generator.generate r.layout made with ⟨after, e | sample⟩
    · obtain ⟨here, _, repeats⟩ := setting.generated plan directory generation
      obtain ⟨there, failed⟩ := repeats after here rfl
      rw [run_without_sample ready wet directory generation] at again ⊢
      rw [run_without_sample again wet there failed]
      exact ⟨rfl, .same rfl⟩
    · obtain ⟨here, kept, repeats⟩ := setting.generated plan directory generation
      have clear : ∀ c ∈ r.companions, Clear r planned after c :=
        fun c mem => (setting.companions_clear planned plan c mem).kept kept
      have shared : Shared r planned after after := ⟨names, .refl after, here, clear, setting.faults⟩
      obtain ⟨tree, reports, undisturbed⟩ :=
        loop_again shared setting.compiler stamp clock later planned.length
      -- The loop has left the output directory and the sample, so the second run gets to it.
      have reached := undisturbed.reached names here
      obtain ⟨there, sampled⟩ := repeats _ reached (undisturbed.sample names)
      rw [run_with_sample ready wet directory generation] at again ⊢
      rw [run_with_sample again wet there sampled]
      refine ⟨tree, .same ?_⟩
      simp only [Except.map, Summary.timeless, summary, reports]
  · obtain ⟨last, stuck, fails⟩ := directories_again directory
    rw [run_without_directory ready wet directory] at again ⊢
    rw [run_without_directory again wet stuck]
    refine ⟨rfl, ?_⟩
    rcases fails with rfl | ⟨rfl, rfl, climbs⟩
    · exact .same rfl
    · exact .onTheWay rfl rfl climbs

/-- A run once more leaves the tree that the first one has left, and ends the same. -/
theorem rerun_same (r : Release) (t : FileTree) (clock later : Clock) (setting : Repeatable r t)
    (checks : SameChecks r t (r.run clock t).tree) :
    (r.run later (r.run clock t).tree).tree = (r.run clock t).tree ∧
      SameEnd r t (r.run clock t).result (r.run later (r.run clock t).tree).result := by
  have again := prepare_again setting.pinned checks clock.now later.now
  cases ready : r.prepare clock.now t with
  | error e =>
    rw [run_unprepared ready] at again ⊢
    rw [run_unprepared (again.trans ready)]
    exact ⟨rfl, .same rfl⟩
  | ok checked =>
    obtain ⟨planned, stamp⟩ := checked
    rw [ready] at again
    cases wet : r.options.dryRun with
    | true =>
      rw [run_listed ready wet] at again ⊢
      rw [run_listed again wet]
      exact ⟨rfl, .same rfl⟩
    | false => exact wet_again setting ready again wet

theorem repeatable_of_checks (pinned : (Stamp.pinned? r.epoch).isSome = true)
    (names : r.plansPlainNames = true)
    (apart : ∀ c ∈ r.companions, (t.open? c).isOk = true ∧
      (placeOf c).length ≠ (placeOf r.layout.outputDir).length + 1)
    (generator : r.generator.Performs r.config.generator.output) (compiler : r.compiler.SetsBinary)
    (faults : ∀ v (a b : FileTree), r.faults v a = r.faults v b) : Repeatable r t :=
  ⟨pinned, fun _ plan => (plain_names names plan).1, fun _ plan => (plain_names names plan).2,
    fun _ _ => companions_clear apart, generator, compiler, faults⟩

def laterClock : Clock := ⟨.utc ⟨86400, 0⟩, fun position => position + 1, 5⟩

/-- Two variants packed and one that does not compile, and all three again a day later. -/
theorem small_rerun : ∃ summary,
    let first := smallRelease.run stillClock smallTree
    let second := smallRelease.run laterClock first.tree
    first.result = .ok summary ∧ summary.packagedCount = 2 ∧ second.tree = first.tree ∧
      second.result.map Summary.timeless = .ok summary.timeless := by
  have setting : Repeatable smallRelease smallTree :=
    repeatable_of_checks (by decide +kernel) small_plain small_apart (scripted_performs _ _)
      (scripted_sets_binary _) fun _ _ _ => rfl
  have ended : ((smallRelease.run stillClock smallTree).result.toOption.any fun summary =>
      summary.packagedCount == 2) = true := by decide +kernel
  obtain ⟨summary, done, two⟩ := Result.ok_of_any ended
  obtain ⟨tree, ends⟩ := rerun_same smallRelease smallTree stillClock laterClock setting
    fun _ => ⟨rfl, rfl⟩
  rw [done] at ends
  cases ends with
  | same timeless => exact ⟨summary, done, beq_iff_eq.mp two, tree, timeless⟩
  | onTheWay before => simp at before

/-- A small release whose output directory lies by a file, on a way that goes up to it. -/
def climbingRelease : Release :=
  { smallRelease with
    config := { smallRelease.config with
      build := { smallRelease.config.build with outputDir := ⟨"x/../f/c"⟩ } } }

def climbingTree : FileTree := smallTree.put ["f"] (.file [3] false)

/-- At first the way is not there and, when it has been made, a file is where a directory is to be made.
    Then the way is there and comes by that file. -/
theorem rerun_differs :
    let first := climbingRelease.run stillClock climbingTree
    let second := climbingRelease.run laterClock first.tree
    Repeatable climbingRelease climbingTree ∧
      SameChecks climbingRelease climbingTree first.tree ∧
      (∀ c ∈ climbingRelease.companions, climbingTree.isFile c = true) ∧
      first.result = .error (.error (.outputDirectory ⟨"/x/../f/c"⟩ .alreadyExists)) ∧
      second.result = .error (.error (.outputDirectory ⟨"/x/../f/c"⟩ .notDirectory)) := by
  refine ⟨?_, fun _ => ⟨rfl, rfl⟩, by decide +kernel, ?_, ?_⟩
  · exact repeatable_of_checks (by decide +kernel) (by decide +kernel) (by decide +kernel)
      (scripted_performs _ _) (scripted_sets_binary _) fun _ _ _ => rfl
  · decide +kernel
  · decide +kernel

end Release
end ReleaseMatrix
