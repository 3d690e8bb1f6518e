import ReleaseMatrix.Proofs.Build.Layout

/- Where the output directory lies. The rules of a configuration refuse the spellings of the project
   root that consist of dots; what else comes back to the root goes up on its way, or starts at the top. -/
namespace ReleaseMatrix

open FileTree ReleaseMatrix.Path

variable {root dir : Path} {loc : Location} {comps : List Component}

structure Course where
  ups : Nat
  down : List String
  deriving DecidableEq, Repr

namespace Course

def go : Course → Hop → Course
  | c, .here => c
  | ⟨ups, []⟩, .up => ⟨ups + 1, []⟩
  | ⟨ups, _ :: down⟩, .up => ⟨ups, down⟩
  | ⟨ups, down⟩, .name s => ⟨ups, s :: down⟩

def leads (c : Course) (loc : Location) : Location := c.down ++ loc.drop c.ups

theorem leads_go (c : Course) (hop : Hop) (loc : Location) :
    (c.go hop).leads loc = hop.next (c.leads loc) := by
  obtain ⟨ups, down⟩ := c
  cases hop with
  | here => rfl
  | name s => rfl
  | up =>
    cases down with
    | nil => simp [go, leads, Hop.next, List.tail_drop]
    | cons s down => rfl

theorem leads_all (c : Course) (hops : List Hop) (loc : Location) :
    (hops.foldl go c).leads loc = follow (c.leads loc) hops := by
  induction hops generalizing c with
  | nil => rfl
  | cons hop rest ih =>
    rw [List.foldl_cons, ih, leads_go]
    rfl

/-- A course comes back where it goes down by the names that it has gone up from. -/
theorem leads_back_iff (c : Course) (loc : Location) :
    c.leads loc = loc ↔ c.down = loc.take c.ups := by
  constructor
  · intro returns
    have parts : c.down ++ loc.drop c.ups = loc.take c.ups ++ loc.drop c.ups :=
      returns.trans (List.take_append_drop c.ups loc).symm
    exact List.append_cancel_right parts
  · intro same
    rw [leads, same, List.take_append_drop]

end Course

namespace Path

def course (p : Path) : Course := (p.components.map Component.hop).foldl Course.go ⟨0, []⟩

theorem place_course (root : Path) (relative : dir.isAbsolute = false) :
    placeOf (root.join dir) = dir.course.leads (placeOf root) := by
  rw [place_join root relative, ← follow_components, course, Course.leads_all]
  rfl

theorem level_course (level : .parent ∉ comps) (down : List String) :
    ∃ names, (comps.map Component.hop).foldl Course.go ⟨0, down⟩ = ⟨0, names ++ down⟩ ∧
      (names = [] → ∀ s, .name s ∉ comps) := by
  induction comps generalizing down with
  | nil => exact ⟨[], rfl, by simp⟩
  | cons c rest ih =>
    rw [List.mem_cons, not_or] at level
    cases c with
    | parent => exact absurd rfl level.1
    | root => simpa [Component.hop, Course.go] using ih level.2 down
    | current => simpa [Component.hop, Course.go] using ih level.2 down
    | name s =>
      -- the names after this one are deeper, so they come before it
      obtain ⟨names, course, _⟩ := ih level.2 (s :: down)
      refine ⟨names ++ [s], ?_, by simp⟩
      rw [List.append_assoc]
      exact course

end Path

/-- A spelling of the project root that is not made of dots alone. -/
def ReturnsTo (root dir : Path) : Prop :=
  dir.isAbsolute = true ∧ placeOf dir = placeOf root ∨
    dir.isAbsolute = false ∧ .parent ∈ dir.components ∧
      dir.course.down = (placeOf root).take dir.course.ups

instance (root dir : Path) : Decidable (ReturnsTo root dir) := inferInstanceAs (Decidable (_ ∨ _))

theorem level_below (relative : dir.isAbsolute = false) (apart : Config.isProjectRoot dir = false)
    (level : .parent ∉ dir.components) :
    dir.course.ups = 0 ∧ dir.course.down ≠ [] := by
  obtain ⟨names, course, nameless⟩ := level_course level []
  rw [← Path.course, List.append_nil] at course
  rw [course]
  refine ⟨rfl, ?_⟩
  intro unnamed
  obtain ⟨c, mem, other⟩ : ∃ c ∈ dir.components, c ≠ .current := by
    simpa [Config.isProjectRoot] using apart
  have step := components_steps relative c mem
  cases c with
  | root => exact step
  | current => exact other rfl
  | parent => exact level mem
  | name s => exact nameless unnamed s mem

theorem at_root_iff (apart : Config.isProjectRoot dir = false) (root : Path) :
    placeOf (root.join dir) = placeOf root ↔ ReturnsTo root dir := by
  unfold ReturnsTo
  by_cases absolute : dir.isAbsolute = true
  · simp [absolute, join_absolute root absolute]
  · rw [Bool.not_eq_true] at absolute
    rw [place_course root absolute, Course.leads_back_iff]
    simp only [absolute, Bool.false_eq_true, false_and, false_or, true_and]
    refine ⟨fun same => ⟨?_, same⟩, fun returns => returns.2⟩
    by_contra level
    obtain ⟨flat, named⟩ := level_below absolute apart level
    rw [flat, List.take_zero] at same
    exact named same

def FileOf (root q : Path) : Prop :=
  ∃ file : String, Plain file.toList ∧ placeOf q = placeOf (root.join ⟨file⟩)

theorem fileOf_child_iff {name : String} (plain : Plain name.toList) :
    FileOf root (dir.join ⟨name⟩) ↔ placeOf dir = placeOf root := by
  unfold FileOf
  rw [place_child dir plain]
  constructor
  · rintro ⟨file, named, same⟩
    rw [place_child root named] at same
    exact (List.cons.inj same).2
  · intro same
    refine ⟨name, plain, ?_⟩
    rw [place_child root plain, same]

/-- Where a run that is configured by the rules has its files, among them the sample configuration that
    it removes before it is generated. -/
structure OutputPlace (root : Path) (c : Config) (l : Layout) : Prop where
  at_root_iff : placeOf l.outputDir = placeOf root ↔ ReturnsTo root c.build.outputDir
  below : c.build.outputDir.isAbsolute = false → .parent ∉ c.build.outputDir.components →
    ∃ names, names ≠ [] ∧ placeOf l.outputDir = names ++ placeOf root
  file_iff : ∀ name : String, Plain name.toList →
    (FileOf root (l.outputFile ⟨name⟩) ↔ ReturnsTo root c.build.outputDir)
  sample_iff : FileOf root ((CommandGenerator.ofConfig c).target l) ↔
    ReturnsTo root c.build.outputDir

theorem output_place (root : Path) (c : Config) (valid : c.validate = .ok ()) :
    OutputPlace root c (Layout.new root c.build.outputDir) := by
  have apart := Config.output_named valid
  have file_iff : ∀ name : String, Plain name.toList →
      (FileOf root ((root.join c.build.outputDir).join ⟨name⟩) ↔ ReturnsTo root c.build.outputDir) := by
    intro name plain
    rw [fileOf_child_iff plain, at_root_iff apart root]
  refine ⟨at_root_iff apart root, ?_, file_iff, ?_⟩
  · intro relative level
    obtain ⟨flat, named⟩ := level_below relative apart level
    refine ⟨_, named, ?_⟩
    show placeOf (root.join c.build.outputDir) = _
    rw [place_course root relative, Course.leads, flat, List.drop_zero]
  · exact file_iff _ (plain_of_fileName (Config.sample_plain valid))

/-- Steps up do no harm where other names follow them. -/
theorem sibling_output_place :
    ({ build := { outputDir := ⟨"../out//dist"⟩ } } : Config).validate = .ok () ∧
      placeOf (Layout.new ⟨"/work/demo"⟩ ⟨"../out//dist"⟩).outputDir ≠ placeOf ⟨"/work/demo"⟩ ∧
      ¬ FileOf ⟨"/work/demo"⟩ ((Layout.new ⟨"/work/demo"⟩ ⟨"../out//dist"⟩).outputFile ⟨"demo"⟩) := by
  have valid : ({ build := { outputDir := ⟨"../out//dist"⟩ } } : Config).validate = .ok () := by
    decide +kernel
  have away : ¬ ReturnsTo ⟨"/work/demo"⟩ ⟨"../out//dist"⟩ := by decide +kernel
  have place := output_place ⟨"/work/demo"⟩ _ valid
  have plain : Plain "demo".toList := plain_of_fileName (by decide)
  exact ⟨valid, fun same => away (place.at_root_iff.mp same),
    fun file => away ((place.file_iff "demo" plain).mp file)⟩

/-- A name and a step up are accepted, and are the root. -/
theorem root_accepted_as_output : ¬ ∀ (root : Path) (c : Config), root.isAbsolute = true →
    c.validate = .ok () → placeOf (Layout.new root c.build.outputDir).outputDir ≠ placeOf root := by
  intro apart
  have valid : ({ build := { outputDir := ⟨"x/.."⟩ } } : Config).validate = .ok () := by
    decide +kernel
  exact apart ⟨"/work/demo"⟩ _ (by decide) valid (by decide +kernel)

end ReleaseMatrix
