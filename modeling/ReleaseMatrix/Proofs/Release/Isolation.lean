import ReleaseMatrix.Proofs.Archive.SameResult
import ReleaseMatrix.Proofs.Release.Planning
import ReleaseMatrix.Proofs.Release.Scripted

/- Variants do not see each other: what the variants before one have left in the output directory makes
   no difference to its outcome, so it ends as it does in a run of its own. -/
namespace ReleaseMatrix.Release

open FileTree Archive

variable {r : Release} {planned : List PlannedVariant} {t u : FileTree} {p : PlannedVariant}
variable {s : Stamp} {c : Path}

/-- A path that comes by the place of an output only where that is a directory. -/
def Clear (r : Release) (planned : List PlannedVariant) (t : FileTree) (c : Path) : Prop :=
  ∀ loc ∈ trail c, IsOutput r planned loc → t.entry? loc = some .directory

theorem clear_of_file {e : Entry} (there : t.open? c = .ok e)
    (apart : ¬ IsOutput r planned (placeOf c)) : Clear r planned t c := by
  obtain ⟨located, _⟩ := located_of_open there
  intro loc mem output
  rcases (locate_passes located).2 loc mem with rfl | passed
  · exact absurd output apart
  · exact passed

theorem Clear.kept (clear : Clear r planned t c) (kept : KeepsDirectories t u) :
    Clear r planned u c := fun loc mem output => kept loc (clear loc mem output)

theorem Clear.undisturbed (clear : Clear r planned t c) (alike : Undisturbed r planned t u) :
    Clear r planned u c := fun loc mem output => (alike.directories loc output).mpr (clear loc mem output)

theorem companion_same (alike : Undisturbed r planned t u) (mem : c ∈ r.companions)
    (clear : Clear r planned t c) : t.open? c = u.open? c := by
  refine open_congr fun l on_trail => ?_
  by_cases output : IsOutput r planned l
  · have standing := clear l on_trail output
    rw [standing, (alike.directories l output).mpr standing]
  · exact (alike.same l (.inr ⟨c, List.mem_cons_of_mem _ mem, on_trail⟩) output).symm

structure Shared (r : Release) (planned : List PlannedVariant) (t u : FileTree) : Prop where
  names : PlainOutputs r planned
  alike : Undisturbed r planned t u
  here : Reached t r.layout.outputDir
  clear : ∀ c ∈ r.companions, Clear r planned t c
  faults : ∀ v (a b : FileTree), r.faults v a = r.faults v b

namespace Shared

theorem there (shared : Shared r planned t u) : Reached u r.layout.outputDir :=
  shared.alike.reached shared.names shared.here

theorem sample_same (shared : Shared r planned t u) : SameRead t u r.sampleFile := by
  have plain := Path.plain_of_fileName shared.names.sample_plain
  have same := shared.alike.sample shared.names
  exact shared.here.child_read shared.there plain (congrArg _ same.symm)

theorem sources_same (shared : Shared r planned t u)
    (binary : SameRead t u (r.layout.outputFile ⟨p.variant.target.binaryName⟩)) :
    ∀ entry ∈ r.packager.entries p.variant, SameRead t u entry.source := by
  have companion : ∀ c ∈ r.companions, SameRead t u c := fun c mem =>
    .of_same (companion_same shared.alike mem (shared.clear c mem))
  intro entry mem
  simp only [Packager.entries, List.mem_cons, List.not_mem_nil, or_false] at mem
  rcases mem with rfl | rfl | rfl | rfl
  · exact binary
  · exact companion _ List.mem_cons_self
  · exact shared.sample_same
  · exact companion _ (List.mem_cons_of_mem _ List.mem_cons_self)

theorem target_same (shared : Shared r planned t u) (mem : p ∈ planned) :
    SameTarget t u (r.packager.destination p.variant) := by
  have plain := shared.names.archive mem
  have slot := shared.here.child_slot plain
  have slot_too := shared.there.child_slot plain
  refine ⟨slot.trans slot_too.symm, ?_⟩
  intro place slash named
  have child := slot.symm.trans named
  rcases childSlot_cases r.layout.outputDir p.variant.target.archiveName with ⟨e, refused, _⟩ | ok
  · rw [refused] at child
    simp at child
  · rw [ok] at child
    obtain ⟨rfl, _⟩ := Slot.named.inj (Except.ok.inj child)
    exact (shared.alike.directories _ (archive_output mem)).symm

theorem start_same (shared : Shared r planned t u) (mem : p ∈ planned) :
    SameStart t u (r.packager.destination p.variant) := by
  have plain := shared.names.archive mem
  obtain ⟨up, parent, _, here⟩ := shared.here.child_parent plain
  obtain ⟨up_too, parent_too, _, there⟩ := shared.there.child_parent plain
  obtain rfl : up = up_too := Option.some.inj (parent.symm.trans parent_too)
  have found : (r.packager.destination p.variant).parent = some up := parent
  unfold SameStart
  rw [found, Option.getD_some, here.child_slot temporary_plain, there.child_slot temporary_plain]

theorem describe_same {packer : Packager} {v : NormalizedVariant}
    (same : t.open? (packer.destination v) = u.open? (packer.destination v)) :
    packer.describe v s t = packer.describe v s u := by
  have new_same : Artifact.new t (packer.destination v) v.label =
      Artifact.new u (packer.destination v) v.label := by
    simp only [Artifact.new, same]
  have path : (Artifact.new u (packer.destination v) v.label).path = packer.destination v := rfl
  simp only [Packager.describe, new_same, Artifact.withDigest, path, FileTree.read, same]

theorem packing_same (shared : Shared r planned t u) (mem : p ∈ planned)
    (binary : SameRead t u (r.layout.outputFile ⟨p.variant.target.binaryName⟩)) :
    (r.packVariant s p.variant t).2 = (r.packVariant s p.variant u).2 := by
  have sources := shared.sources_same binary
  have results : (r.packager.writing (r.faults p.variant t) p.variant t).result =
      (r.packager.writing (r.faults p.variant u) p.variant u).result := by
    rw [shared.faults p.variant t u]
    exact writing_same (shared.start_same mem) (shared.target_same mem) sources
  have left := pack_step r s p.variant t
  have right := pack_step r s p.variant u
  generalize r.packVariant s p.variant t = first at left
  generalize r.packVariant s p.variant u = second at right
  cases left with
  | failed e fault =>
    cases right with
    | failed e' fault' =>
      obtain rfl : e = e' := Except.error.inj (fault.symm.trans (results.trans fault'))
      rfl
    | packed place members after done slot other complete landed there =>
      rw [fault, done] at results
      simp at results
  | packed place members after done slot other complete landed there =>
    cases right with
    | failed e fault =>
      rw [fault, done] at results
      simp at results
    | packed place' members' after' done' slot' other' complete' landed' there' =>
      obtain rfl : members = members' := complete_same sources complete complete'
      rw [describe_same (there.trans there'.symm)]

theorem clearing_same (shared : Shared r planned t u) (mem : p ∈ planned) (s : Stamp) :
    (∃ e, t.removeIfPresent (r.request s p.variant).binary = .error e ∧
        u.removeIfPresent (r.request s p.variant).binary = .error e) ∨
      ∃ a b, t.removeIfPresent (r.request s p.variant).binary = .ok a ∧
        u.removeIfPresent (r.request s p.variant).binary = .ok b := by
  have kind := shared.alike.directories _ (binary_output mem)
  have left := binary_clearing shared.names mem shared.here (s := s)
  have right := binary_clearing shared.names mem shared.there (s := s)
  generalize t.removeIfPresent (r.request s p.variant).binary = x at left ⊢
  generalize u.removeIfPresent (r.request s p.variant).binary = y at right ⊢
  cases left with
  | refused e slot =>
    cases right with
    | refused e' slot' =>
      obtain rfl := Except.error.inj (slot.symm.trans slot')
      exact .inl ⟨e, rfl, rfl⟩
    | directory slot' there => simp [slot] at slot'
    | cleared b slot' other gone same => simp [slot] at slot'
  | directory slot there =>
    cases right with
    | refused e' slot' => simp [slot] at slot'
    | directory slot' there' => exact .inl ⟨_, rfl, rfl⟩
    | cleared b slot' other gone same => exact absurd (kind.mpr there) other
  | cleared a slot other gone same =>
    cases right with
    | refused e' slot' => simp [slot] at slot'
    | directory slot' there => exact absurd (kind.mp there) other
    | cleared b slot' other' gone' same' => exact .inr ⟨a, b, rfl, rfl⟩

theorem compiled_same (shared : Shared r planned t u) (mem : p ∈ planned)
    (only : r.compiler.Local (InView r planned)) {a b : FileTree}
    (clear : t.removeIfPresent (r.request s p.variant).binary = .ok a)
    (clear_too : u.removeIfPresent (r.request s p.variant).binary = .ok b) :
    let left := r.compiler.compile (r.request s p.variant) a
    let right := r.compiler.compile (r.request s p.variant) b
    left.2 = right.2 ∧ Shared r planned left.1 right.1 ∧
      SameRead left.1 right.1 (r.layout.outputFile ⟨p.variant.target.binaryName⟩) := by
  have plain := shared.names.binary mem
  have first := compiling_undisturbed shared.names mem shared.here only clear
  have second := compiling_undisturbed shared.names mem shared.there only clear_too
  -- The trees differ, but in both of them the place of the binary is free for the compiler.
  obtain ⟨_, slot, free⟩ := binary_cleared shared.names mem shared.here clear
  obtain ⟨_, slot_too, free_too⟩ := binary_cleared shared.names mem shared.there clear_too
  obtain ⟨result, written, calls⟩ := only (r.request s p.variant)
  obtain ⟨after, call, content, _⟩ := calls a _ slot free
  obtain ⟨after_too, call_too, content_too, _⟩ := calls b _ slot_too free_too
  rw [call] at first ⊢
  rw [call_too] at second ⊢
  have here := first.reached shared.names shared.here
  have there := second.reached shared.names shared.there
  refine ⟨rfl, ?_, ?_⟩
  · exact ⟨shared.names, first.symm.trans (shared.alike.trans second), here,
      fun c mem => (shared.clear c mem).undisturbed first, shared.faults⟩
  · exact here.child_read there plain (content.trans content_too.symm)

theorem variant_same (shared : Shared r planned t u) (mem : p ∈ planned)
    (only : r.compiler.Local (InView r planned)) (s : Stamp) :
    (r.buildVariant s p.variant t).outcome = (r.buildVariant s p.variant u).outcome := by
  rcases shared.clearing_same mem s with ⟨e, stuck, stuck_too⟩ | ⟨a, b, clear, clear_too⟩
  · simp only [buildVariant, stuck, stuck_too]
  · obtain ⟨ended, compiled, binary⟩ := shared.compiled_same mem only clear clear_too
    simp only [buildVariant, clear, clear_too, ended]
    cases (r.compiler.compile (r.request s p.variant) b).2 with
    | error e => rfl
    | ok path => exact compiled.packing_same mem binary

end Shared

def only (r : Release) (i : Nat) : Release := { r with options := { r.options with index := some i } }

/-- What keeps variants apart: an epoch that is pinned, plain names, companions that no output is in
    the way of, and tools that change no more than their own output. -/
structure Independent (r : Release) (planned : List PlannedVariant) (t : FileTree) : Prop where
  whole : r.options.index = none
  pinned : (Stamp.pinned? r.epoch).isSome = true
  plan : r.plan? = .ok planned
  plain : ∀ name ∈ outputNames planned, Path.fileName ⟨name⟩ = some name
  sample_apart : r.config.generator.output ∉ outputNames planned
  companions_clear : ∀ c ∈ r.companions, Clear r planned t c
  generator : r.generator.SetsOutput r.config.generator.output
  compiler : r.compiler.Local (InView r planned)
  faults : ∀ v (a b : FileTree), r.faults v a = r.faults v b

theorem stamp_pinned {config : Config} {epoch : Option String} {now later : Time.LocalTime}
    (pinned : (Stamp.pinned? epoch).isSome = true) :
    Stamp.ofConfig config epoch now = Stamp.ofConfig config epoch later := by
  obtain ⟨raw, some_text⟩ := Option.isSome_iff_exists.mp pinned
  simp only [Stamp.ofConfig, Stamp.timeText, some_text]

namespace Independent

variable {clock : Clock} {stamp : Stamp} {i : Nat}

theorem names (setting : Independent r planned t) : PlainOutputs r planned :=
  ⟨setting.plain, Config.sample_plain (selection_of_plan setting.plan).1, setting.sample_apart⟩

theorem generated (setting : Independent r planned t) {made after : FileTree}
    (directory : t.makeDirectories r.layout.outputDir = (made, none))
    (generation : (r.generator.generate r.layout made).1 = after) :
    Reached after r.layout.outputDir ∧ ∀ c ∈ r.companions, Clear r planned after c := by
  obtain ⟨added, there⟩ := directories_made directory
  have kept : KeepsDirectories made after := by
    rcases setting.generator r.layout made with unchanged | ⟨content, written⟩
    · rw [← generation, unchanged]
      exact .refl made
    · obtain ⟨place, executable, slot, other, put⟩ := written_file written
      rw [← generation, put]
      exact .put (slot_named slot).not_top other
  have reached := Reached.of_directory there
  refine ⟨reached.along fun l mem => kept l (reached.passed l mem), ?_⟩
  intro c mem
  exact ((setting.companions_clear c mem).kept added).kept kept

end Independent

def plansPlainNames (r : Release) : Bool :=
  match r.plan? with
  | .error _ => false
  | .ok planned => (outputNames planned).all fun name =>
      Path.fileName ⟨name⟩ == some name && name != r.config.generator.output

theorem plain_names (checked : r.plansPlainNames = true) (plan : r.plan? = .ok planned) :
    (∀ name ∈ outputNames planned, Path.fileName ⟨name⟩ = some name) ∧
      r.config.generator.output ∉ outputNames planned := by
  simp only [plansPlainNames, plan, List.all_eq_true, Bool.and_eq_true, beq_iff_eq,
    bne_iff_ne] at checked
  exact ⟨fun name mem => (checked name mem).1, fun taken => (checked _ taken).2 rfl⟩

/-- Companions that are there, and not as deep as the outputs are. -/
theorem companions_clear (apart : ∀ c ∈ r.companions, (t.open? c).isOk = true ∧
    (placeOf c).length ≠ (placeOf r.layout.outputDir).length + 1) :
    ∀ c ∈ r.companions, Clear r planned t c := by
  intro c mem
  obtain ⟨there, depth⟩ := apart c mem
  cases opened : t.open? c with
  | error e => simp [opened, Except.isOk, Except.toBool] at there
  | ok e =>
    refine clear_of_file opened ?_
    rintro ⟨name, _, same⟩
    exact depth (by rw [same, List.length_cons])

theorem small_plain : smallRelease.plansPlainNames = true := by decide +kernel

theorem small_apart : ∀ c ∈ smallRelease.companions, (smallTree.open? c).isOk = true ∧
    (placeOf c).length ≠ (placeOf smallRelease.layout.outputDir).length + 1 := by decide +kernel

end ReleaseMatrix.Release
