import ReleaseMatrix.Proofs.Archive.AllOrNothing
import ReleaseMatrix.Proofs.FileTree.Child
import ReleaseMatrix.Proofs.Release.Steps

/- The files that a run may change: the binaries and archives of the planned variants, by plain names
   in the output directory. Everything else that packing depends on is left alone by every variant. -/
namespace ReleaseMatrix

open FileTree

def Generator.SetsOutput (g : Generator) (output : String) : Prop :=
  ∀ (l : Layout) (t : FileTree), (g.generate l t).1 = t ∨
    ∃ content, t.write (l.outputFile ⟨output⟩) content = .ok (g.generate l t).1

/-- A compiler whose result and binary only depend on the request, wherever the place of the binary is
    free, and that leaves the other places in view alone. -/
def Compiler.Local (c : Compiler) (inView : Location → Prop) : Prop :=
  ∀ request : CompileRequest, ∃ (result : Except BuildError Path) (written : Option Bytes),
    ∀ (t : FileTree) (place : Location),
      t.slot request.binary = .ok (.named place false) → t.entry? place = none →
        ∃ after, c.compile request t = (after, result) ∧
          (after.entry? place).map Entry.read = written.map .ok ∧
          ∀ loc, inView loc → loc ≠ place → after.entry? loc = t.entry? loc

namespace Release

def outputNames (planned : List PlannedVariant) : List String :=
  planned.flatMap fun p => [p.variant.target.binaryName, p.variant.target.archiveName]

variable (r : Release) (planned : List PlannedVariant)

def IsOutput (loc : Location) : Prop :=
  ∃ name ∈ outputNames planned, loc = name :: placeOf r.layout.outputDir

def companions : List Path :=
  [r.layout.projectFile r.config.project.readme, r.layout.projectFile r.config.project.license]

def sampleFile : Path := r.layout.outputFile ⟨r.config.generator.output⟩

/-- The places that packing comes by: those of the outputs, the sample configuration and the
    companions, with the ways there. -/
def InView (loc : Location) : Prop :=
  IsOutput r planned loc ∨ ∃ p ∈ r.sampleFile :: r.companions, loc ∈ trail p

structure Undisturbed (t u : FileTree) : Prop where
  same : ∀ loc, InView r planned loc → ¬ IsOutput r planned loc → u.entry? loc = t.entry? loc
  directories : ∀ loc, IsOutput r planned loc →
    (u.entry? loc = some .directory ↔ t.entry? loc = some .directory)

structure PlainOutputs : Prop where
  plain : ∀ name ∈ outputNames planned, Path.fileName ⟨name⟩ = some name
  sample_plain : Path.fileName ⟨r.config.generator.output⟩ = some r.config.generator.output
  sample_apart : r.config.generator.output ∉ outputNames planned

variable {r : Release} {planned : List PlannedVariant} {t u v : FileTree} {p : PlannedVariant}
variable {s : Stamp}

namespace Undisturbed

theorem refl (t : FileTree) : Undisturbed r planned t t :=
  ⟨fun _ _ _ => rfl, fun _ _ => Iff.rfl⟩

theorem symm (alike : Undisturbed r planned t u) : Undisturbed r planned u t :=
  ⟨fun loc view other => (alike.same loc view other).symm,
    fun loc output => (alike.directories loc output).symm⟩

theorem trans (first : Undisturbed r planned t u) (second : Undisturbed r planned u v) :
    Undisturbed r planned t v :=
  ⟨fun loc view other => (second.same loc view other).trans (first.same loc view other),
    fun loc output => (second.directories loc output).trans (first.directories loc output)⟩

theorem at_output {place : Location} (output : IsOutput r planned place)
    (before : t.entry? place ≠ some .directory) (after : u.entry? place ≠ some .directory)
    (same : ∀ loc, InView r planned loc → loc ≠ place → u.entry? loc = t.entry? loc) :
    Undisturbed r planned t u := by
  refine ⟨?_, ?_⟩
  · intro loc view other
    refine same loc view ?_
    rintro rfl
    exact other output
  · intro loc output_too
    by_cases here : loc = place
    · subst loc
      exact ⟨fun there => absurd there after, fun there => absurd there before⟩
    · rw [same loc (.inl output_too) here]

theorem reached (alike : Undisturbed r planned t u) (names : PlainOutputs r planned)
    (here : Reached t r.layout.outputDir) : Reached u r.layout.outputDir := by
  refine here.along fun l mem => ?_
  have standing := here.passed l mem
  by_cases output : IsOutput r planned l
  · exact (alike.directories l output).mpr standing
  · have plain := Path.plain_of_fileName names.sample_plain
    have on_trail : l ∈ trail r.sampleFile := (child_trail_iff _ plain).mpr (.inl mem)
    have view : InView r planned l := .inr ⟨_, List.mem_cons_self, on_trail⟩
    rw [alike.same l view output, standing]

theorem sample (alike : Undisturbed r planned t u) (names : PlainOutputs r planned) :
    u.entry? (r.config.generator.output :: placeOf r.layout.outputDir) =
      t.entry? (r.config.generator.output :: placeOf r.layout.outputDir) := by
  have plain := Path.plain_of_fileName names.sample_plain
  refine alike.same _ (.inr ⟨_, List.mem_cons_self, (child_trail_iff _ plain).mpr (.inr rfl)⟩) ?_
  rintro ⟨name, mem, same⟩
  obtain ⟨rfl, _⟩ := List.cons.inj same
  exact names.sample_apart mem

end Undisturbed

theorem binary_output (mem : p ∈ planned) :
    IsOutput r planned (p.variant.target.binaryName :: placeOf r.layout.outputDir) :=
  ⟨_, List.mem_flatMap.mpr ⟨p, mem, by simp⟩, rfl⟩

theorem archive_output (mem : p ∈ planned) :
    IsOutput r planned (p.variant.target.archiveName :: placeOf r.layout.outputDir) :=
  ⟨_, List.mem_flatMap.mpr ⟨p, mem, by simp⟩, rfl⟩

namespace PlainOutputs

variable (names : PlainOutputs r planned) (mem : p ∈ planned)
include names mem

theorem binary : Path.Plain p.variant.target.binaryName.toList :=
  Path.plain_of_fileName (names.plain _ (List.mem_flatMap.mpr ⟨p, mem, by simp⟩))

theorem archive : Path.Plain p.variant.target.archiveName.toList :=
  Path.plain_of_fileName (names.plain _ (List.mem_flatMap.mpr ⟨p, mem, by simp⟩))

end PlainOutputs

section Frame

variable (names : PlainOutputs r planned) (mem : p ∈ planned) (here : Reached t r.layout.outputDir)
include names mem here

theorem packing_undisturbed (s : Stamp) :
    Undisturbed r planned t (r.packVariant s p.variant t).1 := by
  have packing := pack_step r s p.variant t
  generalize r.packVariant s p.variant t = packed at packing
  cases packing with
  | failed e fault => exact .refl t
  | packed place members after done slot other complete landed there =>
    have child := slot.symm.trans (here.child_slot (names.archive mem))
    rcases childSlot_cases r.layout.outputDir p.variant.target.archiveName with ⟨e, refused, _⟩ | named
    · rw [refused] at child
      simp at child
    · rw [named] at child
      obtain ⟨rfl, _⟩ := Slot.named.inj (Except.ok.inj child)
      have below := (slot_named slot).not_top
      rw [landed]
      refine .at_output (archive_output mem) other ?_ fun loc _ apart => entry_put_other below apart
      rw [entry_put_self below]
      simp

theorem binary_clearing : Clearing t r.layout.outputDir p.variant.target.binaryName
    (t.removeIfPresent (r.request s p.variant).binary) := here.child_clearing (names.binary mem)

theorem binary_cleared {cleared : FileTree}
    (clear : t.removeIfPresent (r.request s p.variant).binary = .ok cleared) :
    Undisturbed r planned t cleared ∧
      cleared.slot (r.request s p.variant).binary =
        .ok (.named (p.variant.target.binaryName :: placeOf r.layout.outputDir) false) ∧
      cleared.entry? (p.variant.target.binaryName :: placeOf r.layout.outputDir) = none := by
  have clearing := binary_clearing names mem here (s := s)
  rw [clear] at clearing
  cases clearing with
  | cleared _ slot other gone same =>
    have first : Undisturbed r planned t cleared :=
      .at_output (binary_output mem) other (by simp [gone]) fun loc _ apart => same loc apart
    exact ⟨first, ((first.reached names here).child_slot (names.binary mem)).trans slot, gone⟩

theorem compiling_undisturbed (only : r.compiler.Local (InView r planned)) {cleared : FileTree}
    (clear : t.removeIfPresent (r.request s p.variant).binary = .ok cleared) :
    Undisturbed r planned t (r.compiler.compile (r.request s p.variant) cleared).1 := by
  obtain ⟨first, slot, free⟩ := binary_cleared names mem here clear
  obtain ⟨result, written, calls⟩ := only (r.request s p.variant)
  obtain ⟨after, call, content, rest⟩ := calls cleared _ slot free
  rw [call]
  refine first.trans (.at_output (binary_output mem) (by simp [free]) ?_ rest)
  intro directory
  rw [directory] at content
  cases written <;> simp [Entry.read] at content

theorem variant_undisturbed (only : r.compiler.Local (InView r planned)) (s : Stamp) :
    Undisturbed r planned t (r.buildVariant s p.variant t).tree := by
  have step := variant_step r s p.variant t
  generalize r.buildVariant s p.variant t = built at step
  cases step with
  | stuck e fault => exact .refl t
  | uncompiled cleared run e clear call fault =>
    rw [← call]
    exact compiling_undisturbed names mem here only clear
  | compiled cleared run path clear call done =>
    have compiled := compiling_undisturbed names mem here only clear
    rw [call] at compiled
    exact compiled.trans (packing_undisturbed names mem (compiled.reached names here) s)

end Frame

theorem loop_undisturbed (names : PlainOutputs r planned) (only : r.compiler.Local (InView r planned))
    (s : Stamp) (clock : Clock) (total position : Nat) {some_planned : List PlannedVariant}
    (within : ∀ p ∈ some_planned, p ∈ planned) (here : Reached t r.layout.outputDir) :
    Undisturbed r planned t (r.buildFrom s clock total position t some_planned).1 := by
  -- Every variant leaves the output directory where it is, which the next one relies on.
  induction some_planned generalizing position t with
  | nil => exact .refl t
  | cons p rest ih =>
    have first := variant_undisturbed names (within p List.mem_cons_self) here only s
    have later := ih (position + 1) (fun q mem => within q (List.mem_cons_of_mem _ mem))
      (first.reached names here)
    exact first.trans later

end Release
end ReleaseMatrix
