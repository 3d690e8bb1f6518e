import Mathlib
import ReleaseMatrix.Archive.Writer
import ReleaseMatrix.Proofs.FileTree.Change
import ReleaseMatrix.Proofs.Path
import ReleaseMatrix.Proofs.Text.Decimal

/- The place of a temporary file: it is free, and no path of the call comes by it. So what a call
   reads and where it writes is the same with the temporary file there as without it. -/
namespace ReleaseMatrix.Archive

open FileTree

variable {t u : FileTree} {dir temporary : Location} {paths : List Path} {p : Path}

theorem temporaryName_injective {m n : Nat} (same : temporaryName m = temporaryName n) : m = n := by
  unfold temporaryName at same
  rw [String.append_left_inj, String.append_right_inj] at same
  exact Decimal.zeroPadded_injective same

theorem temporary_plain : Path.Plain (temporaryName 0).toList :=
  ⟨by decide +kernel, by decide +kernel, by decide +kernel, by decide +kernel⟩

/-- There are more candidates than places that are taken. -/
theorem candidate_free (dir : Location) (taken : List Location) :
    ∃ n, n < taken.length + 1 ∧ temporaryName n :: dir ∉ taken := by
  by_contra full
  have all_taken : ∀ n < taken.length + 1, temporaryName n :: dir ∈ taken := by
    intro n bound
    by_contra free
    exact full ⟨n, bound, free⟩
  -- One candidate more than there are places cannot be all among them.
  have distinct : ((List.range (taken.length + 1)).map fun n => temporaryName n :: dir).Nodup :=
    List.nodup_range.map fun _ _ same => temporaryName_injective (List.cons.inj same).1
  have short : ((List.range (taken.length + 1)).map fun n => temporaryName n :: dir).length ≤
      taken.length := by
    apply distinct.length_le_of_subset
    intro place mem
    obtain ⟨n, bound, rfl⟩ := List.mem_map.mp mem
    exact all_taken n (List.mem_range.mp bound)
  rw [List.length_map, List.length_range] at short
  omega

structure Aside (t : FileTree) (paths : List Path) (place : Location) : Prop where
  named : ∃ n dir, place = temporaryName n :: dir
  free : t.entry? place = none
  off_trail : ∀ p ∈ paths, place ∉ trail p

theorem fresh_aside (t : FileTree) (dir : Location) (paths : List Path) :
    Aside t paths (freshPlace t dir paths) := by
  generalize taken_eq : t.entries.keys ++ paths.flatMap trail = taken
  obtain ⟨n, bound, free⟩ := candidate_free dir taken
  have found : ((List.range (taken.length + 1)).find? fun n =>
      !taken.contains (temporaryName n :: dir)).isSome := by
    rw [List.find?_isSome]
    exact ⟨n, List.mem_range.mpr bound, by simpa using free⟩
  obtain ⟨chosen, first⟩ := Option.isSome_iff_exists.mp found
  have outside : temporaryName chosen :: dir ∉ taken := by simpa using List.find?_some first
  have place_eq : freshPlace t dir paths = temporaryName chosen :: dir := by
    simp only [freshPlace, taken_eq, first, Option.getD_some]
  rw [place_eq]
  rw [← taken_eq, List.mem_append, not_or] at outside
  refine ⟨⟨chosen, dir, rfl⟩, ?_, ?_⟩
  · have absent := outside.1
    rw [Std.ExtTreeMap.mem_keys] at absent
    exact Std.ExtTreeMap.getElem?_eq_none absent
  · intro p mem on_trail
    exact outside.2 (List.mem_flatMap.mpr ⟨p, mem, on_trail⟩)

theorem temporary_made {directory : Path} (ok : makeTemporary t directory paths = .ok (u, temporary)) :
    Aside t paths temporary ∧ u = fill t temporary [] := by
  unfold makeTemporary at ok
  cases place : t.slot (directory.join ⟨temporaryName 0⟩) with
  | error e => simp [place] at ok
  | ok s =>
    cases s with
    | reached => simp [place] at ok
    | named loc slash =>
      simp only [place, Except.ok.injEq, Prod.mk.injEq] at ok
      obtain ⟨rfl, rfl⟩ := ok
      exact ⟨fresh_aside t loc.tail paths, rfl⟩

theorem fill_fill {earlier later : Bytes} :
    fill (fill t temporary earlier) temporary later = fill t temporary later :=
  put_put _

namespace Aside

theorem not_top (aside : Aside t paths temporary) : temporary ≠ [] := by
  obtain ⟨n, dir, rfl⟩ := aside.named
  simp

theorem entry_other (aside : Aside t paths temporary) (content : Bytes) {loc : Location}
    (apart : loc ≠ temporary) : entry? (fill t temporary content) loc = t.entry? loc :=
  entry_put_other aside.not_top apart

theorem same_on_trail (aside : Aside t paths temporary) (content : Bytes) (mem : p ∈ paths) :
    ∀ l ∈ trail p, entry? (fill t temporary content) l = t.entry? l := by
  intro l on_trail
  refine aside.entry_other content ?_
  rintro rfl
  exact aside.off_trail p mem on_trail

theorem slot (aside : Aside t paths temporary) (content : Bytes) (mem : p ∈ paths) :
    (fill t temporary content).slot p = t.slot p :=
  slot_congr (aside.same_on_trail content mem)

theorem opened (aside : Aside t paths temporary) (content : Bytes) (mem : p ∈ paths) :
    (fill t temporary content).open? p = t.open? p :=
  open_congr (aside.same_on_trail content mem)

theorem emptied (aside : Aside t paths temporary) (content : Bytes) :
    (fill t temporary content).erase temporary = t :=
  erase_put_free aside.not_top aside.free

end Aside

end ReleaseMatrix.Archive
