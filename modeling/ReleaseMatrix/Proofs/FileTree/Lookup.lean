import ReleaseMatrix.FileTree.Change

/- What stands at a place after one place has been filled or cleared. Every place but the top can
   change, and two trees with the same entries are the same tree. -/
namespace ReleaseMatrix.FileTree

variable {t u : FileTree} {place loc : Location} {e : Entry} {content : Bytes} {executable : Bool}

theorem entry_top (t : FileTree) : t.entry? [] = some .directory := rfl

theorem entry_put (below : place ≠ []) :
    entry? (t.put place e) loc = if loc = place then some e else t.entry? loc := by
  cases loc with
  | nil => simp [entry_top, Ne.symm below]
  | cons name outer =>
    simp only [ entry?, put, Std.ExtTreeMap.getElem?_insert, Std.LawfulEqCmp.compare_eq_iff_eq]
    by_cases same : place = name :: outer
    · simp [same]
    · simp [same, Ne.symm same]

theorem entry_erase (below : place ≠ []) :
    entry? (t.erase place) loc = if loc = place then none else t.entry? loc := by
  cases loc with
  | nil => simp [entry_top, Ne.symm below]
  | cons name outer =>
    simp only [ entry?, erase, Std.ExtTreeMap.getElem?_erase, Std.LawfulEqCmp.compare_eq_iff_eq]
    by_cases same : place = name :: outer
    · simp [same]
    · simp [same, Ne.symm same]

theorem entry_put_self (below : place ≠ []) : entry? (t.put place e) place = some e := by
  simp [entry_put below]

theorem entry_put_other (below : place ≠ []) (apart : loc ≠ place) :
    entry? (t.put place e) loc = t.entry? loc := by
  simp [entry_put below, apart]

theorem entry_erase_self (below : place ≠ []) : entry? (t.erase place) place = none := by
  simp [entry_erase below]

theorem entry_erase_other (below : place ≠ []) (apart : loc ≠ place) :
    entry? (t.erase place) loc = t.entry? loc := by
  simp [entry_erase below, apart]

/-- Also what is kept for the top counts, although it is never looked up. -/
theorem tree_ext (same : ∀ loc : Location, t.entries[loc]? = u.entries[loc]?) : t = u := by
  cases t; cases u
  congr 1
  exact Std.ExtTreeMap.ext_getElem? same

theorem entry_free_iff (below : place ≠ []) : t.entry? place = none ↔ t.entries[place]? = none := by
  cases place with
  | nil => exact absurd rfl below
  | cons name outer => rfl

theorem erase_put_free (below : place ≠ []) (free : t.entry? place = none) :
    (t.put place e).erase place = t := by
  have unset := (entry_free_iff below).mp free
  apply tree_ext
  intro loc
  simp only [erase, put, Std.ExtTreeMap.getElem?_erase, Std.ExtTreeMap.getElem?_insert,
    Std.LawfulEqCmp.compare_eq_iff_eq]
  by_cases same : place = loc
  · subst loc; simp [unset]
  · simp [same]

theorem put_put (d : Entry) : (t.put place d).put place e = t.put place e := by
  apply tree_ext
  intro loc
  simp only [put, Std.ExtTreeMap.getElem?_insert, Std.LawfulEqCmp.compare_eq_iff_eq]
  split <;> rfl

end ReleaseMatrix.FileTree
