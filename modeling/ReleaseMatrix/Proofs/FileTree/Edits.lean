import ReleaseMatrix.Proofs.FileTree.Child

/- Fixed edits of a tree. What they leave at a place they touch does not depend on what was there, so to
   make them twice is to make them once. Removing and writing a file of a plain name are such edits. -/
namespace ReleaseMatrix.FileTree

open ReleaseMatrix.Path

variable {t u : FileTree} {place : Location} {e : Entry} {base : Path} {name : String}

/-- Places with what is to stand there, if anything. -/
abbrev Edits := List (Location × Option Entry)

def edit (t : FileTree) : Location × Option Entry → FileTree
  | (loc, some e) => t.put loc e
  | (loc, none) => t.erase loc

def amend (t : FileTree) (edits : Edits) : FileTree := edits.foldl edit t

def settle (edits : Edits) (loc : Location) (found : Option Entry) : Option Entry :=
  edits.foldl (fun found change => if change.1 = loc then change.2 else found) found

theorem put_entries (t : FileTree) (place : Location) (e : Entry) (loc : Location) :
    (t.put place e).entries[loc]? = if place = loc then some e else t.entries[loc]? := by
  simp only [put, Std.ExtTreeMap.getElem?_insert, Std.LawfulEqCmp.compare_eq_iff_eq]

theorem erase_entries (t : FileTree) (place loc : Location) :
    (t.erase place).entries[loc]? = if place = loc then none else t.entries[loc]? := by
  simp only [erase, Std.ExtTreeMap.getElem?_erase, Std.LawfulEqCmp.compare_eq_iff_eq]

theorem edit_entries (t : FileTree) (change : Location × Option Entry) (loc : Location) :
    (t.edit change).entries[loc]? = if change.1 = loc then change.2 else t.entries[loc]? := by
  obtain ⟨place, _ | e⟩ := change
  · exact erase_entries t place loc
  · exact put_entries t place e loc

theorem amend_entries (t : FileTree) (edits : Edits) (loc : Location) :
    (t.amend edits).entries[loc]? = settle edits loc t.entries[loc]? := by
  induction edits generalizing t with
  | nil => rfl
  | cons change rest ih =>
    have later := ih (t.edit change)
    rw [edit_entries] at later
    exact later

theorem settle_cases (edits : Edits) (loc : Location) :
    (∀ found, settle edits loc found = found) ∨ ∃ left, ∀ found, settle edits loc found = left := by
  induction edits with
  | nil => exact .inl fun _ => rfl
  | cons change rest ih =>
    simp only [settle, List.foldl_cons]
    rcases ih with passes | ⟨left, leaves⟩
    · by_cases here : change.1 = loc
      · exact .inr ⟨change.2, fun found => by rw [if_pos here]; exact passes change.2⟩
      · exact .inl fun found => by rw [if_neg here]; exact passes found
    · exact .inr ⟨left, fun found => leaves _⟩

theorem amend_again (t : FileTree) (edits : Edits) : (t.amend edits).amend edits = t.amend edits := by
  apply tree_ext
  intro loc
  rw [amend_entries, amend_entries]
  rcases settle_cases edits loc with passes | ⟨left, leaves⟩
  · rw [passes]
  · rw [leaves, leaves]

theorem amend_append (t : FileTree) (first later : Edits) :
    t.amend (first ++ later) = (t.amend first).amend later := List.foldl_append

theorem put_standing (below : place ≠ []) (there : t.entry? place = some e) : t.put place e = t := by
  have kept : t.entries[place]? = some e := by
    cases place with
    | nil => exact absurd rfl below
    | cons name outer => exact there
  apply tree_ext
  intro loc
  rw [put_entries]
  split
  · rename_i here
    rw [← here, kept]
  · rfl

theorem erase_free (below : place ≠ []) (free : t.entry? place = none) : t.erase place = t := by
  have unset := (entry_free_iff below).mp free
  apply tree_ext
  intro loc
  rw [erase_entries]
  split
  · rename_i here
    rw [← here, unset]
  · rfl

theorem edit_standing {entry : Option Entry} (below : place ≠ []) (there : t.entry? place = entry) :
    t.edit (place, entry) = t := by
  cases entry with
  | none => exact erase_free below there
  | some e => exact put_standing below there

theorem edited_entry {entry : Option Entry} (below : place ≠ []) :
    entry? (t.edit (place, entry)) place = entry := by
  cases entry with
  | none => exact entry_erase_self below
  | some e => exact entry_put_self below

theorem put_erase : (t.erase place).put place e = t.put place e := by
  apply tree_ext
  intro loc
  rw [put_entries, put_entries, erase_entries]
  split <;> rfl

def roomFor (t : FileTree) (base : Path) (name : String) : Except IoError Location :=
  match childSlot base name with
  | .error e => .error e
  | .ok _ =>
    if t.entry? (name :: placeOf base) = some .directory then .error .isDirectory
    else .ok (name :: placeOf base)

theorem roomFor_congr (kind : t.entry? (name :: placeOf base) = some .directory ↔
    u.entry? (name :: placeOf base) = some .directory) : t.roomFor base name = u.roomFor base name := by
  unfold roomFor
  simp only [kind]

theorem roomFor_place (room : t.roomFor base name = .ok place) :
    place = name :: placeOf base ∧ t.entry? place ≠ some .directory ∧
      childSlot base name = .ok (.named place false) := by
  unfold roomFor at room
  rcases childSlot_cases base name with ⟨e, refused, _⟩ | named
  · simp [refused] at room
  · simp only [named] at room
    split at room
    · simp at room
    · rename_i other
      obtain rfl := Except.ok.inj room
      exact ⟨rfl, other, named⟩

def modeAt (t : FileTree) (loc : Location) : Bool :=
  match t.entry? loc with
  | some (.file _ executable) => executable
  | _ => false

theorem Reached.child_remove (reached : Reached t base) (plain : Plain name.toList) :
    t.removeIfPresent (base.join ⟨name⟩) = (t.roomFor base name).map t.erase := by
  have slot := reached.child_slot plain
  rcases childSlot_cases base name with ⟨e, refused, found⟩ | named
  · have result : t.removeIfPresent (base.join ⟨name⟩) = .error e := by
      rw [removeIfPresent, remove, slot, refused]
      cases e <;> first | rfl | exact absurd rfl found
    rw [result, roomFor, refused]
    rfl
  · rw [named] at slot
    have below := (slot_named slot).not_top
    simp only [removeIfPresent, remove, slot, roomFor, named]
    cases standing : t.entry? (name :: placeOf base) with
    | none => simp [Except.map, erase_free below standing]
    | some e => cases e <;> simp [Except.map]

theorem Reached.child_write (reached : Reached t base) (plain : Plain name.toList) (content : Bytes) :
    t.write (base.join ⟨name⟩) content =
      (t.roomFor base name).map fun place => t.put place (.file content (t.modeAt place)) := by
  have slot := reached.child_slot plain
  rcases childSlot_cases base name with ⟨e, refused, _⟩ | named
  · rw [write, slot, refused, roomFor, refused]
    rfl
  · simp only [write, slot, roomFor, named]
    cases standing : t.entry? (name :: placeOf base) with
    | none => simp [Except.map, modeAt, standing]
    | some e => cases e <;> simp [Except.map, modeAt, standing]

end ReleaseMatrix.FileTree
