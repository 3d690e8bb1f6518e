import ReleaseMatrix.Proofs.FileTree.Slot

/- What the changes of a tree leave: a removed file is gone for every later look at its path, new
   directories stand where nothing stood, and directories stay directories. -/
namespace ReleaseMatrix.FileTree

variable {t u v : FileTree} {place loc : Location} {p q : Path} {content : Bytes} {executable : Bool}

namespace KeepsDirectories

theorem refl (t : FileTree) : KeepsDirectories t t := fun _ standing => standing

theorem trans (first : KeepsDirectories t u) (second : KeepsDirectories u v) :
    KeepsDirectories t v := fun loc standing => second loc (first loc standing)

theorem erase (below : place ≠ []) (other : t.entry? place ≠ some .directory) :
    KeepsDirectories t (t.erase place) := by
  intro loc standing
  have apart : loc ≠ place := by rintro rfl; exact other standing
  rw [entry_erase_other below apart, standing]

theorem put {e : Entry} (below : place ≠ []) (other : t.entry? place ≠ some .directory) :
    KeepsDirectories t (t.put place e) := by
  intro loc standing
  have apart : loc ≠ place := by rintro rfl; exact other standing
  rw [entry_put_other below apart, standing]

end KeepsDirectories

theorem removed_file (ok : t.remove p = .ok u) :
    ∃ loc content executable, NamedAt t p loc false ∧ t.slot p = .ok (.named loc false) ∧
      t.entry? loc = some (.file content executable) ∧ u = t.erase loc := by
  unfold remove at ok
  split at ok
  · simp at ok
  · simp at ok
  · rename_i loc slash found
    split at ok
    · simp at ok
    · simp at ok
    · rename_i content executable standing
      split at ok
      · simp at ok
      · rename_i plain
        obtain rfl : slash = false := by simpa using plain
        exact ⟨loc, content, executable, slot_named found, found, standing, (Except.ok.inj ok).symm⟩

theorem missing_of_remove (missing : t.remove p = .error .notFound) : t.exists? p = false := by
  unfold remove at missing
  split at missing
  · rename_i e lost
    simp [exists?, open?, slot_lost lost]
  · simp at missing
  · rename_i loc slash found
    split at missing
    · rename_i free
      simp [exists?, (slot_named found).missing free]
    · simp at missing
    · split at missing <;> simp at missing

theorem cleared_path (ok : t.removeIfPresent p = .ok u) :
    u.exists? p = false ∧ (u = t ∨ ∃ loc content executable, t.slot p = .ok (.named loc false) ∧
      t.entry? loc = some (.file content executable) ∧ u = t.erase loc) := by
  unfold removeIfPresent at ok
  split at ok
  · rename_i missing
    obtain rfl := Except.ok.inj ok
    exact ⟨missing_of_remove missing, .inl rfl⟩
  · obtain ⟨loc, content, executable, named, found, standing, rfl⟩ := removed_file ok
    have kept : KeepsDirectories t (t.erase loc) :=
      .erase named.not_top (by simp [standing])
    have gone := (slot_named (slot_kept kept found)).missing (entry_erase_self named.not_top)
    exact ⟨by simp [exists?, gone], .inr ⟨loc, content, executable, found, standing, rfl⟩⟩

theorem written_file (ok : t.write p content = .ok u) :
    ∃ loc executable, t.slot p = .ok (.named loc false) ∧ t.entry? loc ≠ some .directory ∧
      u = t.put loc (.file content executable) := by
  unfold write at ok
  split at ok
  · simp at ok
  · simp at ok
  · rename_i loc slash found
    split at ok
    · simp at ok
    all_goals
      rename_i standing
      split at ok
      · simp at ok
      · rename_i plain
        obtain rfl : slash = false := by simpa using plain
        exact ⟨loc, _, found, by simp [standing], (Except.ok.inj ok).symm⟩

/-- The second tree has everything of the first, and directories where the first has nothing. -/
def AddsDirectories (t u : FileTree) : Prop :=
  ∀ loc, u.entry? loc = t.entry? loc ∨ t.entry? loc = none ∧ u.entry? loc = some .directory

theorem open_written (ok : t.write p content = .ok u) :
    ∃ executable, u.open? p = .ok (.file content executable) := by
  obtain ⟨loc, executable, found, other, rfl⟩ := written_file ok
  have below := (slot_named found).not_top
  have kept : KeepsDirectories t (t.put loc (.file content executable)) := .put below other
  have named := slot_named (slot_kept kept found)
  exact ⟨executable, named.standing (entry_put_self below)⟩

theorem file_written (ok : t.write p content = .ok u) : u.isFile p = true := by
  obtain ⟨executable, opened⟩ := open_written ok
  simp only [isFile, opened]

theorem read_written (ok : t.write p content = .ok u) : u.read p = .ok content := by
  obtain ⟨executable, opened⟩ := open_written ok
  simp only [read, opened, Entry.read]

theorem written_elsewhere (ok : t.write p content = .ok u) (apart : loc ≠ placeOf p) :
    u.entry? loc = t.entry? loc := by
  obtain ⟨place, executable, found, _, rfl⟩ := written_file ok
  have named := slot_named found
  rw [← named.place] at apart
  exact entry_put_other named.not_top apart

theorem exists_of_written {e : Entry} (ok : t.write p content = .ok u)
    (standing : t.entry? (placeOf p) = some e) : t.exists? p = true := by
  obtain ⟨place, executable, found, _, rfl⟩ := written_file ok
  have named := slot_named found
  rw [← named.place] at standing
  simp only [exists?, named.standing standing]

theorem not_file_of_missing (missing : t.exists? p = false) : t.isFile p = false := by
  unfold exists? at missing
  unfold isFile
  split at missing
  · simp at missing
  · rename_i e lost
    rw [lost]

namespace AddsDirectories

theorem refl (t : FileTree) : AddsDirectories t t := fun _ => .inl rfl

theorem trans (first : AddsDirectories t u) (second : AddsDirectories u v) :
    AddsDirectories t v := by
  intro loc
  rcases second loc with same | ⟨free, added⟩
  · rw [same]; exact first loc
  · rcases first loc with before | ⟨_, taken⟩
    · exact .inr ⟨before ▸ free, added⟩
    · simp [taken] at free

theorem put (below : place ≠ []) (free : t.entry? place = none) :
    AddsDirectories t (t.put place .directory) := by
  intro loc
  by_cases same : loc = place
  · subst loc; exact .inr ⟨free, entry_put_self below⟩
  · exact .inl (entry_put_other below same)

theorem keeps (adds : AddsDirectories t u) : KeepsDirectories t u := by
  intro loc standing
  rcases adds loc with same | ⟨free, _⟩
  · rw [same, standing]
  · simp [standing] at free

end AddsDirectories

theorem made_directory (ok : t.makeDirectory p = .ok u) :
    AddsDirectories t u ∧ u.isDirectory p = true := by
  unfold makeDirectory at ok
  split at ok
  · simp at ok
  · simp at ok
  · rename_i loc slash found
    have named := slot_named found
    split at ok
    · simp at ok
    · rename_i free
      obtain rfl := Except.ok.inj ok
      have adds := AddsDirectories.put named.not_top free
      have again := slot_named (slot_kept adds.keeps found)
      have standing : entry? (t.put loc .directory) loc = some .directory :=
        entry_put_self named.not_top
      have located : (t.put loc .directory).locate p = .ok loc := by
        rw [again.located]
        cases slash <;> simp [step, standing]
      exact ⟨adds, by simp [isDirectory, open_of_located located standing]⟩

theorem ensured_directory (ok : t.ensureDirectory p = .ok u) :
    AddsDirectories t u ∧ u.isDirectory p = true := by
  unfold ensureDirectory at ok
  split at ok
  · rename_i made
    obtain rfl := Except.ok.inj ok
    exact made_directory made
  · split at ok
    · rename_i there
      obtain rfl := Except.ok.inj ok
      exact ⟨.refl t, there⟩
    · simp at ok

theorem nested_adds (t : FileTree) (paths : List Path) : AddsDirectories t (t.ensureNested paths).1 := by
  induction paths generalizing t with
  | nil => exact .refl t
  | cons p parents ih =>
    simp only [ensureNested]
    split
    · rename_i made
      exact (ensured_directory made).1
    · have outer := ih t
      split
      · rename_i stopped
        rwa [stopped] at outer
      · rename_i made reached
        rw [reached] at outer
        split
        · rename_i last
          exact outer.trans (ensured_directory last).1
        · exact outer
    · exact .refl t

theorem nested_directory (done : (t.ensureNested (p :: paths)).2 = none) :
    (t.ensureNested (p :: paths)).1.isDirectory p = true := by
  simp only [ensureNested] at done ⊢
  split at done
  · rename_i made
    simpa [made] using (ensured_directory made).2
  · rename_i missing
    split at done
    · simp at done
    · rename_i made reached
      split at done
      · rename_i last
        simpa [missing, reached, last] using (ensured_directory last).2
      · simp at done
  · simp at done

theorem directories_added (t : FileTree) (p : Path) : AddsDirectories t (t.makeDirectories p).1 :=
  nested_adds t p.ancestors

theorem directory_made (done : (t.makeDirectories p).2 = none) :
    (t.makeDirectories p).1.isDirectory p = true := by
  obtain ⟨parents, self⟩ : ∃ parents, p.ancestors = p :: parents := by
    unfold Path.ancestors
    cases p.text.length with
    | zero => exact ⟨[], rfl⟩
    | succ n =>
      simp only [Path.ancestorsFuel]
      split
      · exact ⟨[], rfl⟩
      · exact ⟨_, rfl⟩
  unfold makeDirectories at done ⊢
  rw [self] at done ⊢
  exact nested_directory done

theorem directories_made (done : t.makeDirectories p = (u, none)) :
    KeepsDirectories t u ∧ u.isDirectory p = true := by
  have adds := directories_added t p
  have there := directory_made (t := t) (p := p) (by rw [done])
  rw [done] at adds there
  exact ⟨adds.keeps, there⟩

theorem directory_place (there : t.isDirectory p = true) :
    t.locate p = .ok (placeOf p) ∧ t.entry? (placeOf p) = some .directory := by
  unfold isDirectory at there
  split at there
  · rename_i opened
    exact located_of_open opened
  · simp at there

end ReleaseMatrix.FileTree
