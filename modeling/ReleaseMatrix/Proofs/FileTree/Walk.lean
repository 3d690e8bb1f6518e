import ReleaseMatrix.Proofs.FileTree.Lookup

/- Where paths lead. A way only depends on what stands at the places of its trail; a way that leads
   somewhere only depends on the directories it passes. -/
namespace ReleaseMatrix.FileTree

variable {t u : FileTree} {place loc dest : Location} {e : Entry} {p : Path}

def follow (loc : Location) (hops : List Hop) : Location := hops.foldl Hop.next loc

/-- The place that a path leads to when nothing stands in the way. -/
def placeOf (p : Path) : Location := follow [] (hopsOf p.text.toList)

def KeepsDirectories (t u : FileTree) : Prop :=
  ∀ loc, t.entry? loc = some .directory → u.entry? loc = some .directory

theorem step_congr {hop : Hop} (same : t.entry? loc = u.entry? loc) :
    t.step loc hop = u.step loc hop := by
  simp [step, same]

theorem step_inside {hop : Hop} (ok : t.step loc hop = .ok dest) :
    t.entry? loc = some .directory ∧ dest = hop.next loc := by
  unfold step at ok
  cases standing : t.entry? loc with
  | none => simp [standing] at ok
  | some e =>
    cases e with
    | file content executable => simp [standing] at ok
    | directory =>
      refine ⟨rfl, ?_⟩
      simp only [standing] at ok
      cases hop with
      | here => exact (Except.ok.inj ok).symm
      | up => exact (Except.ok.inj ok).symm
      | name s =>
        simp only at ok
        split at ok
        · simp at ok
        · exact (Except.ok.inj ok).symm

theorem trail_from_start (loc : Location) (hops : List Hop) : loc ∈ trailFrom loc hops := by
  cases hops <;> simp [trailFrom]

theorem trail_from_append (loc : Location) (first rest : List Hop) :
    ∀ l ∈ trailFrom (follow loc first) rest, l ∈ trailFrom loc (first ++ rest) := by
  induction first generalizing loc with
  | nil => intro l mem; exact mem
  | cons hop first ih =>
    intro l mem
    exact List.mem_cons_of_mem loc (ih (hop.next loc) l mem)

theorem trail_from_front (loc : Location) (first rest : List Hop) :
    ∀ l ∈ trailFrom loc first, l ∈ trailFrom loc (first ++ rest) := by
  induction first generalizing loc with
  | nil =>
    intro l mem
    rw [List.mem_singleton.mp mem]
    exact trail_from_start loc rest
  | cons hop first ih =>
    intro l mem
    rcases List.mem_cons.mp mem with same | later
    · subst l; exact List.mem_cons_self
    · exact List.mem_cons_of_mem loc (ih (hop.next loc) l later)

theorem follow_mem_trail (loc : Location) (hops : List Hop) : follow loc hops ∈ trailFrom loc hops := by
  simpa using trail_from_append loc hops [] _ (trail_from_start _ [])

theorem walk_append (loc : Location) (first rest : List Hop) :
    t.walk loc (first ++ rest) = (t.walk loc first).bind fun mid => t.walk mid rest := by
  induction first generalizing loc with
  | nil => rfl
  | cons hop first ih =>
    simp only [List.cons_append, walk]
    cases t.step loc hop with
    | error e => rfl
    | ok next => exact ih next

theorem walk_congr {hops : List Hop} (same : ∀ l ∈ trailFrom loc hops, t.entry? l = u.entry? l) :
    t.walk loc hops = u.walk loc hops := by
  induction hops generalizing loc with
  | nil => rfl
  | cons hop rest ih =>
    simp only [walk]
    rw [step_congr (same loc (trail_from_start _ _))]
    cases first : u.step loc hop with
    | error e => rfl
    | ok next =>
      obtain ⟨_, rfl⟩ := step_inside first
      exact ih fun l mem => same l (List.mem_cons_of_mem _ mem)

theorem walk_kept {hops : List Hop} (kept : KeepsDirectories t u) (ok : t.walk loc hops = .ok dest) :
    u.walk loc hops = .ok dest := by
  induction hops generalizing loc with
  | nil => exact ok
  | cons hop rest ih =>
    simp only [walk] at ok ⊢
    cases first : t.step loc hop with
    | error e => simp [first] at ok
    | ok next =>
      have inside := step_inside first
      have again : u.step loc hop = t.step loc hop :=
        step_congr ((kept loc inside.1).trans inside.1.symm)
      rw [again, first]
      exact ih (by simpa [first] using ok)

theorem walk_passes {hops : List Hop} (ok : t.walk loc hops = .ok dest) :
    dest = follow loc hops ∧
      ∀ l ∈ trailFrom loc hops, l = dest ∨ t.entry? l = some .directory := by
  induction hops generalizing loc with
  | nil =>
    have arrived : loc = dest := Except.ok.inj ok
    exact ⟨arrived.symm, fun l mem => .inl ((List.mem_singleton.mp mem).trans arrived)⟩
  | cons hop rest ih =>
    simp only [walk] at ok
    cases first : t.step loc hop with
    | error e => simp [first] at ok
    | ok next =>
      obtain ⟨inside, rfl⟩ := step_inside first
      obtain ⟨arrived, passed⟩ := ih (by simpa [first] using ok)
      refine ⟨arrived, fun l mem => ?_⟩
      rcases List.mem_cons.mp mem with same | later
      · subst l; exact .inr inside
      · exact passed l later

theorem place_mem_trail (p : Path) : placeOf p ∈ trail p := follow_mem_trail [] _

theorem locate_congr (same : ∀ l ∈ trail p, t.entry? l = u.entry? l) : t.locate p = u.locate p := by
  simp only [locate]
  rw [walk_congr same]

theorem locate_passes (ok : t.locate p = .ok dest) :
    dest = placeOf p ∧ ∀ l ∈ trail p, l = dest ∨ t.entry? l = some .directory := by
  simp only [locate] at ok
  split at ok
  · simp at ok
  · split at ok
    · simp at ok
    · exact walk_passes ok

theorem open_of_located (ok : t.locate p = .ok dest) (standing : t.entry? dest = some e) :
    t.open? p = .ok e := by
  simp [open?, ok, standing]

theorem located_of_open (ok : t.open? p = .ok e) :
    t.locate p = .ok (placeOf p) ∧ t.entry? (placeOf p) = some e := by
  unfold open? at ok
  split at ok
  · simp at ok
  · rename_i dest found
    rw [← (locate_passes found).1]
    split at ok
    · simp at ok
    · rename_i standing
      exact ⟨found, standing.trans (congrArg some (Except.ok.inj ok))⟩

theorem locate_kept (kept : KeepsDirectories t u) (ok : t.locate p = .ok dest) :
    u.locate p = .ok dest := by
  unfold locate at ok ⊢
  split at ok
  · simp at ok
  · rename_i some_text
    split at ok
    · simp at ok
    · rename_i clean
      rw [if_neg some_text, if_neg clean]
      exact walk_kept kept ok

theorem open_kept (kept : KeepsDirectories t u) (ok : t.open? p = .ok e)
    (standing : u.entry? (placeOf p) = some e) : u.open? p = .ok e :=
  open_of_located (locate_kept kept (located_of_open ok).1) standing

theorem open_congr (same : ∀ l ∈ trail p, t.entry? l = u.entry? l) : t.open? p = u.open? p := by
  simp only [open?]
  rw [locate_congr same]
  cases arrived : u.locate p with
  | error e => rfl
  | ok dest =>
    have last : dest ∈ trail p := (locate_passes arrived).1 ▸ place_mem_trail p
    simp only [same dest last]

end ReleaseMatrix.FileTree
