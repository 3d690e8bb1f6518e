import ReleaseMatrix.Proofs.FileTree.Walk

/- The last name of a path apart from the way to it: when a path has a slot, how the slot agrees
   with where the path leads, and what it takes for two trees to give the same one. -/
namespace ReleaseMatrix.FileTree

variable {t u : FileTree} {loc : Location} {e : Entry} {p : Path} {slash : Bool}

theorem target_hops {cs : List Char} {target : Target} (split : Target.ofText cs = some target) :
    hopsOf cs = target.before ++ target.last :: (if target.slash then [.here] else []) := by
  unfold Target.ofText at split
  split at split
  · simp at split
  · rename_i last before backwards
    have forwards : (Text.splitAll '/' cs).filterMap Hop.ofPiece = before.reverse ++ [last] := by
      rw [← List.reverse_reverse (List.filterMap _ _), backwards, List.reverse_cons]
    obtain rfl := Option.some.inj split
    simp only [hopsOf, forwards]
    cases Path.endsWithSlash cs <;> simp

/-- What a path asks of every tree: it is refused by its text alone, it is the top, or it is cut
   into a way and a last hop. -/
inductive Cut (p : Path) : Prop where
  | refused (e : IoError) (slots : ∀ t : FileTree, t.slot p = .error e)
      (ways : ∀ t : FileTree, t.locate p = .error e)
  | top (slots : ∀ t : FileTree, t.slot p = .ok .reached)
  | target (target : Target) (split : Target.ofText p.text.toList = some target)
      (slots : ∀ t : FileTree, t.slot p = t.slotOf target)
      (ways : ∀ t : FileTree, t.locate p = t.walk [] (hopsOf p.text.toList))

theorem path_cut (p : Path) : Cut p := by
  by_cases empty : p.text = ""
  · exact .refused .notFound (fun t => by simp [slot, empty]) fun t => by simp [locate, empty]
  · by_cases nul : Text.contains p.text '\x00'
    · exact .refused .nulInPath (fun t => by simp [slot, empty, nul])
        fun t => by simp [locate, empty, nul]
    · cases split : Target.ofText p.text.toList with
      | none => exact .top fun t => by simp [slot, empty, nul, split]
      | some target =>
        exact .target target split (fun t => by simp [slot, empty, nul, split])
          fun t => by simp [locate, empty, nul]

theorem target_front_on_trail {target : Target}
    (split : Target.ofText p.text.toList = some target) :
    ∀ l ∈ trailFrom [] target.before, l ∈ trail p := by
  intro l mem
  rw [trail, target_hops split]
  exact trail_from_front _ _ _ l mem

theorem slot_congr (same : ∀ l ∈ trail p, t.entry? l = u.entry? l) : t.slot p = u.slot p := by
  cases path_cut p with
  | refused e slots ways => rw [slots t, slots u]
  | top slots => rw [slots t, slots u]
  | target target split slots ways =>
    have front := target_front_on_trail split
    rw [slots t, slots u, slotOf, slotOf, walk_congr fun l mem => same l (front l mem)]
    cases arrived : u.walk [] target.before with
    | error e => rfl
    | ok dir =>
      have onTrail : dir ∈ trail p := by
        rw [(walk_passes arrived).1]
        exact front _ (follow_mem_trail _ _)
      simp only [step_congr (same dir onTrail)]

theorem slot_kept {s : Slot} (kept : KeepsDirectories t u) (ok : t.slot p = .ok s) :
    u.slot p = .ok s := by
  cases path_cut p with
  | refused e slots ways => simp [slots t] at ok
  | top slots => rw [slots u, ← slots t, ok]
  | target target split slots ways =>
    rw [slots t, slotOf] at ok
    rw [slots u, slotOf]
    cases arrived : t.walk [] target.before with
    | error e => simp [arrived] at ok
    | ok dir =>
      rw [walk_kept kept arrived]
      simp only [arrived] at ok ⊢
      cases last : t.step dir target.last with
      | error e => simp [last] at ok
      | ok next =>
        have inside := step_inside last
        have again : u.step dir target.last = t.step dir target.last :=
          step_congr ((kept dir inside.1).trans inside.1.symm)
        simpa only [again, last] using ok

theorem slot_lost {e : IoError} (lost : t.slot p = .error e) : t.locate p = .error e := by
  cases path_cut p with
  | refused e' slots ways =>
    obtain rfl : e' = e := Except.error.inj ((slots t).symm.trans lost)
    exact ways t
  | top slots => simp [slots t] at lost
  | target target split slots ways =>
    rw [slots t, slotOf] at lost
    rw [ways t, target_hops split, walk_append]
    cases arrived : t.walk [] target.before with
    | error e' => simpa [arrived, Except.bind] using lost
    | ok dir =>
      simp only [arrived] at lost
      cases last : t.step dir target.last with
      | error e' => simpa [arrived, last, Except.bind, walk] using lost
      | ok next =>
        simp only [last] at lost
        cases named : target.last <;> simp [named] at lost

structure NamedAt (t : FileTree) (p : Path) (loc : Location) (slash : Bool) : Prop where
  inside : ∃ name dir, loc = name :: dir ∧ t.entry? dir = some .directory
  on_trail : loc ∈ trail p
  located : t.locate p = if slash then t.step loc .here else .ok loc

theorem slot_named (ok : t.slot p = .ok (.named loc slash)) : NamedAt t p loc slash := by
  cases path_cut p with
  | refused e slots ways => simp [slots t] at ok
  | top slots => simp [slots t] at ok
  | target target split slots ways =>
    rw [slots t, slotOf] at ok
    cases arrived : t.walk [] target.before with
    | error e => simp [arrived] at ok
    | ok dir =>
      simp only [arrived] at ok
      cases last : t.step dir target.last with
      | error e => simp [last] at ok
      | ok next =>
        simp only [last] at ok
        obtain ⟨inside, next_eq⟩ := step_inside last
        have dir_eq := (walk_passes arrived).1
        cases named : target.last with
        | here => simp [named] at ok
        | up => simp [named] at ok
        | name s =>
          simp only [named, Except.ok.injEq, Slot.named.injEq] at ok
          obtain ⟨rfl, rfl⟩ := ok
          rw [named] at next_eq last
          refine ⟨⟨s, dir, next_eq, inside⟩, ?_, ?_⟩
          · rw [trail, target_hops split, named]
            apply trail_from_append
            rw [← dir_eq, next_eq]
            exact List.mem_cons_of_mem dir (trail_from_start _ _)
          · rw [ways t, target_hops split, walk_append, arrived, named]
            simp only [Except.bind, walk, last]
            cases target.slash with
            | false => rfl
            | true =>
              simp only [if_true, walk]
              cases t.step next .here <;> rfl

namespace NamedAt

theorem not_top (named : NamedAt t p loc slash) : loc ≠ [] := by
  obtain ⟨name, dir, rfl, _⟩ := named.inside
  simp

theorem place (named : NamedAt t p loc false) : loc = placeOf p :=
  (locate_passes (by simpa using named.located)).1

theorem missing (named : NamedAt t p loc slash) (free : t.entry? loc = none) :
    t.open? p = .error .notFound := by
  have nowhere : t.step loc .here = .error .notFound := by simp [step, free]
  cases slash with
  | false => simp [open?, named.located, free]
  | true => simp [open?, named.located, nowhere]

theorem standing (named : NamedAt t p loc false) (here : t.entry? loc = some e) :
    t.open? p = .ok e :=
  open_of_located (by simpa using named.located) here

end NamedAt

end ReleaseMatrix.FileTree
