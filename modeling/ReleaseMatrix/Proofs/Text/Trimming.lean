import Mathlib.Data.List.DropRight
import ReleaseMatrix.Text

/- Cutting a text at a separator and trimming it, each tied to what the parts have to be. -/
namespace ReleaseMatrix.Text

variable {sep : Char} {cs front rest whole core : List Char}

theorem cut?_here (rest : List Char) (free : sep ∉ front) :
    cut? sep (front ++ sep :: rest) = some (front, rest) := by
  induction front with
  | nil => simp [cut?]
  | cons c cs ih =>
    simp only [List.mem_cons, not_or] at free
    simp [cut?, Ne.symm free.1, ih free.2]

theorem cut?_none_iff : cut? sep cs = none ↔ sep ∉ cs := by
  induction cs with
  | nil => simp [cut?]
  | cons c cs ih =>
    by_cases here : c = sep
    · simp [cut?, here]
    · simp [cut?, here, ih, Ne.symm here]

theorem cut?_some_iff : cut? sep cs = some (front, rest) ↔ cs = front ++ sep :: rest ∧ sep ∉ front := by
  constructor
  · intro cut
    induction cs generalizing front with
    | nil => simp [cut?] at cut
    | cons c cs ih =>
      by_cases here : c = sep
      · simp only [cut?, here, if_true, Option.some.injEq, Prod.mk.injEq] at cut
        obtain ⟨rfl, rfl⟩ := cut
        simp [here]
      · simp only [cut?, here, if_false, Option.map_eq_some_iff, Prod.mk.injEq, Prod.exists] at cut
        obtain ⟨before, after, cut, rfl, rfl⟩ := cut
        obtain ⟨whole, free⟩ := ih cut
        exact ⟨by rw [whole, List.cons_append], by simp [Ne.symm here, free]⟩
  · rintro ⟨rfl, free⟩
    exact cut?_here rest free

theorem trimLeft_trimRight (clean : trimLeft cs = cs) : trimLeft (trimRight cs) = trimRight cs := by
  obtain ⟨rest, whole⟩ : trimRight cs <+: cs := List.rdropWhile_prefix isBlank cs
  generalize trimRight cs = front at whole ⊢
  subst whole
  refine List.dropWhile_eq_self_iff.mpr fun some_ => ?_
  have first := List.dropWhile_eq_self_iff.mp clean (by rw [List.length_append]; omega)
  rwa [List.getElem_append_left some_] at first

theorem trimLeft_trimList (cs : List Char) : trimLeft (trimList cs) = trimList cs :=
  trimLeft_trimRight (List.dropWhile_idempotent isBlank cs)

theorem trimRight_trimList (cs : List Char) : trimRight (trimList cs) = trimList cs :=
  List.rdropWhile_idempotent isBlank _

theorem trimList_trimList (cs : List Char) : trimList (trimList cs) = trimList cs := by
  rw [trimList, trimLeft_trimList, trimRight_trimList]

theorem trimList_clean (clean : ∀ c ∈ cs, isBlank c = false) : trimList cs = cs := by
  have left : trimLeft cs = cs :=
    List.dropWhile_eq_self_iff.mpr fun some_ => by simp [clean _ (List.getElem_mem some_)]
  have right : trimRight cs = cs :=
    List.rdropWhile_eq_self_iff.mpr fun some_ => by simp [clean _ (List.getLast_mem some_)]
  rw [trimList, left, right]

/-- A text, and what is left of it without the blanks around it. -/
structure Trims (whole core : List Char) : Prop where
  around : ∃ before after, whole = before ++ core ++ after ∧ ∀ c ∈ before ++ after, isBlank c = true
  opens : ∀ c ∈ core.head?, isBlank c = false
  ends : ∀ c ∈ core.getLast?, isBlank c = false

theorem trimLeft_opens (cs : List Char) : ∀ c ∈ (trimLeft cs).head?, isBlank c = false := by
  intro c first
  have visible := List.head?_dropWhile_not isBlank cs
  rwa [show (cs.dropWhile isBlank).head? = some c from first] at visible

theorem trimLeft_blank (blank : ∀ c ∈ front, isBlank c = true)
    (opens : ∀ c ∈ core.head?, isBlank c = false) : trimLeft (front ++ core) = core := by
  rw [trimLeft, List.dropWhile_append_of_pos blank]
  cases core with
  | nil => rfl
  | cons c cs => exact List.dropWhile_cons_of_neg (by simp [opens c rfl])

theorem trimRight_eq (cs : List Char) : trimRight cs = (trimLeft cs.reverse).reverse := rfl

theorem trimList_trims (cs : List Char) : Trims cs (trimList cs) where
  around := by
    have inner : trimList cs ++ (trimLeft cs).rtakeWhile isBlank = trimLeft cs :=
      List.rdropWhile_append_rtakeWhile
    refine ⟨cs.takeWhile isBlank, (trimLeft cs).rtakeWhile isBlank, ?_, ?_⟩
    · rw [List.append_assoc, inner]
      exact List.takeWhile_append_dropWhile.symm
    · intro c mem
      rcases List.mem_append.mp mem with before | after
      · exact List.mem_takeWhile_imp before
      · exact List.mem_rtakeWhile_imp after
  opens := by
    rw [← trimLeft_trimList]
    exact trimLeft_opens _
  ends := by
    rw [trimList, trimRight_eq, List.getLast?_reverse]
    exact trimLeft_opens _

theorem trims_iff : Trims whole core ↔ trimList whole = core := by
  constructor
  · rintro ⟨⟨before, after, rfl, blank⟩, opens, ends⟩
    have blank_before : ∀ c ∈ before, isBlank c = true := fun c mem =>
      blank c (List.mem_append_left after mem)
    have blank_after : ∀ c ∈ after.reverse, isBlank c = true := fun c mem =>
      blank c (List.mem_append_right before (List.mem_reverse.mp mem))
    cases core with
    | nil =>
      have nothing : trimLeft (before ++ after ++ []) = [] := trimLeft_blank blank (by simp)
      rw [List.append_nil] at nothing ⊢
      rw [trimList, nothing]
      rfl
    | cons c cs =>
      have left : trimLeft (before ++ (c :: cs ++ after)) = c :: cs ++ after :=
        trimLeft_blank blank_before opens
      rw [trimList, List.append_assoc, left, trimRight_eq, List.reverse_append,
        trimLeft_blank blank_after (by rwa [List.head?_reverse]), List.reverse_reverse]
  · rintro rfl
    exact trimList_trims whole

theorem trim_eq_iff {s t : String} : trim s = t ↔ Trims s.toList t.toList := by
  rw [trims_iff, trim, ← String.toList_inj, String.toList_ofList]

theorem trim_eq_empty_iff {s : String} : trim s = "" ↔ allBlank s = true := by
  rw [trim_eq_iff, allBlank, List.all_eq_true]
  constructor
  · rintro ⟨⟨before, after, whole, blank⟩, _, _⟩ c mem
    rw [whole] at mem
    exact blank c (by simpa using mem)
  · intro blank
    exact ⟨⟨s.toList, [], by simp, by simpa using blank⟩, by simp, by simp⟩

end ReleaseMatrix.Text
