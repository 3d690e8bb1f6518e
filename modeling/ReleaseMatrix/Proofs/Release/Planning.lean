import Mathlib.Data.List.Forall2
import ReleaseMatrix.Proofs.Config.Validation
import ReleaseMatrix.Proofs.Variant.Narrowing
import ReleaseMatrix.Proofs.Variant.Target
import ReleaseMatrix.Release.Plan

/- What a plan is, and which of several faults it reports: the first of the configuration, then of the
   index, then the first selected variant that is for no operating system. -/
namespace ReleaseMatrix.Release

variable {n : Normalizer} {c : Config} {ambient : List (String × String)} {index : Option Nat}
variable {entries : List (Nat × VariantDescriptor)} {planned : List PlannedVariant}

structure Planned (n : Normalizer) (ambient : List (String × String))
    (entry : Nat × VariantDescriptor) (p : PlannedVariant) : Prop where
  index : p.index = entry.1
  variant : n.normalize entry.2 ambient = .ok p.variant

theorem normalizeAll_ok_iff :
    normalizeAll n ambient entries = .ok planned ↔ List.Forall₂ (Planned n ambient) entries planned := by
  induction entries generalizing planned with
  | nil => simp [normalizeAll, eq_comm]
  | cons entry rest ih =>
    constructor
    · intro ok
      simp only [normalizeAll] at ok
      cases normal : n.normalize entry.2 ambient with
      | error e => simp [normal] at ok
      | ok v =>
        cases later : normalizeAll n ambient rest with
        | error e => simp [normal, later] at ok
        | ok plan =>
          simp only [normal, later, Except.ok.injEq] at ok
          subst ok
          exact .cons ⟨rfl, normal⟩ (ih.mp later)
    · rintro (_ | ⟨first, later⟩)
      simp only [normalizeAll, first.variant, ih.mpr later, ← first.index]

theorem normalizeAll_index (ok : normalizeAll n ambient entries = .ok planned) :
    planned.map PlannedVariant.index = entries.map Prod.fst := by
  have each := normalizeAll_ok_iff.mp ok
  clear ok
  induction each with
  | nil => rfl
  | cons first _ later => rw [List.map_cons, List.map_cons, first.index, later]

theorem normalizeAll_error_iff {e : VariantError} :
    normalizeAll n ambient entries = .error e ↔
      ∃ entry, entries.find? (fun entry => ¬ HasOs ambient entry.2) = some entry ∧
        e = .missingTargetOs entry.2.label := by
  induction entries with
  | nil => simp [normalizeAll]
  | cons entry rest ih =>
    by_cases has : HasOs ambient entry.2
    · obtain ⟨v, normal⟩ := Normalizer.normalize_ok_iff.mpr has
      rw [List.find?_cons_of_neg (by simp [has]), ← ih, normalizeAll, normal]
      cases normalizeAll n ambient rest <;> simp
    · rw [List.find?_cons_of_pos (by simp [has]), normalizeAll, Normalizer.normalize_without has]
      simp [eq_comm]

def chosen (variants : List VariantDescriptor) : Option Nat → List (Nat × VariantDescriptor)
  | none => variants.mapIdx fun k d => (k, d)
  | some i => (variants[i]?).toList.map fun d => (i, d)

theorem chosen_listed {variants : List VariantDescriptor} {entry : Nat × VariantDescriptor}
    (mem : entry ∈ chosen variants index) : variants[entry.1]? = some entry.2 := by
  cases index with
  | none =>
    obtain ⟨k, bound, rfl⟩ := List.mem_mapIdx.mp mem
    exact List.getElem?_eq_getElem bound
  | some i =>
    obtain ⟨d, listed, rfl⟩ := List.mem_map.mp mem
    exact Option.mem_toList.mp listed

def Within (c : Config) (index : Option Nat) : Prop := ∀ i ∈ index, i < c.variants.length

theorem whole_catalog (valid : c.validate = .ok ()) :
    ∃ catalog, c.catalog = .ok catalog ∧ catalog.entries = chosen c.variants none := by
  have listed := Config.variants_listed valid
  refine ⟨⟨Catalog.numberFrom 0 c.variants, Catalog.numberFrom_ne_nil listed⟩, ?_, ?_⟩
  · rw [Config.catalog, Catalog.new, dif_neg listed]
  · simp only [Catalog.numberFrom_eq, Nat.zero_add, chosen]

theorem selection_within (valid : c.validate = .ok ()) (within : Within c index) :
    ∃ catalog, selection c index = .ok catalog ∧ catalog.entries = chosen c.variants index := by
  obtain ⟨catalog, all, entries⟩ := whole_catalog valid
  cases index with
  | none => exact ⟨catalog, by simp only [selection, all, Catalog.narrow], entries⟩
  | some i =>
    have bound := within i rfl
    have here := List.getElem?_eq_getElem bound
    have entry : catalog.entries[i]? = some (i, c.variants[i]) := by
      rw [entries, chosen, List.getElem?_mapIdx, here, Option.map_some]
    refine ⟨⟨[(i, c.variants[i])], List.cons_ne_nil _ _⟩, ?_, ?_⟩
    · simp only [selection, all, Catalog.narrow, Catalog.select_within entry]
    · simp [chosen, here]

theorem selection_beyond (valid : c.validate = .ok ()) {i : Nat} (beyond : c.variants.length ≤ i) :
    selection c (some i) = .error (.indexOutOfRange i c.variants.length) := by
  obtain ⟨catalog, all, entries⟩ := whole_catalog valid
  have count : catalog.size = c.variants.length := by
    rw [Catalog.size, entries, chosen, List.length_mapIdx]
  have refused := Catalog.select_beyond (c := catalog) (count ▸ beyond)
  simp only [selection, all, Catalog.narrow, refused, count]

theorem plan_invalid {e : ProjectError} (fault : c.validate = .error e) :
    plan c ambient index = .error (.project e) := by
  simp only [plan, fault]

theorem plan_beyond (valid : c.validate = .ok ()) {i : Nat} (beyond : c.variants.length ≤ i) :
    plan c ambient (some i) = .error (.variant (.indexOutOfRange i c.variants.length)) := by
  simp only [plan, valid, selection_beyond valid beyond]

theorem plan_within (valid : c.validate = .ok ()) (within : Within c index) :
    plan c ambient index =
      (normalizeAll c.normalizer ambient (chosen c.variants index)).mapError .variant := by
  obtain ⟨catalog, selected, entries⟩ := selection_within valid within
  simp only [plan, valid, selected, entries]
  cases normalizeAll c.normalizer ambient (chosen c.variants index) <;> rfl

inductive PlanFault (c : Config) (ambient : List (String × String)) (index : Option Nat) :
    BuildError → Prop where
  | configuration (e : ProjectError) (fault : c.validate = .error e) :
      PlanFault c ambient index (.project e)
  | index (i : Nat) (valid : c.validate = .ok ()) (asked : index = some i)
      (beyond : c.variants.length ≤ i) :
      PlanFault c ambient index (.variant (.indexOutOfRange i c.variants.length))
  | targetOs (entry : Nat × VariantDescriptor) (valid : c.validate = .ok ()) (within : Within c index)
      (first : (chosen c.variants index).find? (fun entry => ¬ HasOs ambient entry.2) = some entry) :
      PlanFault c ambient index (.variant (.missingTargetOs entry.2.label))

theorem plan_cases (c : Config) (index : Option Nat) :
    (∃ e, c.validate = .error e) ∨ c.validate = .ok () ∧
      ((∃ i, index = some i ∧ c.variants.length ≤ i) ∨ Within c index) := by
  cases valid : c.validate with
  | error e => exact .inl ⟨e, rfl⟩
  | ok u =>
    refine .inr ⟨rfl, ?_⟩
    cases index with
    | none => exact .inr fun i asked => by cases asked
    | some i =>
      by_cases within : i < c.variants.length
      · refine .inr ?_
        rintro _ ⟨⟩
        exact within
      · exact .inl ⟨i, rfl, Nat.le_of_not_lt within⟩

theorem not_within {i : Nat} (beyond : c.variants.length ≤ i) : ¬ Within c (some i) := by
  intro within
  exact Nat.not_lt_of_le beyond (within i rfl)

theorem plan_error_iff {e : BuildError} :
    plan c ambient index = .error e ↔ PlanFault c ambient index e := by
  constructor
  · intro fault
    rcases plan_cases c index with ⟨e', invalid⟩ | ⟨valid, ⟨i, rfl, beyond⟩ | within⟩
    · rw [plan_invalid invalid] at fault
      cases fault
      exact .configuration e' invalid
    · rw [plan_beyond valid beyond] at fault
      cases fault
      exact .index i valid rfl beyond
    · rw [plan_within valid within] at fault
      cases normal : normalizeAll c.normalizer ambient (chosen c.variants index) with
      | ok planned => simp [normal, Except.mapError] at fault
      | error e' =>
        obtain ⟨entry, first, rfl⟩ := normalizeAll_error_iff.mp normal
        simp only [normal, Except.mapError, Except.error.injEq] at fault
        subst fault
        exact .targetOs entry valid within first
  · intro fault
    cases fault with
    | configuration e invalid => exact plan_invalid invalid
    | index i valid asked beyond =>
      subst asked
      exact plan_beyond valid beyond
    | targetOs entry valid within first =>
      rw [plan_within valid within, normalizeAll_error_iff.mpr ⟨entry, first, rfl⟩]
      rfl

theorem plan_ok_iff :
    plan c ambient index = .ok planned ↔ c.validate = .ok () ∧ Within c index ∧
      List.Forall₂ (Planned c.normalizer ambient) (chosen c.variants index) planned := by
  rw [← normalizeAll_ok_iff]
  rcases plan_cases c index with ⟨e, invalid⟩ | ⟨valid, ⟨i, rfl, beyond⟩ | within⟩
  · simp [plan_invalid invalid, invalid]
  · simp [plan_beyond valid beyond, not_within beyond]
  · rw [plan_within valid within]
    cases normalizeAll c.normalizer ambient (chosen c.variants index) <;>
      simp [Except.mapError, valid, within]

theorem planned_entry {p : PlannedVariant} (plan : Release.plan c ambient index = .ok planned)
    (mem : p ∈ planned) : ∃ d, c.variants[p.index]? = some d ∧
      c.normalizer.normalize d ambient = .ok p.variant := by
  have each := (plan_ok_iff.mp plan).2.2
  obtain ⟨k, bound, rfl⟩ := List.getElem_of_mem mem
  have listed : k < (chosen c.variants index).length := each.length_eq ▸ bound
  have entry := each.get listed bound
  exact ⟨_, entry.index ▸ chosen_listed (List.getElem_mem listed), entry.variant⟩

theorem plan_of_os (valid : c.validate = .ok ()) (within : Within c index)
    (has : ∀ entry ∈ chosen c.variants index, HasOs ambient entry.2) :
    ∃ planned, plan c ambient index = .ok planned := by
  rw [plan_within valid within]
  cases normal : normalizeAll c.normalizer ambient (chosen c.variants index) with
  | ok planned => exact ⟨planned, rfl⟩
  | error e =>
    obtain ⟨entry, first, _⟩ := normalizeAll_error_iff.mp normal
    have without := List.find?_some first
    exact absurd (has entry (List.mem_of_find?_eq_some first)) (of_decide_eq_true without)

/-- What a plan promises, whatever the configuration, the surroundings and the selection. -/
structure ExactPlan (c : Config) (ambient : List (String × String)) : Prop where
  fails_iff : ∀ index e, plan c ambient index = .error e ↔ PlanFault c ambient index e
  succeeds_iff : ∀ index planned, plan c ambient index = .ok planned ↔
    c.validate = .ok () ∧ Within c index ∧
      List.Forall₂ (Planned c.normalizer ambient) (chosen c.variants index) planned
  /-- The plan of the whole matrix has every variant, in order, under its number. -/
  whole : ∀ planned : List PlannedVariant, plan c ambient none = .ok planned →
    planned.length = c.variants.length ∧ ∀ (k : Nat) d, c.variants[k]? = some d →
      ∃ p, planned[k]? = some p ∧ p.index = k ∧ c.normalizer.normalize d ambient = .ok p.variant
  /-- Alone a variant is planned as in the whole matrix, and keeps its number. -/
  single : ∀ (planned : List PlannedVariant) (i : Nat) p, plan c ambient none = .ok planned →
    planned[i]? = some p → plan c ambient (some i) = .ok [p] ∧ p.index = i

theorem whole_length (plan : Release.plan c ambient none = .ok planned) :
    planned.length = c.variants.length := by
  have each := (plan_ok_iff.mp plan).2.2
  rw [← each.length_eq, chosen, List.length_mapIdx]

theorem whole_at (plan : Release.plan c ambient none = .ok planned) {k : Nat} {p : PlannedVariant}
    (here : planned[k]? = some p) :
    ∃ d, c.variants[k]? = some d ∧ Planned c.normalizer ambient (k, d) p := by
  have each := (plan_ok_iff.mp plan).2.2
  obtain ⟨bound, same⟩ := List.getElem?_eq_some_iff.mp here
  have listed : k < c.variants.length := whole_length plan ▸ bound
  have entry := each.get (i := k) (by rwa [chosen, List.length_mapIdx]) bound
  simp only [chosen, List.get_eq_getElem, List.getElem_mapIdx, same] at entry
  exact ⟨c.variants[k], List.getElem?_eq_getElem listed, entry⟩

theorem plan_alone (plan : Release.plan c ambient none = .ok planned) {i : Nat} {p : PlannedVariant}
    (here : planned[i]? = some p) : Release.plan c ambient (some i) = .ok [p] := by
  obtain ⟨d, listed, entry⟩ := whole_at plan here
  refine plan_ok_iff.mpr ⟨(plan_ok_iff.mp plan).1, ?_, ?_⟩
  · rintro _ ⟨⟩
    exact (List.getElem?_eq_some_iff.mp listed).1
  · rw [chosen, listed]
    exact .cons entry .nil

theorem plan_exact (c : Config) (ambient : List (String × String)) : ExactPlan c ambient where
  fails_iff index e := plan_error_iff
  succeeds_iff index planned := plan_ok_iff
  whole := by
    intro planned plan
    refine ⟨whole_length plan, ?_⟩
    intro k d listed
    have bound : k < planned.length := by
      rw [whole_length plan]
      exact (List.getElem?_eq_some_iff.mp listed).1
    obtain ⟨d', listed', entry⟩ := whole_at plan (List.getElem?_eq_getElem bound)
    obtain rfl : d = d' := Option.some.inj (listed.symm.trans listed')
    exact ⟨planned[k], List.getElem?_eq_getElem bound, entry.index, entry.variant⟩
  single := by
    intro planned i p plan here
    obtain ⟨d, listed, entry⟩ := whole_at plan here
    exact ⟨plan_alone plan here, entry.index⟩

end ReleaseMatrix.Release
