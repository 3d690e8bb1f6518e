import ReleaseMatrix.Variant.Catalog

/- A catalog that is narrowed again and again keeps entries of the first one, in their order and with
   their numbers in the whole matrix. What is asked for is a position among the entries that are left,
   which differs from these numbers once a catalog has been narrowed. -/
namespace ReleaseMatrix.Catalog

variable {variants : List VariantDescriptor} {c next start : Catalog} {e : VariantError}

inductive Narrowing where
  | select (index : Nat)
  | narrow (index : Option Nat)
  deriving DecidableEq, Repr

def Narrowing.position? : Narrowing → Option Nat
  | .select index => some index
  | .narrow index => index

def narrowed (c : Catalog) : Narrowing → Except VariantError Catalog
  | .select index => c.select index
  | .narrow index => c.narrow index

def step (c : Catalog) (way : Narrowing) : Catalog :=
  match c.narrowed way with
  | .ok next => next
  | .error _ => c

def run (c : Catalog) (ways : List Narrowing) : Catalog := ways.foldl step c

theorem narrowed_eq (c : Catalog) (way : Narrowing) : c.narrowed way = c.narrow way.position? := by
  cases way <;> rfl

theorem select_within {index : Nat} {entry : Nat × VariantDescriptor}
    (here : c.entries[index]? = some entry) : c.select index = .ok ⟨[entry], List.cons_ne_nil _ _⟩ := by
  simp only [select, here]

theorem select_beyond {index : Nat} (beyond : c.size ≤ index) :
    c.select index = .error (.indexOutOfRange index c.size) := by
  have nothing : c.entries[index]? = none := List.getElem?_eq_none beyond
  simp only [select, nothing, size]

theorem select_ok_iff {index : Nat} : c.select index = .ok next ↔
    ∃ entry, c.entries[index]? = some entry ∧ next.entries = [entry] := by
  cases here : c.entries[index]? with
  | none => simp [select_beyond (List.getElem?_eq_none_iff.mp here)]
  | some entry =>
    rw [select_within here]
    cases next
    simp [eq_comm]

theorem select_error_iff {index : Nat} : c.select index = .error e ↔
    c.size ≤ index ∧ e = .indexOutOfRange index c.size := by
  cases here : c.entries[index]? with
  | none =>
    have beyond : c.size ≤ index := List.getElem?_eq_none_iff.mp here
    simp [select_beyond beyond, beyond, eq_comm]
  | some entry =>
    have within : index < c.size := (List.getElem?_eq_some_iff.mp here).1
    simp [select_within here, Nat.not_le.mpr within]

structure Narrows (c : Catalog) (way : Narrowing) : Prop where
  fails_iff : ∀ e, c.narrowed way = .error e ↔
    ∃ index, way.position? = some index ∧ c.size ≤ index ∧ e = .indexOutOfRange index c.size
  selects_iff : ∀ next index, way.position? = some index →
    (c.narrowed way = .ok next ↔ ∃ entry, c.entries[index]? = some entry ∧ next.entries = [entry])
  keeps : way.position? = none → c.narrowed way = .ok c

theorem narrows (c : Catalog) (way : Narrowing) : Narrows c way := by
  constructor
  all_goals
    rw [narrowed_eq]
    generalize way.position? = position
  · intro e
    cases position with
    | none => simp [narrow]
    | some index => simp [narrow, select_error_iff]
  · rintro next index rfl
    exact select_ok_iff
  · rintro rfl
    rfl

theorem narrowed_entries {way : Narrowing} (ok : c.narrowed way = .ok next) :
    next.entries.Sublist c.entries := by
  cases asked : way.position? with
  | none =>
    obtain rfl : c = next := Except.ok.inj (((narrows c way).keeps asked).symm.trans ok)
    exact .refl _
  | some index =>
    obtain ⟨entry, here, only⟩ := ((narrows c way).selects_iff next index asked).mp ok
    rw [only, List.singleton_sublist]
    exact List.mem_of_getElem? here

theorem step_entries (c : Catalog) (way : Narrowing) : (c.step way).entries.Sublist c.entries := by
  unfold step
  split
  · exact narrowed_entries ‹_›
  · exact .refl _

theorem run_entries (c : Catalog) (ways : List Narrowing) : (c.run ways).entries.Sublist c.entries := by
  induction ways generalizing c with
  | nil => exact .refl _
  | cons way rest later => exact (later (c.step way)).trans (step_entries c way)

/-- Entries whose numbers increase and are those of their descriptors in the whole matrix. -/
structure Numbered (variants : List VariantDescriptor) (entries : List (Nat × VariantDescriptor)) :
    Prop where
  increasing : entries.Pairwise fun a b => a.1 < b.1
  original : ∀ entry ∈ entries, variants[entry.1]? = some entry.2

theorem Numbered.sublist {whole part : List (Nat × VariantDescriptor)}
    (numbered : Numbered variants whole) (sub : part.Sublist whole) : Numbered variants part where
  increasing := numbered.increasing.sublist sub
  original entry mem := numbered.original entry (sub.subset mem)

theorem numberFrom_eq (first : Nat) (variants : List VariantDescriptor) :
    numberFrom first variants = variants.mapIdx fun k d => (first + k, d) := by
  induction variants generalizing first with
  | nil => rfl
  | cons d rest ih =>
    rw [numberFrom, ih, List.mapIdx_cons]
    simp [Nat.add_comm, Nat.add_left_comm]

theorem numberFrom_variants (first : Nat) (variants : List VariantDescriptor) :
    (numberFrom first variants).map Prod.snd = variants := by
  induction variants generalizing first with
  | nil => rfl
  | cons d rest ih => rw [numberFrom, List.map_cons, ih]

theorem whole_numbered (variants : List VariantDescriptor) : Numbered variants (numberFrom 0 variants) := by
  simp only [numberFrom_eq, Nat.zero_add]
  constructor
  · refine List.pairwise_iff_getElem.mpr fun i j _ _ less => ?_
    simpa using less
  · intro entry mem
    obtain ⟨k, bound, rfl⟩ := List.mem_mapIdx.mp mem
    exact List.getElem?_eq_getElem bound

/-- The views of a catalog, all of one sequence with something in it. -/
structure Views (c : Catalog) : Prop where
  listed : c.variants = c.entries.map Prod.snd
  counted : c.size = c.variants.length
  placed : ∀ position, c.get? position = c.variants[position]?
  nonempty : c.isEmpty = false ∧ 0 < c.size

theorem views (c : Catalog) : Views c where
  listed := rfl
  counted := (List.length_map _).symm
  placed _ := List.getElem?_map.symm
  nonempty := by simp [isEmpty, size, List.length_pos_iff, c.nonempty]

/-- What holds of a catalog of some variants after any narrowings. -/
structure Traceable (variants : List VariantDescriptor) (c : Catalog) : Prop where
  numbered : Numbered variants c.entries
  views : Views c
  narrows : ∀ way, Narrows c way

theorem numbers_survive (variants : List VariantDescriptor) (some_ : variants ≠ []) :
    ∃ start, new variants = .ok start ∧ start.variants = variants ∧
      ∀ ways, Traceable variants (start.run ways) := by
  refine ⟨⟨numberFrom 0 variants, numberFrom_ne_nil some_⟩, dif_neg some_, ?_, fun ways => ?_⟩
  · exact numberFrom_variants 0 variants
  · exact ⟨(whole_numbered variants).sublist (run_entries _ ways), views _, narrows _⟩

theorem selected_number_survives : builtinVariants ≠ [] ∧ ∃ start, new builtinVariants = .ok start ∧
    (start.run [.narrow none, .select 3, .select 3, .narrow (some 0)]).entries.map Prod.fst = [3] ∧
    Traceable builtinVariants (start.run [.narrow none, .select 3, .select 3, .narrow (some 0)]) := by
  obtain ⟨start, made, _, traceable⟩ := numbers_survive builtinVariants (by decide)
  obtain rfl : builtin = start := Except.ok.inj made
  exact ⟨by decide, builtin, made, by decide, traceable _⟩

end ReleaseMatrix.Catalog
