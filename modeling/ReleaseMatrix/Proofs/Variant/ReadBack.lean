import ReleaseMatrix.Proofs.Variant.Grammar

/- What becomes of a descriptor that is written as texts and read again. Its values lose the blanks around
   them, which is all, unless a value consists of blanks. -/
namespace ReleaseMatrix.VariantDescriptor

variable {position : Nat} {os : List EnvOverride} {pairs : List (String × String)}
variable {d : VariantDescriptor} {items : List String} {e : VariantError}

def Trimming (p q : String × String) : Prop := q.1 = p.1 ∧ Text.Trims p.2.toList q.2.toList

theorem pairs_of_new (made : new pairs = .ok d) : pairs = d.overrides.map fun o => (o.key, o.value) := by
  have each := (new_reads.result_iff pairs d).mp made
  rwa [← List.forall₂_eq_eq_eq, List.forall₂_map_right_iff]

theorem checkFrom_own (position : Nat) (os : List EnvOverride) :
    checkFrom EnvOverride.parseAt position (os.map EnvOverride.text) =
      checkFrom (fun position p => EnvOverride.checked position p.1 p.2) position
        (os.map fun o => (o.key, Text.trim o.value)) := by
  induction os generalizing position with
  | nil => rfl
  | cons o rest ih => simp only [List.map_cons, checkFrom, EnvOverride.parseAt_own, ih]

theorem parse_own (d : VariantDescriptor) :
    parse d.strings = new (d.overrides.map fun o => (o.key, Text.trim o.value)) := by
  rw [parse, strings, checkFrom_own, new]

theorem new_own (d : VariantDescriptor) : new (d.overrides.map fun o => (o.key, o.value)) = .ok d := by
  rw [new_reads.result_iff, List.forall₂_map_left_iff, List.forall₂_same]
  exact fun _ _ => rfl

theorem parse_strings (trimmed : d.Trimmed) : parse d.strings = .ok d := by
  have same : (d.overrides.map fun o => (o.key, Text.trim o.value)) =
      d.overrides.map fun o => (o.key, o.value) := by
    refine List.map_congr_left fun o mem => ?_
    have clean : Text.trimList o.value.toList = o.value.toList := trimmed o mem
    rw [Text.trim, clean, String.ofList_toList]
  rw [parse_own, same, new_own]

theorem parse_trimmed (read : parse items = .ok d) : d.Trimmed := by
  intro o mem
  have each := (parse_reads.result_iff items d).mp read
  obtain ⟨k, bound, rfl⟩ := List.getElem_of_mem mem
  obtain ⟨before, after, _, _, _, value⟩ := each.get (each.length_eq ▸ bound) bound
  rw [List.get_eq_getElem, Text.trims_iff] at value
  rw [EnvOverride.Trimmed, ← value, Text.trimList_trimList]

theorem trimming_own (os : List EnvOverride) :
    List.Forall₂ Trimming (os.map fun o => (o.key, o.value)) (os.map fun o => (o.key, Text.trim o.value)) := by
  rw [List.forall₂_map_left_iff, List.forall₂_map_right_iff, List.forall₂_same]
  exact fun o _ => ⟨rfl, Text.trim_eq_iff.mp rfl⟩

theorem checked_blank (o : EnvOverride) (position : Nat) (blank : Text.allBlank o.value = true) :
    EnvOverride.checked position o.key (Text.trim o.value) = .error (.emptyValue o.key) := by
  rw [Text.trim_eq_empty_iff.mpr blank]
  simp only [EnvOverride.checked, o.key_nonempty, o.key_valid, if_false, dite_true]

theorem checked_visible (o : EnvOverride) (position : Nat) (visible : Text.allBlank o.value = false) :
    ∃ trimmed, EnvOverride.checked position o.key (Text.trim o.value) = .ok trimmed := by
  have some_ : Text.trim o.value ≠ "" := by
    rw [Ne, Text.trim_eq_empty_iff, visible]
    decide
  exact ⟨⟨o.key, Text.trim o.value, o.key_valid, some_⟩, EnvOverride.checked_own ⟨_, _, _, some_⟩ position⟩

theorem checkFrom_own_error_iff :
    checkFrom EnvOverride.parseAt position (os.map EnvOverride.text) = .error e ↔
      ∃ o, os.find? (fun o => Text.allBlank o.value) = some o ∧ e = .emptyValue o.key := by
  induction os generalizing position with
  | nil => simp [checkFrom]
  | cons o rest ih =>
    rw [List.map_cons, checkFrom, EnvOverride.parseAt_own]
    cases blank : Text.allBlank o.value with
    | true =>
      rw [checked_blank o position blank, List.find?_cons_of_pos (by rw [blank])]
      simp [eq_comm]
    | false =>
      obtain ⟨trimmed, ok⟩ := checked_visible o position blank
      rw [ok, List.find?_cons_of_neg (by simp [blank]), ← ih]
      cases checkFrom EnvOverride.parseAt (position + 1) (rest.map EnvOverride.text) <;> simp

/-- What comes of reading back a descriptor that was made of pairs. -/
structure ReadsBack (pairs : List (String × String)) (d : VariantDescriptor) : Prop where
  as_trimmed : ∃ trimmed, List.Forall₂ Trimming pairs trimmed ∧ parse d.strings = new trimmed
  fails_iff : ∀ e, parse d.strings = .error e ↔
    ∃ p, pairs.find? (fun p => Text.allBlank p.2) = some p ∧ e = .emptyValue p.1
  same_iff : parse d.strings = .ok d ↔ ∀ o ∈ d.overrides, Text.Trims o.value.toList o.value.toList

theorem trimmed_iff : d.Trimmed ↔ ∀ o ∈ d.overrides, Text.Trims o.value.toList o.value.toList := by
  simp only [Trimmed, EnvOverride.Trimmed, Text.trims_iff]

theorem made_reads_back (made : new pairs = .ok d) : ReadsBack pairs d where
  as_trimmed := by
    rw [pairs_of_new made]
    exact ⟨_, trimming_own d.overrides, parse_own d⟩
  fails_iff e := by
    have listed : d.strings ≠ [] := by simp [strings, d.nonempty]
    have read : parse d.strings = .error e ↔
        checkFrom EnvOverride.parseAt 0 (d.overrides.map EnvOverride.text) = .error e :=
      readWith_error_iff ItemForm.text_checked listed
    have blank : ((fun p => Text.allBlank p.2) ∘ fun o : EnvOverride => (o.key, o.value)) =
        fun o => Text.allBlank o.value := rfl
    rw [read, checkFrom_own_error_iff, pairs_of_new made, List.find?_map, blank]
    simp
  same_iff := by
    rw [← trimmed_iff]
    exact ⟨parse_trimmed, parse_strings⟩

theorem descriptors_survive : (∀ pairs d, new pairs = .ok d → ReadsBack pairs d) ∧
    ∀ items d, parse items = .ok d → parse d.strings = .ok d :=
  ⟨fun _ _ => made_reads_back, fun _ _ read => parse_strings (parse_trimmed read)⟩

/-- A value with an equals sign and with blanks inside and around, beside a key given twice. -/
theorem padded_value_reads_back : ∃ d trimmed,
    new [("GOFLAGS", " -ldflags=-s -w "), ("GOOS", "js"), ("GOOS", "linux")] = .ok d ∧
      parse d.strings ≠ .ok d ∧ parse d.strings = .ok trimmed ∧ parse trimmed.strings = .ok trimmed := by
  obtain ⟨d, made⟩ : ∃ d, new [("GOFLAGS", " -ldflags=-s -w "), ("GOOS", "js"), ("GOOS", "linux")] =
      .ok d := ⟨_, rfl⟩
  have back := descriptors_survive.1 _ d made
  cases read : parse d.strings with
  | error e =>
    obtain ⟨p, found, _⟩ := (back.fails_iff e).mp read
    cases found
  | ok trimmed =>
    refine ⟨d, trimmed, made, ?_, read, descriptors_survive.2 _ _ read⟩
    intro same
    have listed : ("GOFLAGS", " -ldflags=-s -w ") ∈ d.overrides.map fun o => (o.key, o.value) := by
      rw [← pairs_of_new made]
      exact List.mem_cons_self
    obtain ⟨o, mem, padded⟩ := List.mem_map.mp listed
    have clean := back.same_iff.mp same o mem
    rw [(Prod.mk.inj padded).2] at clean
    cases clean.opens ' ' rfl

end ReleaseMatrix.VariantDescriptor
