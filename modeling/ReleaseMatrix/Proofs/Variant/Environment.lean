import ReleaseMatrix.Variant.Target

/- What is looked up in an environment: of several values of one name the last one counts, an override
   goes before what is ambient, and what the normalizer fixes goes before both. -/
namespace ReleaseMatrix

def lastValue (pairs : List (String × String)) (key : String) : Option String :=
  (pairs.reverse.find? fun p => p.1 == key).map Prod.snd

variable {pairs ambient : List (String × String)} {key : String}

theorem lastValue_cons (p : String × String) (rest : List (String × String)) (key : String) :
    lastValue (p :: rest) key =
      (lastValue rest key).or (if p.1 = key then some p.2 else none) := by
  unfold lastValue
  rw [List.reverse_cons, List.find?_append]
  cases rest.reverse.find? fun p => p.1 == key with
  | some q => rfl
  | none => by_cases same : p.1 = key <;> simp [same]

namespace Environment

theorem get_empty (key : String) : (∅ : Environment).get? key = none :=
  Std.ExtTreeMap.getElem?_empty

theorem get_set (e : Environment) (name value key : String) :
    (e.set name value).get? key = if name = key then some value else e.get? key := by
  unfold get? set
  rw [Std.ExtTreeMap.getElem?_insert]
  by_cases same : name = key <;> simp [same]

theorem get_setAll (e : Environment) (pairs : List (String × String)) (key : String) :
    (e.setAll pairs).get? key = (lastValue pairs key).or (e.get? key) := by
  induction pairs generalizing e with
  | nil => rfl
  | cons p rest ih =>
    have later := ih (e.set p.1 p.2)
    rw [get_set] at later
    rw [lastValue_cons, Option.or_assoc]
    by_cases same : p.1 = key
    · rw [if_pos same] at later ⊢
      exact later
    · rw [if_neg same] at later ⊢
      exact later

theorem get_ofList (pairs : List (String × String)) (key : String) :
    (ofList pairs).get? key = lastValue pairs key := by
  rw [ofList, get_setAll, get_empty, Option.or_none]

end Environment

namespace VariantDescriptor

variable {d : VariantDescriptor} {value : String}

theorem lastValue_overrides (d : VariantDescriptor) (key : String) :
    lastValue (d.overrides.map fun o => (o.key, o.value)) key = d.get? key := by
  unfold lastValue get?
  rw [← List.map_reverse, List.find?_map, Option.map_map]
  rfl

theorem get_of_contains (named : d.contains key = true) : ∃ value, d.get? key = some value := by
  obtain ⟨o, mem, same⟩ := List.any_eq_true.mp named
  cases found : d.overrides.reverse.find? fun o => o.key == key with
  | some last => exact ⟨last.value, by rw [get?, found, Option.map_some]⟩
  | none =>
    have other := List.find?_eq_none.mp found o (List.mem_reverse.mpr mem)
    exact absurd same other

theorem get_of_not_contains (unnamed : d.contains key = false) : d.get? key = none := by
  have other : ∀ o ∈ d.overrides.reverse, ¬ (o.key == key) = true := by
    intro o mem
    exact List.any_eq_false.mp unnamed o (List.mem_reverse.mp mem)
  rw [get?, List.find?_eq_none.mpr other, Option.map_none]

theorem get_nonempty (found : d.get? key = some value) : value ≠ "" := by
  obtain ⟨o, _, rfl⟩ := Option.map_eq_some_iff.mp found
  exact o.value_nonempty

end VariantDescriptor

namespace Normalizer

variable {n : Normalizer} {d : VariantDescriptor}

/-- Overrides go over what is ambient, and native interop is off whatever they say. -/
theorem get_overlaid (d : VariantDescriptor) (ambient : List (String × String)) (key : String) :
    (((Environment.ofList ambient).setAll (d.overrides.map fun o => (o.key, o.value))).set
        Key.cgo "0").get? key =
      if Key.cgo = key then some "0" else (d.get? key).or (lastValue ambient key) := by
  rw [Environment.get_set, Environment.get_setAll, VariantDescriptor.lastValue_overrides,
    Environment.get_ofList]

theorem get_environment (n : Normalizer) (d : VariantDescriptor) (ambient : List (String × String))
    (interop : Key.cgo ≠ key) (level : Key.amd64Level ≠ key) :
    (n.environment d ambient).get? key = (d.get? key).or (lastValue ambient key) := by
  have overlaid := get_overlaid d ambient key
  rw [if_neg interop] at overlaid
  simp only [environment]
  split
  · rw [Environment.get_set, if_neg level]
    exact overlaid
  · exact overlaid

end Normalizer
end ReleaseMatrix
