import ReleaseMatrix.Proofs.Text.ByteOrder
import ReleaseMatrix.Proofs.Variant.Target

/- The environment of a variant in closed form, name by name, and what a variant is normalized to in
   terms of its overrides and of what is ambient. -/
namespace ReleaseMatrix

variable {n : Normalizer} {d : VariantDescriptor} {v : NormalizedVariant} {e : VariantError}
variable {ambient : List (String × String)} {key value : String}

theorem lastValue_here (front : List (String × String)) {back : List (String × String)}
    (last : ∀ p ∈ back, p.1 ≠ key) : lastValue (front ++ (key, value) :: back) key = some value := by
  have other : ∀ p ∈ back.reverse, ¬ (p.1 == key) = true := by
    intro p mem
    simpa using last p (List.mem_reverse.mp mem)
  rw [lastValue, List.reverse_append, List.reverse_cons, List.append_assoc, List.find?_append,
    List.find?_eq_none.mpr other]
  simp

def VariantDescriptor.assignments (d : VariantDescriptor) : List (String × String) :=
  d.overrides.map fun o => (o.key, o.value)

/-- What overrides and surroundings make of a name: the last override, or else the last value that is
    ambient. -/
def effective (d : VariantDescriptor) (ambient : List (String × String)) (key : String) :
    Option String :=
  (lastValue d.assignments key).or (lastValue ambient key)

def overlaid (n : Normalizer) (d : VariantDescriptor) (ambient : List (String × String))
    (key : String) : Option String :=
  if key = Key.cgo then some "0"
  else if key = Key.amd64Level ∧ (∀ p ∈ d.assignments, p.1 ≠ Key.amd64Level) ∧
      effective d ambient Key.arch = some "amd64" then some n.amd64Level
  else effective d ambient key

theorem effective_eq (d : VariantDescriptor) (ambient : List (String × String)) (key : String) :
    effective d ambient key = (d.get? key).or (lastValue ambient key) := by
  rw [effective, VariantDescriptor.assignments, VariantDescriptor.lastValue_overrides]

namespace VariantDescriptor

theorem contains_eq_false_iff : d.contains key = false ↔ ∀ p ∈ d.assignments, p.1 ≠ key := by
  simp [contains, assignments]

theorem get_last {front back : List EnvOverride} {o : EnvOverride}
    (split : d.overrides = front ++ o :: back) (last : ∀ p ∈ back, p.key ≠ o.key) :
    d.get? o.key = some o.value := by
  have later : ∀ p ∈ back.map fun o => (o.key, o.value), p.1 ≠ o.key := by
    simpa using last
  rw [← lastValue_overrides, split, List.map_append, List.map_cons]
  exact lastValue_here _ later

end VariantDescriptor

namespace Environment

theorem mem_toList_iff (env : Environment) :
    (key, value) ∈ env.toList ↔ env.get? key = some value :=
  Std.ExtTreeMap.mem_toList_iff_getElem?_eq_some

theorem toList_ordered (env : Environment) :
    (env.toList.map Prod.fst).Pairwise fun a b => Utf8.encode a < Utf8.encode b := by
  rw [List.pairwise_map]
  refine (Std.ExtTreeMap.ordered_keys_toList (t := env.vars)).imp ?_
  intro p q less
  exact Utf8.encode_lt (compareOfLessAndEq_eq_lt.mp less)

end Environment

namespace Normalizer

theorem get_environment_overlaid (n : Normalizer) (d : VariantDescriptor)
    (ambient : List (String × String)) (key : String) :
    (n.environment d ambient).get? key = overlaid n d ambient key := by
  have before := get_overlaid d ambient
  simp only [← effective_eq] at before
  have arch := before Key.arch
  rw [if_neg (by decide)] at arch
  simp only [environment, arch, VariantDescriptor.contains_eq_false_iff, overlaid]
  -- the switch is written before the level, and is never the name that the level is written under
  by_cases interop : key = Key.cgo
  · subst interop
    rw [if_pos rfl]
    split
    · rw [Environment.get_set, if_neg (by decide), before, if_pos rfl]
    · rw [before, if_pos rfl]
  · rw [if_neg interop]
    split
    · rename_i unlevelled
      rw [Environment.get_set, before, if_neg (Ne.symm interop)]
      by_cases level : key = Key.amd64Level
      · rw [if_pos level.symm, if_pos ⟨level, unlevelled.2, unlevelled.1⟩]
      · rw [if_neg (Ne.symm level), if_neg (fun all => level all.1)]
    · rename_i levelled
      rw [before, if_neg (Ne.symm interop), if_neg (fun all => levelled ⟨all.2.2, all.2.1⟩)]

theorem joinWith_folded (between first : String) (rest : List String) :
    Text.joinWith between (first :: rest) = rest.foldl (fun text s => text ++ between ++ s) first := by
  induction rest generalizing first with
  | nil => rfl
  | cons second rest ih =>
    have joined := ih (first ++ between ++ second)
    rw [List.foldl_cons, ← joined]
    cases rest <;> simp [Text.joinWith, String.append_assoc]

theorem archiveName_folded (n : Normalizer) (d : VariantDescriptor) :
    n.archiveName d = d.overrides.foldl (fun name o => name ++ "-" ++ o.value) n.project ++ ".zip" := by
  rw [archiveName, joinWith_folded, VariantDescriptor.values, List.foldl_map]

/-- What a variant is normalized to: its environment, and the names and flags that go by the operating
    system and by all values in the order of their declaration. -/
structure NormalizedAs (n : Normalizer) (d : VariantDescriptor) (ambient : List (String × String))
    (v : NormalizedVariant) : Prop where
  env : v.env = n.environment d ambient
  os : effective d ambient Key.os = some v.target.os
  binary : v.target.binaryName = n.project ++ if v.target.os = "windows" then ".exe" else ""
  mode : v.target.buildMode.isSome ↔ v.target.os = "linux"
  archive : v.target.archiveName =
    d.overrides.foldl (fun name o => name ++ "-" ++ o.value) n.project ++ ".zip"

theorem effectiveOs_eq : effectiveOs d ambient = effective d ambient Key.os :=
  (effective_eq d ambient Key.os).symm

theorem normalize_error_iff : n.normalize d ambient = .error e ↔
    e = .missingTargetOs d.label ∧ ∀ os, effective d ambient Key.os = some os → os = "" := by
  have nowhere : ¬ HasOs ambient d ↔ ∀ os, effective d ambient Key.os = some os → os = "" := by
    rw [hasOs_iff, effectiveOs_eq]
    simp
  rw [← nowhere]
  by_cases has : HasOs ambient d
  · obtain ⟨v, ok⟩ := (normalize_ok_iff (n := n)).mpr has
    simp [ok, has]
  · rw [normalize_without has]
    simp [has, eq_comm]

theorem normalized_as (ok : n.normalize d ambient = .ok v) : NormalizedAs n d ambient v := by
  obtain ⟨os, found, visible⟩ := hasOs_iff.mp (normalize_ok_iff.mp ⟨v, ok⟩)
  rw [normalize_for found visible] at ok
  obtain rfl := Except.ok.inj ok
  refine ⟨rfl, effectiveOs_eq ▸ found, ?_, ?_, archiveName_folded n d⟩
  · simp only [binaryName]
    split <;> simp
  · simp [buildMode]

/-- The environment of a variant and what comes of normalizing it, whatever is ambient. -/
structure ExactOverlay (n : Normalizer) (d : VariantDescriptor) (ambient : List (String × String)) :
    Prop where
  lookup : ∀ key, (n.environment d ambient).get? key = overlaid n d ambient key
  listed : ∀ key value, (key, value) ∈ (n.environment d ambient).toList ↔
    overlaid n d ambient key = some value
  ordered : ((n.environment d ambient).toList.map Prod.fst).Pairwise fun a b =>
    Utf8.encode a < Utf8.encode b
  overridden : ∀ key, d.contains key = true → key ≠ Key.cgo →
    (n.environment d ambient).get? key = d.get? key
  last_counts : ∀ front o back, d.overrides = front ++ o :: back → (∀ p ∈ back, p.key ≠ o.key) →
    d.get? o.key = some o.value
  refused_iff : ∀ e, n.normalize d ambient = .error e ↔
    e = .missingTargetOs d.label ∧ ∀ os, effective d ambient Key.os = some os → os = ""
  accepted : ∀ v, n.normalize d ambient = .ok v → NormalizedAs n d ambient v

theorem overlaid_own (own : d.contains key = true) (other : key ≠ Key.cgo) :
    overlaid n d ambient key = d.get? key := by
  obtain ⟨value, found⟩ := VariantDescriptor.get_of_contains own
  have not_level : ¬ (key = Key.amd64Level ∧ (∀ p ∈ d.assignments, p.1 ≠ Key.amd64Level) ∧
      effective d ambient Key.arch = some "amd64") := by
    rintro ⟨rfl, unnamed, _⟩
    rw [VariantDescriptor.contains_eq_false_iff.mpr unnamed] at own
    cases own
  rw [overlaid, if_neg other, if_neg not_level, effective_eq, found, Option.some_or]

theorem environment_exact (n : Normalizer) (d : VariantDescriptor) (ambient : List (String × String)) :
    ExactOverlay n d ambient where
  lookup := get_environment_overlaid n d ambient
  listed key value := by rw [Environment.mem_toList_iff, get_environment_overlaid]
  ordered := Environment.toList_ordered _
  overridden key own other := by rw [get_environment_overlaid, overlaid_own own other]
  last_counts _ _ _ := VariantDescriptor.get_last
  refused_iff _ := normalize_error_iff
  accepted _ := normalized_as

end Normalizer
end ReleaseMatrix
