import ReleaseMatrix.Proofs.Variant.Environment

/- When a variant is for some operating system, and what it is normalized to. A variant that names its
   own operating system goes by the same names whatever is ambient. -/
namespace ReleaseMatrix

variable {n : Normalizer} {d : VariantDescriptor} {ambient : List (String × String)} {os : String}

/-- A variant names its operating system itself, or finds one that is not empty around it. -/
def HasOs (ambient : List (String × String)) (d : VariantDescriptor) : Prop :=
  d.contains Key.os = true ∨ ∃ os ∈ lastValue ambient Key.os, os ≠ ""

instance : Decidable (HasOs ambient d) := inferInstanceAs (Decidable (_ ∨ _))

def effectiveOs (d : VariantDescriptor) (ambient : List (String × String)) : Option String :=
  (d.get? Key.os).or (lastValue ambient Key.os)

theorem own_os (named : d.contains Key.os = true) :
    ∃ os, os ≠ "" ∧ ∀ ambient, effectiveOs d ambient = some os := by
  obtain ⟨os, found⟩ := VariantDescriptor.get_of_contains named
  refine ⟨os, VariantDescriptor.get_nonempty found, ?_⟩
  intro ambient
  rw [effectiveOs, found, Option.some_or]

theorem hasOs_iff : HasOs ambient d ↔ ∃ os, effectiveOs d ambient = some os ∧ os ≠ "" := by
  constructor
  · intro has
    by_cases named : d.contains Key.os = true
    · obtain ⟨os, visible, found⟩ := own_os named
      exact ⟨os, found ambient, visible⟩
    · obtain ⟨os, inherited, visible⟩ := has.resolve_left named
      rw [Bool.not_eq_true] at named
      refine ⟨os, ?_, visible⟩
      rw [effectiveOs, VariantDescriptor.get_of_not_contains named, Option.none_or, inherited]
  · rintro ⟨os, found, visible⟩
    by_cases named : d.contains Key.os = true
    · exact .inl named
    · rw [Bool.not_eq_true] at named
      rw [effectiveOs, VariantDescriptor.get_of_not_contains named, Option.none_or] at found
      exact .inr ⟨os, found, visible⟩

theorem hasOs_alone : HasOs [] d ↔ d.contains Key.os = true := by
  constructor
  · intro has
    refine has.resolve_right ?_
    rintro ⟨os, inherited, _⟩
    cases inherited
  · exact .inl

structure NormalizedVariant.SameNames (v w : NormalizedVariant) : Prop where
  label : v.label = w.label
  os : v.target.os = w.target.os
  archive : v.target.archiveName = w.target.archiveName
  binary : v.target.binaryName = w.target.binaryName
  buildMode : v.target.buildMode = w.target.buildMode

namespace Normalizer

theorem get_os (n : Normalizer) (d : VariantDescriptor) (ambient : List (String × String)) :
    (n.environment d ambient).get? Key.os = effectiveOs d ambient :=
  get_environment n d ambient (by decide) (by decide)

theorem normalize_for (found : effectiveOs d ambient = some os) (visible : os ≠ "") :
    n.normalize d ambient = .ok ⟨d.label, n.environment d ambient,
      ⟨os, (n.environment d ambient).get? Key.arch, n.binaryName os, n.archiveName d,
        buildMode os⟩⟩ := by
  simp only [normalize, target, get_os, found, if_neg visible]

theorem normalize_own (n : Normalizer) (own : d.contains Key.os = true)
    (ambient other : List (String × String)) :
    ∃ v w, n.normalize d ambient = .ok v ∧ n.normalize d other = .ok w ∧ v.SameNames w := by
  obtain ⟨os, visible, found⟩ := own_os own
  refine ⟨_, _, normalize_for (found ambient) visible, normalize_for (found other) visible, ?_⟩
  exact ⟨rfl, rfl, rfl, rfl, rfl⟩

theorem normalize_without (without : ¬ HasOs ambient d) :
    n.normalize d ambient = .error (.missingTargetOs d.label) := by
  cases found : effectiveOs d ambient with
  | none => simp only [normalize, target, get_os, found]
  | some os =>
    by_cases empty : os = ""
    · simp only [normalize, target, get_os, found, if_pos empty]
    · exact absurd (hasOs_iff.mpr ⟨os, found, empty⟩) without

theorem normalize_ok_iff : (∃ v, n.normalize d ambient = .ok v) ↔ HasOs ambient d := by
  constructor
  · rintro ⟨v, ok⟩
    by_cases has : HasOs ambient d
    · exact has
    · rw [normalize_without has] at ok
      cases ok
  · intro has
    obtain ⟨os, found, visible⟩ := hasOs_iff.mp has
    exact ⟨_, normalize_for found visible⟩

theorem normalized_names {v : NormalizedVariant} (ok : n.normalize d ambient = .ok v) :
    v.target.binaryName = n.binaryName v.target.os ∧ v.target.archiveName = n.archiveName d := by
  obtain ⟨os, found, visible⟩ := hasOs_iff.mp (normalize_ok_iff.mp ⟨v, ok⟩)
  rw [normalize_for found visible] at ok
  obtain rfl := Except.ok.inj ok
  exact ⟨rfl, rfl⟩

end Normalizer
end ReleaseMatrix
