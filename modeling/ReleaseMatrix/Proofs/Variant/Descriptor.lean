import ReleaseMatrix.Proofs.Text.Trimming
import ReleaseMatrix.Variant.Catalog

/- Variants as text. Keys hold neither blanks nor equals signs, so that an override is found again in its
   text but for the blanks around its value; what is built in has none there. -/
namespace ReleaseMatrix

theorem isKeyRest_bounds {c : Char} (rest : isKeyRest c = true) :
    48 ≤ c.toNat ∧ c.toNat ≤ 122 ∧ c.toNat ≠ 61 := by
  simp only [isKeyRest, isKeyStart, Bool.or_eq_true, Bool.and_eq_true, decide_eq_true_eq,
    beq_iff_eq, Char.le_def, UInt32.le_iff_toNat_le] at rest
  have value : c.val.toNat = c.toNat := rfl
  rcases rest with ((upper | lower) | rfl) | digit
  · have low : ('A' : Char).val.toNat = 65 := rfl
    have high : ('Z' : Char).val.toNat = 90 := rfl
    omega
  · have low : ('a' : Char).val.toNat = 97 := rfl
    have high : ('z' : Char).val.toNat = 122 := rfl
    omega
  · decide
  · have low : ('0' : Char).val.toNat = 48 := rfl
    have high : ('9' : Char).val.toNat = 57 := rfl
    omega

theorem isKeyRest_clean {c : Char} (rest : isKeyRest c = true) : Text.isBlank c = false ∧ c ≠ '=' := by
  obtain ⟨low, high, other⟩ := isKeyRest_bounds rest
  refine ⟨?_, ?_⟩
  · simp only [Text.isBlank, Bool.or_eq_false_iff, Bool.and_eq_false_iff, decide_eq_false_iff_not,
      beq_eq_false_iff_ne]
    omega
  · rintro rfl
    exact other rfl

namespace EnvOverride

variable {o : EnvOverride}

theorem key_rest (o : EnvOverride) : ∀ c ∈ o.key.toList, isKeyRest c = true := by
  have valid := o.key_valid
  cases spelled : o.key.toList with
  | nil => simp
  | cons c cs =>
    rw [spelled, isEnvKey, Bool.and_eq_true, List.all_eq_true] at valid
    refine List.forall_mem_cons.mpr ⟨?_, valid.2⟩
    rw [isKeyRest, valid.1, Bool.true_or]

def Trimmed (o : EnvOverride) : Prop := Text.trimList o.value.toList = o.value.toList

instance : Decidable o.Trimmed := inferInstanceAs (Decidable (_ = _))

/-- Only the value is trimmed when the text of an override is read: blanks and equals signs of the key
    would not have been accepted. -/
theorem parseAt_own (o : EnvOverride) (position : Nat) :
    parseAt position o.text = checked position o.key (Text.trim o.value) := by
  have spelled : o.text.toList = o.key.toList ++ '=' :: o.value.toList := by simp [text]
  have free : '=' ∉ o.key.toList := fun mem => (isKeyRest_clean (o.key_rest _ mem)).2 rfl
  have key : Text.trimList o.key.toList = o.key.toList :=
    Text.trimList_clean fun c mem => (isKeyRest_clean (o.key_rest c mem)).1
  simp only [parseAt, spelled, Text.cut?_here _ free, key, String.ofList_toList, Text.trim]

theorem key_nonempty (o : EnvOverride) : o.key ≠ "" := by
  intro empty
  have valid := o.key_valid
  rw [empty] at valid
  cases valid

theorem checked_own (o : EnvOverride) (position : Nat) : checked position o.key o.value = .ok o := by
  simp only [checked, o.key_nonempty, o.key_valid, o.value_nonempty, if_false, dite_true, dite_false]

end EnvOverride

namespace VariantDescriptor

variable {d : VariantDescriptor}

def Trimmed (d : VariantDescriptor) : Prop := ∀ o ∈ d.overrides, o.Trimmed

instance : Decidable d.Trimmed := inferInstanceAs (Decidable (∀ _ ∈ _, _))

end VariantDescriptor

end ReleaseMatrix
