import Mathlib
import ReleaseMatrix.Text.Decimal

/- Written numbers read back, zeros in front or not; so different numbers are written differently. -/
namespace ReleaseMatrix.Decimal

theorem digit_value : ∀ d < 10, digitIn? 10 (digitChar d) = some d := by decide

theorem fold_append (base acc : Nat) (front rest : List Char) :
    foldDigits base acc (front ++ rest) =
      (foldDigits base acc front).bind fun value => foldDigits base value rest := by
  induction front generalizing acc with
  | nil => rfl
  | cons c front ih =>
    simp only [List.cons_append, foldDigits]
    cases digitIn? base c with
    | none => rfl
    | some d => exact ih _

theorem fold_zeros (k : Nat) (rest : List Char) :
    foldDigits 10 0 (List.replicate k '0' ++ rest) = foldDigits 10 0 rest := by
  induction k with
  | zero => rfl
  | succ k ih =>
    have zero : digitIn? 10 '0' = some 0 := digit_value 0 (by decide)
    simpa [List.replicate_succ, foldDigits, zero] using ih

theorem fold_digits (fuel n : Nat) (enough : n < 2 ^ (fuel + 1)) :
    foldDigits 10 0 (digitsFuel fuel n) = some n := by
  induction fuel generalizing n with
  | zero =>
    have small : n % 10 = n := by omega
    simp [digitsFuel, foldDigits, small, digit_value n (by omega)]
  | succ fuel ih =>
    simp only [digitsFuel]
    split
    · rename_i small
      simp [foldDigits, digit_value n small]
    · have less : n / 10 < 2 ^ (fuel + 1) := by
        have doubled : (2 : Nat) ^ (fuel + 1 + 1) = 2 ^ (fuel + 1) * 2 := Nat.pow_succ ..
        omega
      rw [fold_append, ih (n / 10) less]
      simp only [Option.bind_some, foldDigits, digit_value (n % 10) (by omega), Option.some.injEq]
      omega

theorem digitsFuel_ne_nil (fuel n : Nat) : digitsFuel fuel n ≠ [] := by
  cases fuel with
  | zero => simp [digitsFuel]
  | succ fuel => simp only [digitsFuel]; split <;> simp

theorem digits_ne_nil (n : Nat) : digits n ≠ [] := digitsFuel_ne_nil _ n

def isDigit (c : Char) : Bool := '0' ≤ c && c ≤ '9'

theorem natural_zeroPadded (width n : Nat) :
    natural? 10 (zeroPadded width n).toList = some n := by
  have value : foldDigits 10 0 (digits n) = some n := fold_digits _ n Nat.lt_log2_self
  have padded : (zeroPadded width n).toList =
      List.replicate (width - (digits n).length) '0' ++ digits n := by simp [zeroPadded]
  have written : (zeroPadded width n).toList ≠ [] := by simp [padded, digits_ne_nil]
  unfold natural?
  split
  · rename_i nothing; exact absurd nothing written
  · rw [padded, fold_zeros, value]

theorem zeroPadded_injective {width m n : Nat} (same : zeroPadded width m = zeroPadded width n) :
    m = n := by
  have read := natural_zeroPadded width m
  rw [same, natural_zeroPadded] at read
  exact (Option.some.inj read).symm

theorem digitChar_eq : ∀ d < 10, digitChar d = Nat.digitChar d := by decide

theorem digitsFuel_eq (fuel n : Nat) (enough : n < 2 ^ (fuel + 1)) :
    digitsFuel fuel n = Nat.toDigits 10 n := by
  induction fuel generalizing n with
  | zero =>
    have small : n < 10 := by omega
    rw [digitsFuel, Nat.mod_eq_of_lt small, digitChar_eq n small, Nat.toDigits_of_lt_base small]
  | succ fuel ih =>
    rw [digitsFuel, Nat.toDigits_eq_if (by decide)]
    split
    · rename_i small
      rw [digitChar_eq n small]
    · have doubled : (2 : Nat) ^ (fuel + 1 + 1) = 2 ^ (fuel + 1) * 2 := Nat.pow_succ ..
      rw [ih (n / 10) (by omega), digitChar_eq (n % 10) (by omega)]

theorem digits_eq (n : Nat) : digits n = Nat.toDigits 10 n := digitsFuel_eq _ n Nat.lt_log2_self

theorem ofNat_eq (n : Nat) : ofNat n = toString n := by
  rw [ofNat, digits_eq, Nat.toString_eq_ofList_toDigits]

end ReleaseMatrix.Decimal
