import Mathlib
import ReleaseMatrix.Text.Decimal

/- What is read as a whole number: digits, and a sign before them or none. -/
namespace ReleaseMatrix.Decimal

variable {c : Char} {cs : List Char} {n acc : Nat} {z : Int}

/-- Digits, at least one, and the number that they stand for. -/
structure Numeral (cs : List Char) (n : Nat) : Prop where
  nonempty : cs ≠ []
  digits : ∀ c ∈ cs, c.isDigit = true
  value : Nat.ofDigitChars 10 cs 0 = n

inductive SignedNumeral : List Char → Int → Prop where
  | plain {cs : List Char} {n : Nat} (number : Numeral cs n) : SignedNumeral cs n
  | plus {cs : List Char} {n : Nat} (number : Numeral cs n) : SignedNumeral ('+' :: cs) n
  | minus {cs : List Char} {n : Nat} (number : Numeral cs n) : SignedNumeral ('-' :: cs) (-n)

theorem digit_bounds : c.isDigit = true ↔ '0' ≤ c ∧ c ≤ '9' := by
  rw [Char.isDigit_iff_toNat]
  rfl

theorem digitIn?_digit (digit : c.isDigit = true) : digitIn? 10 c = some (c.toNat - '0'.toNat) := by
  have value : c.toNat - '0'.toNat < 10 := by
    have bounds := Char.isDigit_iff_toNat.mp digit
    have zero : '0'.toNat = 48 := rfl
    have nine : '9'.toNat = 57 := rfl
    omega
  simp only [digitIn?, if_pos (digit_bounds.mp digit), Option.filter_some, value, decide_true, if_true]

theorem digitIn?_other (other : ¬ c.isDigit = true) : digitIn? 10 c = none := by
  rw [digit_bounds] at other
  simp only [digitIn?, if_neg other]
  split_ifs <;> simp

theorem foldDigits_iff : foldDigits 10 acc cs = some n ↔
    (∀ c ∈ cs, c.isDigit = true) ∧ Nat.ofDigitChars 10 cs acc = n := by
  induction cs generalizing acc with
  | nil => simp [foldDigits, Nat.ofDigitChars]
  | cons c cs ih =>
    rw [foldDigits, List.forall_mem_cons]
    by_cases digit : c.isDigit = true
    · rw [digitIn?_digit digit, Option.bind_some, ih, Nat.mul_comm acc 10]
      simp [digit, Nat.ofDigitChars]
    · simp [digitIn?_other digit, digit]

theorem natural?_iff : natural? 10 cs = some n ↔ Numeral cs n := by
  cases cs with
  | nil =>
    constructor
    · intro read
      cases read
    · intro number
      exact absurd rfl number.nonempty
  | cons c cs =>
    rw [natural?, foldDigits_iff]
    · exact ⟨fun ⟨digits, value⟩ => ⟨List.cons_ne_nil _ _, digits, value⟩,
        fun number => ⟨number.digits, number.value⟩⟩
    · exact List.cons_ne_nil _ _

theorem unsigned?_iff : unsigned? 10 cs = some n ↔
    Numeral cs n ∨ ∃ rest, cs = '+' :: rest ∧ Numeral rest n := by
  unfold unsigned?
  split
  · rename_i rest
    have signed : ¬ Numeral ('+' :: rest) n := fun number =>
      absurd (number.digits '+' List.mem_cons_self) (by decide)
    simp [natural?_iff, signed]
  · rename_i other
    rw [natural?_iff, or_iff_left]
    rintro ⟨rest, rfl, _⟩
    exact other rest rfl

theorem integer?_minus (cs : List Char) :
    integer? ('-' :: cs) = (natural? 10 cs).map fun n : Nat => -(n : Int) := by
  rw [integer?]
  cases natural? 10 cs <;> rfl

theorem integer?_unsigned (other : ∀ rest, cs ≠ '-' :: rest) :
    integer? cs = (unsigned? 10 cs).map Int.ofNat := by
  unfold integer?
  split
  · exact absurd rfl (other _)
  · rfl

theorem integer?_iff : integer? cs = some z ↔ SignedNumeral cs z := by
  by_cases minus : ∃ rest, cs = '-' :: rest
  · obtain ⟨rest, rfl⟩ := minus
    rw [integer?_minus, Option.map_eq_some_iff]
    constructor
    · rintro ⟨n, number, rfl⟩
      exact .minus (natural?_iff.mp number)
    · rintro (number | _ | number)
      · exact absurd (number.digits '-' List.mem_cons_self) (by decide)
      · exact ⟨_, natural?_iff.mpr number, rfl⟩
  · have other : ∀ rest, cs ≠ '-' :: rest := fun rest same => minus ⟨rest, same⟩
    rw [integer?_unsigned other, Option.map_eq_some_iff]
    constructor
    · rintro ⟨n, number, rfl⟩
      rcases unsigned?_iff.mp number with plain | ⟨rest, rfl, signed⟩
      · exact .plain plain
      · exact .plus signed
    · rintro (number | number | number)
      · exact ⟨_, unsigned?_iff.mpr (.inl number), rfl⟩
      · exact ⟨_, unsigned?_iff.mpr (.inr ⟨_, rfl, number⟩), rfl⟩
      · exact absurd rfl (other _)

def Fits (z : Int) : Prop := -2 ^ 63 ≤ z ∧ z < 2 ^ 63

theorem int64?_iff : int64? cs = some z ↔ SignedNumeral cs z ∧ Fits z := by
  have most : maxInt64 = 2 ^ 63 - 1 := rfl
  have least : minInt64 = -2 ^ 63 := rfl
  rw [int64?, Option.filter_eq_some_iff, integer?_iff, fitsInt64, Bool.and_eq_true, decide_eq_true_iff,
    decide_eq_true_iff, most, least, Int.le_sub_one_iff, Fits]

end ReleaseMatrix.Decimal
