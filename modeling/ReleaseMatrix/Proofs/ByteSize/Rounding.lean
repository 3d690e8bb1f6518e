import Mathlib
import ReleaseMatrix.ByteSize

/- Rounding a quotient to the nearest whole number is monotone, and so is keeping the leading bits of a
   number. The latter changes nothing up to 2^53, nor any power of two. -/
namespace ReleaseMatrix.ByteSize

variable {a b n num den k : Nat}

theorem divNearest_near (num : Nat) (pos : 0 < den) :
    2 * num ≤ 2 * (divNearest num den * den) + den ∧ 2 * (divNearest num den * den) ≤ 2 * num + den := by
  have whole := Nat.div_add_mod' num den
  have rest := Nat.mod_lt num pos
  have next : (num / den + 1) * den = num / den * den + den := Nat.succ_mul _ _
  unfold divNearest
  simp only
  split_ifs
  · omega
  · omega
  · rcases Nat.mod_two_eq_zero_or_one (num / den) with even | odd
    · rw [even, Nat.add_zero]
      omega
    · rw [odd]
      omega

/-- Two quotients that are rounded apart from each other would both have to lie in the middle. -/
theorem divNearest_mono (pos : 0 < den) (le : a ≤ b) : divNearest a den ≤ divNearest b den := by
  by_contra apart
  have above : divNearest b den + 1 ≤ divNearest a den := Nat.lt_of_not_le apart
  have step := Nat.mul_le_mul_right den above
  rw [Nat.succ_mul] at step
  have low := (divNearest_near a pos).2
  have high := (divNearest_near b pos).1
  obtain rfl : a = b := by omega
  exact apart (Nat.le_refl _)

theorem divNearest_mul (k : Nat) (pos : 0 < den) : divNearest (k * den) den = k := by
  simp [divNearest, Nat.mul_div_cancel k pos, pos]

theorem divNearest_between {m : Nat} (num : Nat) (pos : 0 < den) (multiple : den ∣ m) :
    (m ≤ num → m ≤ divNearest num den * den) ∧ (num ≤ m → divNearest num den * den ≤ m) := by
  obtain ⟨k, rfl⟩ := multiple
  rw [Nat.mul_comm den k]
  have same := divNearest_mul k pos
  constructor
  · intro below
    have le := divNearest_mono pos below
    rw [same] at le
    exact Nat.mul_le_mul_right den le
  · intro above
    have le := divNearest_mono pos above
    rw [same] at le
    exact Nat.mul_le_mul_right den le

theorem lastPlace_pos (n : Nat) : 0 < lastPlace n := Nat.two_pow_pos _

theorem keepLeading_near (n : Nat) :
    2 * n ≤ 2 * keepLeading n + lastPlace n ∧ 2 * keepLeading n ≤ 2 * n + lastPlace n :=
  divNearest_near n (lastPlace_pos n)

theorem lastPlace_le (k : Nat) (bound : n < 2 ^ (53 + k)) : lastPlace n ≤ 2 ^ k := by
  have bits : n.log2 < 53 + k := by
    rcases Nat.eq_zero_or_pos n with rfl | pos
    · rw [Nat.log2_zero]
      omega
    · exact (Nat.log2_lt pos.ne').mpr bound
  exact Nat.pow_le_pow_right (by decide) (by unfold significantBits; omega)

theorem keepLeading_between {m : Nat} (kept : lastPlace n ∣ m) :
    (m ≤ n → m ≤ keepLeading n) ∧ (n ≤ m → keepLeading n ≤ m) :=
  divNearest_between n (lastPlace_pos n) kept

theorem keepLeading_log (some_ : n ≠ 0) :
    2 ^ n.log2 ≤ keepLeading n ∧ keepLeading n ≤ 2 ^ (n.log2 + 1) := by
  have place (k : Nat) (large : n.log2 ≤ k) : lastPlace n ∣ 2 ^ k :=
    Nat.pow_dvd_pow 2 (by unfold significantBits; omega)
  exact ⟨(keepLeading_between (place _ (Nat.le_refl _))).1 (Nat.log2_self_le some_),
    (keepLeading_between (place _ (Nat.le_succ _))).2 Nat.lt_log2_self.le⟩

theorem keepLeading_mono (le : a ≤ b) : keepLeading a ≤ keepLeading b := by
  rcases Nat.eq_zero_or_pos a with rfl | pos
  · exact Nat.zero_le _
  have some_a : a ≠ 0 := pos.ne'
  have some_b : b ≠ 0 := (Nat.lt_of_lt_of_le pos le).ne'
  have order : a.log2 ≤ b.log2 := (Nat.le_log2 some_b).mpr (Nat.le_trans (Nat.log2_self_le some_a) le)
  rcases Nat.eq_or_lt_of_le order with same | less
  · have place : lastPlace a = lastPlace b := by rw [lastPlace, lastPlace, same]
    rw [keepLeading, keepLeading, place]
    exact Nat.mul_le_mul_right _ (divNearest_mono (lastPlace_pos b) le)
  · -- a power of two lies between the numbers
    calc keepLeading a ≤ 2 ^ (a.log2 + 1) := (keepLeading_log some_a).2
      _ ≤ 2 ^ b.log2 := Nat.pow_le_pow_right (by decide) less
      _ ≤ keepLeading b := (keepLeading_log some_b).1

theorem keepLeading_two_pow (k : Nat) : keepLeading (2 ^ k) = 2 ^ k := by
  have place : lastPlace (2 ^ k) ∣ 2 ^ k := by
    rw [lastPlace, Nat.log2_two_pow]
    exact Nat.pow_dvd_pow 2 (by unfold significantBits; omega)
  have between := keepLeading_between place
  exact Nat.le_antisymm (between.2 (Nat.le_refl _)) (between.1 (Nat.le_refl _))

theorem keepLeading_exact (small : n ≤ 2 ^ 53) : keepLeading n = n := by
  rcases Nat.eq_or_lt_of_le small with rfl | less
  · exact keepLeading_two_pow 53
  · have one : lastPlace n ≤ 1 := lastPlace_le 0 less
    have near := keepLeading_near n
    omega

end ReleaseMatrix.ByteSize
