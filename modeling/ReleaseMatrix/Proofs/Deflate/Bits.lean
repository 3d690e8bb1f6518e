import Mathlib
import ReleaseMatrix.Deflate.Bits

/- Numbers are read back from their bits, and bits from the bytes that hold them. -/
namespace ReleaseMatrix.Deflate

theorem bitValue_mod (n : Nat) : bitValue (n % 2 == 1) = n % 2 := by
  rcases Nat.mod_two_eq_zero_or_one n with even | odd
  · simp [bitValue, even]
  · simp [bitValue, odd]

theorem readLow_lowFirst (width n : Nat) (rest : Bits) :
    readLow width (lowFirst width n ++ rest) = some (n % 2 ^ width, rest) := by
  induction width generalizing n with
  | zero => simp [readLow, lowFirst, Nat.mod_one]
  | succ width ih =>
    simp only [lowFirst, List.cons_append, readLow, ih, Option.map_some, bitValue_mod]
    rw [Nat.pow_succ', Nat.mod_mul]

theorem highFirst_succ (width n : Nat) :
    highFirst (width + 1) n = (n / 2 ^ width % 2 == 1) :: highFirst width n := rfl

theorem readHigh_succ (width : Nat) (b : Bool) (bits : Bits) :
    readHigh (width + 1) (b :: bits) =
      (readHigh width bits).map fun (n, rest) => (bitValue b * 2 ^ width + n, rest) := rfl

theorem readHigh_highFirst (width n : Nat) (rest : Bits) :
    readHigh width (highFirst width n ++ rest) = some (n % 2 ^ width, rest) := by
  induction width with
  | zero => simp [readHigh, highFirst, Nat.mod_one]
  | succ width ih =>
    simp only [highFirst_succ, List.cons_append, readHigh_succ, ih, Option.map_some, bitValue_mod]
    rw [Nat.mod_pow_succ, Nat.add_comm, Nat.mul_comm]

theorem highFirst_add (front back n : Nat) :
    highFirst (front + back) n = highFirst front (n / 2 ^ back) ++ highFirst back n := by
  induction front with
  | zero => simp [highFirst]
  | succ front ih =>
    rw [Nat.succ_add, highFirst_succ, ih, highFirst_succ, List.cons_append, Nat.div_div_eq_div_mul,
      ← Nat.pow_add, Nat.add_comm back]

theorem valueLow_bound (bits : Bits) : valueLow bits < 2 ^ bits.length := by
  induction bits with
  | nil => simp [valueLow]
  | cons b bits ih =>
    have bit : bitValue b ≤ 1 := by cases b <;> simp [bitValue]
    rw [valueLow, List.length_cons, Nat.pow_succ]
    omega

theorem lowFirst_zero (width : Nat) : lowFirst width 0 = List.replicate width false := by
  induction width with
  | zero => rfl
  | succ width ih => simp [lowFirst, ih, List.replicate_succ]

theorem lowFirst_valueLow (bits : Bits) (spare : Nat) :
    lowFirst (bits.length + spare) (valueLow bits) = bits ++ List.replicate spare false := by
  induction bits with
  | nil => simp [valueLow, lowFirst_zero]
  | cons b bits ih =>
    have half : (bitValue b + 2 * valueLow bits) / 2 = valueLow bits := by
      have bit : bitValue b < 2 := by cases b <;> decide
      omega
    have bit : ((bitValue b + 2 * valueLow bits) % 2 == 1) = b := by
      rw [Nat.add_mul_mod_self_left]
      cases b <;> rfl
    rw [List.length_cons, Nat.succ_add, valueLow, lowFirst, half, bit, ih, List.cons_append]

theorem byte_unpacked (bits : Bits) (short : bits.length ≤ 8) (rest : Bytes) :
    unpack ((valueLow bits).toUInt8 :: rest) =
      bits ++ List.replicate (8 - bits.length) false ++ unpack rest := by
  have bound : valueLow bits < 256 :=
    Nat.lt_of_lt_of_le (valueLow_bound bits) (Nat.pow_le_pow_right (by decide) short)
  have value : (valueLow bits).toUInt8.toNat = valueLow bits := by
    simpa using Nat.mod_eq_of_lt bound
  rw [unpack, List.flatMap_cons, value, ← lowFirst_valueLow bits (8 - bits.length), unpack]
  rw [Nat.add_sub_cancel' short]

theorem unpack_pack (bits : Bits) : ∃ spare, unpack (pack bits) = bits ++ List.replicate spare false := by
  fun_induction pack bits with
  | case1 a b c d e f g h rest ih =>
    obtain ⟨spare, back⟩ := ih
    exact ⟨spare, by simp [byte_unpacked, back]⟩
  | case2 => exact ⟨0, rfl⟩
  | case3 bits notEight notEmpty =>
    have short : bits.length ≤ 8 := by
      rcases bits with _ | ⟨a, _ | ⟨b, _ | ⟨c, _ | ⟨d, _ | ⟨e, _ | ⟨f, _ | ⟨g, _ | ⟨h, rest⟩⟩⟩⟩⟩⟩⟩⟩
      case cons.cons.cons.cons.cons.cons.cons.cons => exact (notEight a b c d e f g h rest rfl).elim
      all_goals simp
    have none_left : unpack [] = [] := rfl
    exact ⟨8 - bits.length, by rw [byte_unpacked bits short, none_left, List.append_nil]⟩

end ReleaseMatrix.Deflate
