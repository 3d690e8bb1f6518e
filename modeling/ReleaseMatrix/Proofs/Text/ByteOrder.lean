import Mathlib
import ReleaseMatrix.Proofs.Text.Utf8

/- Texts are in the order of their bytes. A character that comes first has bytes that come first, and
   none of its bytes are the beginning of those of another. -/
namespace ReleaseMatrix.Utf8

theorem encode_eq (s : String) : encode s = s.toList.flatMap String.utf8EncodeChar := by
  have bytes : s.toUTF8 = s.toList.utf8Encode := by simp
  rw [encode, bytes, ByteArray.toList, bytes_from]
  simp [List.utf8Encode]

theorem cons_lt {a b : Nat} (first : a < 256) (second : b < 256) (x y : Bytes) :
    UInt8.ofNat a :: x < UInt8.ofNat b :: y ↔ a < b ∨ a = b ∧ x < y := by
  rw [List.cons_lt_cons_iff, UInt8.lt_iff_toNat_lt, ← UInt8.toNat_inj]
  simp only [UInt8.toNat_ofNat', Nat.mod_eq_of_lt first, Nat.mod_eq_of_lt second]

theorem char_bytes_lt {c d : Char} (less : c < d) (x y : Bytes) :
    String.utf8EncodeChar c ++ x < String.utf8EncodeChar d ++ y := by
  have order : c.val.toNat < d.val.toNat := less
  have bound : d.val.toNat < 0x110000 := by
    rcases d.valid with low | ⟨_, high⟩
    · exact Nat.lt_trans low (by decide)
    · exact high
  -- six bits a byte, so that every byte is a digit of what the byte before it was cut from
  have second (n : Nat) : n / 4096 = n / 64 / 64 := by omega
  have third (n : Nat) : n / 262144 = n / 64 / 64 / 64 := by omega
  simp only [String.utf8EncodeChar, second, third]
  split_ifs
  all_goals
    simp (disch := omega) only [List.cons_append, List.nil_append, cons_lt]
    omega

theorem chars_bytes_lt {cs ds : List Char} (less : cs < ds) :
    cs.flatMap String.utf8EncodeChar < ds.flatMap String.utf8EncodeChar := by
  induction less with
  | @nil d ds =>
    obtain ⟨b, rest, bytes⟩ := List.exists_cons_of_ne_nil (String.utf8EncodeChar_ne_nil (c := d))
    simp [bytes]
  | cons _ ih =>
    rw [List.flatMap_cons, List.flatMap_cons]
    exact List.append_left_lt ih
  | rel first => exact char_bytes_lt first _ _

theorem encode_lt {s t : String} (less : s < t) : encode s < encode t := by
  rw [encode_eq, encode_eq]
  exact chars_bytes_lt less

end ReleaseMatrix.Utf8
