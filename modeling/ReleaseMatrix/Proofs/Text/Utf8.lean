import Mathlib
import ReleaseMatrix.Text.Utf8

/- Text is read back from its bytes. -/
namespace ReleaseMatrix.Utf8

theorem bytes_from (bytes : ByteArray) (start : Nat) (before : Bytes) :
    ByteArray.toList.loop bytes start before = before.reverse ++ bytes.data.toList.drop start := by
  fun_induction ByteArray.toList.loop bytes start before with
  | case1 start before inside ih =>
    have bound : start < bytes.data.toList.length := by simpa using inside
    have byte : bytes.get! start = bytes.data.toList[start] := by
      rw [Array.getElem_toList]
      exact getElem!_pos bytes.data start _
    rw [ih, List.drop_eq_getElem_cons bound, byte, List.reverse_cons, List.append_assoc]
    rfl
  | case2 start before outside =>
    have ended : bytes.data.toList.length ≤ start := by simpa using outside
    rw [List.drop_eq_nil_of_le ended, List.append_nil]

theorem bytes_toArray (bytes : ByteArray) : (⟨bytes.toList.toArray⟩ : ByteArray) = bytes := by
  rw [ByteArray.toList, bytes_from]
  simp

theorem decode_encode (s : String) : decode? (encode s) = some s := by
  rw [decode?, encode, bytes_toArray, String.fromUTF8?, String.toUTF8_eq_toByteArray,
    dif_pos s.isValidUTF8]
  rfl

end ReleaseMatrix.Utf8
