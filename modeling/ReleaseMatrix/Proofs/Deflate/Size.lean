import ReleaseMatrix.Proofs.Deflate.Code

/- How long deflated data can be: no token takes more than nine bits for each byte that it stands for. -/
namespace ReleaseMatrix.Deflate

variable {tokens : List Token} {token : Token} {out data : Bytes}

def Token.width : Token → Nat
  | .literal _ => 1
  | .copy length _ => length

theorem copyBack_length (distance n : Nat) (out : Bytes) :
    (copyBack distance n out).length = out.length + n := by
  induction n generalizing out with
  | zero => rfl
  | succ n ih => rw [copyBack, ih, List.length_cons, Nat.add_assoc, Nat.add_comm 1]

theorem applied_length {grown : Bytes} (applied : token.apply out = some grown) :
    grown.length = out.length + token.width := by
  cases token with
  | literal b =>
    obtain rfl := Option.some.inj applied
    rfl
  | copy length distance =>
    simp only [Token.apply] at applied
    split at applied
    · simp at applied
    · obtain rfl := Option.some.inj applied
      exact copyBack_length distance length out

theorem expanded_length (expanded : expandFrom out tokens = some data) :
    data.length = out.length + (tokens.map Token.width).sum := by
  induction tokens generalizing out with
  | nil =>
    obtain rfl := Option.some.inj expanded
    simp
  | cons token rest ih =>
    obtain ⟨grown, applied, expanded⟩ := Option.bind_eq_some_iff.mp expanded
    rw [ih expanded, applied_length applied, List.map_cons, List.sum_cons, Nat.add_assoc]

theorem lowFirst_length (width n : Nat) : (lowFirst width n).length = width := by
  induction width generalizing n with
  | zero => rfl
  | succ width ih => rw [lowFirst, List.length_cons, ih]

theorem symbolBits_most (symbol : Nat) : (symbolBits symbol).length ≤ 9 := by
  unfold symbolBits
  split
  · simp [highFirst_length]
  · split
    · simp [highFirst_length]
    · split <;> simp [highFirst_length]

theorem short_length_bits : ∀ length < 11, minCopy ≤ length →
    (slot lengthTable length).2.2 = 0 ∧
      (symbolBits (firstLength + (slot lengthTable length).1)).length ≤ 7 := by
  decide

theorem token_bits_most (inRange : token.InRange) : token.bits.length ≤ 9 * token.width := by
  cases token with
  | literal b => exact symbolBits_most b.toNat
  | copy length distance =>
    obtain ⟨low, high, apart, near⟩ := inRange
    obtain ⟨lengthCode, lengthLeast, lengthExtra, lengthFound, _, lengthCovers⟩ := length_slot low high
    obtain ⟨code, least, extra, found, _, covers⟩ := distance_slot apart near
    have lengthBits : ∀ entry ∈ lengthTable, entry.2 ≤ 5 := by decide
    have distanceBits : ∀ entry ∈ distanceTable, entry.2 ≤ 13 := by decide
    have lengthRoom : lengthExtra ≤ 5 := lengthBits _ (List.mem_of_getElem? lengthCovers.listed)
    have room : extra ≤ 13 := distanceBits _ (List.mem_of_getElem? covers.listed)
    have symbol := symbolBits_most (firstLength + lengthCode)
    have short := short_length_bits length
    simp only [lengthFound] at short
    simp only [Token.bits, lengthFound, found, List.length_append, lowFirst_length, highFirst_length,
      Token.width]
    by_cases few : length < 11
    · obtain ⟨none_extra, seven⟩ := short few low
      unfold minCopy at low
      omega
    · omega

theorem tokens_bits_most (inRange : ∀ token ∈ tokens, token.InRange) :
    (tokens.flatMap Token.bits).length ≤ 9 * (tokens.map Token.width).sum := by
  induction tokens with
  | nil => simp
  | cons token rest ih =>
    have first := token_bits_most (inRange token List.mem_cons_self)
    have later := ih fun token mem => inRange token (List.mem_cons_of_mem _ mem)
    rw [List.flatMap_cons, List.length_append, List.map_cons, List.sum_cons]
    omega

theorem pack_length (bits : Bits) : 8 * (pack bits).length ≤ bits.length + 7 := by
  fun_induction pack bits with
  | case1 a b c d e f g h rest ih => simp only [List.length_cons]; omega
  | case2 => simp
  | case3 bits notEight notEmpty =>
    have some_bit := List.length_pos_iff.mpr notEmpty
    simp only [List.length_singleton]
    omega

theorem deflated_length (level : Nat) (data : Bytes) :
    8 * (deflate level data).length ≤ 9 * data.length + 19 := by
  generalize tokens_eq : tokens (effortOf level) data = written
  have inRange : ∀ token ∈ written, token.InRange := by
    rw [← tokens_eq]
    exact tokensFrom_in_range _ 0 0 ∅ data
  have expanded : expandFrom [] written = some data := by
    rw [← tokens_eq]
    exact expand_tokens _ data
  have bits := tokens_bits_most inRange
  have size := expanded_length expanded
  have packed := pack_length (encodeBits written)
  have ending := symbolBits_most endOfBlock
  simp only [encodeBits, blockHeader, List.length_append, lowFirst_length, List.length_nil] at packed size
  rw [deflate, tokens_eq]
  simp only [encodeBits, blockHeader]
  omega

end ReleaseMatrix.Deflate
