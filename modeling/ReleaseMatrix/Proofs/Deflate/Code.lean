import ReleaseMatrix.Deflate.Code
import ReleaseMatrix.Proofs.Deflate.Bits
import ReleaseMatrix.Proofs.Deflate.Token

/- What is deflated is inflated again, at every level. -/
namespace ReleaseMatrix.Deflate

variable {table : List (Nat × Nat)} {limit value number : Nat} {rest : Bits} {token : Token}

theorem readHigh_front (front back n : Nat) (rest : Bits) :
    readHigh front (highFirst (front + back) n ++ rest) =
      some (n / 2 ^ back % 2 ^ front, highFirst back n ++ rest) := by
  rw [highFirst_add, List.append_assoc, readHigh_highFirst]

theorem readSymbol_symbolBits {symbol : Nat} (bound : symbol < 288) (rest : Bits) :
    readSymbol (symbolBits symbol ++ rest) = some (symbol, rest) := by
  unfold symbolBits readSymbol
  split
  · have seven : (48 + symbol) / 2 ^ 1 % 2 ^ 7 = (48 + symbol) / 2 := by omega
    have eight : 2 * ((48 + symbol) / 2) + (48 + symbol) % 2 ^ 1 = 48 + symbol := by omega
    simp only [readHigh_front 7 1, Option.bind_some, seven, readHigh_highFirst 1, eight]
    rw [if_neg (by omega), if_pos (by omega), Nat.add_sub_cancel_left]
  · split
    · generalize code_eq : 400 + (symbol - 144) = code
      have seven : code / 2 ^ 2 % 2 ^ 7 = code / 4 := by omega
      have eight : 2 * (code / 4) + code / 2 ^ 1 % 2 ^ 1 = code / 2 := by omega
      simp only [readHigh_front 7 2, Option.bind_some, seven, readHigh_front 1 1, eight,
        readHigh_highFirst 1, Option.map_some]
      rw [if_neg (by omega), if_neg (by omega), if_neg (by omega)]
      have whole : 2 * (code / 2) + code % 2 ^ 1 - 256 = symbol := by omega
      rw [whole]
    · split
      · simp only [readHigh_highFirst 7, Option.bind_some]
        rw [if_pos (by omega)]
        have whole : 256 + (symbol - 256) % 2 ^ 7 = symbol := by omega
        rw [whole]
      · generalize code_eq : 192 + (symbol - 280) = code
        have seven : code / 2 ^ 1 % 2 ^ 7 = code / 2 := by omega
        have eight : 2 * (code / 2) + code % 2 ^ 1 = code := by omega
        simp only [readHigh_front 7 1, Option.bind_some, seven, readHigh_highFirst 1, eight]
        rw [if_neg (by omega), if_neg (by omega), if_pos (by omega)]
        have whole : 280 + (code - 192) = symbol := by omega
        rw [whole]

def Reaches : List (Nat × Nat) → Nat → Prop
  | [], _ => False
  | [(least, extra)], limit => limit < least + 2 ^ extra
  | (least, extra) :: next :: rest, limit => next.1 ≤ least + 2 ^ extra ∧ Reaches (next :: rest) limit

structure Covers (table : List (Nat × Nat)) (value code least extra : Nat) : Prop where
  listed : table[code]? = some (least, extra)
  below : least ≤ value
  room : value - least < 2 ^ extra

theorem slotFrom_covers (reaches : Reaches table limit) (low : ∀ first ∈ table.head?, first.1 ≤ value)
    (high : value ≤ limit) : ∃ code least extra,
      slotFrom number table value = (number + code, least, extra) ∧
        Covers table value code least extra := by
  fun_induction slotFrom number table value with
  | case1 => exact reaches.elim
  | case2 number least extra value =>
    have reached : limit < least + 2 ^ extra := reaches
    have start : least ≤ value := low (least, extra) rfl
    exact ⟨0, least, extra, rfl, rfl, start, by omega⟩
  | case3 number least extra next rest value before =>
    -- A value before the next entry is one that the extra bits of this entry reach.
    have start : least ≤ value := low (least, extra) rfl
    have near : next.1 ≤ least + 2 ^ extra := reaches.1
    exact ⟨0, least, extra, rfl, rfl, start, by omega⟩
  | case4 number least extra next rest value beyond ih =>
    have start : ∀ first ∈ (next :: rest).head?, first.1 ≤ value := by
      intro first mem
      obtain rfl := Option.some.inj mem
      exact Nat.le_of_not_lt beyond
    obtain ⟨code, found_least, found_extra, found, covers⟩ := ih reaches.2 start high
    refine ⟨code + 1, found_least, found_extra, ?_, ?_, covers.below, covers.room⟩
    · rw [found, Nat.add_assoc, Nat.add_comm 1]
    · rw [List.getElem?_cons_succ, covers.listed]

theorem readSlot_covered {code least extra : Nat} (covers : Covers table value code least extra)
    (rest : Bits) :
    readSlot table code (lowFirst extra (value - least) ++ rest) = some (value, rest) := by
  have below := covers.below
  simp only [readSlot, covers.listed, Option.bind_some, readLow_lowFirst, Option.map_some,
    Nat.mod_eq_of_lt covers.room, Nat.add_sub_cancel' below]

theorem length_slot {length : Nat} (low : minCopy ≤ length) (high : length ≤ maxCopy) :
    ∃ code least extra, slot lengthTable length = (code, least, extra) ∧ code < 29 ∧
      Covers lengthTable length code least extra := by
  have reaches : Reaches lengthTable maxCopy := by simp [Reaches, lengthTable, maxCopy]
  have start : ∀ first ∈ lengthTable.head?, first.1 ≤ length := by
    intro first mem
    obtain rfl := Option.some.inj mem
    exact low
  obtain ⟨code, least, extra, found, covers⟩ := slotFrom_covers reaches start high
  obtain ⟨bound, _⟩ := List.getElem?_eq_some_iff.mp covers.listed
  exact ⟨code, least, extra, by rw [slot, found, Nat.zero_add], bound, covers⟩

theorem distance_slot {distance : Nat} (low : 0 < distance) (high : distance ≤ maxDistance) :
    ∃ code least extra, slot distanceTable distance = (code, least, extra) ∧ code < 30 ∧
      Covers distanceTable distance code least extra := by
  have reaches : Reaches distanceTable maxDistance := by simp [Reaches, distanceTable, maxDistance]
  have start : ∀ first ∈ distanceTable.head?, first.1 ≤ distance := by
    intro first mem
    obtain rfl := Option.some.inj mem
    exact low
  obtain ⟨code, least, extra, found, covers⟩ := slotFrom_covers reaches start high
  obtain ⟨bound, _⟩ := List.getElem?_eq_some_iff.mp covers.listed
  exact ⟨code, least, extra, by rw [slot, found, Nat.zero_add], bound, covers⟩

theorem token_read (inRange : token.InRange) (rest : Bits) : ∃ symbol after,
    readSymbol (token.bits ++ rest) = some (symbol, after) ∧ symbol ≠ endOfBlock ∧
      readToken symbol after = some (token, rest) := by
  cases token with
  | literal b =>
    have byte : b.toNat < endOfBlock := b.toNat_lt
    have symbol : b.toNat < 288 := Nat.lt_trans byte (by decide)
    refine ⟨b.toNat, rest, readSymbol_symbolBits symbol rest, Nat.ne_of_lt byte, ?_⟩
    rw [readToken, if_pos byte, Nat.toUInt8_eq, UInt8.ofNat_toNat]
  | copy length distance =>
    obtain ⟨least, most, apart, near⟩ := inRange
    obtain ⟨lengthCode, lengthLeast, lengthExtra, lengthFound, lengthBound, lengthCovers⟩ :=
      length_slot least most
    obtain ⟨code, distanceLeast, extra, found, bound, covers⟩ := distance_slot apart near
    have written : Token.bits (.copy length distance) = symbolBits (firstLength + lengthCode) ++
        lowFirst lengthExtra (length - lengthLeast) ++ highFirst 5 code ++
          lowFirst extra (distance - distanceLeast) := by
      simp only [Token.bits, lengthFound, found]
    simp only [written, List.append_assoc]
    have symbol : firstLength + lengthCode < 288 := by unfold firstLength; omega
    have notEnd : ¬ firstLength + lengthCode < endOfBlock := by
      unfold firstLength endOfBlock
      omega
    have five : code % 2 ^ 5 = code := by omega
    refine ⟨_, _, readSymbol_symbolBits symbol _, ?_, ?_⟩
    · unfold firstLength endOfBlock
      omega
    · rw [readToken, if_neg notEnd, Nat.add_sub_cancel_left, readSlot_covered lengthCovers]
      simp only [Option.bind_some, readHigh_highFirst, five, readSlot_covered covers, Option.map_some]

theorem highFirst_length (width n : Nat) : (highFirst width n).length = width := by
  induction width with
  | zero => rfl
  | succ width ih => rw [highFirst, List.length_cons, ih]

theorem symbolBits_length (symbol : Nat) : 0 < (symbolBits symbol).length := by
  unfold symbolBits
  split
  · simp [highFirst_length]
  · split
    · simp [highFirst_length]
    · split <;> simp [highFirst_length]

theorem token_bits_length (token : Token) : 0 < token.bits.length := by
  cases token with
  | literal b => exact symbolBits_length b.toNat
  | copy length distance =>
    simp only [Token.bits, List.length_append]
    have symbol := symbolBits_length (firstLength + (slot lengthTable length).1)
    omega

/-- Every token takes a bit at least, so that the bits are fuel enough. -/
theorem tokens_length (tokens : List Token) :
    tokens.length ≤ (tokens.flatMap Token.bits).length := by
  induction tokens with
  | nil => simp
  | cons token rest ih =>
    have bit := token_bits_length token
    rw [List.flatMap_cons, List.length_append, List.length_cons]
    omega

theorem block_read {tokens : List Token} (inRange : ∀ token ∈ tokens, token.InRange)
    {out data : Bytes} (expanded : expandFrom out tokens = some data) {fuel : Nat}
    (enough : tokens.length < fuel) (rest : Bits) :
    readBlockFuel fuel out (tokens.flatMap Token.bits ++ (symbolBits endOfBlock ++ rest)) =
      some (data.reverse, rest) := by
  induction tokens generalizing out fuel with
  | nil =>
    obtain ⟨fuel, rfl⟩ : ∃ less, fuel = less + 1 := ⟨fuel - 1, by simp at enough; omega⟩
    obtain rfl := Option.some.inj expanded
    have last : readSymbol (symbolBits endOfBlock ++ rest) = some (endOfBlock, rest) :=
      readSymbol_symbolBits (by decide) rest
    simp only [List.flatMap_nil, List.nil_append, readBlockFuel, last, if_true, List.reverse_reverse]
  | cons token tokens ih =>
    obtain ⟨fuel, rfl⟩ : ∃ less, fuel = less + 1 := ⟨fuel - 1, by simp at enough; omega⟩
    obtain ⟨next, applied, expanded⟩ := Option.bind_eq_some_iff.mp expanded
    obtain ⟨symbol, after, symbolRead, other, tokenRead⟩ := token_read
      (inRange token List.mem_cons_self)
      (tokens.flatMap Token.bits ++ (symbolBits endOfBlock ++ rest))
    rw [List.flatMap_cons, List.append_assoc, readBlockFuel]
    simp only [symbolRead, if_neg other, tokenRead, applied]
    refine ih (fun token mem => inRange token (List.mem_cons_of_mem _ mem)) expanded ?_
    rw [List.length_cons] at enough
    omega

theorem inflate_deflate (level : Nat) (data : Bytes) :
    inflate? (deflate level data) = some data := by
  generalize tokens_eq : tokens (effortOf level) data = written
  have inRange : ∀ token ∈ written, token.InRange := by
    rw [← tokens_eq]
    exact tokensFrom_in_range _ 0 0 ∅ data
  have expanded : expandFrom [] written = some data := by
    rw [← tokens_eq]
    exact expand_tokens _ data
  obtain ⟨spare, unpacked⟩ := unpack_pack (encodeBits written)
  generalize padding_eq : List.replicate spare false = padding at unpacked
  have body : encodeBits written ++ padding = lowFirst 1 1 ++ (lowFirst 2 1 ++
      (written.flatMap Token.bits ++ (symbolBits endOfBlock ++ padding))) := by
    simp only [encodeBits, blockHeader, List.append_assoc]
  have enough : written.length <
      (written.flatMap Token.bits ++ (symbolBits endOfBlock ++ padding)).length := by
    have ending := symbolBits_length endOfBlock
    have each := tokens_length written
    simp only [List.length_append]
    omega
  obtain ⟨fuel, size⟩ : ∃ fuel, (encodeBits written ++ padding).length = fuel + 1 :=
    ⟨(encodeBits written ++ padding).length - 1, by rw [body]; simp [lowFirst]⟩
  rw [deflate, tokens_eq, inflate?, unpacked, size, body, readBlocksFuel]
  simp only [readLow_lowFirst, block_read inRange expanded enough]
  simp

end ReleaseMatrix.Deflate
