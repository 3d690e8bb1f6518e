import ReleaseMatrix.Deflate.Token

/- Tokens expand to the data they were made from, and their copies are in the range of the format. -/
namespace ReleaseMatrix.Deflate

variable {full data out : Bytes} {position start n : Nat} {seen : Occurrences}

theorem common_front (limit : Nat) (earlier data : Bytes) :
    commonFront limit earlier data ≤ limit ∧ commonFront limit earlier data ≤ data.length ∧
      ∀ i < commonFront limit earlier data, earlier[i]? = data[i]? := by
  fun_induction commonFront limit earlier data with
  | case1 limit a as bs ih =>
    obtain ⟨below, inside, same⟩ := ih
    refine ⟨by omega, by simpa using inside, ?_⟩
    intro i bound
    cases i with
    | zero => simp
    | succ i => simpa using same i (by omega)
  | case2 => simp
  | case3 => simp

def Before (full : Bytes) (position : Nat) (found : List (Nat × Bytes)) : Prop :=
  ∀ c ∈ found, c.1 < position ∧ c.2 = full.drop c.1

def Noted (full : Bytes) (position : Nat) (seen : Occurrences) : Prop :=
  ∀ (key : Nat) found, seen[key]? = some found → Before full position found

theorem nothing_noted : Noted full 0 ∅ := by
  intro key found present
  simp at present

theorem Before.later {found : List (Nat × Bytes)} (before : Before full position found) :
    Before full (position + 1) found := by
  intro c mem
  exact ⟨Nat.lt_succ_of_lt (before c mem).1, (before c mem).2⟩

theorem candidates_before (noted : Noted full position seen) :
    Before full position (candidates seen data) := by
  unfold candidates
  cases present : (key? data).bind fun key => seen[key]? with
  | none => simp [Before]
  | some found =>
    obtain ⟨key, _, there⟩ := Option.bind_eq_some_iff.mp present
    exact noted key found there

theorem note_noted (effort : Nat) (here : full.drop position = data)
    (noted : Noted full position seen) :
    Noted full (position + 1) (note effort position data seen) := by
  unfold note
  cases key? data with
  | none => exact fun key found there => (noted key found there).later
  | some own =>
    intro key found there
    simp only [Std.ExtTreeMap.getElem?_insert, Std.LawfulEqCmp.compare_eq_iff_eq] at there
    by_cases same : own = key
    · rw [if_pos same] at there
      obtain rfl := Option.some.inj there
      intro c mem
      rcases List.mem_cons.mp (List.mem_of_mem_take mem) with rfl | old
      · exact ⟨Nat.lt_succ_self _, here.symm⟩
      · cases listed : seen[own]? with
        | none => simp [listed] at old
        | some known =>
          rw [listed, Option.getD_some] at old
          exact (noted own known listed).later c old
    · rw [if_neg same] at there
      exact (noted key found there).later

theorem longest_found {found : List (Nat × Bytes)} {length distance : Nat}
    (chosen : longest position data found = some (length, distance)) :
    ∃ c ∈ found, length = commonFront maxCopy c.2 data ∧ distance = position - c.1 ∧
      minCopy ≤ length ∧ 0 < distance ∧ distance ≤ maxDistance := by
  induction found with
  | nil => simp [longest] at chosen
  | cons c rest ih =>
    obtain ⟨start, earlier⟩ := c
    simp only [longest] at chosen
    split at chosen
    · rename_i fits
      obtain ⟨rfl, rfl⟩ := Prod.mk.inj (Option.some.inj chosen)
      exact ⟨_, List.mem_cons_self, rfl, rfl, fits.1, fits.2.1, fits.2.2.1⟩
    · obtain ⟨c, mem, good⟩ := ih chosen
      exact ⟨c, List.mem_cons_of_mem _ mem, good⟩

theorem next_byte {b : UInt8} (there : full[position]? = some b) :
    b :: (full.take position).reverse = (full.take (position + 1)).reverse := by
  rw [List.take_add_one, there, Option.toList_some, List.reverse_concat]

/-- Copying byte by byte gives the data as far as it repeats itself. -/
theorem copyBack_repeats (below : start < position) (inside : position + n ≤ full.length)
    (same : ∀ i < n, full[start + i]? = full[position + i]?) :
    copyBack (position - start) n (full.take position).reverse =
      (full.take (position + n)).reverse := by
  -- Source and target move on together, also where the source is what has just been written.
  induction n generalizing start position with
  | zero => rfl
  | succ n ih =>
    have there : full[position]? = some full[position] := List.getElem?_eq_getElem (by omega)
    have source : ((full.take position).reverse).getD (position - start - 1) 0 = full[position] := by
      have index : (full.take position).reverse[position - start - 1]? = full[start]? := by
        rw [List.getElem?_reverse (by simp; omega), List.length_take, Nat.min_eq_left (by omega),
          List.getElem?_take_of_lt (by omega)]
        congr 1
        omega
      have repeated : full[start]? = full[position]? := same 0 (by omega)
      rw [List.getD_eq_getElem?_getD, index, repeated, there, Option.getD_some]
    have same_next : ∀ i < n, full[start + 1 + i]? = full[position + 1 + i]? := by
      intro i bound
      rw [Nat.add_assoc, Nat.add_assoc, Nat.add_comm 1 i]
      exact same (i + 1) (by omega)
    have below_next : start + 1 < position + 1 := Nat.succ_lt_succ below
    have later := ih below_next (by omega) same_next
    rw [Nat.add_sub_add_right] at later
    rw [copyBack, source, next_byte there, later, Nat.add_assoc, Nat.add_comm 1]

/-- Tokens complete the output by the data that is not covered yet. -/
theorem expand_tokensFrom (effort skip : Nat) (here : full.drop position = data)
    (noted : Noted full position seen) (covered : skip ≤ data.length) :
    expandFrom (full.take (position + skip)).reverse (tokensFrom effort skip position seen data) =
      some full := by
  -- The output is ahead of the position by what the last copy still covers.
  induction data generalizing skip position seen with
  | nil =>
    obtain rfl : skip = 0 := Nat.le_zero.mp covered
    have done : full.take (position + 0) = full :=
      List.take_of_length_le (List.drop_eq_nil_iff.mp here)
    rw [tokensFrom, expandFrom, done, List.reverse_reverse]
  | cons b rest ih =>
    have next : full.drop (position + 1) = rest := by rw [← List.drop_drop, here, List.drop_one, List.tail_cons]
    have there : full[position]? = some b := by
      rw [← Nat.add_zero position, ← List.getElem?_drop, here, List.getElem?_cons_zero]
    have noted_next := note_noted effort here noted
    cases skip with
    | succ skip =>
      rw [tokensFrom, Nat.add_comm skip, ← Nat.add_assoc]
      exact ih skip next noted_next (Nat.le_of_succ_le_succ covered)
    | zero =>
      rw [tokensFrom, Nat.add_zero]
      cases chosen : longest position (b :: rest) (candidates seen (b :: rest)) with
      | none =>
        simp only [expandFrom, Token.apply, Option.bind_some, next_byte there]
        exact ih 0 next noted_next (Nat.zero_le _)
      | some copy =>
        obtain ⟨length, distance⟩ := copy
        obtain ⟨c, mem, rfl, rfl, least, apart, _⟩ := longest_found chosen
        obtain ⟨start_below, stretch⟩ := candidates_before noted c mem
        generalize length_eq : commonFront maxCopy c.2 (b :: rest) = length at least ⊢
        obtain ⟨_, inside, same⟩ := common_front maxCopy c.2 (b :: rest)
        rw [length_eq] at inside same
        have size : full.length = position + (rest.length + 1) := by
          have dropped := congrArg List.length here
          rw [List.length_drop, List.length_cons] at dropped
          omega
        have repeats : ∀ i < length, full[c.1 + i]? = full[position + i]? := by
          intro i bound
          rw [← List.getElem?_drop, ← List.getElem?_drop, ← stretch, here]
          exact same i bound
        have held : (full.take position).reverse.length = position := by
          rw [List.length_reverse, List.length_take, size]
          omega
        have copied := copyBack_repeats start_below (by rw [List.length_cons] at inside; omega) repeats
        have possible : ¬ (position - c.1 = 0 ∨ position < position - c.1) := by omega
        have ahead : position + length = position + 1 + (length - 1) := by
          have := least
          unfold minCopy at this
          omega
        simp only [expandFrom, Token.apply, held, if_neg possible, Option.bind_some, copied, ahead]
        exact ih (length - 1) next noted_next (by rw [List.length_cons] at inside; omega)

theorem expand_tokens (effort : Nat) (data : Bytes) : expand (tokens effort data) = some data := by
  have complete : expandFrom (data.take (0 + 0)).reverse (tokensFrom effort 0 0 ∅ data) = some data :=
    expand_tokensFrom effort 0 rfl nothing_noted (Nat.zero_le _)
  exact complete

def Token.InRange : Token → Prop
  | .literal _ => True
  | .copy length distance =>
    minCopy ≤ length ∧ length ≤ maxCopy ∧ 0 < distance ∧ distance ≤ maxDistance

theorem tokensFrom_in_range (effort skip position : Nat) (seen : Occurrences) (data : Bytes) :
    ∀ token ∈ tokensFrom effort skip position seen data, token.InRange := by
  induction data generalizing skip position seen with
  | nil => simp [tokensFrom]
  | cons b rest ih =>
    cases skip with
    | succ skip => exact ih skip _ _
    | zero =>
      rw [tokensFrom]
      cases chosen : longest position (b :: rest) (candidates seen (b :: rest)) with
      | none =>
        intro token mem
        rcases List.mem_cons.mp mem with rfl | later
        · trivial
        · exact ih 0 _ _ token later
      | some copy =>
        obtain ⟨length, distance⟩ := copy
        intro token mem
        rcases List.mem_cons.mp mem with rfl | later
        · obtain ⟨c, _, rfl, rfl, least, apart, near⟩ := longest_found chosen
          exact ⟨least, (common_front maxCopy c.2 (b :: rest)).1, apart, near⟩
        · exact ih (length - 1) _ _ token later

end ReleaseMatrix.Deflate
