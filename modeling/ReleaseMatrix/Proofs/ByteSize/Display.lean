import ReleaseMatrix.Proofs.ByteSize.Rounding
import ReleaseMatrix.Proofs.Text.Decimal

/- What a printed size says of a count of bytes: the count itself below a kibibyte, else the nearest tenth
   of the largest unit in it, or one that is as near as 53 bits of the count allow. Of two counts the
   larger one is never said to be the smaller. -/
namespace ReleaseMatrix.ByteSize

def units : List (Nat × String) := [(2 ^ 10, "KB"), (2 ^ 20, "MB"), (2 ^ 30, "GB")]

inductive Says : String → ℚ → Nat → Prop where
  | bytes (n : Nat) : Says (toString n ++ " B") n 1
  | decimal (whole place unit : Nat) (name : String) (one : place < 10) (named : (unit, name) ∈ units) :
      Says (toString whole ++ "." ++ toString place ++ " " ++ name) (whole + place / 10) unit

variable {a b u v : Nat} {d e : ℚ} {name printed : String}

theorem digits_apart {m n : Nat} {x y : Char} {front back : List Char} (stop_x : x.isDigit = false)
    (stop_y : y.isDigit = false)
    (same : Nat.toDigits 10 m ++ x :: front = Nat.toDigits 10 n ++ y :: back) :
    m = n ∧ x = y ∧ front = back := by
  have digits (n : Nat) : ∀ c ∈ Nat.toDigits 10 n, c.isDigit = true := fun _ mem =>
    Nat.isDigit_of_mem_toDigits (by decide) (by decide) mem
  have taken := congrArg (List.takeWhile Char.isDigit) same
  rw [List.takeWhile_append_of_pos (digits m), List.takeWhile_append_of_pos (digits n),
    List.takeWhile_cons_of_neg (by simp [stop_x]), List.takeWhile_cons_of_neg (by simp [stop_y]),
    List.append_nil, List.append_nil] at taken
  have number : m = n := by
    rw [← Nat.ofDigitChars_ten_toDigits (n := m), taken, Nat.ofDigitChars_ten_toDigits]
  subst number
  obtain ⟨rfl, rfl⟩ := List.cons.inj (List.append_cancel_left same)
  exact ⟨rfl, rfl, rfl⟩

theorem bytes_letters (n : Nat) : (toString n ++ " B").toList = Nat.toDigits 10 n ++ [' ', 'B'] := by
  simp

theorem decimal_letters (whole place : Nat) (name : String) :
    (toString whole ++ "." ++ toString place ++ " " ++ name).toList =
      Nat.toDigits 10 whole ++ '.' :: (Nat.toDigits 10 place ++ ' ' :: name.toList) := by
  simp

theorem unit_of_name : ∀ p ∈ units, ∀ q ∈ units, p.2 = q.2 → p.1 = q.1 := by decide

theorem Says.unique (first : Says printed d u) (second : Says printed e v) : d = e ∧ u = v := by
  -- the second reading is taken apart over a variable, so the first text is put into an equation
  cases first with
  | bytes n =>
    generalize text : toString n ++ " B" = printed at second
    have letters := congrArg String.toList text
    rw [bytes_letters] at letters
    cases second with
    | bytes m =>
      rw [bytes_letters] at letters
      obtain ⟨rfl, _⟩ := digits_apart rfl rfl letters
      exact ⟨rfl, rfl⟩
    | decimal whole place unit name one named =>
      rw [decimal_letters] at letters
      exact absurd (digits_apart rfl rfl letters).2.1 (by decide)
  | decimal whole place unit name one named =>
    generalize text : toString whole ++ "." ++ toString place ++ " " ++ name = printed at second
    have letters := congrArg String.toList text
    rw [decimal_letters] at letters
    cases second with
    | bytes m =>
      rw [bytes_letters] at letters
      exact absurd (digits_apart rfl rfl letters).2.1 (by decide)
    | decimal whole' place' unit' name' one' named' =>
      rw [decimal_letters] at letters
      obtain ⟨rfl, _, rest⟩ := digits_apart rfl rfl letters
      obtain ⟨rfl, _, same⟩ := digits_apart rfl rfl rest
      exact ⟨rfl, unit_of_name _ named _ named' (String.toList_inj.mp same)⟩

theorem unit?_eq (b : Nat) : unit? b =
    if 2 ^ 30 ≤ b then some (2 ^ 30, "GB") else if 2 ^ 20 ≤ b then some (2 ^ 20, "MB")
    else if 2 ^ 10 ≤ b then some (2 ^ 10, "KB") else none := rfl

def sizes : List Nat := 1 :: units.map Prod.fst

def scale (b : Nat) : Nat := (unit? b).elim 1 Prod.fst

theorem scale_eq (b : Nat) : scale b =
    if 2 ^ 30 ≤ b then 2 ^ 30 else if 2 ^ 20 ≤ b then 2 ^ 20 else if 2 ^ 10 ≤ b then 2 ^ 10 else 1 := by
  rw [scale, unit?_eq]
  split_ifs <;> rfl

theorem scale_size (b : Nat) : scale b ∈ sizes := by
  rw [scale_eq]
  split_ifs <;> decide

theorem scale_le (some_ : b ≠ 0) : scale b ≤ b := by
  rw [scale_eq]
  split_ifs <;> omega

theorem le_scale (size : v ∈ sizes) (le : v ≤ b) : v ≤ scale b := by
  simp only [sizes, units, List.map_cons, List.map_nil, List.mem_cons, List.not_mem_nil, or_false] at size
  rw [scale_eq]
  split_ifs <;> omega

theorem size_pow : ∀ v ∈ sizes, v = 2 ^ v.log2 := by decide

theorem size_pos : ∀ v ∈ sizes, 0 < v := by decide

theorem scale_mono (le : a ≤ b) : scale a ≤ scale b := by
  rcases Nat.eq_zero_or_pos a with rfl | pos
  · exact size_pos _ (scale_size b)
  · exact le_scale (scale_size a) (Nat.le_trans (scale_le pos.ne') le)

theorem scale_apart (less : scale a < scale b) : a ≤ scale b ∧ scale b ≤ b := by
  constructor
  · by_contra above
    exact absurd (le_scale (scale_size b) (Nat.le_of_not_le above)) (Nat.not_le_of_lt less)
  · refine scale_le ?_
    rintro rfl
    exact absurd (size_pos _ (scale_size a)) (Nat.not_lt_of_le (Nat.le_of_lt_succ less))

theorem unit?_named (found : unit? b = some (u, name)) : (u, name) ∈ units ∧ scale b = u := by
  refine ⟨?_, by rw [scale, found]; rfl⟩
  rw [unit?_eq] at found
  split_ifs at found
  all_goals
    rw [← Option.some.inj found]
    decide

theorem unit?_none_iff : unit? b = none ↔ b < 2 ^ 10 := by
  rw [unit?_eq]
  split_ifs
  all_goals
    simp only [false_iff, true_iff]
    omega

theorem tenths_between {m : Nat} (pos : 0 < u) (multiple : u ∣ m) (kept : keepLeading m = m) :
    (m ≤ b → 10 * m ≤ tenths b u * u) ∧ (b ≤ m → tenths b u * u ≤ 10 * m) := by
  have between := divNearest_between (10 * keepLeading b) pos (multiple.mul_left 10)
  constructor
  · intro below
    have le := keepLeading_mono below
    rw [kept] at le
    exact between.1 (Nat.mul_le_mul_left 10 le)
  · intro above
    have le := keepLeading_mono above
    rw [kept] at le
    exact between.2 (Nat.mul_le_mul_left 10 le)

theorem tenths_mono (pos : 0 < u) (le : a ≤ b) : tenths a u ≤ tenths b u :=
  divNearest_mono pos (Nat.mul_le_mul_left 10 (keepLeading_mono le))

/-- What is printed of a count, in tenths of a byte. -/
def shown (b : Nat) : Nat := tenths b (scale b) * scale b

theorem shown_mono (le : a ≤ b) : shown a ≤ shown b := by
  have pos (b : Nat) : 0 < scale b := size_pos _ (scale_size b)
  rcases Nat.eq_or_lt_of_le (scale_mono le) with same | less
  · rw [shown, shown, same]
    exact Nat.mul_le_mul_right _ (tenths_mono (pos b) le)
  · -- the larger unit lies between what is printed of the two
    have power (b : Nat) : scale b = 2 ^ (scale b).log2 := size_pow _ (scale_size b)
    have multiple : scale a ∣ scale b := by
      rw [power a, power b] at less ⊢
      exact Nat.pow_dvd_pow 2 ((Nat.pow_lt_pow_iff_right (by decide)).mp less).le
    have kept : keepLeading (scale b) = scale b := by
      rw [power b]
      exact keepLeading_two_pow _
    obtain ⟨above, below⟩ := scale_apart less
    calc shown a ≤ 10 * scale b := (tenths_between (pos a) multiple kept).2 above
      _ ≤ shown b := (tenths_between (pos b) (Nat.dvd_refl _) kept).1 below

theorem tenths_bytes (small : b < 2 ^ 10) : tenths b 1 = 10 * b := by
  have kept : keepLeading b = b := keepLeading_exact (by omega)
  have whole := divNearest_mul (10 * b) Nat.one_pos
  rw [tenths, kept]
  rwa [Nat.mul_one] at whole

theorem says_shown (b : Nat) : Says (text b) ((tenths b (scale b) : ℚ) / 10) (scale b) := by
  cases found : unit? b with
  | none =>
    have small := unit?_none_iff.mp found
    have one : scale b = 1 := by rw [scale, found]; rfl
    have amount : ((10 * b : Nat) : ℚ) / 10 = b := by
      push_cast
      ring
    rw [one, tenths_bytes small, amount]
    simp only [text, found, Decimal.ofNat_eq]
    exact .bytes b
  | some p =>
    obtain ⟨u, name⟩ := p
    obtain ⟨named, rfl⟩ := unit?_named found
    simp only [text, found, oneDecimal, Decimal.ofNat_eq]
    generalize tenths b (scale b) = t
    have amount : (t : ℚ) / 10 = (t / 10 : Nat) + (t % 10 : Nat) / 10 := by
      have parts : (t : ℚ) = (10 * (t / 10) + t % 10 : Nat) := by rw [Nat.div_add_mod]
      rw [parts]
      push_cast
      ring
    rw [amount]
    exact .decimal _ _ _ _ (Nat.mod_lt _ (by decide)) named

theorem amount_shown (b : Nat) : (tenths b (scale b) : ℚ) / 10 * scale b = (shown b : ℚ) / 10 := by
  rw [shown]
  push_cast
  ring

theorem shown_error (slack : Nat)
    (kept : 2 * b ≤ 2 * keepLeading b + slack ∧ 2 * keepLeading b ≤ 2 * b + slack) :
    |(shown b : ℚ) / 10 - b| ≤ (scale b : ℚ) / 20 + (slack : ℚ) / 2 := by
  have near := divNearest_near (10 * keepLeading b) (size_pos _ (scale_size b))
  change _ ≤ 2 * shown b + _ ∧ 2 * shown b ≤ _ at near
  have low : (20 * b : ℚ) ≤ 2 * shown b + scale b + 10 * slack := by
    norm_cast
    omega
  have high : (2 * shown b : ℚ) ≤ 20 * b + scale b + 10 * slack := by
    norm_cast
    omega
  rw [abs_le]
  constructor <;> linarith

/-- What is printed of a count of bytes. -/
structure Accurate (b : Nat) : Prop where
  counted : b < 2 ^ 10 → text b = toString b ++ " B"
  measured : 2 ^ 10 ≤ b → ∃ d u, Says (text b) d u ∧
    IsGreatest {v | v ∈ units.map Prod.fst ∧ v ≤ b} u ∧
    (b ≤ 2 ^ 53 → |d * u - b| ≤ u / 20) ∧ (b < 2 ^ 64 → |d * u - b| ≤ u / 20 + 1024)

theorem scale_greatest (large : 2 ^ 10 ≤ b) :
    IsGreatest {v | v ∈ units.map Prod.fst ∧ v ≤ b} (scale b) := by
  have some_ : b ≠ 0 := by omega
  have least : 2 ^ 10 ≤ scale b := le_scale (by decide) large
  refine ⟨⟨?_, scale_le some_⟩, fun v found => le_scale (List.mem_cons_of_mem _ found.1) found.2⟩
  rcases List.mem_cons.mp (scale_size b) with one | named
  · omega
  · exact named

theorem accurate (b : Nat) : Accurate b where
  counted small := by
    simp only [text, unit?_none_iff.mpr small, Decimal.ofNat_eq]
  measured large := by
    refine ⟨_, _, says_shown b, scale_greatest large, ?_, ?_⟩
    · intro small
      have exact_ : keepLeading b = b := keepLeading_exact small
      have error := shown_error (b := b) 0 (by omega)
      rw [amount_shown]
      simpa using error
    · intro word
      have place : lastPlace b ≤ 2048 := lastPlace_le 11 word
      have near := keepLeading_near b
      have error := shown_error (b := b) 2048 (by omega)
      rw [amount_shown]
      norm_num at error
      exact error

theorem sizes_told : (∀ b, Accurate b) ∧
    ∀ a b, a ≤ b → ∀ d u e v, Says (text a) d u → Says (text b) e v → d * u ≤ e * v := by
  refine ⟨accurate, fun a b le d u e v first second => ?_⟩
  obtain ⟨rfl, rfl⟩ := first.unique (says_shown a)
  obtain ⟨rfl, rfl⟩ := second.unique (says_shown b)
  have order : (shown a : ℚ) ≤ shown b := Nat.cast_le.mpr (shown_mono le)
  rw [amount_shown, amount_shown]
  linarith

/-- A byte below a mebibyte is printed as all of it, in the smaller unit. -/
theorem boundary_told : Says (text (2 ^ 20 - 1)) (1024 + 0 / 10) (2 ^ 10) ∧
    Says (text (2 ^ 20)) (1 + 0 / 10) (2 ^ 20) ∧ Accurate (2 ^ 20 - 1) ∧
    (1024 + 0 / 10 : ℚ) * (2 ^ 10 : Nat) ≤ (1 + 0 / 10) * (2 ^ 20 : Nat) := by
  have below : Says (text (2 ^ 20 - 1)) ((1024 : Nat) + (0 : Nat) / 10) (2 ^ 10) :=
    .decimal 1024 0 (2 ^ 10) "KB" (by decide) (by decide)
  have whole : Says (text (2 ^ 20)) ((1 : Nat) + (0 : Nat) / 10) (2 ^ 20) :=
    .decimal 1 0 (2 ^ 20) "MB" (by decide) (by decide)
  push_cast at below whole
  exact ⟨below, whole, sizes_told.1 _, sizes_told.2 _ _ (by decide) _ _ _ _ below whole⟩

end ReleaseMatrix.ByteSize
