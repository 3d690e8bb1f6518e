import Mathlib
import ReleaseMatrix.Time.Printer

/- Time formats as texts of characters and specifiers, and which of them can be written: all items have
   a written form but an offset in any form. -/
namespace ReleaseMatrix.Time.Format

variable {cs front back letters rest : List Char} {c : Char} {items before : Format} {size : Nat}
variable {zone : String} {l : LocalTime}

theorem item_print_none_iff (zone : String) (l : LocalTime) {item : Item} :
    item.print zone l = none ↔ item = .anyOffset := by
  cases item <;> simp [Item.print]

theorem print_none_iff : print zone l items = none ↔ .anyOffset ∈ items := by
  induction items with
  | nil => simp [print]
  | cons item rest ih =>
    rw [List.mem_cons, ← ih, @eq_comm _ Item.anyOffset item, ← item_print_none_iff zone l, print]
    cases item.print zone l <;> cases print zone l rest <;> simp

/-- What stands after a percent sign for some items: the specifier that cannot be written, or another
    one, which is the same whatever follows it. -/
inductive Specifier : List Char → Format → Prop where
  | any : Specifier ['#', 'z'] [.anyOffset]
  | other (letters : List Char) (items : Format) (writable : .anyOffset ∉ items)
      (read : ∀ more, specifier? (letters ++ more) = some (items, letters.length)) :
      Specifier letters items

theorem letter_writable (read : letter? c = some items) : .anyOffset ∉ items := by
  unfold letter? at read
  split at read
  · cases read
    simp
  · split at read
    all_goals
      cases read
      try decide

theorem padded_front {sign : Char} {padding : Padding}
    (signed : ∀ cs, specifier? (sign :: cs) = padded? padding cs)
    (read : padded? padding cs = some (items, size)) :
    ∃ letters rest, sign :: cs = letters ++ rest ∧ letters.length = size ∧
      Specifier letters items := by
  cases cs with
  | nil => cases read
  | cons c rest =>
    obtain ⟨found, number, pair⟩ := Option.map_eq_some_iff.mp read
    cases pair
    refine ⟨[sign, c], rest, rfl, rfl, .other _ _ (by simp) ?_⟩
    intro more
    rw [List.cons_append, List.cons_append, signed, padded?, number]
    rfl

theorem fixed_front (sign : Char) (more : List Char) (taken : cs.take more.length = more)
    (writable : .anyOffset ∉ items)
    (read : ∀ rest, specifier? (sign :: (more ++ rest)) = some (items, more.length + 1)) :
    ∃ letters rest, sign :: cs = letters ++ rest ∧ letters.length = more.length + 1 ∧
      Specifier letters items := by
  have whole := List.take_append_drop more.length cs
  rw [taken] at whole
  exact ⟨sign :: more, cs.drop more.length, congrArg (sign :: ·) whole.symm, rfl,
    .other _ _ writable read⟩

theorem fraction_front (sign : Char) (first : cs.head? = some 'f') (writable : .anyOffset ∉ items)
    (read : ∀ rest, specifier? (sign :: 'f' :: rest) = some (items, 2)) :
    ∃ letters rest, sign :: cs = letters ++ rest ∧ letters.length = 2 ∧ Specifier letters items := by
  obtain ⟨rest, rfl⟩ := List.head?_eq_some_iff.mp first
  exact fixed_front sign ['f'] rfl writable read

theorem specifier_front (read : specifier? cs = some (items, size)) :
    ∃ letters rest, cs = letters ++ rest ∧ letters.length = size ∧ Specifier letters items := by
  unfold specifier? at read
  split at read
  · exact padded_front (fun _ => rfl) read
  · exact padded_front (fun _ => rfl) read
  · exact padded_front (fun _ => rfl) read
  · split_ifs at read with any
    obtain ⟨rest, rfl⟩ := List.head?_eq_some_iff.mp any
    cases read
    exact ⟨['#', 'z'], rest, rfl, rfl, .any⟩
  · split_ifs at read with one two three
    all_goals cases read
    · exact fixed_front ':' ['z'] one (by decide) fun _ => rfl
    · exact fixed_front ':' [':', 'z'] two (by decide) fun _ => rfl
    · exact fixed_front ':' [':', ':', 'z'] three (by decide) fun _ => rfl
  · split_ifs at read with short three six nine
    all_goals cases read
    · exact fixed_front '.' ['f'] short (by decide) fun _ => rfl
    · exact fixed_front '.' ['3', 'f'] three (by decide) fun _ => rfl
    · exact fixed_front '.' ['6', 'f'] six (by decide) fun _ => rfl
    · exact fixed_front '.' ['9', 'f'] nine (by decide) fun _ => rfl
  · split_ifs at read with fraction
    cases read
    exact fraction_front '3' fraction (by decide) fun _ => rfl
  · split_ifs at read with fraction
    cases read
    exact fraction_front '6' fraction (by decide) fun _ => rfl
  · split_ifs at read with fraction
    cases read
    exact fraction_front '9' fraction (by decide) fun _ => rfl
  · rename_i c rest _ _ _ _ _ _ _ _ _
    obtain ⟨found, letter, pair⟩ := Option.map_eq_some_iff.mp read
    cases pair
    refine ⟨[c], rest, rfl, rfl, .other _ _ (letter_writable letter) fun more => ?_⟩
    -- the letter is none of the signs that are read before it
    unfold specifier?
    split <;> simp_all
  · cases read

theorem Specifier.read (spelled : Specifier letters items) (more : List Char) :
    specifier? (letters ++ more) = some (items, letters.length) := by
  cases spelled with
  | any => rfl
  | other _ _ _ read => exact read more

inductive Spelled : List Char → Format → Prop where
  | nil : Spelled [] []
  | literal (c : Char) (cs : List Char) (items : Format) (plain : c ≠ '%') (later : Spelled cs items) :
      Spelled (c :: cs) (.literal c :: items)
  | specifier (letters cs : List Char) (first items : Format) (front : Specifier letters first)
      (later : Spelled cs items) : Spelled ('%' :: (letters ++ cs)) (first ++ items)

theorem parseFrom_drop (size : Nat) (cs : List Char) : parseFrom size cs = parseFrom 0 (cs.drop size) := by
  induction cs generalizing size with
  | nil => cases size <;> rfl
  | cons c cs ih =>
    cases size with
    | zero => rfl
    | succ size => exact ih size

theorem parseFrom_specifier (front : Specifier letters items) (rest : List Char) :
    parseFrom 0 ('%' :: (letters ++ rest)) = (parseFrom 0 rest).map (items ++ ·) := by
  rw [parseFrom, if_pos rfl, front.read rest]
  simp only
  rw [parseFrom_drop, List.drop_left]

theorem parseFrom_spelled (spelled : Spelled front before) (back : List Char) :
    parseFrom 0 (front ++ back) = (parseFrom 0 back).map (before ++ ·) := by
  induction spelled with
  | nil => simp
  | literal c cs items plain _ ih =>
    rw [List.cons_append, parseFrom, if_neg plain, ih, Option.map_map]
    rfl
  | specifier letters cs first items front _ ih =>
    rw [List.cons_append, List.append_assoc, parseFrom_specifier front, ih, Option.map_map]
    simp only [Function.comp_def, List.append_assoc]

theorem spelled_of_parse (parsed : parseFrom 0 cs = some items) : Spelled cs items := by
  -- on the length and not on the list, as a specifier takes several letters at once
  induction length : cs.length using Nat.strongRecOn generalizing cs items with
  | ind count ih =>
    cases cs with
    | nil =>
      cases parsed
      exact .nil
    | cons c cs =>
      rw [List.length_cons] at length
      rw [parseFrom] at parsed
      split at parsed
      · rename_i percent
        split at parsed
        · cases parsed
        · rename_i first size read
          obtain ⟨letters, rest, rfl, rfl, front⟩ := specifier_front read
          rw [parseFrom_drop, List.drop_left] at parsed
          obtain ⟨later, rest_parsed, rfl⟩ := Option.map_eq_some_iff.mp parsed
          rw [List.length_append] at length
          rw [percent]
          exact .specifier _ _ _ _ front (ih rest.length (by omega) rest_parsed rfl)
      · rename_i plain
        obtain ⟨later, rest_parsed, rfl⟩ := Option.map_eq_some_iff.mp parsed
        exact .literal _ _ _ plain (ih cs.length (by omega) rest_parsed rfl)

theorem parse_iff_spelled : parseFrom 0 cs = some items ↔ Spelled cs items := by
  refine ⟨spelled_of_parse, fun spelled => ?_⟩
  have whole := parseFrom_spelled spelled []
  rw [List.append_nil] at whole
  rw [whole]
  simp [parseFrom]

theorem any_offset_spelled (spelled : Spelled cs items) (any : .anyOffset ∈ items) :
    ∃ front back before, cs = front ++ ('%' :: '#' :: 'z' :: back) ∧ Spelled front before := by
  induction spelled with
  | nil => simp at any
  | literal c cs items plain _ ih =>
    obtain ⟨front, back, before, rfl, valid⟩ := ih (by simpa using any)
    exact ⟨c :: front, back, _, rfl, .literal _ _ _ plain valid⟩
  | specifier letters cs first items spec _ ih =>
    rcases List.mem_append.mp any with here | later
    · cases spec with
      | any => exact ⟨[], cs, [], rfl, .nil⟩
      | other _ _ writable _ => exact absurd here writable
    · obtain ⟨front, back, before, rfl, valid⟩ := ih later
      refine ⟨'%' :: (letters ++ front), back, _, ?_, .specifier _ _ _ _ spec valid⟩
      simp

/-- A text asks for an offset in any form where a format of its own stands in front of the specifier. -/
def AsksAnyOffset (format : String) : Prop :=
  ∃ front back : List Char, format.toList = front ++ ('%' :: '#' :: 'z' :: back) ∧
    (parseFrom 0 front).isSome

theorem any_offset_iff {format : String} (parsed : parse? format = some items) :
    .anyOffset ∈ items ↔ AsksAnyOffset format := by
  constructor
  · intro any
    obtain ⟨front, back, before, text, valid⟩ := any_offset_spelled (parse_iff_spelled.mp parsed) any
    exact ⟨front, back, text, by rw [parse_iff_spelled.mpr valid]; rfl⟩
  · rintro ⟨front, back, text, valid⟩
    obtain ⟨before, before_parsed⟩ := Option.isSome_iff_exists.mp valid
    have whole := parseFrom_spelled (parse_iff_spelled.mp before_parsed) ('%' :: '#' :: 'z' :: back)
    have rest := parseFrom_specifier .any back
    rw [parse?, text, whole] at parsed
    obtain ⟨later, later_parsed, rfl⟩ := Option.map_eq_some_iff.mp parsed
    obtain ⟨last, _, rfl⟩ := Option.map_eq_some_iff.mp (rest.symm.trans later_parsed)
    simp

end ReleaseMatrix.Time.Format
