import ReleaseMatrix.Proofs.Build.Stamp
import ReleaseMatrix.Proofs.Text.Numeral
import ReleaseMatrix.Proofs.Text.Trimming
import ReleaseMatrix.Proofs.Time.Calendar

/- A time that an epoch pins is that of the second the epoch names, however its number is spelled and
   whatever the clock says. What is no such second is refused, after a format that is none. -/
namespace ReleaseMatrix.Stamp

open Time Time.Format

variable {format text : String} {epoch : Option String} {now : LocalTime} {items : Format} {z : Int}

def Denotes (text : String) (z : Int) : Prop :=
  ∃ core, Text.Trims text.toList core ∧ Decimal.SignedNumeral core z ∧ Decimal.Fits z

def Representable (z : Int) : Prop := Moment.firstSecond ≤ z ∧ z ≤ Moment.lastSecond

theorem denotes_iff : Denotes text z ↔ Decimal.int64? (Text.trim text).toList = some z := by
  rw [Decimal.int64?_iff, Text.trim, String.toList_ofList]
  constructor
  · rintro ⟨core, trims, number⟩
    rwa [Text.trims_iff.mp trims]
  · exact fun number => ⟨_, Text.trimList_trims _, number⟩

theorem pinned?_blank (blank : Text.allBlank text = true) : pinned? (some text) = none := by
  rw [pinned?, Option.map_some, Text.trim_eq_empty_iff.mpr blank]
  rfl

theorem pinned?_visible (visible : Text.allBlank text = false) :
    pinned? (some text) = some (Text.trim text) := by
  have some_ : Text.trim text ≠ "" := by
    rw [Ne, Text.trim_eq_empty_iff, visible]
    decide
  rw [pinned?, Option.map_some, Option.filter_some, if_pos (bne_iff_ne.mpr some_)]

theorem Denotes.visible (denoted : Denotes text z) : Text.allBlank text = false := by
  rw [← Bool.not_eq_true, ← Text.trim_eq_empty_iff]
  intro blank
  rw [denotes_iff, blank] at denoted
  cases denoted

theorem moment?_denoted (denoted : Denotes text z) (now : LocalTime) :
    moment? (some text) now = Moment.ofSeconds? z := by
  simp only [moment?, pinned?_visible denoted.visible, denotes_iff.mp denoted, Option.bind_some]

inductive Lost : Option String → Prop where
  | number (text : String) (visible : Text.allBlank text = false) (none_ : ¬ ∃ z, Denotes text z) :
      Lost (some text)
  | range (text : String) (z : Int) (denoted : Denotes text z) (outside : ¬ Representable z) :
      Lost (some text)

theorem moment?_none_iff : moment? epoch now = none ↔ Lost epoch := by
  constructor
  · intro lost
    cases epoch with
    | none => cases lost
    | some text =>
      cases visible : Text.allBlank text with
      | true => simp only [moment?, pinned?_blank visible, reduceCtorEq] at lost
      | false =>
        by_cases denoted : ∃ z, Denotes text z
        · obtain ⟨z, denoted⟩ := denoted
          rw [moment?_denoted denoted] at lost
          refine .range text z denoted fun within => ?_
          rw [Moment.ofSeconds?_iff.mpr ⟨rfl, within⟩] at lost
          cases lost
        · exact .number text visible denoted
  · intro lost
    cases lost with
    | number text visible none_ =>
      cases read : Decimal.int64? (Text.trim text).toList with
      | none => simp only [moment?, pinned?_visible visible, read, Option.bind_none]
      | some z => exact absurd ⟨z, denotes_iff.mpr read⟩ none_
    | range text z denoted outside =>
      rw [moment?_denoted denoted]
      cases found : Moment.ofSeconds? z with
      | none => rfl
      | some moment => exact absurd (Moment.ofSeconds?_iff.mp found).2 outside

def IsFormat (format : String) : Prop := ∃ items, Spelled format.toList items

/-- A text that can be printed if it is a format at all. -/
def Printable (format : String) : Prop := ∀ items, Spelled format.toList items → .anyOffset ∉ items

theorem parse?_iff : parse? format = some items ↔ Spelled format.toList items := parse_iff_spelled

theorem isValid_iff : isValid format = true ↔ IsFormat format := by
  simp only [isValid, IsFormat, Option.isSome_iff_exists, parse?_iff]

theorem parse?_none_iff : parse? format = none ↔ ¬ IsFormat format := by
  rw [← isValid_iff, isValid, Option.not_isSome_iff_eq_none]

theorem timeText_unspelled (other : ¬ IsFormat format) (epoch : Option String) (now : LocalTime) :
    timeText format epoch now = fault ("'" ++ format ++ "' is not a valid strftime format") := by
  simp only [timeText, parse?_none_iff.mpr other]

theorem timeText_clock (visible : Text.allBlank text = false) (now now' : LocalTime) :
    timeText format (some text) now = timeText format (some text) now' := by
  simp only [timeText, pinned?_visible visible]

theorem timeText_blank (blank : Text.allBlank text = true) (now : LocalTime) :
    timeText format (some text) now = timeText format none now := by
  have absent : pinned? none = none := rfl
  simp only [timeText, pinned?_blank blank, absent]

/-- Past this point only the number counts: the error names it and not its spelling. -/
theorem timeText_number {other : String} (denoted : Denotes text z) (same : Denotes other z)
    (now now' : LocalTime) : timeText format (some text) now = timeText format (some other) now' := by
  simp only [timeText, pinned?_visible denoted.visible, pinned?_visible same.visible,
    denotes_iff.mp denoted, denotes_iff.mp same]

theorem timeText_second (spelled : Spelled format.toList items) (denoted : Denotes text z)
    (within : Representable z) (now : LocalTime) :
    timeText format (some text) now = write items "UTC" (.utc ⟨z, 0⟩) := by
  have found : Moment.ofSeconds? z = some ⟨z, 0⟩ := Moment.ofSeconds?_iff.mpr ⟨rfl, within⟩
  simp only [timeText, parse?_iff.mpr spelled, pinned?_visible denoted.visible, denotes_iff.mp denoted, found]

def Refused (format : String) (epoch : Option String) : Prop := ¬ IsFormat format ∨ Lost epoch

theorem refused_fault (refused : Refused format epoch) (now : LocalTime) :
    ∃ detail, timeText format epoch now = .error (.error (.timestamp detail)) := by
  by_cases spelled : IsFormat format
  · obtain ⟨items, spelled⟩ := spelled
    have lost : Lost epoch := refused.resolve_left fun other => other ⟨items, spelled⟩
    rcases timeText_cases (parse?_iff.mpr spelled) epoch now with ⟨_, fault⟩ | ⟨moment, _, found, _⟩
    · exact fault
    · rw [moment?_none_iff.mpr lost] at found
      cases found
  · exact ⟨_, timeText_unspelled spelled epoch now⟩

theorem accepted_written (accepted : ¬ Refused format epoch) (printable : Printable format)
    (now : LocalTime) : ∃ written, timeText format epoch now = .ok written := by
  obtain ⟨spelled, kept⟩ := not_or.mp accepted
  obtain ⟨items, spelled⟩ := not_not.mp spelled
  rcases timeText_cases (parse?_iff.mpr spelled) epoch now with ⟨lost, _⟩ | ⟨time, zone, _, written⟩
  · exact absurd (moment?_none_iff.mp lost) kept
  · rw [written]
    exact write_writable (printable items spelled) zone time

/-- What the times in one format depend on, and when there is none. -/
structure Pins (format : String) : Prop where
  clock_free : ∀ text now now', Text.allBlank text = false →
    timeText format (some text) now = timeText format (some text) now'
  number_only : ∀ text other z now now', Denotes text z → Denotes other z →
    timeText format (some text) now = timeText format (some other) now'
  blank_absent : ∀ text now, Text.allBlank text = true →
    timeText format (some text) now = timeText format none now
  second_written : ∀ items text z now, Spelled format.toList items → Denotes text z → Representable z →
    timeText format (some text) now = write items "UTC" (.utc ⟨z, 0⟩)
  format_first : ¬ IsFormat format → ∀ epoch now,
    timeText format epoch now = fault ("'" ++ format ++ "' is not a valid strftime format")
  fails_iff : Printable format → ∀ epoch now,
    (∃ failure, timeText format epoch now = .error failure) ↔ Refused format epoch
  always_timestamp : Printable format → ∀ epoch now failure,
    timeText format epoch now = .error failure → ∃ detail, failure = .error (.timestamp detail)

theorem pinned_times (format : String) : Pins format where
  clock_free _ now now' visible := timeText_clock visible now now'
  number_only _ _ _ now now' denoted same := timeText_number denoted same now now'
  blank_absent _ now blank := timeText_blank blank now
  second_written _ _ _ now spelled denoted within := timeText_second spelled denoted within now
  format_first := timeText_unspelled
  fails_iff printable epoch now := by
    constructor
    · rintro ⟨failure, failed⟩
      by_contra accepted
      obtain ⟨written, ok⟩ := accepted_written accepted printable now
      rw [ok] at failed
      cases failed
    · intro refused
      obtain ⟨detail, fault⟩ := refused_fault refused now
      exact ⟨_, fault⟩
  always_timestamp printable epoch now failure failed := by
    by_cases refused : Refused format epoch
    · obtain ⟨detail, fault⟩ := refused_fault refused now
      rw [fault] at failed
      exact ⟨detail, (Except.error.inj failed).symm⟩
    · obtain ⟨written, ok⟩ := accepted_written refused printable now
      rw [ok] at failed
      cases failed

/-- Blanks, a sign and zeros in front make no difference, and neither does the clock. -/
theorem padded_pinned_alike : Denotes "\t+0086400 \n" 86400 ∧ Denotes "86400" 86400 ∧
    ∀ now now', timeText "%F" (some "\t+0086400 \n") now = timeText "%F" (some "86400") now' := by
  have padded : Denotes "\t+0086400 \n" 86400 := denotes_iff.mpr (by decide +kernel)
  have plain : Denotes "86400" 86400 := denotes_iff.mpr (by decide +kernel)
  exact ⟨padded, plain, fun now now' => (pinned_times "%F").number_only _ _ _ now now' padded plain⟩

-- The zone of a clock shows where no epoch is given, and only there.
example : timeText "%F %R %z %Z" (some " ") ⟨⟨0, 0⟩, -12600, by decide, by decide⟩ =
    .ok "1969-12-31 20:30 -0330 -03:30" := by rfl

example : timeText "%F %R %z %Z" (some "+0 ") ⟨⟨0, 0⟩, -12600, by decide, by decide⟩ =
    .ok "1970-01-01 00:00 +0000 UTC" := by rfl

end ReleaseMatrix.Stamp
