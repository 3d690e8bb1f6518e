import ReleaseMatrix.Build.Stamp
import ReleaseMatrix.Proofs.Config.Validation
import ReleaseMatrix.Proofs.Time.Printing

/- What comes of stamping a run whose configuration keeps the rules. The rule for time formats lets one
   item pass that has no written form. -/
namespace ReleaseMatrix.Stamp

open Time Time.Format

variable {c : Config} {format : String} {epoch : Option String} {now : LocalTime} {items : Format}

/-- The moment of a stamp: that of the clock unless the epoch pins one, and none where the epoch names
    no moment. -/
def moment? (epoch : Option String) (now : LocalTime) : Option Moment :=
  match pinned? epoch with
  | none => some now.moment
  | some raw => (Decimal.int64? raw.toList).bind Moment.ofSeconds?

theorem write_writable (writable : .anyOffset ∉ items) (zone : String) (time : LocalTime) :
    ∃ text, write items zone time = .ok text := by
  cases printed : print zone time items with
  | some text => exact ⟨text, by rw [write, printed]⟩
  | none => exact absurd (print_none_iff.mp printed) writable

theorem write_unwritable (any : .anyOffset ∈ items) (zone : String) (time : LocalTime) :
    write items zone time = .error .unprintableTime := by
  rw [write, print_none_iff.mpr any]

theorem timeText_cases (parsed : parse? format = some items) (epoch : Option String) (now : LocalTime) :
    moment? epoch now = none ∧
        (∃ detail, timeText format epoch now = .error (.error (.timestamp detail))) ∨
      ∃ time zone, moment? epoch now = some time.moment ∧
        timeText format epoch now = write items zone time := by
  cases given : pinned? epoch with
  | none => exact .inr ⟨now, _, by simp only [moment?, given], by simp only [timeText, parsed, given]; rfl⟩
  | some raw =>
    cases read : Decimal.int64? raw.toList with
    | none =>
      exact .inl ⟨by simp only [moment?, given, read, Option.bind_none],
        _, by simp only [timeText, parsed, given, read]; rfl⟩
    | some seconds =>
      cases pinned : Moment.ofSeconds? seconds with
      | none =>
        exact .inl ⟨by simp only [moment?, given, read, Option.bind_some, pinned],
          _, by simp only [timeText, parsed, given, read, pinned]; rfl⟩
      | some moment =>
        exact .inr ⟨.utc moment, "UTC",
          by simp only [moment?, given, read, Option.bind_some, pinned, LocalTime.utc],
          by simp only [timeText, parsed, given, read, pinned]⟩

inductive Outcome (c : Config) (epoch : Option String) (now : LocalTime) : Except Failure Stamp → Prop where
  | nowhere (detail : String) (lost : moment? epoch now = none) :
      Outcome c epoch now (.error (.error (.timestamp detail)))
  | unwritable (moment : Moment) (found : moment? epoch now = some moment)
      (any : AsksAnyOffset c.build.buildTimeFormat) : Outcome c epoch now (.error .unprintableTime)
  | stamped (moment : Moment) (time : String) (found : moment? epoch now = some moment)
      (writable : ¬ AsksAnyOffset c.build.buildTimeFormat) :
      Outcome c epoch now (.ok ⟨c.project.version, time⟩)

theorem ofConfig_outcome (valid : c.validate = .ok ()) (epoch : Option String) (now : LocalTime) :
    Outcome c epoch now (ofConfig c epoch now) := by
  obtain ⟨items, parsed⟩ := Option.isSome_iff_exists.mp (Config.time_format_valid valid)
  unfold ofConfig
  rcases timeText_cases parsed epoch now with ⟨lost, detail, refused⟩ | ⟨time, zone, found, written⟩
  · rw [refused]
    exact .nowhere detail lost
  · rw [written]
    by_cases any : .anyOffset ∈ items
    · rw [write_unwritable any]
      exact .unwritable time.moment found ((any_offset_iff parsed).mp any)
    · obtain ⟨text, ok⟩ := write_writable any zone time
      rw [ok]
      exact .stamped time.moment text found fun asks => any ((any_offset_iff parsed).mpr asks)

/-- When a run is stamped whose configuration keeps the rules, when it is refused, and when it breaks
    off in the middle of writing the time. -/
structure Stamps (c : Config) (epoch : Option String) (now : LocalTime) : Prop where
  stamped_iff : (∃ stamp, ofConfig c epoch now = .ok stamp) ↔
    ¬ AsksAnyOffset c.build.buildTimeFormat ∧ (moment? epoch now).isSome
  refused_iff : (∃ detail, ofConfig c epoch now = .error (.error (.timestamp detail))) ↔
    moment? epoch now = none
  breaks_off_iff : ofConfig c epoch now = .error .unprintableTime ↔
    AsksAnyOffset c.build.buildTimeFormat ∧ (moment? epoch now).isSome
  version : ∀ stamp, ofConfig c epoch now = .ok stamp → stamp.version = c.project.version

theorem stamps (c : Config) (epoch : Option String) (now : LocalTime) (valid : c.validate = .ok ()) :
    Stamps c epoch now := by
  have outcome := ofConfig_outcome valid epoch now
  constructor
  all_goals
    generalize ofConfig c epoch now = result at outcome
    cases outcome <;> simp_all

theorem escaped_stamped :
    ({ build := { buildTimeFormat := "%%#z %:::z %-d" } } : Config).validate = .ok () ∧
      ∃ stamp, ofConfig { build := { buildTimeFormat := "%%#z %:::z %-d" } } (some " +086400 ") (.utc ⟨0, 0⟩) =
        .ok stamp ∧ stamp.version = "4.6.0" := by
  have valid : ({ build := { buildTimeFormat := "%%#z %:::z %-d" } } : Config).validate = .ok () := by
    decide +kernel
  have parsed : parse? "%%#z %:::z %-d" = some [.literal '%', .literal '#', .literal 'z', .literal ' ',
      .offset .hours, .literal ' ', .number .day .none] := by
    decide +kernel
  have writable : ¬ AsksAnyOffset "%%#z %:::z %-d" := by
    intro asks
    have any := (any_offset_iff parsed).mpr asks
    simp at any
  have pinned : (moment? (some " +086400 ") (.utc ⟨0, 0⟩)).isSome = true := by decide +kernel
  have outcome := stamps _ (some " +086400 ") (.utc ⟨0, 0⟩) valid
  obtain ⟨stamp, ok⟩ := outcome.stamped_iff.mpr ⟨writable, pinned⟩
  exact ⟨valid, stamp, ok, outcome.version stamp ok⟩

/-- A format that keeps the rules may have no written form. -/
theorem valid_format_breaks_off : ¬ ∀ (c : Config) (epoch : Option String) (now : LocalTime),
    c.validate = .ok () → (∃ stamp, ofConfig c epoch now = .ok stamp) ∨
      ∃ detail, ofConfig c epoch now = .error (.error (.timestamp detail)) := by
  intro always
  have valid : ({ build := { buildTimeFormat := "%#z" } } : Config).validate = .ok () := by
    decide +kernel
  have broken : ofConfig { build := { buildTimeFormat := "%#z" } } (some "0") (.utc ⟨0, 0⟩) =
      .error .unprintableTime := by
    rfl
  rcases always _ (some "0") (.utc ⟨0, 0⟩) valid with ⟨stamp, ok⟩ | ⟨detail, refused⟩
  · rw [broken] at ok
    cases ok
  · rw [broken] at refused
    cases refused

end ReleaseMatrix.Stamp
