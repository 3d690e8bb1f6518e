import Mathlib
import ReleaseMatrix.Time.Calendar

/- The year of a day is the last one that starts on it or before it, where years have 365 days and leap
   years one more. So the seconds in range are those from the start of the first year to the end of the
   last. -/
namespace ReleaseMatrix.Time

namespace Date

variable {d : Nat}

def eraStart (y : Nat) : Nat := 365 * y + y / 4 - y / 100 + y / 400

def eraYear (d : Nat) : Nat := (d - d / 1460 + d / 36524 - d / 146096) / 365

theorem eraYear_mono : Monotone eraYear := by
  refine monotone_nat_of_le_succ fun d => ?_
  unfold eraYear
  omega

theorem eraYear_ends : ∀ y < 400, y ≤ eraYear (eraStart y) ∧ eraYear (eraStart (y + 1) - 1) ≤ y := by
  decide +kernel

theorem eraYear_spans (within : d < 146097) :
    eraYear d < 400 ∧ eraStart (eraYear d) ≤ d ∧ d < eraStart (eraYear d + 1) := by
  have few : eraYear d < 400 := by
    unfold eraYear
    omega
  refine ⟨few, ?_, ?_⟩
  -- a day outside of its year would be on the other side of one of the ends
  · cases year : eraYear d with
    | zero => exact Nat.zero_le d
    | succ y =>
      by_contra before
      have earlier := eraYear_mono (show d ≤ eraStart (y + 1) - 1 by omega)
      have ended := (eraYear_ends y (by omega)).2
      omega
  · by_contra after
    have later := eraYear_mono (Nat.le_of_not_lt after)
    have next : eraYear d + 1 ≤ 400 := few
    rcases Nat.eq_or_lt_of_le next with last | more
    · rw [last] at after
      exact after within
    · have started := (eraYear_ends _ more).1
      omega

def newYear (y : Int) : Int := 365 * y + (y - 1) / 4 - (y - 1) / 100 + (y - 1) / 400 - 719527

theorem newYear_next (y : Int) : newYear (y + 1) = newYear y + if isLeapYear y then 366 else 365 := by
  have fourth : (y + 1 - 1) / 4 = (y - 1) / 4 + if y % 4 = 0 then 1 else 0 := by split <;> omega
  have century : (y + 1 - 1) / 100 = (y - 1) / 100 + if y % 100 = 0 then 1 else 0 := by split <;> omega
  have era : (y + 1 - 1) / 400 = (y - 1) / 400 + if y % 400 = 0 then 1 else 0 := by split <;> omega
  rw [newYear, newYear, fourth, century, era]
  simp only [isLeapYear, Bool.and_eq_true, Bool.or_eq_true, beq_iff_eq, bne_iff_ne]
  split_ifs <;> omega

example : newYear 1970 = 0 := rfl

theorem newYear_strictMono : StrictMono newYear := by
  refine strictMono_int_of_lt_succ fun y => ?_
  rw [newYear_next]
  split <;> omega

theorem newYear_era (era : Int) (y : Nat) :
    newYear (400 * era + y + 1) = 146097 * era + eraStart y + 306 - 719468 := by
  unfold newYear eraStart
  omega

theorem year_eq (n : Int) : ∃ (era : Int) (d : Nat), d < 146097 ∧ n + 719468 = 146097 * era + d ∧
    (ofDayNumber n).year = 400 * era + eraYear d + if 306 ≤ d - eraStart (eraYear d) then 1 else 0 := by
  refine ⟨(n + 719468) / 146097, ((n + 719468) % 146097).toNat, by omega, by omega, ?_⟩
  generalize day : ((n + 719468) % 146097).toNat = d
  obtain ⟨few, _, ended⟩ := eraYear_spans (show d < 146097 by omega)
  have length : eraStart (eraYear d + 1) ≤ eraStart (eraYear d) + 366 := by
    unfold eraStart
    omega
  have start : 365 * eraYear d + eraYear d / 4 - eraYear d / 100 = eraStart (eraYear d) := by
    unfold eraStart
    omega
  have year : (d - d / 1460 + d / 36524 - d / 146096) / 365 = eraYear d := rfl
  simp only [ofDayNumber, day, year, start]
  have last : d - eraStart (eraYear d) ≤ 365 := by omega
  generalize d - eraStart (eraYear d) = dayOfYear at last
  split_ifs <;> omega

theorem year_spans (n : Int) :
    newYear (ofDayNumber n).year ≤ n ∧ n < newYear ((ofDayNumber n).year + 1) := by
  obtain ⟨era, d, within, day, year⟩ := year_eq n
  obtain ⟨_, started, ended⟩ := eraYear_spans within
  have here := newYear_era era (eraYear d)
  rw [year]
  split_ifs with winter
  · have next := newYear_era era (eraYear d + 1)
    push_cast at next
    rw [← add_assoc] at next
    omega
  · have before := newYear_next (400 * era + eraYear d)
    rw [add_zero]
    split at before <;> omega

theorem le_year_iff (y n : Int) : y ≤ (ofDayNumber n).year ↔ newYear y ≤ n := by
  have spans := year_spans n
  constructor
  · intro le
    exact (newYear_strictMono.monotone le).trans spans.1
  · intro started
    have less := newYear_strictMono.lt_iff_lt.mp (started.trans_lt spans.2)
    omega

end Date

namespace Moment

variable {seconds : Int}

/-- The first second of the year -262143. -/
def firstSecond : Int := -8334601228800

/-- The last second of the year 262142. -/
def lastSecond : Int := 8210266876799

theorem inRange_iff (m : Moment) :
    m.inRange = true ↔ firstSecond ≤ m.seconds ∧ m.seconds ≤ lastSecond := by
  have first : Date.newYear minYear * 86400 = firstSecond := rfl
  have last : Date.newYear (maxYear + 1) * 86400 = lastSecond + 1 := rfl
  have from_ := Date.le_year_iff minYear (m.seconds / 86400)
  have until_ := Date.le_year_iff (maxYear + 1) (m.seconds / 86400)
  rw [inRange, date, Bool.and_eq_true, decide_eq_true_iff, decide_eq_true_iff]
  omega

theorem ofSeconds?_iff {m : Moment} :
    ofSeconds? seconds = some m ↔
      m = ⟨seconds, 0⟩ ∧ firstSecond ≤ seconds ∧ seconds ≤ lastSecond := by
  have whole : (⟨seconds, 0⟩ : Moment).validNanos = true := rfl
  simp only [ofSeconds?, ofParts?, whole, Bool.and_true, inRange_iff]
  rw [Option.ite_none_right_eq_some, Option.some_inj, and_comm, eq_comm]

end Moment

end ReleaseMatrix.Time
