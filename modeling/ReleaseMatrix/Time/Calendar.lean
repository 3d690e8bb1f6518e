/- Days, dates and instants of the proleptic Gregorian calendar. -/
namespace ReleaseMatrix.Time

/-- A day of the calendar; `dayNumber` counts from the first of January 1970. -/
structure Date where
  dayNumber : Int
  year : Int
  month : Nat
  day : Nat
  deriving DecidableEq, Repr

namespace Date

/-- Years start in March here, so that the leap day is the last of its year; an era is the 400
   years after which the calendar repeats. -/
def ofDayNumber (n : Int) : Date :=
  let shifted := n + 719468
  let era := shifted / 146097
  let dayOfEra := (shifted % 146097).toNat
  let yearOfEra := (dayOfEra - dayOfEra / 1460 + dayOfEra / 36524 - dayOfEra / 146096) / 365
  let dayOfYear := dayOfEra - (365 * yearOfEra + yearOfEra / 4 - yearOfEra / 100)
  let marchMonth := (5 * dayOfYear + 2) / 153
  let day := dayOfYear - (153 * marchMonth + 2) / 5 + 1
  let month := if marchMonth < 10 then marchMonth + 3 else marchMonth - 9
  let year := era * 400 + yearOfEra + (if month ≤ 2 then 1 else 0)
  ⟨n, year, month, day⟩

def isLeapYear (year : Int) : Bool :=
  year % 4 == 0 && (year % 100 != 0 || year % 400 == 0)

def monthLengths (year : Int) : List Nat :=
  [31, if isLeapYear year then 29 else 28, 31, 30, 31, 30, 31, 31, 30, 31, 30, 31]

def dayOfYear (d : Date) : Nat := ((monthLengths d.year).take (d.month - 1)).foldl (· + ·) d.day

def quarter (d : Date) : Nat := (d.month - 1) / 3 + 1

def daysFromMonday (d : Date) : Nat := ((d.dayNumber + 3) % 7).toNat

def daysFromSunday (d : Date) : Nat := ((d.dayNumber + 4) % 7).toNat

/-- Weeks of the year that start on Sunday, the days before the first Sunday being week 0. -/
def sundayWeek (d : Date) : Nat := (d.dayOfYear + 6 - d.daysFromSunday) / 7

def mondayWeek (d : Date) : Nat := (d.dayOfYear + 6 - d.daysFromMonday) / 7

/-- A week belongs to the year of its Thursday. -/
def thursday (d : Date) : Date := ofDayNumber (d.dayNumber - d.daysFromMonday + 3)

def isoYear (d : Date) : Int := d.thursday.year

def isoWeek (d : Date) : Nat := (d.thursday.dayOfYear - 1) / 7 + 1

end Date

def minYear : Int := -262143
def maxYear : Int := 262142

/-- Seconds since the epoch, and nanoseconds in the second. A second that ends a minute may be
   stretched: its nanoseconds then reach into the leap second after it. -/
structure Moment where
  seconds : Int
  nanos : Nat
  deriving DecidableEq, Repr

namespace Moment

def date (m : Moment) : Date := Date.ofDayNumber (m.seconds / 86400)

def secondOfDay (m : Moment) : Nat := (m.seconds % 86400).toNat

def hour (m : Moment) : Nat := m.secondOfDay / 3600
def minute (m : Moment) : Nat := m.secondOfDay / 60 % 60

def second (m : Moment) : Nat := m.secondOfDay % 60 + m.nanos / 1000000000

def nanosecond (m : Moment) : Nat := m.nanos % 1000000000

def hour12 (m : Moment) : Nat := if m.hour % 12 = 0 then 12 else m.hour % 12
def isAfternoon (m : Moment) : Bool := 12 ≤ m.hour

def inRange (m : Moment) : Bool := minYear ≤ m.date.year && m.date.year ≤ maxYear

def validNanos (m : Moment) : Bool :=
  m.nanos < 1000000000 || (m.nanos < 2000000000 && m.seconds % 60 == 59)

def ofParts? (seconds : Int) (nanos : Nat) : Option Moment :=
  let m : Moment := ⟨seconds, nanos⟩
  if m.inRange && m.validNanos then some m else none

def ofSeconds? (seconds : Int) : Option Moment := ofParts? seconds 0

end Moment

/-- A moment on a clock that is ahead of UTC by an offset in seconds, which is less than a day. -/
structure LocalTime where
  moment : Moment
  offset : Int
  behind : -86400 < offset := by decide
  ahead : offset < 86400 := by decide
  deriving DecidableEq, Repr

namespace LocalTime

def utc (m : Moment) : LocalTime := { moment := m, offset := 0 }

/-- The moment at which a clock in UTC shows what this one does. -/
def shown (l : LocalTime) : Moment := ⟨l.moment.seconds + l.offset, l.moment.nanos⟩

end LocalTime

instance : Coe Moment LocalTime := ⟨LocalTime.utc⟩

end ReleaseMatrix.Time
