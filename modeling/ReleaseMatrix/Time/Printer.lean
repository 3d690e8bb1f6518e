import ReleaseMatrix.Text
import ReleaseMatrix.Text.Decimal
import ReleaseMatrix.Time.Calendar
import ReleaseMatrix.Time.Format

/- Writing a time in a time format: what the clock shows, and how far it is ahead of UTC. -/
namespace ReleaseMatrix.Time

def weekdayNames : List String :=
  ["Monday", "Tuesday", "Wednesday", "Thursday", "Friday", "Saturday", "Sunday"]

def monthNames : List String :=
  ["January", "February", "March", "April", "May", "June", "July", "August", "September",
    "October", "November", "December"]

def short (name : String) : String := String.ofList (name.toList.take 3)

def signed (n : Int) : String := if n < 0 then Decimal.ofInt n else "+" ++ Decimal.ofInt n

def zeroFilled (width : Nat) (text : String) : String :=
  let zeros := String.ofList (List.replicate (width - text.length) '0')
  match text.toList with
  | '-' :: ds => "-" ++ zeros ++ String.ofList ds
  | '+' :: ds => "+" ++ zeros ++ String.ofList ds
  | _ => zeros ++ text

def filled (padding : Padding) (width : Nat) (text : String) : String :=
  match padding with
  | .none => text
  | .zero => zeroFilled width text
  | .space => Text.padLeft width text

/-- Years of more than four digits and years before the year 0 carry a sign. -/
def yearText (padding : Padding) (year : Int) : String :=
  if 0 ≤ year ∧ year ≤ 9999 then filled padding 4 (Decimal.ofInt year)
  else filled padding 5 (signed year)

/-- Two characters for a number of one byte: the tens are counted on from the character 0, so a
   hundred is written with the character after the 9. -/
def twoDigits (padding : Padding) (n : Nat) : String :=
  let byte := n % 256
  let ones := [Decimal.digitChar (byte % 10)]
  if byte < 10 then
    match padding with
    | .none => String.ofList ones
    | .zero => String.ofList ('0' :: ones)
    | .space => String.ofList (' ' :: ones)
  else String.ofList (Decimal.digitChar (byte / 10) :: ones)

def centuryByte (year : Int) : Nat := ((year / 100) % 256).toNat

/-- The numbers of a date and of a time of day are those that the clock shows; the seconds since the
    epoch are the same on all clocks. -/
def numberText (l : LocalTime) (padding : Padding) (field : NumberField) : String :=
  let m := l.shown
  match field with
  | .year => yearText padding m.date.year
  | .century => twoDigits padding (centuryByte m.date.year)
  | .yearOfCentury => twoDigits padding (m.date.year % 100).toNat
  | .isoYear => yearText padding m.date.isoYear
  | .isoYearOfCentury => twoDigits padding (m.date.isoYear % 100).toNat
  | .quarter => Decimal.ofNat m.date.quarter
  | .month => twoDigits padding m.date.month
  | .day => twoDigits padding m.date.day
  | .sundayWeek => twoDigits padding m.date.sundayWeek
  | .mondayWeek => twoDigits padding m.date.mondayWeek
  | .isoWeek => twoDigits padding m.date.isoWeek
  | .weekdayFromSunday => Decimal.ofNat m.date.daysFromSunday
  | .weekdayFromMonday => Decimal.ofNat (m.date.daysFromMonday + 1)
  | .dayOfYear => filled padding 3 (Decimal.ofNat m.date.dayOfYear)
  | .hour => twoDigits padding m.hour
  | .hour12 => twoDigits padding m.hour12
  | .minute => twoDigits padding m.minute
  | .second => twoDigits padding m.second
  | .nanosecond => filled padding 9 (Decimal.ofNat m.nanosecond)
  | .timestamp => filled padding 9 (Decimal.ofInt l.moment.seconds)

def weekdayName (m : Moment) : String := weekdayNames.getD m.date.daysFromMonday ""

def monthName (m : Moment) : String := monthNames.getD (m.date.month - 1) ""

def nameText (zone : String) (m : Moment) : NameField → String
  | .shortWeekday => short (weekdayName m)
  | .weekday => weekdayName m
  | .shortMonth => short (monthName m)
  | .month => monthName m
  | .lowerHalfDay => if m.isAfternoon then "pm" else "am"
  | .upperHalfDay => if m.isAfternoon then "PM" else "AM"
  | .zone => zone

def fractionText (m : Moment) (digits : Nat) : String :=
  Decimal.zeroPadded digits (m.nanosecond / Nat.pow 10 (9 - digits))

def shortFractionText (m : Moment) : String :=
  if m.nanosecond = 0 then ""
  else if m.nanosecond % 1000000 = 0 then "." ++ fractionText m 3
  else if m.nanosecond % 1000 = 0 then "." ++ fractionText m 6
  else "." ++ fractionText m 9

/-- Seconds are written, rounded to the nearest minute, or cut off together with the minutes. -/
def offsetText (style : OffsetStyle) (offset : Int) : String :=
  let sign := if offset < 0 then "-" else "+"
  let size := offset.natAbs
  let minutes := (size + 30) / 60
  let two := twoDigits .zero
  match style with
  | .plain => sign ++ two (minutes / 60) ++ two (minutes % 60)
  | .colon => sign ++ two (minutes / 60) ++ ":" ++ two (minutes % 60)
  | .seconds => sign ++ two (size / 3600) ++ ":" ++ two (size / 60 % 60) ++ ":" ++ two (size % 60)
  | .hours => sign ++ two (size / 3600)

/-- A zone without a name is called by its offset, with seconds only if it has any. -/
def zoneText (offset : Int) : String :=
  offsetText (if offset % 60 = 0 then .colon else .seconds) offset

def internetText (l : LocalTime) : String :=
  let m := l.shown
  let two := twoDigits .zero
  yearText .zero m.date.year ++ "-" ++ two m.date.month ++ "-" ++ two m.date.day ++ "T" ++
    two m.hour ++ ":" ++ two m.minute ++ ":" ++ two m.second ++ shortFractionText m ++
    offsetText .colon l.offset

def Item.print (zone : String) (l : LocalTime) : Item → Option String
  | .literal c => some (String.ofList [c])
  | .number field padding => some (numberText l padding field)
  | .name field => some (nameText zone l.shown field)
  | .shortFraction => some (shortFractionText l.shown)
  | .fraction point digits => some ((if point then "." else "") ++ fractionText l.shown digits)
  | .offset style => some (offsetText style l.offset)
  | .anyOffset => none
  | .internetTime => some (internetText l)

def Format.print (zone : String) (l : LocalTime) : Format → Option String
  | [] => some ""
  | item :: rest =>
    match item.print zone l, Format.print zone l rest with
    | some s, some t => some (s ++ t)
    | _, _ => none

end ReleaseMatrix.Time
