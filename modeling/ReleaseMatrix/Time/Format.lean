/- Time formats: text with specifiers that start with a percent sign. -/
namespace ReleaseMatrix.Time

inductive Padding where
  | none
  | zero
  | space
  deriving DecidableEq, Repr

inductive NumberField where
  | year
  | century
  | yearOfCentury
  | isoYear
  | isoYearOfCentury
  | quarter
  | month
  | day
  | sundayWeek
  | mondayWeek
  | isoWeek
  | weekdayFromSunday
  | weekdayFromMonday
  | dayOfYear
  | hour
  | hour12
  | minute
  | second
  | nanosecond
  | timestamp
  deriving DecidableEq, Repr

inductive NameField where
  | shortWeekday
  | weekday
  | shortMonth
  | month
  | lowerHalfDay
  | upperHalfDay
  | zone
  deriving DecidableEq, Repr

inductive OffsetStyle where
  | plain
  | colon
  | seconds
  | hours
  deriving DecidableEq, Repr

inductive Item where
  | literal (c : Char)
  | number (field : NumberField) (padding : Padding)
  | name (field : NameField)
  | shortFraction
  | fraction (point : Bool) (digits : Nat)
  | offset (style : OffsetStyle)
  | anyOffset
  | internetTime
  deriving DecidableEq, Repr

abbrev Format := List Item

namespace Format

def number? : Char → Option (NumberField × Padding)
  | 'Y' => some (.year, .zero)
  | 'C' => some (.century, .zero)
  | 'y' => some (.yearOfCentury, .zero)
  | 'G' => some (.isoYear, .zero)
  | 'g' => some (.isoYearOfCentury, .zero)
  | 'q' => some (.quarter, .none)
  | 'm' => some (.month, .zero)
  | 'd' => some (.day, .zero)
  | 'e' => some (.day, .space)
  | 'U' => some (.sundayWeek, .zero)
  | 'W' => some (.mondayWeek, .zero)
  | 'V' => some (.isoWeek, .zero)
  | 'w' => some (.weekdayFromSunday, .none)
  | 'u' => some (.weekdayFromMonday, .none)
  | 'j' => some (.dayOfYear, .zero)
  | 'H' => some (.hour, .zero)
  | 'k' => some (.hour, .space)
  | 'I' => some (.hour12, .zero)
  | 'l' => some (.hour12, .space)
  | 'M' => some (.minute, .zero)
  | 'S' => some (.second, .zero)
  | 'f' => some (.nanosecond, .zero)
  | 's' => some (.timestamp, .none)
  | _ => none

def zeros (field : NumberField) : Item := .number field .zero

def monthDayYear : Format :=
  [zeros .month, .literal '/', zeros .day, .literal '/', zeros .yearOfCentury]

def hourMinute : Format := [zeros .hour, .literal ':', zeros .minute]

def hourMinuteSecond : Format := hourMinute ++ [.literal ':', zeros .second]

def yearMonthDay : Format :=
  [zeros .year, .literal '-', zeros .month, .literal '-', zeros .day]

def weekdayTimeYear : Format :=
  [.name .shortWeekday, .literal ' ', .name .shortMonth, .literal ' ', .number .day .space,
    .literal ' '] ++ hourMinuteSecond ++ [.literal ' ', zeros .year]

def halfDayTime : Format :=
  [zeros .hour12, .literal ':', zeros .minute, .literal ':', zeros .second, .literal ' ',
    .name .upperHalfDay]

def dayMonthYear : Format :=
  [.number .day .space, .literal '-', .name .shortMonth, .literal '-', zeros .year]

def letter? (c : Char) : Option Format :=
  match number? c with
  | some (field, padding) => some [.number field padding]
  | none =>
    match c with
    | 'a' => some [.name .shortWeekday]
    | 'A' => some [.name .weekday]
    | 'b' => some [.name .shortMonth]
    | 'h' => some [.name .shortMonth]
    | 'B' => some [.name .month]
    | 'P' => some [.name .lowerHalfDay]
    | 'p' => some [.name .upperHalfDay]
    | 'Z' => some [.name .zone]
    | 'z' => some [.offset .plain]
    | '+' => some [.internetTime]
    | 'D' => some monthDayYear
    | 'x' => some monthDayYear
    | 'F' => some yearMonthDay
    | 'R' => some hourMinute
    | 'T' => some hourMinuteSecond
    | 'X' => some hourMinuteSecond
    | 'c' => some weekdayTimeYear
    | 'r' => some halfDayTime
    | 'v' => some dayMonthYear
    | 'n' => some [.literal '\n']
    | 't' => some [.literal '\t']
    | '%' => some [.literal '%']
    | _ => none

def padded? (padding : Padding) : List Char → Option (Format × Nat)
  | c :: _ => (number? c).map fun p => ([.number p.1 padding], 2)
  | [] => none

def specifier? : List Char → Option (Format × Nat)
  | '-' :: rest => padded? .none rest
  | '0' :: rest => padded? .zero rest
  | '_' :: rest => padded? .space rest
  | '#' :: rest => if rest.head? = some 'z' then some ([.anyOffset], 2) else none
  | ':' :: rest =>
    if rest.take 1 = ['z'] then some ([.offset .colon], 2)
    else if rest.take 2 = [':', 'z'] then some ([.offset .seconds], 3)
    else if rest.take 3 = [':', ':', 'z'] then some ([.offset .hours], 4)
    else none
  | '.' :: rest =>
    if rest.take 1 = ['f'] then some ([.shortFraction], 2)
    else if rest.take 2 = ['3', 'f'] then some ([.fraction true 3], 3)
    else if rest.take 2 = ['6', 'f'] then some ([.fraction true 6], 3)
    else if rest.take 2 = ['9', 'f'] then some ([.fraction true 9], 3)
    else none
  | '3' :: rest => if rest.head? = some 'f' then some ([.fraction false 3], 2) else none
  | '6' :: rest => if rest.head? = some 'f' then some ([.fraction false 6], 2) else none
  | '9' :: rest => if rest.head? = some 'f' then some ([.fraction false 9], 2) else none
  | c :: _ => (letter? c).map fun items => (items, 1)
  | [] => none

/- `skip` counts the characters of a specifier that are still to be passed over. -/
def parseFrom : Nat → List Char → Option Format
  | _, [] => some []
  | skip + 1, _ :: cs => parseFrom skip cs
  | 0, c :: cs =>
    if c = '%' then
      match specifier? cs with
      | none => none
      | some (items, size) => (parseFrom size cs).map (items ++ ·)
    else (parseFrom 0 cs).map (.literal c :: ·)

def parse? (s : String) : Option Format := parseFrom 0 s.toList

def isValid (s : String) : Bool := (parse? s).isSome

end Format
end ReleaseMatrix.Time
