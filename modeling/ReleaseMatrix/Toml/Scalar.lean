import ReleaseMatrix.Text
import ReleaseMatrix.Text.Decimal
import ReleaseMatrix.Time.Calendar
import ReleaseMatrix.Toml.Basic

/- TOML values that are written without quotes or brackets: words, numbers, dates and times. -/
namespace ReleaseMatrix.Toml

def groupedDigits? (base : Nat) (cs : List Char) : Option (List Char) :=
  let groups := Text.splitAll '_' cs
  if groups.all fun g => !g.isEmpty && g.all fun c => (Decimal.digitIn? base c).isSome then
    some groups.flatten
  else none

def inBase? (base : Nat) (cs : List Char) : Option Toml :=
  (groupedDigits? base cs).bind fun ds =>
    (Decimal.natural? base ds).bind fun n =>
      if Decimal.fitsInt64 n then some (.integer n) else none

def wholePart? (cs : List Char) : Option (List Char) :=
  (groupedDigits? 10 cs).filter fun ds => ds.length = 1 || ds.head? != some '0'

def splitSign : List Char → Bool × List Char
  | '-' :: cs => (true, cs)
  | '+' :: cs => (false, cs)
  | cs => (false, cs)

def decimalInteger? (cs : List Char) : Option Toml :=
  let (negative, cs) := splitSign cs
  (wholePart? cs).bind fun ds =>
    (Decimal.natural? 10 ds).bind fun n =>
      let value : Int := if negative then -(n : Int) else n
      if Decimal.fitsInt64 value then some (.integer value) else none

/-- The least number that rounds to infinity among binary numbers of 64 bits. -/
def overflowBound : Nat := Nat.pow 2 1024 - Nat.pow 2 970

/-- Whether digits with a power of ten reach the bound; digits far below or above it are told by
   their number alone. -/
def overflows (digits : List Char) (exponent : Int) : Bool :=
  let ds := digits.dropWhile (· == '0')
  let magnitude := (ds.length : Int) + exponent
  if ds.isEmpty || magnitude < 300 then false
  else if 320 < magnitude then true
  else match Decimal.natural? 10 ds with
    | none => false
    | some n =>
      if 0 ≤ exponent then overflowBound ≤ n * Nat.pow 10 exponent.toNat
      else overflowBound * Nat.pow 10 (-exponent).toNat ≤ n

def exponent? (cs : List Char) : Option Int :=
  let (negative, cs) := splitSign cs
  (groupedDigits? 10 cs).bind fun ds =>
    (Decimal.natural? 10 ds).map fun n => if negative then -(n : Int) else n

def splitExponent (cs : List Char) : List Char × Option (List Char) :=
  let (front, rest) := cs.span fun c => c != 'e' && c != 'E'
  match rest with
  | [] => (front, none)
  | _ :: power => (front, some power)

/-- A whole part with a fraction or an exponent or both, within the range of 64-bit numbers. -/
def float? (cs : List Char) : Option Toml :=
  let (negative, cs) := splitSign cs
  if cs = "inf".toList || cs = "nan".toList then some .float
  else
    let (front, power) := splitExponent cs
    let (whole, fraction) := match Text.cut? '.' front with
      | some (whole, fraction) => (whole, some fraction)
      | none => (front, none)
    if fraction.isNone && power.isNone then none
    else do
      let whole ← wholePart? whole
      let fraction ← match fraction with
        | none => some []
        | some ds => groupedDigits? 10 ds
      let power ← match power with
        | none => some 0
        | some p => exponent? p
      if !negative && overflows (whole ++ fraction) (power - fraction.length) then none
      else some .float

def twoDigits? (most : Nat) (least : Nat) : List Char → Option Nat
  | [a, b] => (Decimal.natural? 10 [a, b]).filter fun n => least ≤ n && n ≤ most
  | _ => none

def isDate (cs : List Char) : Bool :=
  match cs with
  | [y1, y2, y3, y4, '-', m1, m2, '-', d1, d2] =>
    match Decimal.natural? 10 [y1, y2, y3, y4], twoDigits? 12 1 [m1, m2] with
    | some year, some month =>
      (twoDigits? ((Time.Date.monthLengths year).getD (month - 1) 0) 1 [d1, d2]).isSome
    | _, _ => false
  | _ => false

def isClock (cs : List Char) : Bool :=
  match cs with
  | h1 :: h2 :: ':' :: m1 :: m2 :: ':' :: s1 :: s2 :: rest =>
    (twoDigits? 23 0 [h1, h2]).isSome && (twoDigits? 59 0 [m1, m2]).isSome &&
      (twoDigits? 60 0 [s1, s2]).isSome &&
      match rest with
      | [] => true
      | '.' :: ds => (Decimal.natural? 10 ds).isSome
      | _ => false
  | _ => false

def isOffset : List Char → Bool
  | [h1, h2, ':', m1, m2] => (twoDigits? 23 0 [h1, h2]).isSome && (twoDigits? 59 0 [m1, m2]).isSome
  | _ => false

def isZonedClock (cs : List Char) : Bool :=
  let (clock, zone) := cs.span fun c => c != 'Z' && c != 'z' && c != '+' && c != '-'
  isClock clock &&
    match zone with
    | [] => true
    | ['Z'] => true
    | ['z'] => true
    | '+' :: offset => isOffset offset
    | '-' :: offset => isOffset offset
    | _ => false

def time? (cs : List Char) : Option Toml :=
  if isDate cs || isClock cs then some .time
  else
    let (day, rest) := cs.splitAt 10
    match rest with
    | c :: clock =>
      if (c == 'T' || c == 't' || c == ' ') && isDate day && isZonedClock clock then some .time
      else none
    | [] => none

def scalar? (cs : List Char) : Option Toml :=
  match cs with
  | ['t', 'r', 'u', 'e'] => some (.bool true)
  | ['f', 'a', 'l', 's', 'e'] => some (.bool false)
  | '0' :: 'x' :: ds => inBase? 16 ds
  | '0' :: 'o' :: ds => inBase? 8 ds
  | '0' :: 'b' :: ds => inBase? 2 ds
  | _ => (time? cs).or ((float? cs).or (decimalInteger? cs))

def isScalarChar (c : Char) : Bool :=
  (Decimal.digitIn? 36 c).isSome || c == '+' || c == '-' || c == '_' || c == '.' || c == ':'

def clockFollows : List Char → Bool
  | ' ' :: a :: b :: ':' :: _ => (Decimal.digit? a).isSome && (Decimal.digit? b).isSome
  | _ => false

def scalarSpan (cs : List Char) : List Char × List Char :=
  let (front, rest) := cs.span isScalarChar
  if isDate front && clockFollows rest then
    let (clock, rest) := (rest.drop 1).span isScalarChar
    (front ++ ' ' :: clock, rest)
  else (front, rest)

end ReleaseMatrix.Toml
