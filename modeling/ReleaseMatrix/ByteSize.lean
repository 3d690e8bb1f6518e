import ReleaseMatrix.Text.Decimal

/- Byte counts for people: with a unit and one decimal place from a kibibyte on. -/
namespace ReleaseMatrix.ByteSize

def kib : Nat := 1024
def mib : Nat := 1024 * kib
def gib : Nat := 1024 * mib

/-- The nearest whole number to a quotient; a half goes to the even neighbour. -/
def divNearest (num den : Nat) : Nat :=
  let q := num / den
  let r := num % den
  if 2 * r < den then q
  else if den < 2 * r then q + 1
  else q + q % 2

def significantBits : Nat := 53

def lastPlace (n : Nat) : Nat := Nat.pow 2 (n.log2 + 1 - significantBits)

def keepLeading (n : Nat) : Nat := divNearest n (lastPlace n) * lastPlace n

def tenths (bytes unit : Nat) : Nat := divNearest (10 * keepLeading bytes) unit

def oneDecimal (tenths : Nat) : String :=
  Decimal.ofNat (tenths / 10) ++ "." ++ Decimal.ofNat (tenths % 10)

/-- The largest unit that is not more than the count, if any, with its name. -/
def unit? (bytes : Nat) : Option (Nat × String) :=
  if gib ≤ bytes then some (gib, "GB")
  else if mib ≤ bytes then some (mib, "MB")
  else if kib ≤ bytes then some (kib, "KB")
  else none

def text (bytes : Nat) : String :=
  match unit? bytes with
  | some (unit, name) => oneDecimal (tenths bytes unit) ++ " " ++ name
  | none => Decimal.ofNat bytes ++ " B"

end ReleaseMatrix.ByteSize
