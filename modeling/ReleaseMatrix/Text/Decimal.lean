/- Numbers written in decimal and in other bases. -/
namespace ReleaseMatrix.Decimal

def digit? (c : Char) : Option Nat :=
  if '0' ≤ c ∧ c ≤ '9' then some (c.toNat - '0'.toNat) else none

def digitIn? (base : Nat) (c : Char) : Option Nat :=
  let value :=
    if '0' ≤ c ∧ c ≤ '9' then some (c.toNat - '0'.toNat)
    else if 'a' ≤ c ∧ c ≤ 'z' then some (c.toNat - 'a'.toNat + 10)
    else if 'A' ≤ c ∧ c ≤ 'Z' then some (c.toNat - 'A'.toNat + 10)
    else none
  value.filter (· < base)

def foldDigits (base : Nat) : Nat → List Char → Option Nat
  | acc, [] => some acc
  | acc, c :: cs => (digitIn? base c).bind fun d => foldDigits base (acc * base + d) cs

def natural? (base : Nat) : List Char → Option Nat
  | [] => none
  | cs => foldDigits base 0 cs

def unsigned? (base : Nat) : List Char → Option Nat
  | '+' :: cs => natural? base cs
  | cs => natural? base cs

def integer? : List Char → Option Int
  | '-' :: cs => (natural? 10 cs).map fun n => -(n : Int)
  | cs => (unsigned? 10 cs).map Int.ofNat

def maxInt64 : Int := Int.pow 2 63 - 1
def minInt64 : Int := -Int.pow 2 63
def maxNat64 : Nat := Nat.pow 2 64 - 1
def maxNat32 : Nat := Nat.pow 2 32 - 1

def fitsInt64 (n : Int) : Bool := minInt64 ≤ n && n ≤ maxInt64

def int64? (cs : List Char) : Option Int := (integer? cs).filter fitsInt64

def digitChar (d : Nat) : Char := Char.ofNat ('0'.toNat + d)

/-- Decimal digits, most significant first, at least one; the fuel bounds their number. -/
def digitsFuel : Nat → Nat → List Char
  | 0, n => [digitChar (n % 10)]
  | fuel + 1, n =>
    if n < 10 then [digitChar n] else digitsFuel fuel (n / 10) ++ [digitChar (n % 10)]

def digits (n : Nat) : List Char := digitsFuel n.log2 n

def ofNat (n : Nat) : String := String.ofList (digits n)

def ofInt : Int → String
  | .ofNat n => ofNat n
  | .negSucc n => "-" ++ ofNat (n + 1)

def zeroPadded (width n : Nat) : String :=
  let ds := digits n
  String.ofList (List.replicate (width - ds.length) '0' ++ ds)

end ReleaseMatrix.Decimal
