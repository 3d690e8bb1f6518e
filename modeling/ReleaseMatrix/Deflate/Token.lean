import Std.Data.ExtTreeMap
import ReleaseMatrix.Text.Utf8

/- Data as literal bytes and copies of what came before. -/
namespace ReleaseMatrix.Deflate

inductive Token where
  | literal (b : UInt8)
  | copy (length distance : Nat)
  deriving DecidableEq, Repr

def minCopy : Nat := 3
def maxCopy : Nat := 258
def maxDistance : Nat := 32768

/-- Copies byte by byte, so that a copy may reach into what it wrote itself. The output is held
   with its last byte first. -/
def copyBack (distance : Nat) : Nat → Bytes → Bytes
  | 0, out => out
  | n + 1, out => copyBack distance n (out.getD (distance - 1) 0 :: out)

/-- A copy from before the start of the output has no meaning. -/
def Token.apply (out : Bytes) : Token → Option Bytes
  | .literal b => some (b :: out)
  | .copy length distance =>
    if distance = 0 ∨ out.length < distance then none else some (copyBack distance length out)

def expandFrom : Bytes → List Token → Option Bytes
  | out, [] => some out.reverse
  | out, t :: rest => (t.apply out).bind fun out => expandFrom out rest

def expand (tokens : List Token) : Option Bytes := expandFrom [] tokens

abbrev Occurrences := Std.ExtTreeMap Nat (List (Nat × Bytes))

def key? : Bytes → Option Nat
  | a :: b :: c :: _ => some (a.toNat * 65536 + b.toNat * 256 + c.toNat)
  | _ => none

def commonFront : Nat → Bytes → Bytes → Nat
  | limit + 1, a :: as, b :: bs => if a = b then commonFront limit as bs + 1 else 0
  | _, _, _ => 0

def longest (position : Nat) (data : Bytes) : List (Nat × Bytes) → Option (Nat × Nat)
  | [] => none
  | (start, earlier) :: rest =>
    let length := commonFront maxCopy earlier data
    let distance := position - start
    let best := longest position data rest
    if minCopy ≤ length ∧ 0 < distance ∧ distance ≤ maxDistance ∧
        (best.map Prod.fst).getD 0 ≤ length then some (length, distance)
    else best

def candidates (seen : Occurrences) (data : Bytes) : List (Nat × Bytes) :=
  ((key? data).bind fun key => seen[key]?).getD []

def note (effort position : Nat) (data : Bytes) (seen : Occurrences) : Occurrences :=
  match key? data with
  | none => seen
  | some key => seen.insert key (((position, data) :: seen[key]?.getD []).take effort)

def tokensFrom (effort : Nat) : Nat → Nat → Occurrences → Bytes → List Token
  | _, _, _, [] => []
  | skip + 1, position, seen, b :: rest =>
    tokensFrom effort skip (position + 1) (note effort position (b :: rest) seen) rest
  | 0, position, seen, b :: rest =>
    let later := note effort position (b :: rest) seen
    match longest position (b :: rest) (candidates seen (b :: rest)) with
    | some (length, distance) =>
      .copy length distance :: tokensFrom effort (length - 1) (position + 1) later rest
    | none => .literal b :: tokensFrom effort 0 (position + 1) later rest

def tokens (effort : Nat) (data : Bytes) : List Token := tokensFrom effort 0 0 ∅ data

end ReleaseMatrix.Deflate
