/- Text as bytes. -/
namespace ReleaseMatrix

abbrev Bytes := List UInt8

namespace Utf8

def encode (s : String) : Bytes := s.toUTF8.toList

def decode? (bytes : Bytes) : Option String := String.fromUTF8? ⟨bytes.toArray⟩

def isContinuation (b : UInt8) : Bool := 0x80 ≤ b && b ≤ 0xBF

def payload (b : UInt8) : Nat := b.toNat % 64

/-- The bounds of the byte after a lead byte, and how many bytes follow the lead byte. -/
def lead? (b : UInt8) : Option (UInt8 × UInt8 × Nat) :=
  if 0xC2 ≤ b && b ≤ 0xDF then some (0x80, 0xBF, 1)
  else if b == 0xE0 then some (0xA0, 0xBF, 2)
  else if b == 0xED then some (0x80, 0x9F, 2)
  else if 0xE1 ≤ b && b ≤ 0xEF then some (0x80, 0xBF, 2)
  else if b == 0xF0 then some (0x90, 0xBF, 3)
  else if b == 0xF4 then some (0x80, 0x8F, 3)
  else if 0xF1 ≤ b && b ≤ 0xF3 then some (0x80, 0xBF, 3)
  else none

def replacement : Char := '\ufffd'

/-- One character from the front of non-empty bytes, and how many bytes it takes. A sequence
   that breaks off stands for one replacement character, up to the byte that breaks it. -/
def next (b : UInt8) (rest : Bytes) : Char × Nat :=
  if b < 0x80 then (Char.ofNat b.toNat, 1)
  else match lead? b with
    | none => (replacement, 1)
    | some (low, high, more) =>
      match rest with
      | [] => (replacement, 1)
      | c :: rest =>
        if low ≤ c && c ≤ high then
          let tail := (rest.take (more - 1)).takeWhile isContinuation
          if tail.length = more - 1 then
            let start := b.toNat % Nat.pow 2 (6 - more)
            (Char.ofNat ((c :: tail).foldl (fun n x => n * 64 + payload x) start), more + 1)
          else (replacement, 2 + tail.length)
        else (replacement, 1)

def decodeFuel : Nat → Bytes → List Char
  | fuel + 1, b :: rest =>
    let (c, size) := next b rest
    c :: decodeFuel fuel ((b :: rest).drop size)
  | _, _ => []

def decodeLossy (bytes : Bytes) : String :=
  match decode? bytes with
  | some s => s
  | none => String.ofList (decodeFuel bytes.length bytes)

end Utf8
end ReleaseMatrix
