import ReleaseMatrix.Text.Utf8

/- Numbers as bits, and bits in bytes, the lowest bit of a byte first. -/
namespace ReleaseMatrix.Deflate

abbrev Bits := List Bool

def lowFirst : Nat → Nat → Bits
  | 0, _ => []
  | width + 1, n => (n % 2 == 1) :: lowFirst width (n / 2)

def highFirst : Nat → Nat → Bits
  | 0, _ => []
  | width + 1, n => (n / Nat.pow 2 width % 2 == 1) :: highFirst width n

def bitValue (b : Bool) : Nat := if b then 1 else 0

def readLow : Nat → Bits → Option (Nat × Bits)
  | 0, bits => some (0, bits)
  | _ + 1, [] => none
  | width + 1, b :: bits => (readLow width bits).map fun (n, rest) => (bitValue b + 2 * n, rest)

def readHigh : Nat → Bits → Option (Nat × Bits)
  | 0, bits => some (0, bits)
  | _ + 1, [] => none
  | width + 1, b :: bits =>
    (readHigh width bits).map fun (n, rest) => (bitValue b * Nat.pow 2 width + n, rest)

def valueLow : Bits → Nat
  | [] => 0
  | b :: bits => bitValue b + 2 * valueLow bits

/-- Eight bits a byte, the last byte filled up with zeros. -/
def pack : Bits → Bytes
  | a :: b :: c :: d :: e :: f :: g :: h :: rest =>
    (valueLow [a, b, c, d, e, f, g, h]).toUInt8 :: pack rest
  | [] => []
  | bits => [(valueLow bits).toUInt8]

def unpack (bytes : Bytes) : Bits := bytes.flatMap fun b => lowFirst 8 b.toNat

end ReleaseMatrix.Deflate
