import ReleaseMatrix.Deflate.Bits
import ReleaseMatrix.Deflate.Token

/- Deflated data: tokens written in the fixed codes of the format, and their reading. -/
namespace ReleaseMatrix.Deflate

def lengthTable : List (Nat × Nat) :=
  [(3, 0), (4, 0), (5, 0), (6, 0), (7, 0), (8, 0), (9, 0), (10, 0), (11, 1), (13, 1), (15, 1),
    (17, 1), (19, 2), (23, 2), (27, 2), (31, 2), (35, 3), (43, 3), (51, 3), (59, 3), (67, 4),
    (83, 4), (99, 4), (115, 4), (131, 5), (163, 5), (195, 5), (227, 5), (258, 0)]

def distanceTable : List (Nat × Nat) :=
  [(1, 0), (2, 0), (3, 0), (4, 0), (5, 1), (7, 1), (9, 2), (13, 2), (17, 3), (25, 3), (33, 4),
    (49, 4), (65, 5), (97, 5), (129, 6), (193, 6), (257, 7), (385, 7), (513, 8), (769, 8),
    (1025, 9), (1537, 9), (2049, 10), (3073, 10), (4097, 11), (6145, 11), (8193, 12), (12289, 12),
    (16385, 13), (24577, 13)]

def slotFrom : Nat → List (Nat × Nat) → Nat → Nat × Nat × Nat
  | number, [], _ => (number, 0, 0)
  | number, [(least, extra)], _ => (number, least, extra)
  | number, (least, extra) :: next :: rest, value =>
    if value < next.1 then (number, least, extra) else slotFrom (number + 1) (next :: rest) value

def slot (table : List (Nat × Nat)) (value : Nat) : Nat × Nat × Nat := slotFrom 0 table value

def endOfBlock : Nat := 256
def firstLength : Nat := 257

def symbolBits (symbol : Nat) : Bits :=
  if symbol < 144 then highFirst 8 (48 + symbol)
  else if symbol < 256 then highFirst 9 (400 + (symbol - 144))
  else if symbol < 280 then highFirst 7 (symbol - 256)
  else highFirst 8 (192 + (symbol - 280))

def readSymbol (bits : Bits) : Option (Nat × Bits) :=
  (readHigh 7 bits).bind fun (seven, rest) =>
    if seven < 24 then some (256 + seven, rest)
    else (readHigh 1 rest).bind fun (bit, rest) =>
      let eight := 2 * seven + bit
      if eight < 192 then some (eight - 48, rest)
      else if eight < 200 then some (280 + (eight - 192), rest)
      else (readHigh 1 rest).map fun (bit, rest) => (2 * eight + bit - 256, rest)

def Token.bits : Token → Bits
  | .literal b => symbolBits b.toNat
  | .copy length distance =>
    let (lengthCode, leastLength, lengthExtra) := slot lengthTable length
    let (distanceCode, leastDistance, distanceExtra) := slot distanceTable distance
    symbolBits (firstLength + lengthCode) ++ lowFirst lengthExtra (length - leastLength) ++
      highFirst 5 distanceCode ++ lowFirst distanceExtra (distance - leastDistance)

def readSlot (table : List (Nat × Nat)) (code : Nat) (bits : Bits) : Option (Nat × Bits) :=
  (table[code]?).bind fun (least, extra) =>
    (readLow extra bits).map fun (more, rest) => (least + more, rest)

def readToken (symbol : Nat) (bits : Bits) : Option (Token × Bits) :=
  if symbol < endOfBlock then some (.literal symbol.toUInt8, bits)
  else (readSlot lengthTable (symbol - firstLength) bits).bind fun (length, rest) =>
    (readHigh 5 rest).bind fun (code, rest) =>
      (readSlot distanceTable code rest).map fun (distance, rest) => (.copy length distance, rest)

def blockHeader : Bits := lowFirst 1 1 ++ lowFirst 2 1

def encodeBits (tokens : List Token) : Bits :=
  blockHeader ++ tokens.flatMap Token.bits ++ symbolBits endOfBlock

def readBlockFuel : Nat → Bytes → Bits → Option (Bytes × Bits)
  | 0, _, _ => none
  | fuel + 1, out, bits =>
    match readSymbol bits with
    | none => none
    | some (symbol, rest) =>
      if symbol = endOfBlock then some (out, rest)
      else match readToken symbol rest with
        | none => none
        | some (token, rest) =>
          match token.apply out with
          | none => none
          | some out => readBlockFuel fuel out rest

def readStored : Nat → Bytes → Bits → Option (Bytes × Bits)
  | 0, out, bits => some (out, bits)
  | n + 1, out, bits =>
    match readLow 8 bits with
    | none => none
    | some (b, rest) => readStored n (b.toUInt8 :: out) rest

/- `size` is the number of bits in all, by which the end of the current byte is found. -/
def readStoredBlock (size : Nat) (out : Bytes) (bits : Bits) : Option (Bytes × Bits) :=
  let used := size - bits.length
  let aligned := bits.drop ((8 - used % 8) % 8)
  (readLow 16 aligned).bind fun (length, rest) =>
    (readLow 16 rest).bind fun (complement, rest) =>
      if length + complement = 65535 then readStored length out rest else none

def readBlocksFuel (size : Nat) : Nat → Bytes → Bits → Option Bytes
  | 0, _, _ => none
  | fuel + 1, out, bits =>
    match readLow 1 bits with
    | none => none
    | some (final, rest) =>
      match readLow 2 rest with
      | none => none
      | some (kind, rest) =>
        let block :=
          if kind = 0 then readStoredBlock size out rest
          else if kind = 1 then readBlockFuel rest.length out rest
          else none
        match block with
        | none => none
        | some (out, rest) =>
          if final = 1 then some out.reverse else readBlocksFuel size fuel out rest

/-- The data that blocks stand for; blocks with codes of their own are not read. -/
def inflate? (data : Bytes) : Option Bytes :=
  let bits := unpack data
  readBlocksFuel bits.length bits.length [] bits

def effortOf (level : Nat) : Nat := 4 * min level 9

def deflate (level : Nat) (data : Bytes) : Bytes :=
  pack (encodeBits (tokens (effortOf level) data))

end ReleaseMatrix.Deflate
