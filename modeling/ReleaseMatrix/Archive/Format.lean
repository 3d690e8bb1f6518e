import ReleaseMatrix.Deflate.Code
import ReleaseMatrix.Digest.Crc32

/- Zip archives as bytes: the members one after another, then a directory of them, then where the
   directory is. Numbers that have no room in the fields of the original format, which are of two and
   of four bytes, stand in wider fields beside them, so that archives of any size can be written. -/
namespace ReleaseMatrix.Archive

structure Timestamp where
  year : Nat
  month : Nat
  day : Nat
  hour : Nat
  minute : Nat
  second : Nat
  deriving DecidableEq, Repr

def epoch : Timestamp := ⟨1980, 1, 1, 0, 0, 0⟩

structure Member where
  name : String
  mode : Nat
  deflated : Bool
  time : Timestamp
  content : Bytes
  deriving DecidableEq, Repr

def littleEndian : Nat → Nat → Bytes
  | 0, _ => []
  | width + 1, n => (n % 256).toUInt8 :: littleEndian width (n / 256)

def readLittle : Bytes → Nat
  | [] => 0
  | b :: rest => b.toNat + 256 * readLittle rest

def slice (bytes : Bytes) (offset length : Nat) : Bytes := (bytes.drop offset).take length

def field (bytes : Bytes) (offset width : Nat) : Nat := readLittle (slice bytes offset width)

def timeField (t : Timestamp) : Nat := t.hour * 2048 + t.minute * 32 + t.second / 2

def dateField (t : Timestamp) : Nat := (t.year - 1980) * 512 + t.month * 32 + t.day

def timestampOf (date time : Nat) : Timestamp :=
  ⟨1980 + date / 512, date / 32 % 16, date % 32, time / 2048, time / 32 % 64, time % 32 * 2⟩

def localSignature : Nat := 0x04034b50
def centralSignature : Nat := 0x02014b50
def endSignature : Nat := 0x06054b50
def wideEndSignature : Nat := 0x06064b50
def locatorSignature : Nat := 0x07064b50

def storedMethod : Nat := 0
def deflatedMethod : Nat := 8

/-- Version 2.0 of the format, and 4.5, which has the wide fields. -/
def plainVersion : Nat := 20
def wideVersion : Nat := 45

def madeBy (version : Nat) : Nat := 3 * 256 + version

/-- What a field of two or of four bytes holds when the number itself stands in a wide field. -/
def mark16 : Nat := 0xFFFF
def mark32 : Nat := 0xFFFFFFFF

def wideId : Nat := 1

/-- The block of the numbers that have no room in fields of four bytes, in eight bytes each. -/
def wideBlock (numbers : List Nat) : Bytes :=
  let wide := numbers.filter (mark32 ≤ ·)
  if wide.isEmpty then []
  else littleEndian 2 wideId ++ littleEndian 2 (8 * wide.length) ++ wide.flatMap (littleEndian 8)

def utf8Flag : Nat := 2048

def nameFlags (name : String) : Nat :=
  if name.toList.all fun c => c.toNat < 128 then 0 else utf8Flag

structure Packed where
  name : String
  mode : Nat
  time : Timestamp
  checksum : Nat
  size : Nat
  data : Bytes
  deriving DecidableEq, Repr

def pack (level : Nat) (name : String) (mode : Nat) (content : Bytes) : Packed :=
  ⟨name, mode, epoch, (Crc32.checksum content).toNat, content.length, Deflate.deflate level content⟩

def Packed.header (p : Packed) (extra : Bytes) : Bytes :=
  littleEndian 2 (if extra.isEmpty then plainVersion else wideVersion) ++
    littleEndian 2 (nameFlags p.name) ++ littleEndian 2 deflatedMethod ++
    littleEndian 2 (timeField p.time) ++ littleEndian 2 (dateField p.time) ++
    littleEndian 4 p.checksum ++ littleEndian 4 (min p.data.length mark32) ++
    littleEndian 4 (min p.size mark32) ++ littleEndian 2 (Utf8.encode p.name).length ++
    littleEndian 2 extra.length

def Packed.local (p : Packed) : Bytes :=
  littleEndian 4 localSignature ++ p.header [] ++ Utf8.encode p.name ++ p.data

def Packed.wideFields (p : Packed) (offset : Nat) : List Nat := [p.size, p.data.length, offset]

def Packed.central (p : Packed) (offset : Nat) : Bytes :=
  let extra := wideBlock (p.wideFields offset)
  littleEndian 4 centralSignature ++ littleEndian 2 (madeBy wideVersion) ++ p.header extra ++
    littleEndian 2 0 ++ littleEndian 2 0 ++ littleEndian 2 0 ++ littleEndian 4 (p.mode * 65536) ++
    littleEndian 4 (min offset mark32) ++ Utf8.encode p.name ++ extra

def locals (members : List Packed) : Bytes := members.flatMap Packed.local

def directory : Nat → List Packed → Bytes
  | _, [] => []
  | offset, p :: rest => p.central offset ++ directory (offset + p.local.length) rest

def plainEnding (count directorySize directoryOffset : Nat) : Bytes :=
  littleEndian 4 endSignature ++ littleEndian 2 0 ++ littleEndian 2 0 ++ littleEndian 2 count ++
    littleEndian 2 count ++ littleEndian 4 directorySize ++ littleEndian 4 directoryOffset ++
    littleEndian 2 0

def wideEnding (count directorySize directoryOffset : Nat) : Bytes :=
  littleEndian 4 wideEndSignature ++ littleEndian 8 44 ++ littleEndian 2 (madeBy wideVersion) ++
    littleEndian 2 wideVersion ++ littleEndian 4 0 ++ littleEndian 4 0 ++ littleEndian 8 count ++
    littleEndian 8 count ++ littleEndian 8 directorySize ++ littleEndian 8 directoryOffset ++
    (littleEndian 4 locatorSignature ++ littleEndian 4 0 ++
      littleEndian 8 (directoryOffset + directorySize) ++ littleEndian 4 1)

def haveRoom (count directorySize directoryOffset : Nat) : Bool :=
  count < mark16 && directorySize < mark32 && directoryOffset < mark32

def ending (count directorySize directoryOffset : Nat) : Bytes :=
  (if haveRoom count directorySize directoryOffset then []
    else wideEnding count directorySize directoryOffset) ++
    plainEnding (min count mark16) (min directorySize mark32) (min directoryOffset mark32)

def encode (members : List Packed) : Bytes :=
  let body := locals members
  let listing := directory 0 members
  body ++ listing ++ ending members.length listing.length body.length

def unpack? (method : Nat) (data : Bytes) : Option Bytes :=
  if method = storedMethod then some data
  else if method = deflatedMethod then Deflate.inflate? data
  else none

def wideNumbers (extra : Bytes) : Bytes :=
  if field extra 0 2 = wideId then slice extra 4 (field extra 2 2) else []

def widen (wide : Bytes) : List Nat → List Nat
  | [] => []
  | n :: rest => if n = mark32 then field wide 0 8 :: widen (wide.drop 8) rest else n :: widen wide rest

def readMember (archive listing : Bytes) : Option (Member × Bytes) :=
  if field listing 0 4 ≠ centralSignature ∨ listing.length < 46 then none
  else
    let nameSize := field listing 28 2
    let extra := slice listing (46 + nameSize) (field listing 30 2)
    match widen (wideNumbers extra) [field listing 24 4, field listing 20 4, field listing 42 4] with
    | [size, packedSize, offset] =>
      let entry := archive.drop offset
      if field entry 0 4 ≠ localSignature then none
      else
        let method := field listing 10 2
        let data := slice entry (30 + field entry 26 2 + field entry 28 2) packedSize
        (Utf8.decode? (slice listing 46 nameSize)).bind fun name =>
          (unpack? method data).bind fun content =>
            if content.length = size ∧ (Crc32.checksum content).toNat = field listing 16 4 then
              some (⟨name, field listing 40 2, method == deflatedMethod,
                timestampOf (field listing 14 2) (field listing 12 2), content⟩,
                listing.drop (46 + nameSize + field listing 30 2 + field listing 32 2))
            else none
    | _ => none

def readMembers (archive : Bytes) : Nat → Bytes → Option (List Member)
  | 0, _ => some []
  | count + 1, listing =>
    match readMember archive listing with
    | none => none
    | some (member, rest) => (readMembers archive count rest).map (member :: ·)

def directoryPlace? (archive : Bytes) : Option (Nat × Nat) :=
  let last := archive.drop (archive.length - 22)
  let locator := archive.drop (archive.length - 42)
  let wide := archive.drop (field locator 8 8)
  if archive.length < 22 ∨ field last 0 4 ≠ endSignature then none
  else if haveRoom (field last 10 2) (field last 12 4) (field last 16 4) then
    some (field last 10 2, field last 16 4)
  else if archive.length < 42 ∨ field locator 0 4 ≠ locatorSignature ∨
      field wide 0 4 ≠ wideEndSignature then none
  else some (field wide 32 8, field wide 48 8)

def decode? (archive : Bytes) : Option (List Member) :=
  (directoryPlace? archive).bind fun (count, offset) =>
    readMembers archive count (archive.drop offset)

end ReleaseMatrix.Archive
