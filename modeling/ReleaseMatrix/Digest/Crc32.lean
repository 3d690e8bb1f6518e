import ReleaseMatrix.Text.Utf8

/- The CRC-32 checksum of archives. -/
namespace ReleaseMatrix.Crc32

def polynomial : UInt32 := 0xEDB88320

def step (crc : UInt32) : UInt32 :=
  if crc &&& 1 == 1 then (crc >>> 1) ^^^ polynomial else crc >>> 1

def addByte (crc : UInt32) (b : UInt8) : UInt32 :=
  step (step (step (step (step (step (step (step (crc ^^^ b.toUInt32))))))))

def checksum (data : Bytes) : UInt32 := ~~~ (data.foldl addByte 0xFFFFFFFF)

end ReleaseMatrix.Crc32
