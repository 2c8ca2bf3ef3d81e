/-!
# Checksums

The two checks of image files: the remainder of a chunk as a polynomial over two elements, and the
pair of sums over an uncompressed stream.
-/

namespace Stagehand.Checksum

/-- One bit of the division: the low bit goes, and the divisor is taken off if it was set. -/
def crcBit (c : UInt32) : UInt32 := if c % 2 = 1 then (c >>> 1) ^^^ 0xedb88320 else c >>> 1

/-- One byte of the division. -/
def crcByte (c : UInt32) (b : UInt8) : UInt32 :=
  crcBit <| crcBit <| crcBit <| crcBit <| crcBit <| crcBit <| crcBit <| crcBit (c ^^^ b.toUInt32)

/-- The check of a chunk. -/
def crc (bytes : ByteArray) : UInt32 := bytes.foldl crcByte 0xffffffff ^^^ 0xffffffff

/-- The check of a stream: the sum of its bytes, and the sum of those sums. -/
def adler (bytes : ByteArray) : UInt32 :=
  let (a, b) := bytes.foldl (fun (a, b) byte =>
    let a := (a + byte.toNat) % 65521
    (a, (b + a) % 65521)) (1, 0)
  UInt32.ofNat (b * 65536 + a)

end Stagehand.Checksum
