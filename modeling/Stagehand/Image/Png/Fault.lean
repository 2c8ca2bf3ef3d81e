import Stagehand.Image.Inflate
import Stagehand.Image.Png.Chunk
import Stagehand.Image.Png.Header

/-!
# Faults of portable network graphics

Why a file of this format gives no image.
-/

namespace Stagehand.Png

/-- Why a file gives no image. -/
inductive Fault where
  /-- The file ends too early. -/
  | truncated
  /-- The pixels would take too much room. -/
  | tooLarge
  | beforeHeader (name : ChunkName)
  | repeated (name : ChunkName)
  | tooShort (name : ChunkName)
  | unknown (name : ChunkName)
  /-- Rows of a frame that was not announced. -/
  | restarted (name : ChunkName)
  | check (name : ChunkName) (stored computed : UInt32)
  | noData
  | dimensions
  | depth (number : UInt8)
  | samples (number : UInt8)
  | combination (samples : Samples) (depth : Depth)
  | compression (number : UInt8)
  /-- Neither the header nor a row can name differences of this kind. -/
  | differences (number : UInt8)
  | interlacing (number : UInt8)
  | noPalette
  | stream (fault : Inflate.Fault)
  /-- There are fewer rows than the header says. -/
  | fewRows
  deriving DecidableEq, Repr

/-- A check in hexadecimal. -/
def hexText (n : UInt32) : String := "0x" ++ String.ofList (Nat.toDigits 16 n.toNat)

/-- The wording of the fault. -/
def Fault.message : Fault → String
  | .truncated => "unexpected end of file"
  | .tooLarge => "Memory limit exceeded"
  | .beforeHeader name => name.text ++ " chunk appeared before IHDR chunk"
  | .repeated name => "Chunk " ++ name.text ++ " must appear at most once."
  | .tooShort name => "Chunk is too short: " ++ name.text
  | .unknown name => "Unrecognized critical chunk: " ++ name.text
  | .restarted name => "Unexpected restart of " ++ name.text ++ " chunk sequence"
  | .check name stored computed =>
    "CRC error: expected " ++ hexText stored ++ " have " ++ hexText computed ++
      " while decoding " ++ name.text ++ " chunk."
  | .noData => "IDAT or fdAT chunk is missing."
  | .dimensions => "Invalid image dimensions"
  | .depth n => "Invalid dispose operation " ++ toString n.toNat ++ "."
  | .samples n => "Invalid color type " ++ toString n.toNat ++ "."
  | .combination s d =>
    "Invalid color/depth combination in header: " ++ s.name ++ "/" ++ d.name
  | .compression n => "Unknown compression method " ++ toString n.toNat ++ "."
  | .differences n => "Unknown filter method " ++ toString n.toNat ++ "."
  | .interlacing n => "Unknown interlace method " ++ toString n.toNat ++ "."
  | .noPalette => "Missing palette of indexed image."
  | .stream f => "Corrupt deflate stream. " ++ f.name
  | .fewRows => "IDAT or fDAT chunk does not have enough data for image."

end Stagehand.Png
