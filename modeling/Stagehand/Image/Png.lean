import Stagehand.Image.Png.Rows

/-!
# Portable network graphics

An image file of this format is a signature and a row of chunks: a header with the size and the kind
of samples, the compressed rows, and an end. `Png.encode` writes rows as they are, without
compression. `Png.decode` reads chunk by chunk and stops at the first fault on its way; it asks for
no more than the name of the chunk behind the rows.
-/

namespace Stagehand.Png

/-! ## Writing -/

/-- The most bytes of a stored block. -/
def blockSize : Nat := 65535

/-- Two bytes, least significant first. -/
def bytes16 (n : Nat) : ByteArray := ⟨#[UInt8.ofNat n, UInt8.ofNat (n / 256)]⟩

/-- Stored blocks for the bytes from `start` on. -/
def storedBlocks (bytes : ByteArray) : Nat → Nat → ByteArray
  | 0, _ => ByteArray.empty
  | fuel + 1, start =>
    let length := min blockSize (bytes.size - start)
    let last := bytes.size ≤ start + length
    let block := ⟨#[if last then 1 else 0]⟩ ++ bytes16 length ++ bytes16 (65535 - length) ++
      bytes.extract start (start + length)
    if last then block else block ++ storedBlocks bytes fuel (start + length)

/-- A stream that holds bytes as they are. -/
def storedStream (bytes : ByteArray) : ByteArray :=
  ⟨#[0x78, 0x01]⟩ ++ storedBlocks bytes (bytes.size / blockSize + 1) 0 ++
    bytes32 (Checksum.adler bytes)

/-- The file of an image whose samples are given row by row, in one pass. -/
def encode (h : Header) (samples : ByteArray) : ByteArray :=
  let size := h.rowSize h.width
  let rows := (List.range h.height).foldl (fun (out : ByteArray) y =>
    out.push 0 ++ samples.extract (y * size) ((y + 1) * size)) ByteArray.empty
  let header := bytes32 (UInt32.ofNat h.width) ++ bytes32 (UInt32.ofNat h.height) ++
    ⟨#[UInt8.ofNat h.depth.bits, h.samples.code, 0, 0, 0]⟩
  signature ++ chunk .header header ++ chunk .data (storedStream rows) ++
    chunk .ending ByteArray.empty

/-- The pixels of an image as samples, row by row. -/
def rgba (image : Image) : ByteArray :=
  image.pixels.foldl (fun out p =>
    (((out.push p.red).push p.green).push p.blue).push p.alpha) ByteArray.empty

/-- The file of an image. -/
def ofImage (image : Image) : ByteArray :=
  encode ⟨image.width, image.height, .colourAlpha, .eight, false⟩ (rgba image)

/-! ## Reading -/

/-- The most bytes that the pixels can take. -/
def roomLimit : Nat := 512 * 1024 * 1024

/-- The number of bytes of the pixels as they are read: colours for places of a table, with opacity
if something is transparent, and at least a byte for a sample. -/
def Preface.room (p : Preface) : Nat :=
  let h := p.header
  let colours := if h.samples = .palette then 3 else h.samples.count
  let count := if p.transparency.isSome then colours + 1 else colours
  h.width * h.height * count * (if h.depth = .sixteen then 2 else 1)

/-- The image in a stream, if the stream is whole and has enough rows. -/
def Preface.attempt (p : Preface) (stream : ByteArray) : Except Fault (Option Image) :=
  match Inflate.inflate stream with
  | .ok raw => p.image raw
  | .error .unfinished => .ok none
  | .error f => .error (.stream f)

/-- Why no image came of a stream that has ended. -/
def unfinished (stream : ByteArray) : Fault :=
  match Inflate.inflate stream with
  | .ok _ => .fewRows
  | .error f => .stream f

/-- The image in the chunks of rows, behind the stream so far and what was found in it. Chunks that
follow when the image is there are checked all the same. -/
def Preface.imageIn (p : Preface) :
    ByteArray → Option Image → List Chunk → Except Fault Image
  | _, _, [] => .error .truncated
  | stream, found, c :: rest =>
    if c.name = .data then do
      let stream := stream ++ c.content
      let found ← match found with
        | some image => pure (some image)
        | none => p.attempt stream
      let _ ← c.isSound
      p.imageIn stream found rest
    else
      match found with
      | some image => .ok image
      | none => .error (unfinished stream)

/-- The image in a file that begins with the signature. -/
def decode (bytes : ByteArray) : Except Fault Image := do
  let (p, rest) ← Preface.read (chunks bytes)
  if roomLimit < p.room then throw .tooLarge
  p.imageIn ByteArray.empty none rest

end Stagehand.Png
