import Stagehand.Image.Checksum
import Stagehand.Text.Quoted

/-!
# Chunks

Behind its signature a portable network graphics file is a row of chunks: a length, a name of four
bytes, content of that length, and a check of name and content. The case of the letters of the name
tells how to treat a chunk that is not known. A file can end anywhere, so of the last chunk content
and check need not be there.
-/

namespace Stagehand.Png

/-- The first bytes of every file. -/
def signature : ByteArray := ⟨#[0x89, 0x50, 0x4e, 0x47, 0x0d, 0x0a, 0x1a, 0x0a]⟩

/-- The name of a chunk. -/
structure ChunkName where
  first : UInt8
  second : UInt8
  third : UInt8
  fourth : UInt8
  deriving DecidableEq, Repr

namespace ChunkName

/-- The bytes of the name. -/
def bytes (n : ChunkName) : ByteArray := ⟨#[n.first, n.second, n.third, n.fourth]⟩

/-- The header. -/
def header : ChunkName := ⟨0x49, 0x48, 0x44, 0x52⟩

/-- The table of colours. -/
def palette : ChunkName := ⟨0x50, 0x4c, 0x54, 0x45⟩

/-- What is transparent. -/
def transparency : ChunkName := ⟨0x74, 0x52, 0x4e, 0x53⟩

/-- The compressed rows. -/
def data : ChunkName := ⟨0x49, 0x44, 0x41, 0x54⟩

/-- The compressed rows of a further frame. -/
def frameData : ChunkName := ⟨0x66, 0x64, 0x41, 0x54⟩

/-- The end of the file. -/
def ending : ChunkName := ⟨0x49, 0x45, 0x4e, 0x44⟩

/-- A letter is small. -/
def isSmall (letter : UInt8) : Bool := letter / 32 % 2 == 1

/-- An image cannot be read without the chunk. -/
def isCritical (n : ChunkName) : Bool := !isSmall n.first

/-- A byte of the name in a dump. -/
def letter (b : UInt8) : List Char :=
  let c := Char.ofNat b.toNat
  if c == '\x27' then ['\\', c] else Text.escape '\x22' c

/-- The name in a dump, with what the case of its letters tells. -/
def text (n : ChunkName) : String :=
  let flag := fun (b : UInt8) => if isSmall b then "true" else "false"
  "ChunkType \x7b type: " ++
    String.ofList ([n.first, n.second, n.third, n.fourth].flatMap letter) ++
    ", critical: " ++ (if n.isCritical then "true" else "false") ++
    ", private: " ++ flag n.second ++ ", reserved: " ++ flag n.third ++
    ", safecopy: " ++ flag n.fourth ++ " \x7d"

end ChunkName

/-- A chunk as far as it is there. -/
structure Chunk where
  name : ChunkName
  content : ByteArray
  /-- The check behind the content, if the file does not end before it. -/
  check : Option UInt32

/-- Four bytes, most significant first. -/
def bytes32 (n : UInt32) : ByteArray :=
  ⟨#[(n >>> 24).toUInt8, (n >>> 16).toUInt8, (n >>> 8).toUInt8, n.toUInt8]⟩

/-- The check that belongs to a name and content. -/
def checkOf (name : ChunkName) (content : ByteArray) : UInt32 :=
  Checksum.crc (name.bytes ++ content)

/-- A chunk in a file. -/
def chunk (name : ChunkName) (content : ByteArray) : ByteArray :=
  bytes32 (UInt32.ofNat content.size) ++ name.bytes ++ content ++ bytes32 (checkOf name content)

/-- The four bytes from a place on. -/
def name? (bytes : ByteArray) (start : Nat) : Option ChunkName := do
  return ⟨← bytes.data[start]?, ← bytes.data[start + 1]?, ← bytes.data[start + 2]?,
    ← bytes.data[start + 3]?⟩

/-- The number in four bytes. -/
def number? (bytes : ByteArray) (start : Nat) : Option Nat := do
  let n ← name? bytes start
  return ((n.first.toNat * 256 + n.second.toNat) * 256 + n.third.toNat) * 256 + n.fourth.toNat

/-- The chunks from a place on, for as long as there are length and name. -/
def chunksFrom (bytes : ByteArray) : Nat → Nat → List Chunk
  | 0, _ => []
  | fuel + 1, start =>
    match number? bytes start, name? bytes (start + 4) with
    | some length, some name =>
      let content := start + 8
      let check := (number? bytes (content + length)).map UInt32.ofNat
      ⟨name, bytes.extract content (content + length), check⟩ ::
        chunksFrom bytes fuel (content + length + 4)
    | _, _ => []

/-- The chunks of a file that begins with the signature. -/
def chunks (bytes : ByteArray) : List Chunk := chunksFrom bytes bytes.size signature.size

end Stagehand.Png
