/-!
# Compressed streams

A compressed stream is two bytes that say how it was made, a sequence of blocks, read bit by bit
from the low end of each byte, and four bytes of a check, which is not looked at. A block is stored,
or its literals and its copies from what was already written are coded by prefix codes, fixed ones
or codes that the block describes first. `inflate` undoes this; every step reads at least one bit,
so the length of the stream bounds the steps.
-/

namespace Stagehand.Inflate

/-- Why a stream cannot be undone. -/
inductive Fault where
  /-- The two leading bytes are no method that there is. -/
  | method
  /-- The stream ends before its last block and the check behind it. -/
  | unfinished
  | blockKind
  /-- The length of a stored block and its complement do not agree. -/
  | storedLength
  | literalCount
  | distanceCount
  /-- A length is repeated where there is none before it, or too often. -/
  | repeatedLength
  | lengthCode
  | literalCode
  | distanceCode
  | literalSymbol
  | distanceSymbol
  /-- A copy begins before what was written. -/
  | tooFarBack
  deriving DecidableEq, Repr

/-- The name of the fault. -/
def Fault.name : Fault → String
  | .method => "BadZlibHeader"
  | .unfinished => "InsufficientInput"
  | .blockKind => "InvalidBlockType"
  | .storedLength => "InvalidUncompressedBlockLength"
  | .literalCount => "InvalidHlit"
  | .distanceCount => "InvalidHdist"
  | .repeatedLength => "InvalidCodeLengthRepeat"
  | .lengthCode => "BadCodeLengthHuffmanTree"
  | .literalCode => "BadLiteralLengthHuffmanTree"
  | .distanceCode => "BadDistanceHuffmanTree"
  | .literalSymbol => "InvalidLiteralLengthCode"
  | .distanceSymbol => "InvalidDistanceCode"
  | .tooFarBack => "DistanceTooFarBack"

/-- A stream and a place in it, in bits. -/
structure Source where
  bytes : ByteArray
  pos : Nat

/-- The next bit. -/
def Source.bit (s : Source) : Except Fault (Nat × Source) :=
  match s.bytes.data[s.pos / 8]? with
  | some b => .ok ((b.toNat >>> (s.pos % 8)) % 2, { s with pos := s.pos + 1 })
  | none => .error .unfinished

/-- The next `n` bits as a number, lowest first. -/
def Source.bits (s : Source) : Nat → Except Fault (Nat × Source)
  | 0 => .ok (0, s)
  | n + 1 => do
    let (low, s) ← s.bit
    let (high, s) ← s.bits n
    return (low + 2 * high, s)

/-! ## Prefix codes -/

/-- A prefix code: for every length how many codes have it, and the symbols in the order of their
codes. -/
structure Code where
  counts : Array Nat
  symbols : Array Nat

/-- The code in which symbol `i` has a code of length `lengths[i]`, or none if that is zero; among
codes of one length, the lesser symbol comes first. -/
def Code.ofLengths (lengths : List Nat) : Code where
  counts := Array.ofFn fun n : Fin 16 => if n.val = 0 then 0 else lengths.count n.val
  symbols := ((List.range 15).flatMap fun n =>
    lengths.zipIdx.filterMap fun (l, i) => if l = n + 1 then some i else none).toArray

/-- Every sequence of bits begins with a symbol of the code, and with one only. -/
def Code.isComplete (c : Code) : Bool :=
  let used := c.counts.toList.zipIdx.foldl (fun used (count, length) =>
    used + (count <<< (15 - length))) 0
  used == 1 <<< 15

/-- The code has no symbol, or one of a single bit. -/
def Code.isTrivial (c : Code) : Bool :=
  c.symbols.isEmpty || (c.symbols.size == 1 && c.counts[1]? == some 1)

/-- Reads a symbol: codes of a length follow one another, from `first` on, and the symbols of that
length stand from `index` on. Bits that begin no symbol are the fault `stray`. -/
def Code.read (c : Code) (stray : Fault) (code first index length : Nat) :
    Nat → Source → Except Fault (Nat × Source)
  | 0, _ => .error stray
  | fuel + 1, s => do
    let (b, s) ← s.bit
    let code := code + b
    let count := c.counts[length]?.getD 0
    if code < first + count then
      match c.symbols[index + (code - first)]? with
      | some symbol => return (symbol, s)
      | none => throw stray
    c.read stray (2 * code) (2 * (first + count)) (index + count) (length + 1) fuel s

/-- Reads a symbol of a code. -/
def Code.symbol (c : Code) (stray : Fault) (s : Source) : Except Fault (Nat × Source) :=
  c.read stray 0 0 0 1 (if c.isTrivial then 1 else 15) s

/-! ## Coded blocks -/

/-- The least length of a copy for every length symbol, and the number of further bits. -/
def lengthTable : Array (Nat × Nat) := #[
  (3, 0), (4, 0), (5, 0), (6, 0), (7, 0), (8, 0), (9, 0), (10, 0), (11, 1), (13, 1), (15, 1),
  (17, 1), (19, 2), (23, 2), (27, 2), (31, 2), (35, 3), (43, 3), (51, 3), (59, 3), (67, 4),
  (83, 4), (99, 4), (115, 4), (131, 5), (163, 5), (195, 5), (227, 5), (258, 0)]

/-- The least distance of a copy for every distance symbol, and the number of further bits. -/
def distanceTable : Array (Nat × Nat) := #[
  (1, 0), (2, 0), (3, 0), (4, 0), (5, 1), (7, 1), (9, 2), (13, 2), (17, 3), (25, 3), (33, 4),
  (49, 4), (65, 5), (97, 5), (129, 6), (193, 6), (257, 7), (385, 7), (513, 8), (769, 8),
  (1025, 9), (1537, 9), (2049, 10), (3073, 10), (4097, 11), (6145, 11), (8193, 12), (12289, 12),
  (16385, 13), (24577, 13)]

/-- Repeats what was written `distance` bytes before, byte by byte. -/
def copy (distance : Nat) : Nat → ByteArray → Except Fault ByteArray
  | 0, out => .ok out
  | n + 1, out =>
    match if distance ≤ out.size then out.data[out.size - distance]? else none with
    | some b => copy distance n (out.push b)
    | none => .error .tooFarBack

/-- What a symbol of a table stands for, and the number of further bits. -/
def entry (table : Array (Nat × Nat)) (symbol : Nat) (stray : Fault) : Except Fault (Nat × Nat) :=
  match table[symbol]? with
  | some e => .ok e
  | none => .error stray

/-- The symbols of a block up to its end. -/
def coded (literals distances : Code) :
    Nat → Source → ByteArray → Except Fault (Source × ByteArray)
  | 0, _, _ => .error .unfinished
  | fuel + 1, s, out => do
    let (symbol, s) ← literals.symbol .literalSymbol s
    if symbol < 256 then coded literals distances fuel s (out.push (UInt8.ofNat symbol))
    else if symbol = 256 then return (s, out)
    else
      let (least, more) ← entry lengthTable (symbol - 257) .literalSymbol
      let (extra, s) ← s.bits more
      let (d, s) ← distances.symbol .distanceSymbol s
      let (near, further) ← entry distanceTable d .distanceSymbol
      let (far, s) ← s.bits further
      coded literals distances fuel s (← copy (near + far) (least + extra) out)

/-- The code of literals and lengths that needs no description. -/
def fixedLiterals : Code := .ofLengths <|
  List.replicate 144 8 ++ List.replicate 112 9 ++ List.replicate 24 7 ++ List.replicate 8 8

/-- The code of distances that needs no description. -/
def fixedDistances : Code := .ofLengths (List.replicate 32 5)

/-! ## Described codes -/

/-- The order in which the lengths of the code for lengths are given. -/
def lengthOrder : List Nat := [16, 17, 18, 0, 8, 7, 9, 6, 10, 5, 11, 4, 12, 3, 13, 2, 14, 1, 15]

/-- Reads `n` numbers of three bits. -/
def triples : Nat → Source → Except Fault (List Nat × Source)
  | 0, s => .ok ([], s)
  | n + 1, s => do
    let (b, s) ← s.bits 3
    let (rest, s) ← triples n s
    return (b :: rest, s)

/-- What a symbol of the code for lengths adds to the lengths `done`. -/
def addLengths (symbol : Nat) (done : List Nat) (s : Source) :
    Except Fault (List Nat × Source) :=
  match symbol with
  | 16 => do
    let some last := done.getLast? | throw .repeatedLength
    let (more, s) ← s.bits 2
    return (done ++ List.replicate (3 + more) last, s)
  | 17 => do
    let (more, s) ← s.bits 3
    return (done ++ List.replicate (3 + more) 0, s)
  | 18 => do
    let (more, s) ← s.bits 7
    return (done ++ List.replicate (11 + more) 0, s)
  | length => .ok (done ++ [length], s)

/-- Reads code lengths until there are `n`; three symbols repeat a length. -/
def lengths (c : Code) (n : Nat) :
    Nat → Source → List Nat → Except Fault (List Nat × Source)
  | 0, _, _ => .error .unfinished
  | fuel + 1, s, done =>
    if n < done.length then .error .repeatedLength
    else if n = done.length then .ok (done, s)
    else do
      let (symbol, s) ← c.symbol .lengthCode s
      let (done, s) ← addLengths symbol done s
      lengths c n fuel s done

/-- The codes that a block describes: of literals and lengths, and of distances. A code leaves no
bits without a meaning, but for distances there can be one symbol or none. -/
def described (s : Source) : Except Fault (Code × Code × Source) := do
  let (literals, s) ← s.bits 5
  let (distances, s) ← s.bits 5
  let (count, s) ← s.bits 4
  if 286 < literals + 257 then throw .literalCount
  if 30 < distances + 1 then throw .distanceCount
  let (given, s) ← triples (count + 4) s
  let ofLength := fun i => match lengthOrder.idxOf? i with
    | some place => given[place]?.getD 0
    | none => 0
  let forLengths := Code.ofLengths ((List.range 19).map ofLength)
  unless forLengths.isComplete do throw .lengthCode
  let total := literals + 257 + (distances + 1)
  let (all, s) ← lengths forLengths total (total + 1) s []
  let forLiterals := Code.ofLengths (all.take (literals + 257))
  let forDistances := Code.ofLengths (all.drop (literals + 257))
  if all[256]? = some 0 || !forLiterals.isComplete then throw .literalCode
  unless forDistances.isComplete || forDistances.isTrivial do throw .distanceCode
  return (forLiterals, forDistances, s)

/-! ## Streams -/

/-- A stored block: its length, the complement of that, and the bytes. -/
def stored (s : Source) (out : ByteArray) : Except Fault (Source × ByteArray) := do
  let start := (s.pos + 7) / 8
  let (length, s) ← { s with pos := 8 * start }.bits 16
  let (complement, s) ← s.bits 16
  if length + complement ≠ 65535 then throw .storedLength
  let first := start + 4
  if s.bytes.size < first + length then throw .unfinished
  return ({ s with pos := 8 * (first + length) }, out ++ s.bytes.extract first (first + length))

/-- The blocks of a stream up to the last one and the check behind it. -/
def blocks : Nat → Source → ByteArray → Except Fault ByteArray
  | 0, _, _ => .error .unfinished
  | fuel + 1, s, out => do
    let (final, s) ← s.bit
    let (kind, s) ← s.bits 2
    let (s, out) ← match kind with
      | 0 => stored s out
      | 1 => coded fixedLiterals fixedDistances (8 * s.bytes.size) s out
      | 2 => do
        let (literals, distances, s) ← described s
        coded literals distances (8 * s.bytes.size) s out
      | _ => .error .blockKind
    if final = 1 then
      if s.bytes.size < (s.pos + 7) / 8 + 4 then throw .unfinished
      return out
    else blocks fuel s out

/-- The two leading bytes of a stream name the method and a window that it can have, ask for no
dictionary, and are a multiple of thirty-one as a number. -/
def isMethod (first second : Nat) : Bool :=
  first % 16 == 8 && first / 16 ≤ 7 && second / 32 % 2 == 0 && (first * 256 + second) % 31 == 0

/-- What was compressed. -/
def inflate (stream : ByteArray) : Except Fault ByteArray := do
  let some first := stream.data[0]? | throw .unfinished
  let some second := stream.data[1]? | throw .unfinished
  unless isMethod first.toNat second.toNat do throw .method
  blocks (8 * stream.size) ⟨stream, 16⟩ ByteArray.empty

end Stagehand.Inflate
