import Stagehand.Image.Png.Fault

/-!
# What comes before the rows

The chunks in front of the compressed rows give the header, which must be the first, the table of
colours, and what is transparent: one colour of all, or a share of opacity for each place of the
table. Other chunks that an image can do without are passed over; so are those whose check or
content is wrong.
-/

namespace Stagehand.Png

/-- What is transparent. -/
inductive Transparency where
  /-- A pixel of these samples. -/
  | key (samples : List Nat)
  /-- The opacity of each place of the table of colours. -/
  | shares (bytes : ByteArray)

/-- What the chunks before the rows say. -/
structure Preface where
  header : Header
  palette : Option ByteArray := none
  transparency : Option Transparency := none

/-- The check of a chunk holds. If not, that is a fault of a chunk that an image needs. -/
def Chunk.isSound (c : Chunk) : Except Fault Bool :=
  match c.check with
  | none => .error .truncated
  | some stored =>
    let computed := checkOf c.name c.content
    if stored = computed then .ok true
    else if c.name.isCritical then .error (.check c.name stored computed)
    else .ok false

/-- A part of a header, which must be there. -/
def within {α : Type} : Option α → Except Fault α
  | some a => .ok a
  | none => .error (.tooShort .header)

/-- The header in the content of its chunk. -/
def Header.read (content : ByteArray) : Except Fault Header := do
  let number := fun (i : Nat) => within (number? content i)
  let byte := fun (i : Nat) => within content.data[i]?
  let width ← number 0
  let height ← number 4
  if width = 0 || height = 0 then throw .dimensions
  let bits ← byte 8
  let some depth := Depth.ofBits? bits | throw (.depth bits)
  let code ← byte 9
  let some samples := Samples.ofCode? code | throw (.samples code)
  unless samples.allows depth do throw (.combination samples depth)
  let compression ← byte 10
  if compression ≠ 0 then throw (.compression compression)
  let differences ← byte 11
  if differences ≠ 0 then throw (.differences differences)
  let interlacing ← byte 12
  if 1 < interlacing then throw (.interlacing interlacing)
  return ⟨width, height, samples, depth, interlacing == 1⟩

/-- The samples of a colour that is named in two bytes each: of narrow samples the low byte counts,
and wide ones must be just as many as a pixel has. -/
def keyOf (h : Header) (content : ByteArray) : Option Transparency :=
  let byte := fun i => (content.data[i]?.getD 0).toNat
  let count := h.samples.count
  if content.size < 2 * count then none
  else if h.depth ≠ .sixteen then
    some (.key ((List.range count).map fun i => byte (2 * i + 1)))
  else if content.size = 2 * count then
    some (.key ((List.range count).map fun i => byte (2 * i) * 256 + byte (2 * i + 1)))
  else some (.key [])

/-- What the content of a chunk makes transparent. -/
def Preface.transparencyOf (p : Preface) (content : ByteArray) : Option Transparency :=
  match p.header.samples with
  | .grey | .colour => keyOf p.header content
  | .palette => p.palette.map fun _ => .shares content
  | .greyAlpha | .colourAlpha => none

/-- Takes in a chunk. -/
def Preface.add (p : Preface) (c : Chunk) : Except Fault Preface :=
  if c.name = .header then .error (.repeated c.name)
  else if c.name = .ending then .error .noData
  else if c.name = .palette then
    if p.palette.isSome then .error (.repeated c.name) else .ok { p with palette := c.content }
  else if c.name = .transparency then
    .ok { p with transparency := p.transparency.or (p.transparencyOf c.content) }
  else .ok p

/-- A chunk can stand in front of the rows. -/
def ChunkName.admit (name : ChunkName) : Except Fault Unit :=
  if name = .frameData then .error (.restarted name)
  else if name.isCritical && !(name = .header || name = .palette || name = .ending) then
    .error (.unknown name)
  else .ok ()

/-- The chunks behind the header, up to the first one of rows; it and what follows it are left. -/
def Preface.extend (p : Preface) : List Chunk → Except Fault (Preface × List Chunk)
  | [] => .error .truncated
  | c :: rest =>
    if c.name = .data then .ok (p, c :: rest)
    else do
      c.name.admit
      let p ← if ← c.isSound then p.add c else pure p
      p.extend rest

/-- What the chunks before the rows say, and the chunks from the first one of rows on. -/
def Preface.read : List Chunk → Except Fault (Preface × List Chunk)
  | [] => .error .truncated
  | c :: rest =>
    if c.name ≠ .header then .error (.beforeHeader c.name)
    else do
      let _ ← c.isSound
      let p : Preface := { header := ← Header.read c.content }
      p.extend rest

end Stagehand.Png
