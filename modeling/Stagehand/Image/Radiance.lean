import Stagehand.Image
import Stagehand.Number.Real
import Stagehand.Number.Whole
import Stagehand.Text.Classes
import Stagehand.Text.Lossy

/-!
# Radiance pictures

A file of this format is a line with the signature, lines of attributes, an empty line, a line with
the size, and the rows. A pixel is three mantissas and an exponent that they share. A row is stored
pixel by pixel, where a pixel of ones repeats the one before it, or, behind a pixel that marks this,
as four rows of bytes with runs. `Radiance.decode` makes pixels of what lies between black and full
light and cuts off the rest.
-/

namespace Stagehand.Radiance

/-! ## Faults -/

/-- A line, or a part of one, that holds numbers. -/
inductive Field where
  | exposure
  | aspect
  | correction
  | height
  | width
  deriving DecidableEq, Repr

/-- The name of the field. -/
def Field.name : Field → String
  | .exposure => "EXPOSURE"
  | .aspect => "PIXASPECT"
  | .correction => "COLORCORR"
  | .height => "height dimension"
  | .width => "width dimension"

/-- Why a file gives no image. -/
inductive Fault where
  /-- The file ends in its rows. -/
  | truncated
  /-- The pixels would take too much room. -/
  | tooLarge
  /-- The size is beyond all counting. -/
  | uncountable (width height : Nat)
  /-- The rows are not written from the top, from left to right. -/
  | orientation (first second : String)
  | noRows
  | noSize
  | real (field : Field) (reason : Number.RealError)
  | whole (field : Field) (reason : Number.WholeError)
  | tooFew (field : Field)
  | tooMany
  /-- The line of the size has only so many words. -/
  | shortSize (words : Nat)
  | longSize
  | rowLength (found wanted : Nat)
  /-- A row begins with a repetition. -/
  | nothingToRepeat
  deriving DecidableEq, Repr

/-- The file is not of the format, as against too large, cut off or too unusual. -/
def Fault.isMalformed : Fault → Bool
  | .truncated | .tooLarge | .uncountable .. | .orientation .. => false
  | _ => true

/-- What lies behind the fault. -/
def Fault.reason? : Fault → Option String
  | .real _ reason => some reason.message
  | .whole _ reason => some reason.message
  | _ => none

/-- The wording of the fault. -/
def Fault.message : Fault → String
  | .truncated => "failed to fill whole buffer"
  | .tooLarge => "Memory limit exceeded"
  | .uncountable w h =>
    "The decoder for Hdr does not support the format features Image dimensions (" ++ toString w ++
      "x" ++ toString h ++ ") are too large"
  | .orientation first second =>
    "The decoder for Hdr does not support the format features Orientation " ++ first ++ " " ++
      second
  | .noRows => "EOF in header"
  | .noSize => "EOF in dimensions line"
  | .real field reason => "Cannot parse " ++ field.name ++ " value as f32: " ++ reason.message
  | .whole field reason => "Cannot parse " ++ field.name ++ " value as u32: " ++ reason.message
  | .tooFew field => "Not enough numbers in " ++ field.name
  | .tooMany => "Extra numbers in COLORCORR"
  | .shortSize words =>
    "Dimensions line too short: have " ++ toString words ++ " elements, expected 4"
  | .longSize => "Dimensions line too long, expected 4 elements"
  | .rowLength found wanted =>
    "Wrong length of decoded scanline: got " ++ toString found ++ ", expected " ++ toString wanted
  | .nothingToRepeat => "First pixel of a scanline shouldn\x27t be run length marker"

/-! ## Lines -/

/-- A line and what is behind its end; there is none where nothing is left. -/
def line? (bytes : List UInt8) : Option (List Char × List UInt8) :=
  if bytes.isEmpty then none
  else
    let (line, rest) := bytes.span (· != 0x0a)
    some ((Text.lossy line).toList, rest.drop 1)

/-- The characters without blanks at both ends. -/
def trim (cs : List Char) : List Char :=
  ((cs.dropWhile Text.isBlank).reverse.dropWhile Text.isBlank).reverse

/-- The words between blanks. -/
def words (cs : List Char) : List (List Char) :=
  (cs.splitBy fun a b => Text.isBlank a == Text.isBlank b).filter fun w => !w.any Text.isBlank

/-- A line is a real number. -/
def checkField (field : Field) (value : List Char) : Except Fault Unit :=
  match Number.checkReal value with
  | .ok () => .ok ()
  | .error e => .error (.real field e)

/-- A line has just three real numbers. -/
def checkThree (field : Field) (value : List Char) : Except Fault Unit := do
  let all := words value
  for i in [0, 1, 2] do
    match all[i]? with
    | some w => checkField field w
    | none => throw (.tooFew field)
  if 3 < all.length then throw .tooMany

/-- An attribute is a name and a value; three of them have to be numbers, though the picture does
not depend on them. A line that is no attribute is passed over. -/
def checkAttribute (line : List Char) : Except Fault Unit :=
  let (key, rest) := line.span (· != '=')
  let value := rest.drop 1
  if key.isEmpty || value.isEmpty then .ok ()
  else
    match String.ofList (trim key) with
    | "EXPOSURE" => checkField .exposure (trim value)
    | "PIXASPECT" => checkField .aspect (trim value)
    | "COLORCORR" => checkThree .correction value
    | _ => .ok ()

/-- What is behind the empty line that ends the attributes. Each line takes at least a byte. -/
def skipAttributes : Nat → List UInt8 → Except Fault (List UInt8)
  | 0, _ => .error .noRows
  | fuel + 1, bytes =>
    match line? bytes with
    | none => .error .noRows
    | some ([], rest) => .ok rest
    | some (line, rest) => do
      unless line.head? = some '#' do checkAttribute line
      skipAttributes fuel rest

/-- A length in the line of the size. -/
def length (field : Field) (word : List Char) : Except Fault Nat :=
  match Number.parseWhole 10 0 4294967295 word with
  | .ok n => .ok n.toNat
  | .error e => .error (.whole field e)

/-- The width and the height that a line tells. -/
def size (line : List Char) : Except Fault (Nat × Nat) :=
  match words line with
  | [first, height, second, width] =>
    if first = ['-', 'Y'] && second = ['+', 'X'] then do
      let height ← length .height height
      return (← length .width width, height)
    else .error (.orientation (String.ofList first) (String.ofList second))
  | few => .error (if few.length < 4 then .shortSize few.length else .longSize)

/-! ## Rows -/

/-- Three mantissas and the exponent that they share. -/
structure Light where
  red : UInt8
  green : UInt8
  blue : UInt8
  exponent : UInt8
  deriving DecidableEq, Repr

/-- The next four bytes. -/
def light : List UInt8 → Except Fault (Light × List UInt8)
  | r :: g :: b :: e :: rest => .ok (⟨r, g, b, e⟩, rest)
  | _ => .error .truncated

/-- Bytes behind `done` until there are `width`: a count up to 128 stands before as many bytes, and
a greater one, less 128, before one that is repeated. -/
def component (width : Nat) : Nat → Array UInt8 → List UInt8 →
    Except Fault (Array UInt8 × List UInt8)
  | 0, _, _ => .error .truncated
  | fuel + 1, done, bytes =>
    if width ≤ done.size then .ok (done, bytes)
    else
      match bytes with
      | [] => .error .truncated
      | b :: rest =>
        let count := if b ≤ 128 then b.toNat else b.toNat - 128
        if width < done.size + count then .error (.rowLength (done.size + count) width)
        else if b ≤ 128 then
          let taken := rest.take count
          if taken.length < count then .error .truncated
          else component width fuel (done ++ taken) (rest.drop count)
        else
          match rest with
          | [] => .error .truncated
          | v :: rest => component width fuel (done ++ Array.replicate count v) rest

/-- Pixels behind `done` until there are `width`. A pixel of ones repeats the last pixel that is
none; its exponent is the count, with the low digits first where such pixels follow one another:
`unit` is what the next digit counts. -/
def repeated (width : Nat) : Nat → Nat → Light → Array Light → List UInt8 →
    Except Fault (Array Light × List UInt8)
  | 0, _, _, _, _ => .error .truncated
  | fuel + 1, unit, last, done, bytes =>
    if width ≤ done.size then .ok (done, bytes)
    else do
      let (p, rest) ← light bytes
      if p.red = 1 && p.green = 1 && p.blue = 1 then
        let count := p.exponent.toNat * unit
        if width < done.size + count then throw (.rowLength (done.size + count) width)
        repeated width fuel (unit * 256) last (done ++ Array.replicate count last) rest
      else repeated width fuel 1 p (done.push p) rest

/-- A row of pixels. Each step takes a byte, so `fuel` is more than there are. -/
def row (fuel width : Nat) (bytes : List UInt8) : Except Fault (Array Light × List UInt8) := do
  let (p, rest) ← light bytes
  if p.red = 2 && p.green = 2 && p.blue < 128 then
    let (reds, rest) ← component width fuel #[] rest
    let (greens, rest) ← component width fuel #[] rest
    let (blues, rest) ← component width fuel #[] rest
    let (exponents, rest) ← component width fuel #[] rest
    let of := fun (bytes : Array UInt8) (i : Nat) => bytes[i]?.getD 0
    return (Array.ofFn fun i : Fin width =>
      ⟨of reds i, of greens i, of blues i, of exponents i⟩, rest)
  else if p.red = 1 && p.green = 1 && p.blue = 1 then throw .nothingToRepeat
  else repeated width fuel 1 p #[p] rest

/-- The pixels of `n` rows. -/
def rows (fuel width : Nat) : Nat → List UInt8 → Except Fault (Array Light)
  | 0, _ => .ok #[]
  | n + 1, bytes => do
    let (first, rest) ← row fuel width bytes
    return first ++ (← rows fuel width n rest)

/-! ## Images -/

/-- A mantissa as a channel: `mantissa · 2 ^ (exponent - 136)` is a share of full light. More than
all of it is cut off, and a half goes up. -/
def channel (mantissa exponent : UInt8) : UInt8 :=
  let m := mantissa.toNat
  let e := exponent.toNat
  if 136 ≤ e then (if m = 0 then 0 else 255)
  else UInt8.ofNat (min 255 ((510 * m + (1 <<< (136 - e))) >>> (137 - e)))

/-- The pixel of a light. -/
def Light.pixel (l : Light) : Pixel :=
  ⟨channel l.red l.exponent, channel l.green l.exponent, channel l.blue l.exponent, 255⟩

/-- The most bytes that the pixels can take, at twelve for a pixel. -/
def roomLimit : Nat := 512 * 1024 * 1024

/-- The image in a file that begins with the signature. -/
def decode (bytes : ByteArray) : Except Fault Image := do
  let bytes := bytes.data.toList
  let rest := (bytes.dropWhile (· != 0x0a)).drop 1
  let rest ← skipAttributes (rest.length + 1) rest
  let some (line, rest) := line? rest | throw .noSize
  let (width, height) ← size line
  if (UInt64.size - 1) / 3 < width * height then throw (.uncountable width height)
  if roomLimit < 12 * width * height then throw .tooLarge
  if width = 0 then return .filled width height .black
  let lights ← rows (rest.length + 1) width height rest
  return Image.ofFn width height fun x y => (lights[y * width + x]?.map Light.pixel).getD .black

end Stagehand.Radiance
