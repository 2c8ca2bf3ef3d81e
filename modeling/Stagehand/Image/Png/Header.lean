/-!
# Headers

The header of a portable network graphics file tells the size of the image, what the samples of a
pixel are, how many bits a sample has, and whether the rows come in passes. A pass holds pixels at
equal distances of rows at equal distances; an image that is stored straight is one pass over all of
it.
-/

namespace Stagehand.Png

/-- What the samples of a pixel are. -/
inductive Samples where
  | grey
  | colour
  /-- One sample, a place in a table of colours. -/
  | palette
  | greyAlpha
  | colourAlpha
  deriving DecidableEq, Repr

/-- The number of a kind of samples. -/
def Samples.code : Samples → UInt8
  | .grey => 0
  | .colour => 2
  | .palette => 3
  | .greyAlpha => 4
  | .colourAlpha => 6

/-- The kind with a number. -/
def Samples.ofCode? : UInt8 → Option Samples
  | 0 => some .grey
  | 2 => some .colour
  | 3 => some .palette
  | 4 => some .greyAlpha
  | 6 => some .colourAlpha
  | _ => none

/-- The name of a kind of samples. -/
def Samples.name : Samples → String
  | .grey => "Grayscale"
  | .colour => "Rgb"
  | .palette => "Indexed"
  | .greyAlpha => "GrayscaleAlpha"
  | .colourAlpha => "Rgba"

/-- The number of samples of a pixel. -/
def Samples.count : Samples → Nat
  | .grey | .palette => 1
  | .greyAlpha => 2
  | .colour => 3
  | .colourAlpha => 4

/-- The number of bits of a sample. -/
inductive Depth where
  | one
  | two
  | four
  | eight
  | sixteen
  deriving DecidableEq, Repr

/-- The number of bits. -/
def Depth.bits : Depth → Nat
  | .one => 1
  | .two => 2
  | .four => 4
  | .eight => 8
  | .sixteen => 16

/-- The depth with a number of bits. -/
def Depth.ofBits? : UInt8 → Option Depth
  | 1 => some .one
  | 2 => some .two
  | 4 => some .four
  | 8 => some .eight
  | 16 => some .sixteen
  | _ => none

/-- The name of a depth. -/
def Depth.name : Depth → String
  | .one => "One"
  | .two => "Two"
  | .four => "Four"
  | .eight => "Eight"
  | .sixteen => "Sixteen"

/-- Samples of less than a byte are for pixels of one sample; a table has places for a byte. -/
def Samples.allows (samples : Samples) (depth : Depth) : Bool :=
  match depth with
  | .eight => true
  | .sixteen => samples != .palette
  | _ => samples == .grey || samples == .palette

/-- The size of an image, its samples, and the order of its rows. -/
structure Header where
  width : Nat
  height : Nat
  samples : Samples
  depth : Depth
  /-- The rows come in seven passes. -/
  interlaced : Bool
  deriving DecidableEq, Repr

/-- The number of bits of a pixel. -/
def Header.pixelBits (h : Header) : Nat := h.samples.count * h.depth.bits

/-- How far back in a row the neighbour to the left is: a pixel in whole bytes, and at least one. -/
def Header.step (h : Header) : Nat := max 1 (h.pixelBits / 8)

/-- The number of bytes of a row of `width` pixels. -/
def Header.rowSize (h : Header) (width : Nat) : Nat := (width * h.pixelBits + 7) / 8

/-- Every `across`th pixel from `left` on, of every `down`th row from `top` on. -/
structure Pass where
  left : Nat
  top : Nat
  across : Nat
  down : Nat
  deriving DecidableEq, Repr

/-- The passes of an image. -/
def Header.passes (h : Header) : List Pass :=
  if h.interlaced then
    [⟨0, 0, 8, 8⟩, ⟨4, 0, 8, 8⟩, ⟨0, 4, 4, 8⟩, ⟨2, 0, 4, 4⟩, ⟨0, 2, 2, 4⟩, ⟨1, 0, 2, 2⟩,
      ⟨0, 1, 1, 2⟩]
  else [⟨0, 0, 1, 1⟩]

/-- How many of `length` places from `first` on, `step` apart, there are. -/
def places (length first step : Nat) : Nat := (length - first + (step - 1)) / step

/-- The number of pixels in a row of the pass. -/
def Pass.width (p : Pass) (h : Header) : Nat := places h.width p.left p.across

/-- The number of rows of the pass; none of them is empty. -/
def Pass.height (p : Pass) (h : Header) : Nat :=
  if p.width h = 0 then 0 else places h.height p.top p.down

/-- Where in the pass the pixel in column `x` and row `y` of the image is, if it is in it. -/
def Pass.place? (p : Pass) (x y : Nat) : Option (Nat × Nat) :=
  if p.left ≤ x && p.top ≤ y && (x - p.left) % p.across == 0 && (y - p.top) % p.down == 0 then
    some ((x - p.left) / p.across, (y - p.top) / p.down)
  else none

end Stagehand.Png
