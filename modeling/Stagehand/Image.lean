import Stagehand.Image.Span
import Stagehand.Number.Floor

/-!
# Images

An image is a rectangle of pixels, row by row. Drawing one image onto another places its top-left
corner at an offset, cuts off what lies outside, and blends each pixel with the one below it, row by
row. The result is a new image that is computed from both images as they were, so an image can be
drawn onto itself.
-/

namespace Stagehand

/-- A colour with its opacity. -/
structure Pixel where
  red : UInt8
  green : UInt8
  blue : UInt8
  alpha : UInt8
  deriving DecidableEq, Repr, Inhabited

/-- The pixel of a new image. -/
def Pixel.clear : Pixel := ⟨0, 0, 0, 0⟩

/-- Opaque black. -/
def Pixel.black : Pixel := ⟨0, 0, 0, 255⟩

/-- A channel as a share of its greatest value. -/
def share (channel : UInt8) : Float32 := channel.toNat.toFloat32 / 255

/-- The pixel that results where `above` lies over `below`: in single precision, colours weighted by
their opacity and rounded down. -/
def Pixel.blend (below above : Pixel) : Pixel :=
  if above.alpha = 0 then below
  else if above.alpha = 255 then above
  else
    let ba := share below.alpha
    let fa := share above.alpha
    let alpha := ba + fa - ba * fa
    if alpha == 0 then below
    else
      let channel := fun (b f : UInt8) =>
        (255 * ((share f * fa + share b * ba * (1 - fa)) / alpha)).toUInt8
      ⟨channel below.red above.red, channel below.green above.green,
        channel below.blue above.blue, (255 * alpha).toUInt8⟩

/-- A rectangle of pixels, row by row. -/
structure Image where
  width : Nat
  height : Nat
  pixels : Array Pixel
  size_eq : pixels.size = width * height

namespace Image

instance : Inhabited Image := ⟨⟨0, 0, #[], rfl⟩⟩

/-- An image of one colour. -/
def filled (width height : Nat) (colour : Pixel) : Image :=
  ⟨width, height, Array.replicate (width * height) colour, by simp⟩

/-- An image whose pixels are given by their place. -/
def ofFn (width height : Nat) (f : Nat → Nat → Pixel) : Image :=
  ⟨width, height, Array.ofFn fun i : Fin (width * height) => f (i.val % width) (i.val / width),
    by simp⟩

/-- The pixel in column `x` and row `y`. -/
def pixel? (image : Image) (x y : Nat) : Option Pixel :=
  if x < image.width && y < image.height then image.pixels[y * image.width + x]? else none

/-- The same rectangle in one colour. -/
def fill (image : Image) (colour : Pixel) : Image := filled image.width image.height colour

/-- The number of columns, in 32 bits. -/
def columns (image : Image) : UInt32 := .ofNat image.width

/-- The number of rows, in 32 bits. -/
def rows (image : Image) : UInt32 := .ofNat image.height

theorem lt_width {image : Image} (x : Fin image.columns.toNat) : x < image.width :=
  Nat.lt_of_lt_of_le x.isLt (Nat.mod_le ..)

theorem lt_height {image : Image} (y : Fin image.rows.toNat) : y < image.height :=
  Nat.lt_of_lt_of_le y.isLt (Nat.mod_le ..)

/-- The columns that the image has in common with `source` if that is placed at column `left`. -/
def commonColumns (image source : Image) (left : Int64) : Span image.columns source.columns :=
  .clip left image.columns source.columns

/-- The rows that the image has in common with `source` if that is placed at row `top`. -/
def commonRows (image source : Image) (top : Int64) : Span image.rows source.rows :=
  .clip top image.rows source.rows

/-- A pixel's number in the order of the pixels. -/
def place (image : Image) (x : Fin image.columns.toNat) (y : Fin image.rows.toNat) :
    Fin (image.width * image.height) :=
  ⟨y * image.width + x, by
    have hx := lt_width x
    calc y * image.width + x < (y + 1) * image.width := by rw [Nat.succ_mul]; omega
      _ ≤ image.height * image.width := Nat.mul_le_mul_right _ (lt_height y)
      _ = image.width * image.height := Nat.mul_comm ..⟩

/-- The pixels in their order. -/
def grid (image : Image) : Vector Pixel (image.width * image.height) :=
  ⟨image.pixels, image.size_eq⟩

/-- The pixels of the image with one of them blended with another pixel. -/
def cover (image : Image) (pixels : Vector Pixel (image.width * image.height))
    (x : Fin image.columns.toNat) (y : Fin image.rows.toNat) (above : Pixel) :
    Vector Pixel (image.width * image.height) :=
  let i := image.place x y
  pixels.set i ((pixels.get i).blend above) i.isLt

/-- The pixels of the image with a part of a row of `source` on a row of theirs. -/
def coverRow (image source : Image) (across : Span image.columns source.columns)
    (y : Fin image.rows.toNat) (sy : Fin source.rows.toNat)
    (pixels : Vector Pixel (image.width * image.height)) :
    Vector Pixel (image.width * image.height) :=
  across.count.toNat.fold (fun i hi pixels =>
    image.cover pixels (across.lower ⟨i, hi⟩) y
      (source.grid.get (source.place (across.upper ⟨i, hi⟩) sy))) pixels

/-- The pixels of the image with a part of `source` on them, row by row. -/
def coverRows (image source : Image) (across : Span image.columns source.columns)
    (down : Span image.rows source.rows) (pixels : Vector Pixel (image.width * image.height)) :
    Vector Pixel (image.width * image.height) :=
  down.count.toNat.fold (fun j hj pixels =>
    image.coverRow source across (down.lower ⟨j, hj⟩) (down.upper ⟨j, hj⟩) pixels) pixels

/-- `image` with `source` drawn onto it, its top-left corner at column `left` and row `top`. -/
def overlay (image source : Image) (left top : Int64) : Image :=
  let across := image.commonColumns source left
  let down := image.commonRows source top
  let pixels := image.coverRows source across down image.grid
  ⟨image.width, image.height, pixels.toArray, pixels.size_toArray⟩

/-- An offset as a whole number of pixels. -/
def offset (x : Float) : Int64 := Number.floor64 x

/-- `image` with `source` drawn onto it at an offset in pixels. -/
def draw (image source : Image) (x y : Float) : Image :=
  image.overlay source (offset x) (offset y)

end Image
end Stagehand
