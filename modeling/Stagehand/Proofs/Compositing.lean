import Mathlib.Data.Rat.Floor
import Stagehand.World

/-!
# Drawing an image onto another

What is common to two rows of pixels is computed in machine numbers, and the pixels are covered one
by one, a row at a time. `Span.clip_aligned` and `Span.clip_meets` say that the computed places are
those that whole numbers without bounds would give; `Image.coverRows_covered` and
`Image.coverRows_bare` say of the two loops that every place they come to is covered once, by the
pixel above it, and that all others stay as they are. As the loops go over the pixels of the image
as it was, and read the source as it was, it makes no difference whether the two are one.
-/

namespace Stagehand

open Float.Model (UnpackedFloat)

/-! ## Offsets -/

/-- The number is the floor of a floating-point number, kept within 64 bits; no number counts as
zero. -/
inductive Number.Floored : UnpackedFloat → Int → Prop
  | none : Floored .notANumber 0
  | negative : Floored (.infinity .negative) (-2 ^ 63)
  | positive : Floored (.infinity .positive) (2 ^ 63 - 1)
  | zero (sign : UnpackedFloat.Sign) : Floored (.zero sign) 0
  | finite (sign : UnpackedFloat.Sign) (mantissa : Nat) (exponent : Int) (h : 0 < mantissa) :
      Floored (.finite sign mantissa exponent h)
        (max (-2 ^ 63) (min (2 ^ 63 - 1) ⌊(sign.apply mantissa : ℚ) * 2 ^ exponent⌋))

theorem Number.scaledFloor_eq (digits exp : Int) :
    scaledFloor digits exp = ⌊(digits : ℚ) * 2 ^ exp⌋ := by
  unfold scaledFloor
  split
  case isTrue h =>
    obtain ⟨n, rfl⟩ := Int.eq_ofNat_of_zero_le h
    have hwhole : (digits : ℚ) * 2 ^ (n : Int) = ((digits * 2 ^ n : Int) : ℚ) := by
      push_cast
      rw [zpow_natCast]
    rw [hwhole, Int.floor_intCast, Int.toNat_natCast, Int.shiftLeft_eq]
  case isFalse h =>
    obtain ⟨n, hn⟩ := Int.eq_ofNat_of_zero_le (by omega : 0 ≤ -exp)
    obtain rfl : exp = -(n : Int) := by omega
    have hpart : (digits : ℚ) * 2 ^ (-(n : Int)) = (digits : ℚ) / ((2 ^ n : Nat) : ℚ) := by
      rw [zpow_neg, zpow_natCast, div_eq_mul_inv]
      push_cast
      rfl
    rw [hpart, Rat.floor_intCast_div_natCast, neg_neg, Int.toNat_natCast,
      Int.shiftRight_eq_div_pow]

theorem Number.floor64_floored (x : Float) : Floored x.toModel.unpack (floor64 x).toInt := by
  unfold floor64
  cases x.toModel.unpack with
  | notANumber => exact .none
  | infinity sign => cases sign with
    | negative => exact .negative
    | positive => exact .positive
  | zero sign => exact .zero sign
  | finite sign mantissa exponent h =>
      dsimp only
      rw [ofIntClamp_toInt, scaledFloor_eq]
      exact .finite sign mantissa exponent h

/-! ## Pixels -/

theorem Pixel.blend_clear {below above : Pixel} (h : above.alpha = 0) : below.blend above = below :=
  if_pos h

theorem Pixel.blend_solid {below above : Pixel} (h : above.alpha = 255) :
    below.blend above = above := by
  rw [blend, if_neg (by rw [h]; decide), if_pos h]

/-! ## Spans -/

namespace Span

variable {below above : UInt32} {offset : Int64}

theorem lower_val (s : Span below above) (i : Fin s.count.toNat) :
    (s.lower i : Nat) = s.first.toNat + i := s.lower_toNat i

theorem upper_val (s : Span below above) (i : Fin s.count.toNat) :
    (s.upper i : Nat) = s.skipped.toNat + i := s.upper_toNat i

theorem lower_injective (s : Span below above) : Function.Injective s.lower := by
  intro i j heq
  have h : (s.lower i : Nat) = s.lower j := congrArg Fin.val heq
  rw [s.lower_val, s.lower_val] at h
  exact Fin.ext (Nat.add_left_cancel h)

/-- Where the part in common begins and how many pixels it has is what whole numbers without bounds
would give for rows of these sizes, and none of its places leaves the 32 bits. -/
structure Exact (s : Span below above) (offset : Int) (sizeBelow sizeAbove : Nat) : Prop where
  first : s.first.toNat = min offset.toNat sizeBelow
  skipped : s.skipped.toNat = min (-offset).toNat sizeAbove
  count : s.count.toNat = min (offset + sizeAbove).toNat sizeBelow - min offset.toNat sizeBelow
  lower : ∀ i : Fin s.count.toNat, (s.first + .ofNat i).toNat = s.first.toNat + i
  upper : ∀ i : Fin s.count.toNat, (s.skipped + .ofNat i).toNat = s.skipped.toNat + i

theorem clip_exact (offset : Int64) (below above : UInt32) :
    (clip offset below above).Exact offset.toInt below.toNat above.toNat where
  first := keptWithin_toNat offset below
  skipped := by
    have hsize := above.toNat_lt
    refine (keptWithin_toNat _ above).trans ?_
    rw [ofIntClamp_toInt]
    omega
  count := stop_sub offset below above
  lower := lower_toNat _
  upper := upper_toNat _

/-- The two places of a pixel in common are apart by the offset. -/
theorem clip_aligned (i : Fin (clip offset below above).count.toNat) :
    ((clip offset below above).lower i : Int) =
      offset.toInt + (clip offset below above).upper i := by
  obtain ⟨hfirst, hskipped, hcount, -, -⟩ := clip_exact offset below above
  have hi := i.isLt
  rw [lower_val, upper_val]
  omega

/-- Every place below that has one above it is the place of a pixel in common. -/
theorem clip_meets {x : Nat} (hlt : x < below.toNat) (hx : 0 ≤ (x : Int) - offset.toInt)
    (hx' : (x : Int) - offset.toInt < above.toNat) :
    ∃ i, ((clip offset below above).lower i : Nat) = x := by
  obtain ⟨hfirst, -, hcount, -, -⟩ := clip_exact offset below above
  obtain ⟨i, hi⟩ : ∃ i, (clip offset below above).first.toNat + i = x :=
    ⟨x - (clip offset below above).first.toNat, by omega⟩
  exact ⟨⟨i, by omega⟩, (lower_val ..).trans hi⟩

end Span

/-! ## The loops -/

section Loops

variable {n size : Nat} {f : (i : Nat) → i < n → Vector Pixel size → Vector Pixel size}
  {place : Fin size}

/-- A pixel that no step of a loop changes stays as it is. -/
theorem fold_bare (h : ∀ i hi pixels, (f i hi pixels).get place = pixels.get place)
    (pixels : Vector Pixel size) : (n.fold f pixels).get place = pixels.get place := by
  induction n with
  | zero => rfl
  | succ n ih => rw [Nat.fold_succ, h, ih fun i hi => h i (Nat.lt_succ_of_lt hi)]

/-- A pixel that one step of a loop covers, and that no other one changes, is covered once. -/
theorem fold_covered {k : Nat} (hk : k < n) {above : Pixel}
    (hstep : ∀ pixels, (f k hk pixels).get place = (pixels.get place).blend above)
    (hothers : ∀ i hi pixels, i ≠ k → (f i hi pixels).get place = pixels.get place)
    (pixels : Vector Pixel size) : (n.fold f pixels).get place = (pixels.get place).blend above := by
  induction n with
  | zero => exact absurd hk (Nat.not_lt_zero _)
  | succ n ih =>
      rw [Nat.fold_succ]
      rcases Nat.lt_succ_iff_lt_or_eq.mp hk with hlt | rfl
      · rw [hothers _ _ _ (Nat.ne_of_gt hlt)]
        exact ih hlt hstep fun i hi => hothers i (Nat.lt_succ_of_lt hi)
      · rw [hstep, fold_bare fun i hi pixels => hothers i _ pixels (Nat.ne_of_lt hi)]

end Loops

namespace Image

variable {image source : Image} {pixels : Vector Pixel (image.width * image.height)}
  {x x' : Fin image.columns.toNat} {y y' : Fin image.rows.toNat}

theorem place_injective (h : image.place x y = image.place x' y') : x = x' ∧ y = y' := by
  have hplace : (y : Nat) * image.width + x = y' * image.width + x' := congrArg Fin.val h
  have hcolumn : (x : Nat) = x' := by
    have hmod := congrArg (· % image.width) hplace
    simpa only [Nat.mul_add_mod_of_lt (lt_width _)] using hmod
  have hrow : (y : Nat) * image.width = y' * image.width := by omega
  have hwidth : 0 < image.width := Nat.zero_lt_of_lt (lt_width x)
  exact ⟨Fin.ext hcolumn, Fin.ext (Nat.eq_of_mul_eq_mul_right hwidth hrow)⟩

theorem cover_here (above : Pixel) :
    (image.cover pixels x y above).get (image.place x y) =
      (pixels.get (image.place x y)).blend above :=
  Vector.getElem_set_self (image.place x y).isLt

theorem cover_elsewhere (above : Pixel) (h : ¬(x = x' ∧ y = y')) :
    (image.cover pixels x y above).get (image.place x' y') = pixels.get (image.place x' y') := by
  have hne : (image.place x y : Nat) ≠ image.place x' y' :=
    fun heq => h (place_injective (Fin.ext heq))
  exact Vector.getElem_set_ne (image.place x y).isLt (image.place x' y').isLt hne

variable {across : Span image.columns source.columns} {down : Span image.rows source.rows}

/-- A row of pixels covers the pixels below it once each. -/
theorem coverRow_covered (i : Fin across.count.toNat) (sy : Fin source.rows.toNat) :
    (image.coverRow source across y sy pixels).get (image.place (across.lower i) y) =
      (pixels.get (image.place (across.lower i) y)).blend
        (source.grid.get (source.place (across.upper i) sy)) := by
  unfold coverRow
  refine fold_covered i.isLt (fun _ => cover_here _) (fun k hk _ hne => cover_elsewhere _ ?_) pixels
  exact fun heq => hne (congrArg Fin.val (across.lower_injective heq.1))

/-- And nothing else. -/
theorem coverRow_bare {sy : Fin source.rows.toNat} (h : (∀ i, across.lower i ≠ x') ∨ y ≠ y') :
    (image.coverRow source across y sy pixels).get (image.place x' y') =
      pixels.get (image.place x' y') := by
  unfold coverRow
  refine fold_bare (fun i hi _ => cover_elsewhere _ fun heq => ?_) pixels
  exact h.elim (fun hx => hx _ heq.1) (fun hy => hy heq.2)

/-- All rows together cover the pixels below them once each. -/
theorem coverRows_covered (i : Fin across.count.toNat) (j : Fin down.count.toNat) :
    (image.coverRows source across down pixels).get
        (image.place (across.lower i) (down.lower j)) =
      (pixels.get (image.place (across.lower i) (down.lower j))).blend
        (source.grid.get (source.place (across.upper i) (down.upper j))) := by
  unfold coverRows
  refine fold_covered j.isLt (fun _ => coverRow_covered i _)
    (fun k hk _ hne => coverRow_bare (.inr fun heq => ?_)) pixels
  exact hne (congrArg Fin.val (down.lower_injective heq))

/-- And nothing else. -/
theorem coverRows_bare (h : (∀ i, across.lower i ≠ x) ∨ ∀ j, down.lower j ≠ y) :
    (image.coverRows source across down pixels).get (image.place x y) =
      pixels.get (image.place x y) := by
  unfold coverRows
  exact fold_bare (fun j hj _ => coverRow_bare (h.imp_right fun hy => hy ⟨j, hj⟩)) pixels

/-! ## The image as a whole -/

variable {left top : Int64}

/-- Sizes that 32 bits can hold. -/
def Fits (image : Image) : Prop := image.width < 2 ^ 32 ∧ image.height < 2 ^ 32

theorem Fits.columns (h : image.Fits) : image.columns.toNat = image.width :=
  UInt32.toNat_ofNat_of_lt h.1

theorem Fits.rows (h : image.Fits) : image.rows.toNat = image.height :=
  UInt32.toNat_ofNat_of_lt h.2

theorem pixel?_place (pixels : Vector Pixel (image.width * image.height)) :
    (Image.mk image.width image.height pixels.toArray pixels.size_toArray).pixel? x y =
      some (pixels.get (image.place x y)) := by
  have hplace : (y : Nat) * image.width + x < pixels.toArray.size :=
    Nat.lt_of_lt_of_eq (image.place x y).isLt pixels.size_toArray.symm
  rw [pixel?, if_pos (by simp [lt_width, lt_height])]
  exact Array.getElem?_eq_getElem hplace

theorem pixel?_grid : image.pixel? x y = some (image.grid.get (image.place x y)) :=
  pixel?_place image.grid

theorem overlay_pixel? (left top : Int64) : (image.overlay source left top).pixel? x y =
    some ((image.coverRows source (image.commonColumns source left)
      (image.commonRows source top) image.grid).get (image.place x y)) :=
  pixel?_place _

theorem pixel?_outside {x y : Nat} (h : ¬(x < image.width ∧ y < image.height)) :
    image.pixel? x y = none := by
  rw [pixel?, if_neg (by simpa using h)]

/-- The image, with its corner at an offset, lies over a place. -/
def Covers (source : Image) (left top : Int) (x y : Nat) : Prop :=
  (0 ≤ (x : Int) - left ∧ (x : Int) - left < source.width) ∧
    0 ≤ (y : Int) - top ∧ (y : Int) - top < source.height

theorem columns_aligned (i : Fin (image.commonColumns source left).count.toNat) :
    ((image.commonColumns source left).lower i : Int) =
      left.toInt + (image.commonColumns source left).upper i :=
  Span.clip_aligned i

theorem rows_aligned (j : Fin (image.commonRows source top).count.toNat) :
    ((image.commonRows source top).lower j : Int) =
      top.toInt + (image.commonRows source top).upper j :=
  Span.clip_aligned j

/-- The image that is placed there lies over the places of the pixels in common. -/
theorem Fits.covers_common (hs : source.Fits)
    (i : Fin (image.commonColumns source left).count.toNat)
    (j : Fin (image.commonRows source top).count.toNat) :
    source.Covers left.toInt top.toInt ((image.commonColumns source left).lower i)
      ((image.commonRows source top).lower j) := by
  have hx := columns_aligned i
  have hy := rows_aligned j
  have hright : ((image.commonColumns source left).upper i : Nat) < source.width :=
    hs.columns ▸ Fin.isLt _
  have hbottom : ((image.commonRows source top).upper j : Nat) < source.height :=
    hs.rows ▸ Fin.isLt _
  exact ⟨⟨by omega, by omega⟩, by omega, by omega⟩

/-- And over no others. -/
theorem Covers.common {x y : Nat} (h : source.Covers left.toInt top.toInt x y) (hi : image.Fits)
    (hs : source.Fits) (hx : x < image.width) (hy : y < image.height) :
    ∃ i j, ((image.commonColumns source left).lower i : Nat) = x ∧
      ((image.commonRows source top).lower j : Nat) = y := by
  obtain ⟨⟨hleft, hright⟩, htop, hbottom⟩ := h
  rw [← hs.columns] at hright
  rw [← hs.rows] at hbottom
  obtain ⟨i, hi'⟩ := Span.clip_meets (hi.columns.symm ▸ hx) hleft hright
  obtain ⟨j, hj⟩ := Span.clip_meets (hi.rows.symm ▸ hy) htop hbottom
  exact ⟨i, j, hi', hj⟩

/-- The result of drawing `source` onto `image` with its corner at an offset: the pixels that it
lies over are blended with those above them, and all others are as they were. -/
structure Composite (image source : Image) (left top : Int) (result : Image) : Prop where
  width : result.width = image.width
  height : result.height = image.height
  covered : ∀ {x y : Nat}, x < image.width → y < image.height → source.Covers left top x y →
    ∃ below above, image.pixel? x y = some below ∧
      source.pixel? (x - left).toNat (y - top).toNat = some above ∧
      result.pixel? x y = some (below.blend above) ∧
      (above.alpha = 0 → result.pixel? x y = some below) ∧
      (above.alpha = 255 → result.pixel? x y = some above)
  bare : ∀ {x y : Nat}, ¬source.Covers left top x y → result.pixel? x y = image.pixel? x y

theorem overlay_composite (hi : image.Fits) (hs : source.Fits) (left top : Int64) :
    image.Composite source left.toInt top.toInt (image.overlay source left top) where
  width := rfl
  height := rfl
  covered := by
    intro x y hx hy hcovers
    obtain ⟨i, j, rfl, rfl⟩ := hcovers.common hi hs hx hy
    let across := image.commonColumns source left
    let down := image.commonRows source top
    have hsx : ((across.lower i : Int) - left.toInt).toNat = across.upper i := by
      have haligned : (across.lower i : Int) = left.toInt + across.upper i := columns_aligned i
      omega
    have hsy : ((down.lower j : Int) - top.toInt).toNat = down.upper j := by
      have haligned : (down.lower j : Int) = top.toInt + down.upper j := rows_aligned j
      omega
    let below := image.grid.get (image.place (across.lower i) (down.lower j))
    let above := source.grid.get (source.place (across.upper i) (down.upper j))
    have hresult : (image.overlay source left top).pixel? (across.lower i) (down.lower j) =
        some (below.blend above) :=
      (overlay_pixel? left top).trans (congrArg some (coverRows_covered i j))
    refine ⟨below, above, pixel?_grid, ?_, hresult, fun hclear => ?_, fun hsolid => ?_⟩
    · rw [hsx, hsy]
      exact pixel?_grid
    · exact hresult.trans (congrArg some (Pixel.blend_clear hclear))
    · exact hresult.trans (congrArg some (Pixel.blend_solid hsolid))
  bare := by
    intro x y hbare
    by_cases hin : x < image.width ∧ y < image.height
    · let px : Fin image.columns.toNat := ⟨x, hi.columns.symm ▸ hin.1⟩
      let py : Fin image.rows.toNat := ⟨y, hi.rows.symm ▸ hin.2⟩
      let across := image.commonColumns source left
      let down := image.commonRows source top
      have hmissed : (∀ i, across.lower i ≠ px) ∨ ∀ j, down.lower j ≠ py := by
        by_contra! hboth
        obtain ⟨⟨i, hpx⟩, j, hpy⟩ := hboth
        have hcovers := hs.covers_common i j
        rw [hpx, hpy] at hcovers
        exact hbare hcovers
      have hresult : (image.overlay source left top).pixel? x y = _ :=
        overlay_pixel? (x := px) (y := py) left top
      have himage : image.pixel? x y = _ := pixel?_grid (x := px) (y := py)
      rw [hresult, himage, coverRows_bare hmissed]
    · have hresult : (image.overlay source left top).pixel? x y = none := pixel?_outside hin
      rw [hresult, pixel?_outside hin]

/-- All pixels of either image that are read or changed when one is drawn onto the other exist. -/
def Inside (image source : Image) (left top : Int64) : Prop :=
  ∀ i j, (image.place ((image.commonColumns source left).lower i)
        ((image.commonRows source top).lower j) : Nat) < image.pixels.size ∧
      (source.place ((image.commonColumns source left).upper i)
        ((image.commonRows source top).upper j) : Nat) < source.pixels.size

theorem inside : image.Inside source left top := by
  intro i j
  rw [image.size_eq, source.size_eq]
  exact ⟨Fin.isLt _, Fin.isLt _⟩

/-- There is nothing to cover in an image without pixels. -/
theorem overlay_default : (default : Image).overlay source left top = default := by
  have hempty : ((default : Image).coverRows source (commonColumns default source left)
      (commonRows default source top) (default : Image).grid).toArray = #[] :=
    Array.eq_empty_of_size_eq_zero (Vector.size_toArray _)
  simp only [overlay, hempty]
  rfl

end Image

theorem World.image_drawImage {w : World} {target source : ImageId} {x y : Float} :
    (w.drawImage target source x y).image target =
      (w.image target).draw (w.image source) x y := by
  by_cases h : target < w.images.size
  · simp [drawImage, setImage, World.image, h]
  · have hmissing : w.image target = default := by simp [World.image, h]
    have hstill : (w.drawImage target source x y).image target = w.image target := by
      simp [drawImage, setImage, World.image, h]
    rw [hstill, hmissing]
    exact Image.overlay_default.symm

/-! ## The law -/

/-- What drawing one image onto another, which can be the same, does to the world. -/
structure CompositeLaw (w : World) (target source : ImageId) (x y : Float) (w' : World) : Prop where
  /-- The corner lies at the floors of the offsets. -/
  left : Number.Floored x.toModel.unpack (Image.offset x).toInt
  top : Number.Floored y.toModel.unpack (Image.offset y).toInt
  /-- What the images have in common is computed without overflow. -/
  columns : ((w.image target).commonColumns (w.image source) (Image.offset x)).Exact
    (Image.offset x).toInt (w.image target).width (w.image source).width
  rows : ((w.image target).commonRows (w.image source) (Image.offset y)).Exact
    (Image.offset y).toInt (w.image target).height (w.image source).height
  /-- And all pixels that are read or changed exist. -/
  inside : (w.image target).Inside (w.image source) (Image.offset x) (Image.offset y)
  composite : (w.image target).Composite (w.image source) (Image.offset x).toInt
    (Image.offset y).toInt (w'.image target)
  others : ∀ id, id ≠ target → w'.image id = w.image id
  count : w'.images.size = w.images.size
  rest : w' = { w with images := w'.images }

/-- Drawing composites what the images have in common, wherever the offsets put it, and leaves
everything else as it is. -/
theorem drawing_lawful {w : World} {target source : ImageId} (ht : (w.image target).Fits)
    (hs : (w.image source).Fits) (x y : Float) :
    CompositeLaw w target source x y (w.drawImage target source x y) where
  left := Number.floor64_floored x
  top := Number.floor64_floored y
  columns := by
    rw [← ht.columns, ← hs.columns]
    exact Span.clip_exact ..
  rows := by
    rw [← ht.rows, ← hs.rows]
    exact Span.clip_exact ..
  inside := Image.inside
  composite := by
    rw [World.image_drawImage]
    exact Image.overlay_composite ht hs _ _
  others id hid := by
    rw [World.image, World.drawImage, World.setImage,
      Array.getElem?_setIfInBounds_ne (Ne.symm hid)]
    rfl
  count := Array.size_setIfInBounds
  rest := rfl

set_option maxRecDepth 100000 in
/-- An image on itself, half a pixel to the left, which is a whole one, and at a height that is no
number, which is none: on the left, the upper pixel is replaced and the lower one is not, as what is
above it is clear; on the right, nothing is above them. Far off, all of them stay. -/
theorem drawing_lawful_onto_itself : ∃ w : World,
    CompositeLaw w 0 0 (-0.5) (0.0 / 0.0) (w.drawImage 0 0 (-0.5) (0.0 / 0.0)) ∧
      (w.image 0).pixels = #[⟨1, 2, 3, 255⟩, ⟨5, 5, 5, 255⟩, ⟨7, 7, 7, 90⟩, ⟨9, 9, 9, 0⟩] ∧
      ((w.drawImage 0 0 (-0.5) (0.0 / 0.0)).image 0).pixels =
        #[⟨5, 5, 5, 255⟩, ⟨5, 5, 5, 255⟩, ⟨7, 7, 7, 90⟩, ⟨9, 9, 9, 0⟩] ∧
      ((w.drawImage 0 0 (1.0 / 0.0) (-1e300)).image 0).pixels = (w.image 0).pixels := by
  let image : Image :=
    ⟨2, 2, #[⟨1, 2, 3, 255⟩, ⟨5, 5, 5, 255⟩, ⟨7, 7, 7, 90⟩, ⟨9, 9, 9, 0⟩], rfl⟩
  let w : World := { (default : World) with images := #[image] }
  have hfits : (w.image 0).Fits := ⟨by decide, by decide⟩
  exact ⟨w, drawing_lawful hfits hfits _ _, rfl, by decide +kernel, by decide +kernel⟩

end Stagehand
