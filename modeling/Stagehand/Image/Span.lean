/-!
# Rows of pixels on one another

A row of pixels that is placed on another one at an offset has a part in common with it. Where that
part begins in each of the two rows, and how many pixels it has, is computed in machine numbers:
sizes and places have 32 bits, offsets have 64, and an offset that would leave its range stays at
the end of it.
-/

namespace Stagehand

/-- An offset, kept between zero and a size. -/
def keptWithin (z : Int64) (size : UInt32) : UInt32 := .ofNat (min z.toNatClampNeg size.toNat)

theorem keptWithin_toNat (z : Int64) (size : UInt32) :
    (keptWithin z size).toNat = min z.toInt.toNat size.toNat :=
  UInt32.toNat_ofNat_of_lt (Nat.lt_of_le_of_lt (Nat.min_le_right ..) size.toNat_lt)

/-- A whole number that is kept within 64 bits. -/
theorem ofIntClamp_toInt (z : Int) :
    (Int64.ofIntClamp z).toInt = max (-9223372036854775808) (min 9223372036854775807 z) := by
  have hmin : Int64.minValue.toInt = -9223372036854775808 := rfl
  have hmax : Int64.maxValue.toInt = 9223372036854775807 := rfl
  unfold Int64.ofIntClamp
  split
  · split
    · rw [Int64.toInt_ofIntLE]
      omega
    · omega
  · omega

/-- What a row of pixels has in common with another one that lies on it: `count` pixels, which begin
at the place `first` of the lower row and at the place `skipped` of the upper one. -/
structure Span (below above : UInt32) where
  first : UInt32
  skipped : UInt32
  count : UInt32
  first_le : first.toNat + count.toNat ≤ below.toNat
  skipped_le : skipped.toNat + count.toNat ≤ above.toNat

namespace Span

variable {below above : UInt32}

/-- The place behind the last pixel in common. -/
def stop (offset : Int64) (below above : UInt32) : UInt32 :=
  keptWithin (.ofIntClamp (offset.toInt + above.toNat)) below

/-- The pixels between the first one in common and the place behind the last one. -/
theorem stop_sub (offset : Int64) (below above : UInt32) :
    (stop offset below above - keptWithin offset below).toNat =
      min (offset.toInt + above.toNat).toNat below.toNat - min offset.toInt.toNat below.toNat := by
  have hlow := offset.le_toInt
  have hhigh := offset.toInt_lt
  have hbelow := below.toNat_lt
  have hstop : (stop offset below above).toNat =
      min (offset.toInt + above.toNat).toNat below.toNat := by
    rw [stop, keptWithin_toNat, ofIntClamp_toInt]
    omega
  have hle : keptWithin offset below ≤ stop offset below above := by
    rw [UInt32.le_iff_toNat_le, hstop, keptWithin_toNat]
    omega
  rw [UInt32.toNat_sub_of_le _ _ hle, hstop, keptWithin_toNat]

/-- What a row has in common with one that is placed on it at an offset. -/
def clip (offset : Int64) (below above : UInt32) : Span below above where
  first := keptWithin offset below
  skipped := keptWithin (.ofIntClamp (-offset.toInt)) above
  count := stop offset below above - keptWithin offset below
  first_le := by
    rw [stop_sub, keptWithin_toNat]
    omega
  skipped_le := by
    rw [stop_sub, keptWithin_toNat, ofIntClamp_toInt]
    omega

/-- A place behind another one, if it is a place at all. -/
theorem add_toNat {place : UInt32} {n : Nat} (h : place.toNat + n < UInt32.size) :
    (place + .ofNat n).toNat = place.toNat + n := by
  have hn : n < 2 ^ 32 := Nat.lt_of_le_of_lt (Nat.le_add_left ..) h
  rw [UInt32.toNat_add, UInt32.toNat_ofNat', Nat.mod_eq_of_lt hn, Nat.mod_eq_of_lt h]

/-- The places of the pixels in common in the lower row do not leave the 32 bits. -/
theorem lower_toNat (s : Span below above) (i : Fin s.count.toNat) :
    (s.first + .ofNat i).toNat = s.first.toNat + i :=
  add_toNat (by
    have hle := s.first_le
    have hsize := below.toNat_lt_size
    omega)

/-- Nor do those in the upper one. -/
theorem upper_toNat (s : Span below above) (i : Fin s.count.toNat) :
    (s.skipped + .ofNat i).toNat = s.skipped.toNat + i :=
  add_toNat (by
    have hle := s.skipped_le
    have hsize := above.toNat_lt_size
    omega)

/-- The place in the lower row of a pixel in common. -/
def lower (s : Span below above) (i : Fin s.count.toNat) : Fin below.toNat :=
  ⟨(s.first + .ofNat i).toNat, by
    have hle := s.first_le
    rw [s.lower_toNat]
    omega⟩

/-- The place in the upper row of a pixel in common. -/
def upper (s : Span below above) (i : Fin s.count.toNat) : Fin above.toNat :=
  ⟨(s.skipped + .ofNat i).toNat, by
    have hle := s.skipped_le
    rw [s.upper_toNat]
    omega⟩

end Span
end Stagehand
