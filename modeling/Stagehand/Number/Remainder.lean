import Stagehand.Number.Shortest

/-!
# Remainder of floating-point numbers

The remainder of a division with its quotient cut off toward zero. It is exact: on a common scale
both numbers are whole, and the remainder of whole numbers has no more digits than the divisor.
-/

namespace Stagehand.Number

/-- The double `digits · 2 ^ exp`, for digits that fit a double. -/
def ofScaled (digits : Nat) (exp : Int) : Float := (Float.ofNat digits).scaleB exp

/-- `x` less the multiple of `y` next to it toward zero; the sign is that of `x`. -/
def remainder (x y : Float) : Float :=
  if x.isNaN || y.isNaN || x.isInf || y == 0.0 then 0.0 / 0.0
  else if y.isInf || x == 0.0 then x
  else
    let a := Dyadic.ofBits x.abs.toBits
    let b := Dyadic.ofBits y.abs.toBits
    let scale := min a.exp b.exp
    let whole := fun (d : Dyadic) => d.mant <<< (d.exp - scale).toNat
    let r := ofScaled (whole a % whole b) scale
    if x.toBits >>> 63 == 1 then -r else r

end Stagehand.Number
