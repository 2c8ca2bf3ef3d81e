/-!
# Floor of floating-point numbers

The greatest whole number that is not above a number, kept within 64 bits.
-/

namespace Stagehand.Number

/-- The floor of `digits · 2 ^ exp`. -/
def scaledFloor (digits exp : Int) : Int :=
  if 0 ≤ exp then digits <<< exp.toNat else digits >>> (-exp).toNat

/-- The floor of a number, kept within 64 bits; no number counts as zero. -/
def floor64 (x : Float) : Int64 :=
  match x.toModel.unpack with
  | .notANumber => 0
  | .infinity .negative => Int64.minValue
  | .infinity .positive => Int64.maxValue
  | .zero _ => 0
  | .finite sign mantissa exponent _ => .ofIntClamp (scaledFloor (sign.apply mantissa) exponent)

end Stagehand.Number
