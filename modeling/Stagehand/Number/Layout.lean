import Stagehand.Number.Shortest

/-!
# Layouts of floating-point text

The digits of a number are fixed by `Dyadic.shortest`. What remains is how they are laid out: from
which magnitudes on the text has an exponent, whether a whole number keeps its `.0`, and whether a
negative zero keeps its sign. A `FloatLayout` holds these decisions, and the host uses three:
`plain` in messages, `debug` in dumps of values, `script` in the text a script makes of a number.
-/

namespace Stagehand.Number

/-- The decisions that turn the digits of a number into text. -/
structure FloatLayout where
  /-- The magnitude is written without an exponent. -/
  positional : Float → Bool
  /-- A whole number is written with `.0`. -/
  keepsPoint : Bool
  /-- Negative zero is written with its sign. -/
  signsZero : Bool

/-- No exponent ever, and whole numbers without a point. -/
def plain : FloatLayout := ⟨fun _ => true, false, true⟩

/-- An exponent below `1e-4` and from `1e16` on. -/
def debug : FloatLayout := ⟨fun a => 1e-4 ≤ a && a < 1e16, true, true⟩

/-- An exponent below the single-precision neighbour of `1e-13` and above that of `1e13`. -/
def script : FloatLayout :=
  ⟨fun a => Float.ofBits 0x3d3c25c260000000 ≤ a && a ≤ 9999999827968.0, true, false⟩

/-- The digits of a decimal, most significant first. -/
def Decimal.text (d : Decimal) : List Char := Nat.toDigits 10 d.digits

/-- A decimal without an exponent: zeros fill the places between the digits and the point. -/
def Decimal.positional (d : Decimal) (keepsPoint : Bool) : List Char :=
  let ds := d.text
  if 0 ≤ d.exp then
    ds ++ List.replicate d.exp.toNat '0' ++ (if keepsPoint then ['.', '0'] else [])
  else
    let places := (-d.exp).toNat
    if ds.length ≤ places then
      '0' :: '.' :: List.replicate (places - ds.length) '0' ++ ds
    else
      ds.take (ds.length - places) ++ '.' :: ds.drop (ds.length - places)

/-- A decimal with an exponent: one digit, the others behind a point, and the power of ten. -/
def Decimal.scientific (d : Decimal) : List Char :=
  let power := d.exp + (d.text.length : Int) - 1
  let tail := 'e' :: (toString power).toList
  match d.text with
  | c :: [] => c :: tail
  | c :: cs => c :: '.' :: cs ++ tail
  | [] => tail

/-- The text of a number in a layout. -/
def FloatLayout.format (layout : FloatLayout) (x : Float) : String :=
  if x.isNaN then "NaN"
  else
    let negative := x.toBits >>> 63 == 1
    if x.isInf then (if negative then "-inf" else "inf")
    else
      let zero := x == 0.0
      let sign := if negative && (layout.signsZero || !zero) then ['-'] else []
      let body :=
        if zero then (if layout.keepsPoint then ['0', '.', '0'] else ['0'])
        else
          let d := (Dyadic.ofBits x.toBits).shortest
          if layout.positional x.abs then d.positional layout.keepsPoint else d.scientific
      String.ofList (sign ++ body)

end Stagehand.Number
