/-!
# Shortest decimals

A finite binary floating-point number is `m · 2 ^ e`, and it stands for every real number that
rounds to it. `shortest` finds, among the decimals `c · 10 ^ q` in that interval, the ones with
the fewest digits, and of those the one nearest to the number itself. The search is over exact
natural-number arithmetic: for one digit, two digits, and so on up to seventeen, it tests the two
points of the decimal grid that enclose the number.
-/

namespace Stagehand.Number

/-- A positive real number `mant · 2 ^ exp`. -/
structure Dyadic where
  mant : Nat
  exp : Int
  deriving Repr, DecidableEq

/-- A decimal `digits · 10 ^ exp`. -/
structure Decimal where
  digits : Nat
  exp : Int
  deriving Repr, DecidableEq

/-- The reals that round to a positive double, in quarters of its last binary place: the number is
`4 · mant`, the lower end is nearer when the number is the least of its binade. -/
structure Interval where
  low : Nat
  mid : Nat
  high : Nat
  /-- Both ends round to the number itself; this is so when its last bit is zero. -/
  closed : Bool
  /-- The exponent of two of one quarter. -/
  exp : Int
  deriving Repr

/-- The magnitude of a finite double that is not zero. -/
def Dyadic.ofBits (bits : UInt64) : Dyadic :=
  let field := (bits >>> 52).toNat % 2048
  let fraction := bits.toNat % (1 <<< 52)
  if field = 0 then ⟨fraction, -1074⟩ else ⟨fraction + (1 <<< 52), (field : Int) - 1075⟩

/-- The rounding interval of the double `d`. -/
def Dyadic.interval (d : Dyadic) : Interval :=
  let nearer : Bool := d.mant == 1 <<< 52 && d.exp != -1074
  { low := 4 * d.mant - (if nearer then 1 else 2)
    mid := 4 * d.mant
    high := 4 * d.mant + 2
    closed := d.mant % 2 == 0
    exp := d.exp - 2 }

/-- The numerators of `a · 2 ^ e` and of `10 ^ q` over one common denominator. -/
def commonScale (a : Nat) (e q : Int) : Nat × Nat :=
  ((a <<< e.toNat) * Nat.pow 10 (-q).toNat, Nat.pow 10 q.toNat <<< (-e).toNat)

/-- The greatest `c` with `c · 10 ^ q ≤ a · 2 ^ e`. -/
def gridFloor (a : Nat) (e q : Int) : Nat :=
  let (num, unit) := commonScale a e q
  num / unit

/-- `c · 10 ^ q` lies in the interval. -/
def Interval.contains (i : Interval) (c : Nat) (q : Int) : Bool :=
  let below := fun (a : Nat) =>
    let (num, unit) := commonScale a i.exp q
    compare num (c * unit)
  match below i.low, below i.high with
  | .lt, .gt => true
  | .eq, _ | _, .eq => i.closed
  | _, _ => false

/-- The number of decimal digits of `n`; zero has none. -/
def digitCount (n : Nat) : Nat := if n = 0 then 0 else (Nat.toDigits 10 n).length

/-- The power of ten of the first digit of a positive number. -/
def leadingPower (a : Nat) (e : Int) : Int :=
  let num := a <<< e.toNat
  let den := 1 <<< (-e).toNat
  if den ≤ num then (digitCount (num / den) : Int) - 1
  else -(digitCount ((den + num - 1) / num - 1) : Int)

/-- On the grid of `10 ^ q`, the point of the interval nearest to its middle, if it has a point
beside the middle; of two at the same distance the even one. -/
def Interval.nearest (i : Interval) (q : Int) : Option Nat :=
  let (num, unit) := commonScale i.mid i.exp q
  let c := num / unit
  let rest := num % unit
  let lower := i.contains c q && c != 0
  let upper := i.contains (c + 1) q
  if rest = 0 then some c
  else
    match lower, upper with
    | true, true =>
      match compare (2 * rest) unit with
      | .lt => some c
      | .gt => some (c + 1)
      | .eq => some (if c % 2 = 0 then c else c + 1)
    | true, false => some c
    | false, true => some (c + 1)
    | false, false => none

/-- The first of the grids `10 ^ (p - k)` for `k` from `k₀` on, `fuel` of them, with a point in the
interval. -/
def firstGrid (i : Interval) (p : Int) : Nat → Nat → Decimal
  | 0, k => ⟨gridFloor i.mid i.exp (p - k), p - k⟩
  | fuel + 1, k =>
    match i.nearest (p - k) with
    | some c => ⟨c, p - k⟩
    | none => firstGrid i p fuel (k + 1)

/-- Drops the zeros at the end of a decimal: `100 · 10 ^ q` is `1 · 10 ^ (q + 2)`. -/
def Decimal.trim (d : Decimal) : Nat → Decimal
  | 0 => d
  | fuel + 1 =>
    if d.digits % 10 = 0 && d.digits != 0 then
      Decimal.trim ⟨d.digits / 10, d.exp + 1⟩ fuel
    else d

/-- The decimal with the fewest digits that reads back as the positive double `d`. -/
def Dyadic.shortest (d : Dyadic) : Decimal :=
  let i := d.interval
  (firstGrid i (leadingPower i.mid i.exp) 17 0).trim 20

end Stagehand.Number
