import Stagehand.Lang.Token

/-!
# Numerals

A numeral is decimal or, behind `0x`, `0o` and `0b`, in another base; underscores between digits say
nothing. A point makes a decimal numeral a float if a digit follows it or nothing that could be a
property name; an `e` does so if digits follow. A whole number beyond 64 bits is read as a float;
one in another base is read as the bits of the number.
-/

namespace Stagehand.Lang

/-- The value of a digit in bases up to sixteen. -/
def digitValue? (c : Char) : Option Nat :=
  if '0' ≤ c && c ≤ '9' then some (c.toNat - '0'.toNat)
  else if 'a' ≤ c && c ≤ 'f' then some (c.toNat - 'a'.toNat + 10)
  else if 'A' ≤ c && c ≤ 'F' then some (c.toNat - 'A'.toNat + 10)
  else none

/-- The character is a digit of the base. -/
def isDigitOf (base : Nat) (c : Char) : Bool :=
  match digitValue? c with
  | some d => d < base
  | none => false

/-- The number a list of digits stands for. -/
def ofDigits (base : Nat) (cs : List Char) : Nat :=
  cs.foldl (fun n c => n * base + (digitValue? c).getD 0) 0

/-- Digits of the base at the front, underscores between them dropped, and the rest. -/
def takeDigits (base : Nat) : List Char → List Char × List Char
  | [] => ([], [])
  | c :: cs =>
    if isDigitOf base c then
      let (ds, rest) := takeDigits base cs
      (c :: ds, rest)
    else if c = '_' then takeDigits base cs
    else ([], c :: cs)

/-- A letter of the names that a script can use. -/
def isLetter (c : Char) : Bool := ('a' ≤ c && c ≤ 'z') || ('A' ≤ c && c ≤ 'Z')

/-- The double nearest to `mantissa · 10 ^ exponent`. -/
def floatOf (mantissa : Nat) (exponent : Int) : Float :=
  if mantissa = 0 then 0.0
  else if 400 < exponent then Float.ofScientific 1 false 400
  else if exponent < -(400 + (Nat.toDigits 10 mantissa).length : Int) then 0.0
  else if 0 ≤ exponent then Float.ofScientific mantissa false exponent.toNat
  else Float.ofScientific mantissa true (-exponent).toNat

/-- The value of a whole decimal numeral. -/
def wholeToken (negative : Bool) (ds : List Char) : Token :=
  let n : Int := if negative then -(ofDigits 10 ds : Int) else ofDigits 10 ds
  if Int64.minValue.toInt ≤ n && n ≤ Int64.maxValue.toInt then .int (Int64.ofInt n)
  else
    let x := floatOf (ofDigits 10 ds) 0
    .float (if negative then -x else x)

/-- The exponent behind an `e`, if digits follow. -/
def takeExponent (cs : List Char) : Option (Int × List Char) :=
  let signed := fun (sign : Int) (ds : List Char) =>
    match takeDigits 10 ds with
    | ([], _) => none
    | (es, rest) => some (sign * ofDigits 10 es, rest)
  match cs with
  | '+' :: ds => signed 1 ds
  | '-' :: ds => signed (-1) ds
  | d :: ds => if isDigitOf 10 d then signed 1 (d :: ds) else none
  | [] => none

/-- The digits behind a point, if the point belongs to the numeral. -/
def takeFraction : List Char → Option (List Char × List Char)
  | '.' :: d :: ds =>
    if isDigitOf 10 d then some (takeDigits 10 (d :: ds))
    else if d == '_' || d == '.' || isLetter d then none
    else some ([], d :: ds)
  | _ => none

/-- A decimal numeral, from its first digit on. -/
def scanDecimal (negative : Bool) (cs : List Char) : Token × List Char :=
  let (whole, rest) := takeDigits 10 cs
  let (fraction, rest', hasPoint) := match takeFraction rest with
    | some (fs, rest') => (fs, rest', true)
    | none => ([], rest, false)
  let power := match rest' with
    | 'e' :: es | 'E' :: es => takeExponent es
    | _ => none
  match power, hasPoint with
  | none, false => (wholeToken negative whole, rest)
  | _, _ =>
    let (exponent, rest'') := match power with
      | some (e, r) => (e, r)
      | none => (0, rest')
    let x := floatOf (ofDigits 10 (whole ++ fraction)) (exponent - fraction.length)
    (.float (if negative then -x else x), rest'')

/-- A numeral in another base, from behind its mark on. -/
def scanBased (negative : Bool) (base : Nat) (mark : String) (cs : List Char) :
    Token × List Char :=
  let (ds, rest) := takeDigits base cs
  let n := ofDigits base ds
  if ds.isEmpty || UInt64.size ≤ n then (.bad (.malformedNumber (mark ++ String.ofList ds)), rest)
  else
    let bits := Int64.ofNat n
    (.int (if negative then -bits else bits), rest)

/-- A numeral, from its first digit on. -/
def scanNumeral (negative : Bool) (cs : List Char) : Token × List Char :=
  match cs with
  | '0' :: 'x' :: rest | '0' :: 'X' :: rest => scanBased negative 16 "0x" rest
  | '0' :: 'o' :: rest | '0' :: 'O' :: rest => scanBased negative 8 "0o" rest
  | '0' :: 'b' :: rest | '0' :: 'B' :: rest => scanBased negative 2 "0b" rest
  | _ => scanDecimal negative cs

end Stagehand.Lang
