/-!
# Whole numbers in text

A whole number is written as a sign, which can be missing, and digits. Reading stops at the first
character that is no digit or takes the number out of its bounds.
-/

namespace Stagehand.Number

/-- Why a text is no whole number. -/
inductive WholeError where
  | empty
  | digit
  | tooLarge
  | tooSmall
  deriving DecidableEq, Repr

/-- The wording of the fault. -/
def WholeError.message : WholeError → String
  | .empty => "cannot parse integer from empty string"
  | .digit => "invalid digit found in string"
  | .tooLarge => "number too large to fit in target type"
  | .tooSmall => "number too small to fit in target type"

/-- The value of a digit in bases up to thirty-six. -/
def digitIn? (radix : Nat) (c : Char) : Option Nat :=
  let n :=
    if '0' ≤ c && c ≤ '9' then some (c.toNat - '0'.toNat)
    else if 'a' ≤ c && c ≤ 'z' then some (c.toNat - 'a'.toNat + 10)
    else if 'A' ≤ c && c ≤ 'Z' then some (c.toNat - 'A'.toNat + 10)
    else none
  n.filter (· < radix)

/-- Reads digits behind the number `n`, within bounds. -/
def readDigits (radix : Nat) (low high : Int) (negative : Bool) :
    List Char → Int → Except WholeError Int
  | [], n => .ok n
  | c :: rest, n =>
    match digitIn? radix c with
    | none => .error .digit
    | some d =>
      let next := n * radix + (if negative then -(d : Int) else d)
      if next < low then .error .tooSmall
      else if high < next then .error .tooLarge
      else readDigits radix low high negative rest next

/-- Reads a whole number within bounds. A minus sign counts as a sign only where a number can be
negative. -/
def parseWhole (radix : Nat) (low high : Int) : List Char → Except WholeError Int
  | [] => .error .empty
  | ['+'] => .error .digit
  | ['-'] => .error .digit
  | '+' :: ds => readDigits radix low high false ds 0
  | '-' :: ds => if low < 0 then readDigits radix low high true ds 0 else .error .digit
  | ds => readDigits radix low high false ds 0

end Stagehand.Number
