import Stagehand.Entries
import Stagehand.Lang.Syntax

/-!
# Constant expressions

An expression that is made of constants alone comes to a constant: a literal, an array or an object
of such, or a range of whole numbers, which may lack either end.
-/

namespace Stagehand.Lang

/-- The range of whole numbers between two constants. A missing start is zero, a missing end the
greatest number. -/
def rangeOf? (inclusive : Bool) : Literal → Literal → Option Literal
  | .int a, .int b => some (.range a b inclusive)
  | .int a, .unit => some (.range a Int64.maxValue inclusive)
  | .unit, .int b => some (.range 0 b inclusive)
  | .unit, .unit => some (.range 0 Int64.maxValue inclusive)
  | _, _ => none

mutual

/-- The constant that an expression comes to. -/
def Expr.constant? : Expr → Option Literal
  | .literal c _ => some c
  | .array items _ => (Expr.constants? items).map .array
  | .object fields _ => (Expr.constantFields? fields).map fun fs => .object (Entries.ofList fs)
  | .binary .range (.literal a _) (.literal b _) _ => rangeOf? false a b
  | .binary .rangeIncl (.literal a _) (.literal b _) _ => rangeOf? true a b
  | _ => none

/-- The constants that expressions come to. -/
def Expr.constants? : List Expr → Option (List Literal)
  | [] => some []
  | e :: rest => do return (← e.constant?) :: (← Expr.constants? rest)

/-- The constants that the fields of an object come to. -/
def Expr.constantFields? : List (String × Expr) → Option (List (String × Literal))
  | [] => some []
  | (k, e) :: rest => do return (k, ← e.constant?) :: (← Expr.constantFields? rest)

end

end Stagehand.Lang
