import Stagehand.Lang.Constant
import Stagehand.Lang.FunctionName
import Stagehand.Lang.Operators

/-!
# What has no effect

A pure expression can be evaluated any number of times, or not at all, without a trace: constants
and what is built of them. A variable is not pure, for it can be missing. Inside a block, the
declaration of a pure value has no effect either once nothing follows it, and no more has an import;
a declaration with any other value is kept, for the value can fail.
-/

namespace Stagehand.Lang

/-- A reference of the kind that a name of the host stands for. -/
def builtinSample (name : String) : Option Value :=
  match name with
  | "Host" => some (.handle (.host 0))
  | "Data" => some (.handle (.data 0))
  | "Script" => some (.handle (.script ⟨0, ""⟩))
  | _ => none

mutual

/-- The value of a constant expression; of a reference, one of its kind. -/
def Expr.value? : Expr → Option Value
  | .literal c _ => some (.ofLiteral c)
  | .builtin name _ => builtinSample name
  | .template parts _ =>
    (Expr.values? parts).map fun vs => .str (String.join (vs.map Value.display))
  | .array items _ => (Expr.values? items).map .array
  | .object fields _ => (Expr.fieldValues? fields).map fun fs => .object (Entries.ofList fs)
  | .closure name [] _ => some (.fn name [] none)
  | .call "Fn" [.literal (.str name) _] _ =>
    if isFunctionName name then some (.fn name [] none) else none
  | .binary .range (.literal a _) (.literal b _) _ => (rangeOf? false a b).map .ofLiteral
  | .binary .rangeIncl (.literal a _) (.literal b _) _ => (rangeOf? true a b).map .ofLiteral
  | _ => none

/-- The values of constant expressions. -/
def Expr.values? : List Expr → Option (List Value)
  | [] => some []
  | e :: rest => do return (← e.value?) :: (← Expr.values? rest)

/-- The values of the fields of a constant object. -/
def Expr.fieldValues? : List (String × Expr) → Option (List (String × Value))
  | [] => some []
  | (k, e) :: rest => do return (k, ← e.value?) :: (← Expr.fieldValues? rest)

end

/-- The expression is a constant. -/
def Expr.isConstant (e : Expr) : Bool := e.value?.isSome

mutual

/-- Evaluating the expression has no effect. -/
def Expr.isPure : Expr → Bool
  | .template parts _ => Expr.allPure parts
  | .array items _ => Expr.allPure items
  | .object fields _ => Expr.fieldsPure fields
  | .and l r _ | .or l r _ | .coalesce l r _ => l.isPure && r.isPure
  | .control (.block body _) _ => Stmt.allPure body
  | .control s _ => s.isPure
  | e => e.isConstant

/-- All expressions are pure. -/
def Expr.allPure : List Expr → Bool
  | [] => true
  | e :: rest => e.isPure && Expr.allPure rest

/-- All fields are pure. -/
def Expr.fieldsPure : List (String × Expr) → Bool
  | [] => true
  | (_, e) :: rest => e.isPure && Expr.fieldsPure rest

/-- The expression is pure, or missing. -/
def Expr.optionPure : Option Expr → Bool
  | none => true
  | some e => e.isPure

/-- Executing the statement has no effect. A loop without end is one. -/
def Stmt.isPure : Stmt → Bool
  | .skip => true
  | .expr e => e.isPure
  | .cond test yes no _ => test.isPure && Stmt.allPure yes && Stmt.allPure no
  | .switch e arms _ => e.isPure && Stmt.armsPure arms
  | .whileLoop (some (.literal (.bool false) _)) _ => true
  | .doLoop body (.literal (.bool b) _) untilTrue => b == untilTrue && Stmt.allPure body
  | .forLoop _ _ items body _ => items.isPure && Stmt.allPure body
  | .block body _ => Stmt.allPure body
  | .tryCatch body _ handler => Stmt.allPure body && Stmt.allPure handler
  | _ => false

/-- All statements are pure. -/
def Stmt.allPure : List Stmt → Bool
  | [] => true
  | s :: rest => s.isPure && Stmt.allPure rest

/-- All cases of a `switch` are pure. -/
def Stmt.armsPure : List (List Pattern × Option Expr × Stmt) → Bool
  | [] => true
  | (_, guard, s) :: rest => Expr.optionPure guard && s.isPure && Stmt.armsPure rest

end

mutual

/-- The statement has no effect outside the block that it stands in. -/
def Stmt.isLocal : Stmt → Bool
  | .declare _ _ _ value _ => (value.map Expr.isPure).getD true
  | .expr (.control (.block body _) _) => Stmt.allLocal body
  | .expr (.control s _) => s.isLocal
  | .importModule path _ _ => path.isPure
  | .exportVar _ _ _ => true
  | s => s.isPure

/-- All statements are local. -/
def Stmt.allLocal : List Stmt → Bool
  | [] => true
  | s :: rest => s.isLocal && Stmt.allLocal rest

end

mutual

/-- What the statement does lasts to the end of its block. -/
def Stmt.declares : Stmt → Bool
  | .declare .. | .importModule .. | .exportVar .. => true
  | .expr (.control (.block body _) _) => Stmt.allDeclare body
  | .expr (.control s _) => s.declares
  | _ => false

/-- All statements declare. -/
def Stmt.allDeclare : List Stmt → Bool
  | [] => true
  | s :: rest => s.declares && Stmt.allDeclare rest

end

/-- The value of the statement can be of use. -/
def Stmt.yields : Stmt → Bool
  | .cond .. | .switch .. | .block .. | .expr _ => true
  | _ => false

/-- Nothing behind the statement is reached. -/
def Stmt.jumps : Stmt → Bool
  | .breakLoop .. | .continueLoop .. | .ret .. | .throw .. => true
  | _ => false

end Stagehand.Lang
