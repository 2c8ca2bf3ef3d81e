import Stagehand.HostValue
import Stagehand.Lang.Value

/-!
# Across the boundary

`HostValue.toScript` makes the value of a script from a value of the host and always succeeds.
`HostValue.ofScript` goes back: it reads through shared cells at every depth, turns characters into
strings, and refuses the first value that has no counterpart, by the name of its type.
-/

namespace Stagehand

open Lang

namespace HostValue

mutual

/-- The value of a script for a value of the host. -/
def toScript : HostValue → Value
  | .unit => .unit
  | .bool b => .bool b
  | .int n => .int n
  | .float x => .float x
  | .str s => .str s
  | .list items => .array (toScriptItems items)
  | .map entries => .object (toScriptEntries entries)
  | .handle c => .handle c

/-- The values for a list. -/
def toScriptItems : List HostValue → List Value
  | [] => []
  | v :: rest => toScript v :: toScriptItems rest

/-- The values for the entries of a map. -/
def toScriptEntries : List (String × HostValue) → List (String × Value)
  | [] => []
  | (k, v) :: rest => (k, toScript v) :: toScriptEntries rest

end

/-- A value that the host does not know. -/
structure Unsupported where
  typeName : String
  deriving DecidableEq, Repr

/-- The wording of the refusal. -/
def Unsupported.message (u : Unsupported) : String :=
  "values of type '" ++ u.typeName ++ "' cannot cross the host boundary"

mutual

/-- The value of the host for a value without cells. -/
def ofFlat : Value → Except Unsupported HostValue
  | .unit => .ok .unit
  | .bool b => .ok (.bool b)
  | .int n => .ok (.int n)
  | .float x => .ok (.float x)
  | .char c => .ok (.str c.toString)
  | .str s => .ok (.str s)
  | .array items => do return .list (← ofFlatItems items)
  | .object fields => do return .map (← ofFlatFields fields)
  | .handle c => .ok (.handle c)
  | v => .error ⟨v.typePath⟩

/-- The values for an array. -/
def ofFlatItems : List Value → Except Unsupported (List HostValue)
  | [] => .ok []
  | v :: rest => do
    let head ← ofFlat v
    return head :: (← ofFlatItems rest)

/-- The values for the fields of an object. -/
def ofFlatFields : List (String × Value) → Except Unsupported (List (String × HostValue))
  | [] => .ok []
  | (k, v) :: rest => do
    let head ← ofFlat v
    return (k, head) :: (← ofFlatFields rest)

end

end HostValue

namespace Lang

mutual

/-- A value with every cell in it replaced by what `look` finds in the cell. -/
def Value.expandWith (look : CellId → Value) : Value → Value
  | .array items => .array (Value.expandItems look items)
  | .object fields => .object (Value.expandFields look fields)
  | .shared cell => look cell
  | .unit => .unit
  | .bool b => .bool b
  | .int n => .int n
  | .float x => .float x
  | .char c => .char c
  | .str s => .str s
  | .blob bytes => .blob bytes
  | .range a b inclusive => .range a b inclusive
  | .timestamp time => .timestamp time
  | .fn name curried function => .fn name curried function
  | .handle c => .handle c

/-- The items of an array, cells replaced. -/
def Value.expandItems (look : CellId → Value) : List Value → List Value
  | [] => []
  | v :: rest => v.expandWith look :: Value.expandItems look rest

/-- The fields of an object, cells replaced. -/
def Value.expandFields (look : CellId → Value) : List (String × Value) → List (String × Value)
  | [] => []
  | (k, v) :: rest => (k, v.expandWith look) :: Value.expandFields look rest

end

/-- A value with every cell in it replaced by what is in it; `depth` bounds how many cells lie
inside one another. -/
def Heap.expand (h : Heap) : Nat → Value → Value
  | 0 => Value.expandWith .shared
  | depth + 1 => Value.expandWith fun cell =>
    match h[cell]? with
    | some held => h.expand depth held.value
    | none => .unit

end Lang

/-- The value of the host for a value of a script. -/
def HostValue.ofScript (h : Heap) (v : Value) : Except HostValue.Unsupported HostValue :=
  HostValue.ofFlat (h.expand h.size v)

end Stagehand
