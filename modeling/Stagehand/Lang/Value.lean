import Stagehand.Capability
import Stagehand.Entries
import Stagehand.Lang.Syntax
import Stagehand.Number.Layout
import Stagehand.Text.Quoted

/-!
# Values of scripts

Arrays and objects are values, references are capabilities. A variable that a closure captures
becomes a cell that both share; the value in the variable is then the number of the cell, and
reading the variable reads the cell. A function value may know its function, and holds the arguments
it was already given.

A value has three texts: its dump in messages, what it shows of itself in the debug log and inside
other values, and the text that a script makes of it.
-/

namespace Stagehand.Lang

/-- The number of a shared cell. -/
abbrev CellId := Nat

/-- A value of the script language. The fields of an object are in ascending order. -/
inductive Value where
  | unit
  | bool (b : Bool)
  | int (n : Int64)
  | float (x : Float)
  | char (c : Char)
  | str (s : String)
  | array (items : List Value)
  | object (fields : List (String × Value))
  | blob (bytes : List UInt8)
  | range (first last : Int64) (inclusive : Bool)
  /-- A reading of the clock. -/
  | timestamp (time : Int)
  | fn (name : String) (curried : List Value) (function : Option FnDef)
  | handle (c : Capability)
  | shared (cell : CellId)
  deriving Inhabited

/-- A library, evaluated: the variables and functions it offers, the constants its functions see,
and the libraries it imported itself. -/
inductive Module where
  | mk (path : Option String) (vars : List (String × Value)) (functions : List FnDef)
      (constants : List (String × Value)) (imports : List (String × Module))
  deriving Inhabited

namespace Module

/-- The text it was imported under, where a script keeps it for good. -/
def path : Module → Option String
  | .mk p _ _ _ _ => p

/-- The variables it offers. -/
def vars : Module → List (String × Value)
  | .mk _ vs _ _ _ => vs

/-- Its functions, private ones included. -/
def functions : Module → List FnDef
  | .mk _ _ fs _ _ => fs

/-- The constants that its functions see. -/
def constants : Module → List (String × Value)
  | .mk _ _ _ cs _ => cs

/-- The libraries that its functions see. -/
def imports : Module → List (String × Module)
  | .mk _ _ _ _ is => is

/-- The same library under the text it was imported under. -/
def named (text : String) : Module → Module
  | .mk _ vs fs cs is => .mk (some text) vs fs cs is

/-- The library of a name among those in reach. -/
def find? (name : String) : List (String × Module) → Option Module
  | [] => none
  | (n, m) :: rest => if n == name then some m else find? name rest

end Module

namespace Value

mutual

/-- The value of a constant. -/
def ofLiteral : Literal → Value
  | .unit => .unit
  | .bool b => .bool b
  | .int n => .int n
  | .float x => .float x
  | .char c => .char c
  | .str s => .str s
  | .range a b inclusive => .range a b inclusive
  | .array items => .array (ofLiterals items)
  | .object fields => .object (ofLiteralFields fields)

/-- The values of constants. -/
def ofLiterals : List Literal → List Value
  | [] => []
  | c :: rest => ofLiteral c :: ofLiterals rest

/-- The values of the fields of a constant. -/
def ofLiteralFields : List (String × Literal) → List (String × Value)
  | [] => []
  | (k, c) :: rest => (k, ofLiteral c) :: ofLiteralFields rest

end

/-- The constant for a value, where an operator can yield it. -/
def toLiteral? : Value → Option Literal
  | .unit => some .unit
  | .bool b => some (.bool b)
  | .int n => some (.int n)
  | .float x => some (.float x)
  | .char c => some (.char c)
  | .str s => some (.str s)
  | .range a b inclusive => some (.range a b inclusive)
  | _ => none

/-- The name of a value's type, as scripts see it. -/
def typeName : Value → String
  | .unit => "()"
  | .bool _ => "bool"
  | .int _ => "i64"
  | .float _ => "f64"
  | .char _ => "char"
  | .str _ => "string"
  | .array _ => "array"
  | .object _ => "map"
  | .blob _ => "blob"
  | .range _ _ false => "range"
  | .range _ _ true => "range="
  | .timestamp _ => "timestamp"
  | .fn _ _ _ => "Fn"
  | .handle c => c.kind
  | .shared _ => "shared"

/-- The full name of a value's type, as the host names it. -/
def typePath : Value → String
  | .range _ _ false => "core::ops::range::Range<i64>"
  | .range _ _ true => "core::ops::range::RangeInclusive<i64>"
  | .handle c => c.typePath
  | v => v.typeName

/-- The name of a value's type among the arguments of a function that was not found. -/
def argumentType : Value → String
  | .str _ => "&str | ImmutableString | String"
  | v => v.typeName

/-- The text of a byte in a blob. -/
def byteText (b : UInt8) : String :=
  let ds := Nat.toDigits 16 b.toNat
  String.ofList (if ds.length < 2 then '0' :: ds else ds)

/-- The text of a blob: its bytes, eight to a group. -/
def blobText : Nat → List UInt8 → String
  | _, [] => ""
  | n, b :: rest =>
    (if n != 0 && n % 8 == 0 then " " else "") ++ byteText b ++ blobText (n + 1) rest

/-- The text of a range; one without a last number goes up to the greatest there is. -/
def rangeText (first last : Int64) (inclusive : Bool) : String :=
  toString first.toInt ++ (if inclusive then "..=" else "..") ++
    (if last == Int64.maxValue then "" else toString last.toInt)

/-- A function has this name because it was written without one. -/
def isAnonymous (name : String) : Bool := name.startsWith "anon$"

/-- The text of a function value: what it was given already does not show. -/
def fnText (name : String) : String := "Fn(" ++ name ++ ")"

mutual

/-- The dump of a value, as a message shows it inside another: strings and characters are quoted,
references have their full names. -/
def dump : Value → String
  | .unit => "()"
  | .bool b => if b then "true" else "false"
  | .int n => toString n.toInt
  | .float x => Number.debug.format x
  | .char c => Text.quotedChar c
  | .str s => Text.quoted s
  | .array items => "[" ++ ", ".intercalate (dumpItems items) ++ "]"
  | .object fields => "#\x7b" ++ ", ".intercalate (dumpFields fields) ++ "\x7d"
  | .blob bytes => "[" ++ blobText 0 bytes ++ "]"
  | .range a b inclusive => rangeText a b inclusive
  | .timestamp _ => "<timestamp>"
  | .fn name [] _ => fnText name
  | .fn name (v :: rest) _ =>
    "Fn(" ++ ", ".intercalate (Text.quoted name :: dump v :: dumpItems rest) ++ ")"
  | .handle c => c.typePath
  | .shared _ => "<shared>"

/-- The dumps of the items of an array. -/
def dumpItems : List Value → List String
  | [] => []
  | v :: rest => dump v :: dumpItems rest

/-- The dumps of the fields of an object. -/
def dumpFields : List (String × Value) → List String
  | [] => []
  | (k, v) :: rest => (Text.quoted k ++ ": " ++ dump v) :: dumpFields rest

end

/-- A value in a message, and in a template of constants alone. -/
def display : Value → String
  | .unit => ""
  | .str s => s
  | .char c => c.toString
  | .float x => Number.script.format x
  | .fn name _ _ => fnText name
  | v => v.dump

mutual

/-- A value in the debug log, and inside another value that a script makes text of: strings are
quoted, characters are not. -/
def debugText : Value → String
  | .char c => c.toString
  | .array items => "[" ++ ", ".intercalate (debugItems items) ++ "]"
  | .object fields => "#\x7b" ++ ", ".intercalate (debugFields fields) ++ "\x7d"
  | .fn name _ _ => fnText name
  | .handle c => c.kind
  | .unit => "()"
  | .bool b => (Value.bool b).dump
  | .int n => (Value.int n).dump
  | .float x => Number.debug.format x
  | .str s => Text.quoted s
  | .blob bytes => "[" ++ blobText 0 bytes ++ "]"
  | .range a b inclusive => rangeText a b inclusive
  | .timestamp _ => "<timestamp>"
  | .shared _ => "<shared>"

/-- The texts of the items of an array. -/
def debugItems : List Value → List String
  | [] => []
  | v :: rest => debugText v :: debugItems rest

/-- The texts of the fields of an object. -/
def debugFields : List (String × Value) → List String
  | [] => []
  | (k, v) :: rest => (Text.quoted k ++ ": " ++ debugText v) :: debugFields rest

end

/-- The text that a script makes of a value: a string is itself, and the unit is nothing. -/
def text : Value → String
  | .unit => ""
  | .str s => s
  | .float x => Number.script.format x
  | v => v.debugText

end Value

mutual

/-- The value stands for one of the cells, or is a function that was given one. -/
def Value.touches (cells : List CellId) : Value → Bool
  | .shared cell => cells.contains cell
  | .fn _ curried _ => Value.someTouches cells curried
  | _ => false

/-- Some of the values stand for one of the cells. -/
def Value.someTouches (cells : List CellId) : List Value → Bool
  | [] => false
  | v :: rest => v.touches cells || Value.someTouches cells rest

end

/-! ## Places -/

/-- What a place holds: a variable, a cell, or what a function is called on. `fixed` is what the
place held when it became constant, if it is. What `fixed` has a part for cannot change; a part that
came later can. -/
structure Held where
  value : Value
  fixed : Option Value := none
  deriving Inhabited

namespace Held

/-- A place whose value cannot change. -/
def const (v : Value) : Held := ⟨v, some v⟩

/-- The place itself cannot be given another value. -/
def isConstant (h : Held) : Bool := h.fixed.isSome

/-- The place holds another value. -/
def put (h : Held) (v : Value) : Held := { h with value := v }

end Held

/-- The field of an object; none of anything else. -/
def Value.field? (name : String) : Value → Option Value
  | .object fields => Entries.get? name fields
  | _ => none

/-- The item of an array at a place from its start; none of anything else. -/
def Value.itemAt? (place : Nat) : Value → Option Value
  | .array items => items[place]?
  | _ => none

/-- The shared cells of an instance. -/
abbrev Heap := Array Held

/-- Reads through cells, one after the other; there are at most as many on the way as there are
cells. -/
def Heap.follow (h : Heap) : Nat → Value → Value
  | fuel + 1, .shared cell => match h[cell]? with
    | some held => Heap.follow h fuel held.value
    | none => .unit
  | _, v => v

/-- The value itself, or what is in the cell that it stands for. -/
def Heap.flatten (h : Heap) (v : Value) : Value := h.follow h.size v

end Stagehand.Lang
