import Stagehand.Lang.Fault
import Stagehand.Number.Remainder
import Stagehand.Text.Lossy

/-!
# Operators

What operators do to values. Whole numbers are checked and never wrap; a whole number next to a
float counts as a float, a character next to a string as a string. Values of different types are
never equal and never ordered, which is an answer and no fault; two references of one kind cannot
be compared at all, and two ranges only for equality.
-/

namespace Stagehand.Lang

/-- A function as a message names it: with the types of its arguments. -/
def signature (name : String) (args : List Value) : String :=
  name ++ " (" ++ ", ".intercalate (args.map Value.argumentType) ++ ")"

/-- The function does not exist for these arguments. -/
def noFunction {α : Type} (name : String) (args : List Value) : Except Cause α :=
  .error (.functionNotFound (signature name args))

/-- The number fits 64 bits. -/
def fits (n : Int) : Bool := Int64.minValue.toInt ≤ n && n ≤ Int64.maxValue.toInt

/-- A whole result, or the fault that it does not fit. -/
def checkedInt (n : Int) (fault : String) : Except Cause Value :=
  if fits n then .ok (.int (Int64.ofInt n)) else .error (.arithmetic fault)

/-- A fault of an operator, with its operands. -/
def operands (what : String) (op : BinaryOp) (a b : Int64) : String :=
  what ++ ": " ++ toString a.toInt ++ " " ++ op.text ++ " " ++ toString b.toInt

/-- A power of whole numbers. -/
def power (a b : Int64) : Except Cause Value :=
  let overflow := operands "Exponential overflow" .pow a b
  if b < 0 then .error (.arithmetic (operands "Integer raised to a negative power" .pow a b))
  else if 4294967295 < b then .error (.arithmetic overflow)
  else if a == 0 then .ok (.int (if b == 0 then 1 else 0))
  else if a == 1 then .ok (.int 1)
  else if a == -1 then .ok (.int (if b % 2 == 0 then 1 else -1))
  else if 64 < b then .error (.arithmetic overflow)
  else checkedInt (a.toInt.pow b.toInt.toNat) overflow

/-- A shift to the left; a negative distance shifts to the right, which keeps the sign. -/
def shift (a : Int64) (distance : Int) : Value :=
  if 64 ≤ distance then .int 0
  else if 0 ≤ distance then .int (a <<< Int64.ofInt distance)
  else if distance ≤ -64 then .int (if a < 0 then -1 else 0)
  else .int (a >>> Int64.ofInt (-distance))

/-- A comparison by an order. -/
def compareWith {α : Type} (op : BinaryOp) (a b : α) (eq lt : α → α → Bool) : Option Bool :=
  match op with
  | .eq => some (eq a b)
  | .ne => some (!eq a b)
  | .lt => some (lt a b)
  | .le => some (lt a b || eq a b)
  | .gt => some (lt b a)
  | .ge => some (lt b a || eq a b)
  | _ => none

/-- Operators on whole numbers. -/
def intOp (op : BinaryOp) (a b : Int64) : Except Cause Value :=
  match op with
  | .add => checkedInt (a.toInt + b.toInt) (operands "Addition overflow" op a b)
  | .sub => checkedInt (a.toInt - b.toInt) (operands "Subtraction overflow" op a b)
  | .mul => checkedInt (a.toInt * b.toInt) (operands "Multiplication overflow" op a b)
  | .div =>
    if b == 0 then .error (.arithmetic (operands "Division by zero" op a b))
    else checkedInt (a.toInt.tdiv b.toInt) (operands "Division overflow" op a b)
  | .mod =>
    if b == 0 || (a == Int64.minValue && b == -1) then
      .error (.arithmetic (operands "Modulo division by zero or overflow" op a b))
    else .ok (.int (Int64.ofInt (a.toInt.tmod b.toInt)))
  | .pow => power a b
  | .bitAnd => .ok (.int (a &&& b))
  | .bitOr => .ok (.int (a ||| b))
  | .bitXor => .ok (.int (a ^^^ b))
  | .shiftLeft => .ok (shift a b.toInt)
  | .shiftRight => .ok (shift a (-b.toInt))
  | .range => .ok (.range a b false)
  | .rangeIncl => .ok (.range a b true)
  | op =>
    match compareWith op a b (· == ·) (fun x y => decide (x < y)) with
    | some r => .ok (.bool r)
    | none => noFunction op.text [.int a, .int b]

/-- Operators on readings of the clock, where there is one. -/
def clockOp (op : BinaryOp) (a b : Int) : Option Value :=
  match op with
  | .sub => some (.float (Float.ofInt (a - b) / 1e9))
  | op => (compareWith op a b (· == ·) (fun x y => decide (x < y))).map .bool

/-- Operators on floats, where there is one. -/
def floatOp (op : BinaryOp) (a b : Float) : Option Value :=
  match op with
  | .add => some (.float (a + b))
  | .sub => some (.float (a - b))
  | .mul => some (.float (a * b))
  | .div => some (.float (a / b))
  | .mod => some (.float (Number.remainder a b))
  | .pow => some (.float (a.pow b))
  | .eq => some (.bool (a == b))
  | .ne => some (.bool (a != b))
  | .lt => some (.bool (a < b))
  | .le => some (.bool (a ≤ b))
  | .gt => some (.bool (a > b))
  | .ge => some (.bool (a ≥ b))
  | _ => none

/-- `text` without the places where `part` stands, from left to right; `skip` characters of such a
place are still to be dropped. -/
def without (part : List Char) : Nat → List Char → List Char
  | _, [] => []
  | skip + 1, _ :: rest => without part skip rest
  | 0, c :: rest =>
    if !part.isEmpty && part.isPrefixOf (c :: rest) then without part (part.length - 1) rest
    else c :: without part 0 rest

/-- Operators on strings, where there is one. -/
def stringOp (op : BinaryOp) (a b : String) : Option Value :=
  match op with
  | .add => some (.str (a ++ b))
  | .sub => some (.str (String.ofList (without b.toList 0 a.toList)))
  | op => (compareWith op a b (· == ·) (fun x y => decide (x < y))).map .bool

/-- Operators on truth values, where there is one. -/
def boolOp (op : BinaryOp) (a b : Bool) : Option Value :=
  match op with
  | .bitAnd => some (.bool (a && b))
  | .bitOr => some (.bool (a || b))
  | .bitXor => some (.bool (a != b))
  | op => (compareWith op a b (· == ·) (fun x y => !x && y)).map .bool

/-- The float for a number. -/
def floatOfInt (n : Int64) : Float := Float.ofInt n.toInt

mutual

/-- Both values are equal. -/
def Value.equal : Value → Value → Except Cause Bool
  | .unit, .unit => .ok true
  | .bool a, .bool b => .ok (a == b)
  | .int a, .int b => .ok (a == b)
  | .float a, .float b => .ok (a == b)
  | .int a, .float b => .ok (floatOfInt a == b)
  | .float a, .int b => .ok (a == floatOfInt b)
  | .char a, .char b => .ok (a == b)
  | .str a, .str b => .ok (a == b)
  | .char a, .str b => .ok (a.toString == b)
  | .str a, .char b => .ok (a == b.toString)
  | .array as, .array bs => Value.equalItems as.length bs.length as bs
  | .object as, .object bs => Value.equalFields as.length bs.length as bs
  | .blob a, .blob b => .ok (a == b)
  | .range a b i, .range c d j =>
    .ok (i == j && a == c && b == d)
  | .timestamp a, .timestamp b => .ok (a == b)
  | .fn n c f, .fn m d g => noFunction "==" [.fn n c f, .fn m d g]
  | .handle a, .handle b =>
    if a.kind == b.kind then noFunction "==" [.handle a, .handle b] else .ok false
  | _, _ => .ok false

/-- Arrays of the same length with equal items. -/
def Value.equalItems (n m : Nat) : List Value → List Value → Except Cause Bool
  | [], _ => .ok (n == m)
  | _, [] => .ok (n == m)
  | a :: as, b :: bs =>
    if n != m then .ok false
    else do
      if ← Value.equal a b then Value.equalItems n m as bs else return false

/-- Objects with the same fields. -/
def Value.equalFields (n m : Nat) :
    List (String × Value) → List (String × Value) → Except Cause Bool
  | [], _ => .ok (n == m)
  | _, [] => .ok (n == m)
  | (k, a) :: as, (l, b) :: bs =>
    if n != m || k != l then .ok false
    else do
      if ← Value.equal a b then Value.equalFields n m as bs else return false

end

/-- The answer to a comparison of values that have nothing to do with each other. -/
def unrelated (op : BinaryOp) : Option Value :=
  match op with
  | .eq | .lt | .le | .gt | .ge => some (.bool false)
  | .ne => some (.bool true)
  | _ => none

/-- Values that are compared by `Value.equal` alone. -/
def Value.equatable : Value → Value → Bool
  | .array _, .array _ | .object _, .object _ | .blob _, .blob _ | .range .., .range .. => true
  | _, _ => false

/-- Values of one type, or ranges of both kinds: other operators than those made for them are not
there. -/
def Value.sameType (a b : Value) : Bool :=
  match a, b with
  | .range .., .range .. => true
  | a, b => a.typeName == b.typeName

/-- Operators that are there for one type next to any other. -/
def mixedOp (op : BinaryOp) (a b : Value) : Except Cause Value :=
  match op, a, b with
  | .add, .str s, .blob bytes => .ok (.str (s ++ Text.lossy bytes))
  | .add, .blob bytes, .str s => .ok (.str (Text.lossy bytes ++ s))
  | .add, .str s, v => .ok (.str (s ++ v.text))
  | .add, v, .str s => .ok (.str (v.text ++ s))
  | .add, .array as, .array bs => .ok (.array (as ++ bs))
  | .add, .object as, .object bs =>
    .ok (.object (bs.foldl (fun m (k, v) => Entries.put k v m) as))
  | .add, .blob as, .blob bs => .ok (.blob (as ++ bs))
  | op, a, b =>
    if a.equatable b && (op == .eq || op == .ne) then do
      let same ← a.equal b
      return .bool (same == (op == .eq))
    else if a.sameType b then noFunction op.text [a, b]
    else
      match unrelated op with
      | some v => .ok v
      | none => noFunction op.text [a, b]

/-- The result of an operator, or the fault that there is no such operator. -/
def orMixed (result : Option Value) (op : BinaryOp) (a b : Value) : Except Cause Value :=
  match result with
  | some v => .ok v
  | none => mixedOp op a b

/-- An operator between two values. -/
def BinaryOp.apply (op : BinaryOp) (a b : Value) : Except Cause Value :=
  match a, b with
  | .int x, .int y => intOp op x y
  | .float x, .float y => orMixed (floatOp op x y) op a b
  | .int x, .float y => orMixed (floatOp op (floatOfInt x) y) op a b
  | .float x, .int y => orMixed (floatOp op x (floatOfInt y)) op a b
  | .str x, .str y => orMixed (stringOp op x y) op a b
  | .str x, .char y => orMixed (stringOp op x y.toString) op a b
  | .char x, .str y => orMixed (if op == .sub then none else stringOp op x.toString y) op a b
  | .char x, .char y =>
    orMixed (if op == .sub then none else stringOp op x.toString y.toString) op a b
  | .bool x, .bool y => orMixed (boolOp op x y) op a b
  | .unit, .unit => orMixed ((unrelated op).map fun _ => .bool (op == .eq)) op a b
  | .timestamp x, .timestamp y => orMixed (clockOp op x y) op a b
  | a, b => mixedOp op a b

/-- The bytes of a text. -/
def bytesOf (text : String) : List UInt8 := text.toUTF8.toList

/-- The lowest byte of a number. -/
def lowByte (n : Int64) : UInt8 := UInt8.ofNat (n.toInt % 256).toNat

/-- The result of a compound assignment: an array takes up the items of an array, or any other value
as an item; bytes take up bytes; anything else is the operator between both. -/
def BinaryOp.assigned (op : BinaryOp) (old value : Value) : Except Cause Value :=
  match op, old, value with
  | .add, .array as, .array bs => .ok (.array (as ++ bs))
  | .add, .array as, v => .ok (.array (as ++ [v]))
  | .add, .blob bytes, .int n => .ok (.blob (bytes ++ [lowByte n]))
  | .add, .blob bytes, .char c => .ok (.blob (bytes ++ bytesOf c.toString))
  | .add, .blob bytes, .str s => .ok (.blob (bytes ++ bytesOf s))
  | op, old, value => op.apply old value

/-- An operator in front of a value. -/
def UnaryOp.apply (op : UnaryOp) (v : Value) : Except Cause Value :=
  match op, v with
  | .neg, .int n => checkedInt (-n.toInt) "integer overflow"
  | .neg, .float x => .ok (.float (-x))
  | .plus, .int n => .ok (.int n)
  | .plus, .float x => .ok (.float x)
  | .not, .bool b => .ok (.bool !b)
  | op, v => noFunction op.text [v]

/-! ## Cases -/

mutual

/-- Both values are the same to the bit: numbers of different types never are. -/
def Value.same : Value → Value → Bool
  | .unit, .unit => true
  | .bool a, .bool b => a == b
  | .int a, .int b => a == b
  | .float a, .float b => a.toBits == b.toBits
  | .char a, .char b => a == b
  | .str a, .str b => a == b
  | .blob a, .blob b => a == b
  | .range a b i, .range c d j => i == j && a == c && b == d
  | .array as, .array bs => Value.sameItems as bs
  | .object as, .object bs => Value.sameFields as bs
  | _, _ => false

/-- Both lists have the same items. -/
def Value.sameItems : List Value → List Value → Bool
  | [], [] => true
  | a :: as, b :: bs => a.same b && Value.sameItems as bs
  | _, _ => false

/-- Both lists have the same fields. -/
def Value.sameFields : List (String × Value) → List (String × Value) → Bool
  | [], [] => true
  | (k, a) :: as, (l, b) :: bs => k == l && a.same b && Value.sameFields as bs
  | _, _ => false

end

/-- The value lies in the range, or is that very range. -/
def rangeAccepts (first last : Int64) (inclusive : Bool) (v : Value) : Bool :=
  match v with
  | .int n => first ≤ n && (if inclusive then n ≤ last else n < last)
  | .float x =>
    floatOfInt first ≤ x && (if inclusive then x ≤ floatOfInt last else x < floatOfInt last)
  | v => v.same (.range first last inclusive)

end Stagehand.Lang
