import Stagehand.Lang.Import

/-!
# Variables, chains and assignments

A chain starts at a base and takes steps: into a property, to an item, through a method. All that
the steps hold is evaluated first, from left to right, then the base, then one step after the
other. On the way back every value takes up what became of its part, and in the end so does the
variable that the chain started at; so a change deep inside an array or object reaches the variable.
An assignment to a chain is such a walk with a new value at its end.
-/

namespace Stagehand.Lang

open Eval

/-- A step of a chain with what it holds evaluated. -/
inductive Link where
  | property (name : String) (safe : Bool) (pos : Pos)
  | method (name : String) (args : List Value) (safe : Bool) (pos : Pos)
  | index (key : Value) (safe : Bool) (pos : Pos)

/-- The step is not taken from the unit. -/
def Link.safe : Link → Bool
  | .property _ safe _ | .method _ _ safe _ | .index _ safe _ => safe

/-- What is stored at the end of a chain: a value, or the result of an operator with what is
there. `target` is the name that the chain starts at, at `place`. -/
structure Storing where
  op : Option BinaryOp
  value : Value
  pos : Pos
  target : String
  place : Pos

/-- The value that is stored in a place. -/
def Storing.into (s : Storing) (held : Held) : Eval Value := do
  if held.isConstant then raise (.constantTarget s.target) (some s.place)
  match s.op with
  | none => return s.value
  | some op => orRaise (op.assigned held.value s.value) (some s.pos)

/-- The place that an index means: from the end if it is negative. -/
def place? (index : Int64) (length : Nat) : Option Nat :=
  let n := index.toInt
  let i := if 0 ≤ n then n else length + n
  if 0 ≤ i && i < length then some i.toNat else none

/-- The characters from one place up to another, not included; a place that lies behind the end is
the end. -/
def slice (s : String) (start stop : Nat) : String :=
  String.ofList ((s.toList.drop start).take (stop - start))

/-- Where a range of places in a string starts and stops. A negative number counts from the end; a
range that starts before the string is a fault, one that stops before it stops at its start. One
that includes its last place is empty unless that lies behind its first. -/
def sliceBounds (length : Nat) (first last : Int64) (inclusive : Bool) (pos : Place) :
    Eval (Nat × Nat) := do
  let start ←
    if 0 ≤ first then pure first.toInt.toNat
    else
      match place? first length with
      | some i => pure i
      | none => raise (.stringBounds length first.toInt) pos
  let stop := if 0 ≤ last then last.toInt.toNat else (place? last length).getD 0
  return (start, if inclusive && start < stop then stop + 1 else stop)

/-- The bits that a range of places means: the first one and how many. -/
def fieldBounds (first last : Int64) (inclusive : Bool) (pos : Place) : Eval (Nat × Nat) := do
  let bound := fun (n : Int64) => do
    if 0 ≤ n && n < 64 then return n.toInt.toNat
    raise (.bitBounds 64 n.toInt) pos
  let start ← bound first
  let stop := (← bound last) + (if inclusive then 1 else 0)
  return (start, stop - start)

/-- As many ones as there are bits, in front of `start` zeros. -/
def fieldMask (start count : Nat) : Int64 :=
  Int64.ofInt ((((1 <<< count) - 1) <<< start : Nat) : Int)

/-- Some of the bits of a number. -/
def fieldOf (n : Int64) (start count : Nat) : Int64 :=
  Int64.ofNat ((n.toUInt64.toNat >>> start) % (1 <<< count))

/-- A value that has parts at keys. -/
def isIndexable : Value → Bool
  | .array _ | .object _ | .str _ | .blob _ | .int _ => true
  | _ => false

/-- The part of a value at a key. -/
def item (object key : Value) (pos : Place) : Eval Value :=
  match object, key with
  | .array items, .int n =>
    match (place? n items.length).bind (items[·]?) with
    | some v => return v
    | none => raise (.arrayBounds items.length n.toInt) pos
  | .array _, k | .blob _, k => blobItem object k
  | .object fields, .str key => return (Entries.get? key fields).getD .unit
  | .object _, k => raise (.wrongType k.typePath "string") pos
  | .str s, .int n =>
    match (place? n s.length).bind (s.toList[·]?) with
    | some c => return .char c
    | none => raise (.stringBounds s.length n.toInt) pos
  | .str s, .range first last inclusive => do
    let (start, stop) ← sliceBounds s.length first last inclusive pos
    return .str (slice s start stop)
  | .str _, k => raise (.wrongType k.typePath "i64") pos
  | .int bits, .int n =>
    match place? n 64 with
    | some i => return .bool ((bits >>> Int64.ofNat i) &&& 1 == 1)
    | none => raise (.bitBounds 64 n.toInt) pos
  | .int bits, .range first last inclusive => do
    let (start, count) ← fieldBounds first last inclusive pos
    return .int (fieldOf bits start count)
  | .int _, k => raise (.wrongType k.typePath "i64") pos
  | v, k => raise (.notIndexable (v.typeName ++ " [" ++ k.typeName ++ "]")) pos
where
  /-- A byte, or the fault that an index is no number. -/
  blobItem (object key : Value) : Eval Value :=
    match object, key with
    | .blob bytes, .int n =>
      match (place? n bytes.length).bind (bytes[·]?) with
      | some b => return countValue b.toNat
      | none => raise (.arrayBounds bytes.length n.toInt) pos
    | _, k => raise (.wrongType k.typePath "i64") pos

/-- A value with another part at a key, which it has. -/
def withItem (object key part : Value) (pos place : Place) : Eval Value :=
  match object, key, part with
  | .array items, .int n, v =>
    return .array (items.set ((place? n items.length).getD 0) v)
  | .object fields, .str key, v => return .object (Entries.put key v fields)
  | .str s, .int n, .char c =>
    return .str (String.ofList (s.toList.set ((place? n s.length).getD 0) c))
  | .str _, .int _, v => raise (.wrongType v.typeName "char") pos
  | .str s, .range first last inclusive, .str new => do
    let (start, stop) ← sliceBounds s.length first last inclusive place
    let behind := if inclusive && stop ≤ start then stop + 1 else stop
    return .str (slice s 0 start ++ new ++ slice s behind s.length)
  | .str _, .range .., v => raise (.wrongType v.typeName "string") pos
  | .blob bytes, .int n, .int b =>
    return .blob (bytes.set ((place? n bytes.length).getD 0) (lowByte b))
  | .blob _, .int _, v => raise (.wrongType v.typeName "INT") pos
  | .int bits, .int n, .bool b =>
    let mask := (1 : Int64) <<< Int64.ofNat ((place? n 64).getD 0)
    return .int (if b then bits ||| mask else bits &&& ~~~mask)
  | .int _, .int _, v => raise (.wrongType v.typeName "bool") pos
  | .int bits, .range first last inclusive, .int new => do
    let (start, count) ← fieldBounds first last inclusive place
    let mask := fieldMask start count
    return .int ((bits &&& ~~~mask) ||| ((new <<< Int64.ofNat start) &&& mask))
  | .int _, .range .., v => raise (.wrongType v.typeName "integer") pos
  | v, _, _ => return v

/-- What became constant at a key of what became constant. -/
def fixedItem (length : Nat) (key : Value) (fixed : Value) : Option Value :=
  match key with
  | .int n => (place? n length).bind (fixed.itemAt? ·)
  | .str name => fixed.field? name
  | _ => none

/-- The place of the part of a value at a key. -/
def heldItem (held : Held) (key : Value) (pos : Place) : Eval Held := do
  let length := match held.value with
    | .array items => items.length
    | _ => 0
  return ⟨← item held.value key pos, held.fixed.bind (fixedItem length key)⟩

/-- The fault of a property that cannot be read. -/
def noGetter (name : String) (v : Value) : Cause :=
  .propertyNotFound ("Unknown property '" ++ name ++
    "' - a getter is not registered for type '" ++ v.typeName ++ "'")

/-- The fault of a property that cannot be written. -/
def noSetter (name : String) (v stored : Value) : Cause :=
  .propertyNotFound ("No writable property '" ++ name ++
    "' - a setter is not registered for type '" ++ v.typeName ++ "' to handle '" ++
    stored.typeName ++ "'")

/-- The upshot of a step into a part, with what the value became around the changed part. -/
def Upshot.around (u : Upshot) (wrap : Value → Eval Value) : Eval Upshot := do
  match u.changed with
  | none => return u
  | some part =>
    match ← attempt (wrap part) with
    | .ok whole => return { u with changed := some whole }
    | .error h => return { outcome := .error h }

/-- A walk that was halted is an upshot too. -/
def caughtWalk (x : Eval Upshot) : Eval Upshot := do
  match ← attempt x with
  | .ok u => return u
  | .error h => return { outcome := .error h }

/-- The step into a property; `next` takes the steps behind it, of which there are none if it is the
`last`. -/
def walkProperty (storing : Option Storing) (last : Bool) (next : Held → Eval Upshot)
    (name : String) (pos : Pos) (held : Held) : Eval Upshot :=
  match held.value with
  | .object fields => do
    let part : Held := ⟨(Entries.get? name fields).getD .unit, held.fixed.bind (·.field? name)⟩
    let u ← caughtWalk (next part)
    u.around fun part => return .object (Entries.put name part fields)
  | v =>
    match storing, last, property? name v with
    | some { op := none, value, .. }, true, _ => raise (noSetter name v value) (some pos)
    | _, _, none => raise (noGetter name v) (some pos)
    | some s, true, some part => do
      raise (noSetter name v (← s.into { value := part })) (some pos)
    | _, _, some part => return { ← next { value := part } with changed := none }

/-- The fault of a value that has no parts at keys, where one is to be stored. -/
def ensureIndexable (storing : Option Storing) (last : Bool) (object key : Value) (pos : Pos) :
    Eval Unit :=
  match storing, last with
  | some s, true => do
    unless isIndexable object do
      raise (.notIndexable (object.typeName ++ " [" ++ key.typeName ++ "] = " ++
        s.value.typeName)) (some pos)
  | _, _ => return ()

/-- The step to an item. -/
def walkIndex (storing : Option Storing) (last : Bool) (next : Held → Eval Upshot) (key : Value)
    (pos : Pos) (held : Held) : Eval Upshot := do
  ensureIndexable storing last held.value key pos
  let part ← heldItem held key (some pos)
  let u ← caughtWalk (next part)
  u.around fun part => withItem held.value key part (storing.map (·.pos)) (some pos)

/-- The step through a method. -/
def walkMethod (stage : Stage) (run : Run) (next : Held → Eval Upshot) (name : String)
    (args : List Value) (pos : Pos) (held : Held) : Eval Upshot := do
  let called ← callMethod stage run held name args (some pos)
  match called.outcome with
  | .error _ => return called
  | .ok result =>
    let u ← caughtWalk (next { value := result })
    return { u with changed := called.changed }

/-- Takes one step of a chain; `next` takes those behind it. -/
def walkLink (stage : Stage) (run : Run) (storing : Option Storing) (last : Bool)
    (next : Held → Eval Upshot) (link : Link) (held : Held) : Eval Upshot :=
  match link with
  | .property name _ pos => walkProperty storing last next name pos held
  | .index key _ pos => walkIndex storing last next key pos held
  | .method name args _ pos => walkMethod stage run next name args pos held

/-- The step is not taken from this value. -/
def Link.skips (link : Link) (v : Value) : Bool :=
  match v with
  | .unit => link.safe
  | _ => false

/-- Takes the steps of a chain from a place: the result, and what became of the value there. -/
def walk (stage : Stage) (run : Run) (storing : Option Storing) :
    List Link → Held → Eval Upshot
  | [], held => do
    match storing with
    | none => return { outcome := .ok held.value }
    | some s => return { outcome := .ok .unit, changed := some (← s.into held) }
  | link :: rest, held => do
    let v ← flatten held.value
    if link.skips v then return { outcome := .ok .unit }
    walkLink stage run storing rest.isEmpty (walk stage run storing rest) link (held.put v)

/-- Evaluates what a step holds. -/
def evalStep (run : Run) (s : Step) : Eval Link :=
  match s with
  | .property name safe pos => return .property name safe pos
  | .method name args safe pos => do
    return .method name (← args.mapM fun e => do flatten (← run (.expr e))) safe pos
  | .index key safe _ => do return .index (← flatten (← run (.expr key))) safe key.pos

/-- Where the value of a name is: nowhere but in the expression, or in a variable. -/
inductive Slot where
  | fixed (v : Value)
  | var (v : Var)

/-- What a name stands for that is no function: a reference of the host, or a variable, which must
not be one that is being worked on. -/
def plainSlot (stage : Stage) (name : String) (pos : Place) : Eval Slot :=
  match if stage.libraries.isGlobal name then stage.builtin? name else none with
  | some c => return .fixed (.handle c)
  | none => do
    match ← var? name with
    | none => raise (.variableNotFound name) pos
    | some v =>
      if ← isLocked v.held.value then raise (.dataRace "") pos
      return .var v

/-- Finds what a name stands for: a function, unless the name is that of a variable of the same
function, or something else. -/
def slot (stage : Stage) (name : String) (known : Bool) (pos : Place) : Eval Slot := do
  if known then plainSlot stage name pos
  else
    match ← anyFunction? name with
    | some f => return .fixed (.fn f.name [] (some f))
    | none => plainSlot stage name pos

/-- The variables that a path leads to: those of a library, or the constants of the top level. -/
def memberVars (path : ModulePath) : Eval (List (String × Value)) := do
  let frame := (← get).frame
  match library? path frame.imports, path.names, frame.constants with
  | some (_, m), _, _ => return m.vars
  | none, ["global"], constants => return constants.getD []
  | none, _, _ => raise (.moduleNotFound path.text) (some path.pos)

/-- The variable of a library, or a constant of the top level. -/
def evalMember (path : ModulePath) (name : String) (pos : Pos) : Eval Value := do
  match Entries.get? name (← memberVars path) with
  | some v => flatten v
  | none => raise (.variableNotFound (path.member name)) (some pos)

/-- Evaluates a chain. What a walk changed stays changed, even if it was halted. -/
def evalChain (stage : Stage) (run : Run) (storing : Option Storing) (base : Expr)
    (steps : List Step) : Eval Value := do
  let links ← steps.mapM (evalStep run)
  let walk := walk stage run storing links
  match base with
  | .var name known pos =>
    match ← slot stage name known (some pos) with
    | .fixed v => valueOf (← walk (.const v))
    | .var x => do
      let u ← holding x do walk (← heldBy x)
      u.changed.forM (setVar x)
      valueOf u
  | .this pos =>
    match (← get).frame.this with
    | none => raise .unboundThis (some pos)
    | some held =>
      let u ← walk held
      u.changed.forM fun v => modifyFrame fun f => { f with this := some (held.put v) }
      valueOf u
  | .member path name pos => do valueOf (← walk (.const (← evalMember path name pos)))
  | e => do valueOf (← walk { value := ← flatten (← run (.expr e)) })

/-- The name and the place of what an assignment goes to. -/
def targetOf : Expr → String × Pos
  | .var name _ pos | .member _ name pos => (name, pos)
  | .chain base _ => match base with
    | .var name _ pos | .member _ name pos => (name, pos)
    | e => ("", e.pos)
  | e => ("", e.pos)

/-- Stores a value in a variable, in `this`, or at the end of a chain. -/
def store (stage : Stage) (run : Run) (op : Option BinaryOp) (value : Value) (pos : Pos)
    (target : Expr) : Eval Unit := do
  let (name, place) := targetOf target
  let s : Storing := ⟨op, value, pos, name, place⟩
  match target with
  | .var name known pos => do
    match ← slot stage name known (some pos) with
    | .fixed _ => raise (.constantTarget name) (some pos)
    | .var x => setVar x (← s.into (← heldBy x))
  | .this pos => do
    match (← get).frame.this with
    | none => raise .unboundThis (some pos)
    | some held =>
      let v ← s.into held
      modifyFrame fun f => { f with this := some (held.put v) }
  | .member path name pos => do
    let _ ← evalMember path name pos
    raise (.constantTarget name) (some pos)
  | .chain base steps => do
    let _ ← evalChain stage run (some s) base steps
  | e => raise (.constantTarget "") (some e.pos)

end Stagehand.Lang
