import Stagehand.Lang.FunctionName
import Stagehand.Lang.HostFunctions

/-!
# Calls

A run is a tree of jobs: an expression or a statement to be evaluated, a block, a loop to be gone
on with. What a job needs of other jobs it gets through `run`, an argument of every definition here,
so that none of them is recursive through the whole language.

Here are the jobs and the calls: of script functions, function values, built-in functions, functions
of the host, and methods. A method can change the value it is called on, and so can a function
whose first argument is a variable; calls therefore yield what that value becomes.
-/

namespace Stagehand.Lang

open Eval

/-- What a loop runs over. -/
inductive Items where
  | list (vs : List Value)
  /-- The numbers from `first` up to, but not including, `stop`. -/
  | span (first stop : Int)
  deriving Inhabited

/-- The next item, and those behind it. -/
def Items.next? : Items → Option (Value × Items)
  | .list [] => none
  | .list (v :: rest) => some (v, .list rest)
  | .span first stop =>
    if first < stop then some (.int (Int64.ofInt first), .span (first + 1) stop) else none

/-- What there is to do. -/
inductive Job where
  | expr (e : Expr)
  | stmt (s : Stmt)
  /-- Statements whose variables stay in sight. -/
  | stmts (body : List Stmt)
  | block (body : List Stmt)
  | whileLoop (test : Option Expr) (body : List Stmt)
  | doLoop (body : List Stmt) (test : Expr) (untilTrue : Bool)
  | forLoop (item : String) (counter : Option String) (items : Items) (index : Nat)
      (body : List Stmt)

/-- A way to get jobs done. -/
abbrev Run := Job → Eval Value

/-- Runs; a fault that has no place yet arose here. -/
def placed {α : Type} (pos : Place) (x : Eval α) : Eval α := do
  match ← attempt x with
  | .ok a => return a
  | .error (.fault f) => throw (.fault (f.placed pos))
  | .error h => throw h

/-! ## Script functions -/

/-- How a function was reached: by its name alone, as one that a function value knows, or by way of
a library, with the text that the path to it begins with. -/
inductive Reached where
  | byName
  | byValue
  | inLibrary (home : Module) (source : Option String)

/-- The frame of a function that is called from another. A function of a library sees what the
library sees. -/
def Frame.forCall (outer : Frame) (f : FnDef) (args : List Value) (this : Option Held)
    (reached : Reached) : Frame :=
  let inner : Frame :=
    { outer with
      vars := ((f.params.zip args).map fun (name, value) =>
        ({ name, held := { value } } : Var)).reverse
      this := this
      depth := outer.depth + 1
      level := 1 }
  match reached with
  | .byName => { inner with source := none }
  | .byValue => inner
  | .inLibrary m source =>
    { inner with
      functions := m.functions :: outer.functions
      imports := m.imports ++ outer.imports
      source := source
      constants := some m.constants }

/-- Calls a function. A fault leaves it with its name, unless it leaves functions without a trace;
it then arose at the call. What the function did to `this` stays. -/
def callFunction (run : Run) (f : FnDef) (args : List Value) (this : Option Held)
    (reached : Reached) (pos : Place) : Eval Upshot := do
  let outer := (← get).frame
  if maxDepth ≤ outer.depth then raise .stackOverflow pos
  modifyFrame fun frame => frame.forCall f args this reached
  let outcome ← attempt (run (.stmts f.body))
  let inner := (← get).frame
  modifyFrame fun _ => outer
  let changed := inner.this.map (·.value)
  match outcome with
  | .ok v | .error (.ret v) => return ⟨.ok (← flatten v), changed⟩
  | .error (.fault fault) =>
    let traced := if fault.untraced then fault.movedTo pos
      else .inCall fault f.name inner.source pos
    return ⟨.error (.fault traced), changed⟩
  | .error h => return ⟨.error h, changed⟩

/-- Refuses an argument that stands for something that is being worked on. -/
def ensureFree (name : String) (args : List Value) (pos : Place) : Eval Unit := do
  let locked := (← get).frame.locked
  match args.findIdx? (·.touches locked) with
  | some i =>
    raise (.dataRace ("argument #" ++ toString (i + 1) ++ " of function '" ++ name ++ "'")) pos
  | none => return ()

/-! ## Built-in functions -/

/-- Calls what is not a script function, if it exists. -/
def callNative (stage : Stage) (name : String) (args : List Value) : Option (Eval Upshot) :=
  let effect := fun (x : Eval Value) => do return ({ outcome := .ok (← x) } : Upshot)
  match outputFunction stage name args with
  | some x => some (effect x)
  | none =>
    match hostFunction name args with
    | some x => some (effect x)
    | none =>
      (native name args).map fun r => do
        let y ← orRaise r none
        return ⟨.ok y.result, y.changed⟩

/-- Calls a function that is found by its name and the types of its arguments. It cannot change a
`constant` first argument. -/
def callByType (stage : Stage) (name : String) (constant : Bool) (args : List Value)
    (pos : Place) : Eval Upshot := do
  match callNative stage name args with
  | none => raise (.functionNotFound (signature name args)) pos
  | some x =>
    let upshot ← placed pos x
    if constant && upshot.changed.isSome then raise (.mutatingConstant name) pos
    return upshot

/-! ## Calls by name and of function values -/

/-- The object that a function is called on, in front of its arguments. -/
def withObject (object : Option Held) (args : List Value) : List Value :=
  match object with
  | some held => held.value :: args
  | none => args

/-- Calls a function by its name, on an object or on none: a script function has the object for its
`this`, any other takes it for its first argument. -/
def callByName (stage : Stage) (run : Run) (name : String) (object : Option Held)
    (args : List Value) (pos : Place) : Eval Upshot := do
  ensureFree name args pos
  match ← function? name args.length with
  | some f => callFunction run f args object .byName pos
  | none =>
    let flat ← args.mapM flatten
    callByType stage name ((object.map (·.isConstant)).getD false) (withObject object flat) pos

/-- Calls a function value, on an object or on none, with all its arguments. -/
def callValue (stage : Stage) (run : Run) (name : String) (function : Option FnDef)
    (object : Option Held) (args : List Value) (pos : Place) : Eval Upshot := do
  match function.filter (·.params.length == args.length) with
  | some f => callFunction run f args object .byValue pos
  | none => callByName stage run name object args pos

/-! ## Functions of many items -/

/-- What a function value is offered for an item: `given` arguments, with the item as `this`, or
among them at `place`, or so and with `extra` ones behind them. -/
structure Offer where
  item : Value
  given : List Value
  place : Nat
  extra : List Value

/-- The arguments of an offer with the item among them. -/
def Offer.taken (o : Offer) : List Value := o.given.take o.place ++ o.item :: o.given.drop o.place

/-- The ways to make an offer, in the order in which they are tried. -/
def Offer.ways (o : Offer) : List (Option Held × List Value) :=
  [(some { value := o.item }, o.given), (none, o.taken), (none, o.taken ++ o.extra)]

/-- The function is missing for these arguments, rather than that anything went wrong in it. -/
def isMissing (name : String) : Halt → Bool
  | .fault (.raised (.functionNotFound signature) _) => signature.startsWith name
  | _ => false

/-- Calls a function by its name in the first way for which it is there. -/
def callInSomeWay (stage : Stage) (run : Run) (name : String) (curried : List Value) (pos : Place) :
    List (Option Held × List Value) → Eval Value
  | [] => return .unit
  | (this, args) :: rest => do
    let call := do valueOf (← callByName stage run name this (curried ++ args) pos)
    match ← attempt call with
    | .ok v => return v
    | .error h =>
      if isMissing name h && !rest.isEmpty then callInSomeWay stage run name curried pos rest
      else throw h

/-- What a function value makes of an offer: a function that it knows takes it in the way that fits
its parameters. -/
def acceptOffer (stage : Stage) (run : Run) (name : String) (curried : List Value)
    (function : Option FnDef) (offer : Offer) (pos : Place) : Eval Value := do
  let fits := fun (f : FnDef) =>
    offer.ways.find? fun (_, args) => f.params.length == curried.length + args.length
  match function.bind fun f => (fits f).map fun way => (f, way) with
  | some (f, this, args) =>
    valueOf (← callFunction run f (curried ++ args) this .byValue pos)
  | none => deeper (callInSomeWay stage run name curried pos offer.ways)

/-- Calls a function value from the built-in function `map`. Whatever halts it leaves `map` as a
fault. -/
def mapOffer (stage : Stage) (run : Run) (name : String) (curried : List Value)
    (function : Option FnDef) (pos : Place) (offer : Offer) : Eval Value := do
  let leave := fun (f : Fault) => throw (.fault (.inCall f "map" none pos))
  match ← attempt (deeper (acceptOffer stage run name curried function offer pos)) with
  | .ok v => return v
  | .error (.fault f) => leave f
  | .error (.exit v) => leave (.raised (.exited v) none)
  | .error h => throw h

/-- The built-in function `map`: on an array the function value is offered the items, and their
places; on an object the keys, and their values. -/
def mapFunction (stage : Stage) (run : Run) (args : List Value) (pos : Place) :
    Option (Eval Value) :=
  match args with
  | [.array items, .fn f curried function] => some do
    let offers := items.zipIdx.map fun (v, i) => ⟨v, [], 0, [countValue i]⟩
    return .array (← offers.mapM (mapOffer stage run f curried function pos))
  | [.array items, .str f] => some do
    orRaise (checkName f) pos
    let offers := items.zipIdx.map fun (v, i) => ⟨v, [], 0, [countValue i]⟩
    return .array (← offers.mapM (mapOffer stage run f [] none pos))
  | [.object fields, .fn f curried function] => some do
    let results ← fields.mapM fun (k, v) => do
      return (k, ← mapOffer stage run f curried function pos ⟨v, [.str k], 1, []⟩)
    return .object results
  | _ => none

/-- Calls what is not a script function. -/
def callBuiltIn (stage : Stage) (run : Run) (name : String) (constant : Bool) (args : List Value)
    (pos : Place) : Eval Upshot := do
  match if name == "map" then mapFunction stage run args pos else none with
  | some x => return { outcome := .ok (← x) }
  | none => callByType stage name constant args pos

/-- Calls a function as a method of a value: a script function with the value as `this`, another one
with the value as its first argument. -/
def callPlain (stage : Stage) (run : Run) (object : Held) (name : String) (args : List Value)
    (pos : Place) : Eval Upshot := do
  ensureFree name args pos
  match ← function? name args.length with
  | some f => callFunction run f args (some object) .byName pos
  | none => callBuiltIn stage run name object.isConstant (object.value :: args) pos

/-- Calls a method of a value: what function values can do, the function value in a field of an
object, or else a function. -/
def callMethod (stage : Stage) (run : Run) (object : Held) (name : String) (args : List Value)
    (pos : Place) : Eval Upshot :=
  match object.value, name, args with
  | .fn f curried function, "call", args => do
    ensureFree f (curried ++ args) pos
    let upshot ← callValue stage run f function none (curried ++ args) pos
    return { upshot with changed := none }
  | .fn f curried function, "curry", args =>
    return { outcome := .ok (.fn f (curried ++ args) function) }
  | _, "call", .fn f curried function :: args => do
    ensureFree f (curried ++ args) pos
    callValue stage run f function (some object) (curried ++ args) pos
  | v, "call", args => raise (.wrongType (args.headD v).typeName "Fn") pos
  | v, "curry", _ => raise (.wrongType v.typeName "Fn") pos
  | .object fields, name, args =>
    match Entries.get? name fields with
    | some (.fn f curried function) =>
      callValue stage run f function (some object) (curried ++ args) pos
    | _ => callPlain stage run object name args pos
  | _, _, _ => callPlain stage run object name args pos

/-- Makes a function value of a name. -/
def namedFunction (v : Value) (pos : Place) : Eval Value :=
  match v with
  | .str name => do
    orRaise (checkName name) pos
    return .fn name [] none
  | .fn name curried f => return .fn name curried f
  | v => raise (.wrongType v.typeName "string") pos

/-- The built-in functions that belong to the language: on function values. -/
def languageCall (stage : Stage) (run : Run) (name : String) (args : List Value) (pos : Place) :
    Option (Eval Value) :=
  match name, args with
  | "Fn", [v] => some (namedFunction v pos)
  | "call", .fn f curried function :: rest => some do
    ensureFree f (curried ++ rest) pos
    valueOf (← callValue stage run f function none (curried ++ rest) pos)
  | "call", v :: _ => some (raise (.wrongType v.typeName "Fn") pos)
  | "curry", .fn f curried function :: arg :: rest =>
    some (return .fn f (curried ++ arg :: rest) function)
  | "curry", v :: _ :: _ => some (raise (.wrongType v.typeName "Fn") pos)
  | _, _ => none

end Stagehand.Lang
