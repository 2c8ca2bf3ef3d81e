import Stagehand.Lang.Operators
import Stagehand.World

/-!
# The machine that scripts run on

A run takes place for one instance: `Stage` says whose libraries and whose references it sees, and
the machine holds the world, the instance's realm and the frame of the current function. A run can
fail to end within its budget of steps; otherwise it yields a value or is halted, by a fault or by
a jump, and either way the machine goes on from where it was.
-/

namespace Stagehand.Lang

/-- Whose code runs: its number, its name and its store, and the libraries it can import. -/
structure Stage where
  owner : ScriptHandle
  data : StoreId
  libraries : Libraries

/-- The reference that a name of the host stands for. -/
def Stage.builtin? (s : Stage) (name : String) : Option Capability :=
  match name with
  | "Host" => some (.host World.hostId)
  | "Data" => some (.data s.data)
  | "Script" => some (.script s.owner)
  | _ => none

/-- The names of the host. -/
def builtinNames : List String := ["Host", "Data", "Script"]

/-- A variable. Under its aliases it becomes a variable of the module. -/
structure Var where
  name : String
  held : Held
  aliases : List String := []
  deriving Inhabited

/-- What a function in execution sees. -/
structure Frame where
  /-- Variables, the innermost first. -/
  vars : List Var := []
  this : Option Held := none
  /-- Imported libraries, the last first. -/
  imports : List (String × Module) := []
  /-- Functions in reach: of the library in execution, and of what called it. -/
  functions : List (List FnDef) := []
  /-- The text under which the library in execution was imported, if it was kept, where the function
  was reached by way of the library. -/
  source : Option String := none
  /-- Constants of the top level, while it runs. -/
  constants : Option (List (String × Value)) := none
  /-- Libraries that are kept with the script, by the text of their import. -/
  kept : List (String × Module) := []
  /-- Calls inside one another. -/
  depth : Nat := 0
  /-- Blocks inside one another. -/
  level : Nat := 0
  /-- Cells that something is being done to; nothing else may touch them. -/
  locked : List CellId := []
  deriving Inhabited

/-- The state of a run. -/
structure Machine where
  world : World
  realm : Realm
  frame : Frame
  deriving Inhabited

/-- What keeps a run from going on. -/
inductive Halt where
  | fault (f : Fault)
  | leave (v : Value)
  | again
  | ret (v : Value)
  | exit (v : Value)
  deriving Inhabited

/-- A run of a script. -/
abbrev Eval := ExceptT Halt (StateT Machine Option)

/-- The most calls inside one another. -/
def maxDepth : Nat := 8

/-- What came of a call, or of a walk along a chain: a value or what halted it, and what the value
it started at became, if that changed. A halt does not undo the change. -/
structure Upshot where
  outcome : Except Halt Value
  changed : Option Value := none

namespace Eval

/-- Stops with a fault. -/
def raise {α : Type} (cause : Cause) (pos : Place) : Eval α := throw (.fault (.raised cause pos))

/-- Stops with a message of the host. -/
def reject {α : Type} (message : String) : Eval α := raise (.thrown (.str message)) none

/-- The result, or a fault at a place. -/
def orRaise {α : Type} (r : Except Cause α) (pos : Place) : Eval α :=
  match r with
  | .ok a => return a
  | .error cause => raise cause pos

/-- Changes the frame. -/
def modifyFrame (f : Frame → Frame) : Eval Unit := modify fun m => { m with frame := f m.frame }

/-- Changes the world. -/
def modifyWorld (f : World → World) : Eval Unit := modify fun m => { m with world := f m.world }

/-- Asks the world, and leaves it as the answer says. -/
def askWorld {α : Type} (f : World → α × World) : Eval α := do
  let m ← get
  let (a, world) := f m.world
  set { m with world }
  return a

/-- Runs, and hands over what halted the run. -/
def attempt {α : Type} (x : Eval α) : Eval (Except Halt α) := fun m => do
  let (r, m) ← x m
  return (.ok r, m)

/-- The value itself, or what is in the cell that it stands for. -/
def flatten (v : Value) : Eval Value := return (← get).realm.heap.flatten v

/-- Adds a cell. -/
def newCell (held : Held) : Eval CellId := do
  let m ← get
  set { m with realm := { m.realm with heap := m.realm.heap.push held } }
  return m.realm.heap.size

/-- Puts a value into a cell. -/
def setCell (cell : CellId) (v : Value) : Eval Unit :=
  modify fun m => { m with realm := { m.realm with heap := m.realm.heap.modify cell (·.put v) } }

/-- The value of an upshot, or what halted it. -/
def valueOf (u : Upshot) : Eval Value :=
  match u.outcome with
  | .ok v => return v
  | .error h => throw h

/-- Runs one call deeper. -/
def deeper {α : Type} (x : Eval α) : Eval α := do
  let depth := (← get).frame.depth
  modifyFrame fun f => { f with depth := depth + 1 }
  let outcome ← attempt x
  modifyFrame fun f => { f with depth }
  match outcome with
  | .ok a => return a
  | .error h => throw h

/-! ## Variables -/

/-- The variable of a name. -/
def var? (name : String) : Eval (Option Var) :=
  return (← get).frame.vars.find? (·.name == name)

/-- Changes the innermost variable of a name. -/
def alterVar (name : String) (f : Var → Var) : List Var → List Var
  | [] => []
  | v :: rest => if v.name == name then f v :: rest else v :: alterVar name f rest

/-- Brings a variable in sight. -/
def pushVar (v : Var) : Eval Unit := modifyFrame fun f => { f with vars := v :: f.vars }

/-- Brings a variable with a value in sight. -/
def bind (name : String) (v : Value) : Eval Unit := pushVar { name, held := { value := v } }

/-- What a variable holds, or the cell that it shares. -/
def heldBy (v : Var) : Eval Held :=
  match v.held.value with
  | .shared cell => return (← get).realm.heap[cell]?.getD default
  | _ => return v.held

/-- Puts a value into a variable, or into the cell that it shares. -/
def setVar (v : Var) (value : Value) : Eval Unit :=
  match v.held.value with
  | .shared cell => setCell cell value
  | _ => modifyFrame fun f =>
    { f with vars := alterVar v.name (fun v => { v with held := v.held.put value }) f.vars }

/-- The cell of a variable, which is made if the variable is not shared yet. -/
def shareVar (v : Var) : Eval Unit :=
  match v.held.value with
  | .shared _ => return ()
  | _ => do
    let cell ← newCell v.held
    modifyFrame fun f =>
      { f with
        vars := alterVar v.name (fun v => { v with held := { value := .shared cell } }) f.vars }

/-- Something is being done to the cell that the value stands for. -/
def isLocked (v : Value) : Eval Bool := return v.touches (← get).frame.locked

/-- Runs something that is done to a variable: where that is shared, nothing else may touch it. -/
def holding {α : Type} (v : Var) (x : Eval α) : Eval α :=
  match v.held.value with
  | .shared cell => do
    let before := (← get).frame.locked
    modifyFrame fun f => { f with locked := cell :: before }
    let outcome ← attempt x
    modifyFrame fun f => { f with locked := before }
    match outcome with
    | .ok a => return a
    | .error h => throw h
  | _ => x

/-- How many variables and imports there are. -/
structure Mark where
  vars : Nat
  imports : Nat
  level : Nat

/-- Where a block begins. -/
def mark : Eval Mark := do
  let f := (← get).frame
  return ⟨f.vars.length, f.imports.length, f.level⟩

/-- Drops the variables and imports that came since a mark. -/
def rewind (m : Mark) : Eval Unit := modifyFrame fun f =>
  { f with
    vars := f.vars.drop (f.vars.length - m.vars)
    imports := f.imports.drop (f.imports.length - m.imports)
    level := m.level }

/-- Runs; what came in sight on the way is out of sight again behind it, however the run ends. -/
def enclosed {α : Type} (x : Eval α) : Eval α := do
  let mark ← mark
  let outcome ← attempt x
  rewind mark
  match outcome with
  | .ok a => return a
  | .error h => throw h

/-! ## Functions and libraries in reach -/

/-- The function of a name and a number of parameters. -/
def function? (name : String) (arity : Nat) : Eval (Option FnDef) :=
  return (← get).frame.functions.findSome? fun fs =>
    fs.find? fun f => f.name == name && f.params.length == arity

/-- A function of a name, however many parameters it has. -/
def anyFunction? (name : String) : Eval (Option FnDef) :=
  return (← get).frame.functions.findSome? fun fs => fs.find? (·.name == name)

/-- The library at a path of names inside a library. -/
def inner? : List String → Module → Option Module
  | [], m => some m
  | name :: rest, m => (Module.find? name m.imports).bind (inner? rest)

/-- The library at a path, behind the one that the path begins with: that is the import at the place
that the parser counted out, and else the last one of the name. -/
def library? (path : ModulePath) (imports : List (String × Module)) : Option (Module × Module) := do
  let root ← match path.back.bind fun n => imports[n - 1]? with
    | some (_, m) => some m
    | none => path.names.head?.bind (Module.find? · imports)
  return (root, ← inner? path.names.tail root)

/-- The library at a path, which must be there, behind the one that the path begins with. -/
def library (path : ModulePath) : Eval (Module × Module) := do
  match library? path (← get).frame.imports with
  | some ms => return ms
  | none => raise (.moduleNotFound path.text) (some path.pos)

end Eval
end Stagehand.Lang
