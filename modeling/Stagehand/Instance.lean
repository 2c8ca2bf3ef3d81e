import Stagehand.Lang.Eval

/-!
# Script instances

An instance is a script file under a name, with a store and a reference of its own. A reload reads
the file, checks it, resolves its imports and runs its top level; only if all four steps succeed
does what they made, the binding, take the place of the one before. A failed reload leaves the
instance as it was but for its last error, except that an instance that never had a binding is
faulted. Entry points run on the binding, and a failure in one of them stops the instance.
-/

namespace Stagehand

open Lang

/-- The functions of a script that the host calls. -/
inductive EntryPoint where
  | onInit
  | onUpdate
  | onDraw
  | onMessage
  deriving DecidableEq, Repr, Inhabited

namespace EntryPoint

/-- The name that a script gives the function. -/
def name : EntryPoint → String
  | .onInit => "OnInit"
  | .onUpdate => "OnUpdate"
  | .onDraw => "OnDraw"
  | .onMessage => "OnMessage"

/-- All of them, in the order in which they are listed. -/
def all : List EntryPoint := [.onInit, .onUpdate, .onDraw, .onMessage]

end EntryPoint

/-- What is called for an entry point. -/
inductive Callable where
  /-- The function of that name. -/
  | function
  /-- The function value that the top level left in the variable of that name. -/
  | value (name : String) (curried : List Value) (function : Option FnDef)

/-- A script that was loaded: its functions, the variables of its top level, the libraries that it
keeps, and its entry points. -/
structure Binding where
  functions : List FnDef
  vars : List Var
  kept : List (String × Module)
  entries : List (EntryPoint × Callable)
  generation : Nat

/-- Where an instance stands. -/
inductive InstanceState where
  | loading
  | ready
  | faulted
  deriving DecidableEq, Repr, Inhabited

/-- The name of a state. -/
def InstanceState.name : InstanceState → String
  | .loading => "Loading"
  | .ready => "Ready"
  | .faulted => "Faulted"

/-- A step of a reload failed. -/
inductive ReloadError where
  | read (path : FilePath) (cause : FileError)
  | parse (script : String) (cause : SyntaxError)
  | compile (script : String) (cause : Fault)
  | run (script : String) (cause : Fault)

namespace ReloadError

/-- The name of the step. -/
def step : ReloadError → String
  | .read _ _ => "read"
  | .parse _ _ => "parse"
  | .compile _ _ => "compile"
  | .run _ _ => "run"

/-- The wording of the failure. -/
def message : ReloadError → String
  | .read path cause => "failed to read " ++ path.text ++ ": " ++ cause.message
  | .parse script cause => "syntax error in " ++ script ++ ": " ++ cause.message
  | .compile script cause => "compile error in " ++ script ++ ": " ++ cause.message
  | .run script cause => "top-level run of " ++ script ++ " failed: " ++ cause.message

end ReloadError

/-- An entry point failed. -/
structure DispatchError where
  script : String
  entry : EntryPoint
  message : String

/-- The wording of the failure. -/
def DispatchError.text (e : DispatchError) : String :=
  e.script ++ ": " ++ e.entry.name ++ " failed: " ++ e.message

/-- What is reported of the failure. -/
def DispatchError.report (e : DispatchError) : LogRecord :=
  Level.error.report (e.message ++ "; script stopped")
    [("script", e.script), ("entry", e.entry.name)]

/-- What came of asking an instance to run an entry point. -/
inductive Outcome where
  /-- The instance is stopped or not ready, or it has no such entry point. -/
  | skipped
  | completed (v : Value)
  | failed (e : DispatchError)

namespace Outcome

/-- The entry point ran to its end. -/
def isCompleted : Outcome → Bool
  | .completed _ => true
  | _ => false

/-- The entry point failed. -/
def isFailed : Outcome → Bool
  | .failed _ => true
  | _ => false

/-- The failure, if there is one. -/
def error? : Outcome → Option DispatchError
  | .failed e => some e
  | _ => none

end Outcome

/-- What is shown of how an instance stands. -/
structure Snapshot where
  state : InstanceState
  running : Bool
  initialized : Bool
  loadTime : Option Instant
  entryPoints : List EntryPoint
  generation : Option Nat
  deriving DecidableEq, Repr

/-- A script file under a name. -/
structure Instance where
  handle : ScriptHandle
  source : FilePath
  data : StoreId
  state : InstanceState := .loading
  running : Bool := false
  initialized : Bool := false
  loadTime : Option Instant := none
  binding : Option Binding := none
  /-- How often the instance was loaded. -/
  generations : Nat := 0
  lastError : Option String := none

namespace Instance

/-- The number of an instance. -/
def id (i : Instance) : InstanceId := i.handle.id

/-- The name of an instance. -/
def name (i : Instance) : String := i.handle.name

/-- Whose code runs when the instance's does. -/
def stage (i : Instance) (libraries : Libraries) : Stage := ⟨i.handle, i.data, libraries⟩

/-- The entry points of the current binding. -/
def entryPoints (i : Instance) : List EntryPoint :=
  match i.binding with
  | some b => b.entries.map (·.1)
  | none => []

/-- The number of the load that made the current binding. -/
def generation (i : Instance) : Option Nat := i.binding.map (·.generation)

/-- What the current binding calls for an entry point. -/
def callable? (i : Instance) (e : EntryPoint) : Option (Binding × Callable) :=
  i.binding.bind fun b => (b.entries.find? (·.1 == e)).map fun (_, c) => (b, c)

/-- How an instance stands. -/
def snapshot (i : Instance) : Snapshot :=
  ⟨i.state, i.running, i.initialized, i.loadTime, i.entryPoints, i.generation⟩

/-- The dump of an instance. -/
def dump (i : Instance) : String :=
  "ScriptInstance \x7b id: " ++ toString i.id ++ ", name: " ++ Text.quoted i.name ++ ", state: " ++
    i.state.name ++ ", running: " ++ toString i.running ++ ", initialized: " ++
    toString i.initialized ++ " \x7d"

end Instance

/-- Runs in the realm of an instance, from a frame on. -/
def perform {α : Type} (stage : Stage) (x : Eval α) (frame : Frame) (w : World) :
    Option (Except Halt α × Frame × World) := do
  let (r, m) ← x.run ⟨w, w.realm stage.owner.id, frame⟩
  return (r, m.frame, m.world.setRealm stage.owner.id m.realm)

/-- The fault of a run, if it was halted by one; to jump out of a run is to end it. -/
def faultOf {α : Type} : Except Halt α → Option Fault
  | .error (.fault f) => some f
  | _ => none

/-! ## Loading -/

/-- The names of the host as variables, the last the innermost. -/
def hostVars (stage : Stage) : List Var :=
  (builtinNames.filterMap fun name => (stage.builtin? name).map fun c =>
    ({ name, held := .const (.handle c) } : Var)).reverse

/-- Resolves the imports of a script that are certain, one after the other. -/
def keepLibraries (stage : Stage) (run : Run) : List String → Eval (List (String × Module))
  | [] => return []
  | text :: rest => do
    let m ← resolveLibrary stage run text none
    return (text, m.named text) :: (← keepLibraries stage run rest)

/-- What is called for each entry point: a function of its name, or else the function value in the
variable of its name. -/
def findEntries (functions : List FnDef) (vars : List Var) (heap : Heap) :
    List (EntryPoint × Callable) :=
  EntryPoint.all.filterMap fun e =>
    if functions.any (·.name == e.name) then some (e, .function)
    else
      match (vars.find? (·.name == e.name)).map fun v => heap.flatten v.held.value with
      | some (.fn name curried function) => some (e, .value name curried function)
      | _ => none

/-- Reads and checks a script. -/
def readScript (files : FileTree) (source : FilePath) (name : String) :
    Except ReloadError Script :=
  match files.readText source with
  | .error e => .error (.read source e)
  | .ok text =>
    match Script.parse text with
    | .error e => .error (.parse name e)
    | .ok script => .ok (script.prune builtinNames)

/-- Resolves the imports of a script and runs its top level. -/
def bindScript (budget : Nat) (stage : Stage) (script : Script) (w : World) :
    Option (Except ReloadError Binding × World) := do
  let name := stage.owner.name
  let run := evaluate stage budget
  match ← perform stage (keepLibraries stage run script.imports) {} w with
  | (.error h, _, w) =>
    let f := (faultOf (.error h : Except Halt Unit)).getD default
    return (.error (.compile name f), w)
  | (.ok kept, _, w) =>
    let frame : Frame :=
      { vars := hostVars stage, functions := [script.functions], constants := some [], kept }
    let (r, frame, w) ← perform stage (run (.stmts script.body)) frame w
    match faultOf r with
    | some f => return (.error (.run name f), w)
    | none =>
      let entries := findEntries script.functions frame.vars (w.realm stage.owner.id).heap
      return (.ok ⟨script.functions, frame.vars, kept, entries, 0⟩, w)

/-- Makes a binding of the source file. -/
def build (budget : Nat) (stage : Stage) (source : FilePath) (w : World) :
    Option (Except ReloadError Binding × World) :=
  match readScript w.files source stage.owner.name with
  | .error e => some (.error e, w)
  | .ok script => bindScript budget stage script w

namespace Instance

/-- The names of entry points, as they are reported. -/
def entriesText (entries : List (EntryPoint × Callable)) : String :=
  "\x7b" ++ ", ".intercalate (entries.map (·.1.name)) ++ "\x7d"

/-- The instance with a new binding, loaded at a time. -/
def loaded (i : Instance) (b : Binding) (time : Instant) : Instance :=
  { i with
    binding := some { b with generation := i.generations + 1 }
    generations := i.generations + 1
    state := .ready
    loadTime := some time
    running := true
    lastError := none }

/-- The instance after a failed reload. -/
def notLoaded (i : Instance) (e : ReloadError) : Instance :=
  { i with
    state := if i.binding.isSome then .ready else .faulted
    lastError := some e.message }

/-- What is reported of a failed reload: a failure that is just like the last one is no news. -/
def failureReport (i : Instance) (e : ReloadError) : LogRecord :=
  let fields := [("script", i.name), ("step", e.step)]
  if i.lastError = some e.message then Level.debug.report "reload still failing" fields
  else Level.warn.report ("reload aborted: " ++ e.message) fields

/-- What is reported of a successful reload. -/
def successReport (i : Instance) (b : Binding) : LogRecord :=
  Level.info.report "script loaded"
    [("script", i.name), ("entry_points", entriesText b.entries)]

/-- Loads the source file again. -/
def reload (budget : Nat) (libraries : Libraries) (i : Instance) (w : World) :
    Option (Except ReloadError Unit × Instance × World) := do
  match ← build budget (i.stage libraries) i.source w with
  | (.ok b, w) =>
    let (now, w) := (w.record (i.successReport b)).tick
    return (.ok (), i.loaded b now, w)
  | (.error e, w) => return (.error e, i.notLoaded e, w.record (i.failureReport e))

/-! ## Entry points -/

/-- The end of a call: the value, cells replaced, or the fault. -/
def ended (stage : Stage) (w : World) : Except Halt Value → Except Fault Value
  | .ok v | .error (.ret v) | .error (.leave v) | .error (.exit v) =>
    let heap := (w.realm stage.owner.id).heap
    .ok (heap.expand heap.size v)
  | .error .again => .ok .unit
  | .error (.fault f) => .error f

/-- Calls a function on the variables of the top level; what it declares itself is dropped. -/
def callNamed (run : Run) (stage : Stage) (b : Binding) (name : String) (args : List Value)
    (w : World) : Option (Except Fault Value × Binding × World) :=
  match b.functions.find? fun f => f.name == name && f.params.length == args.length with
  | none => some (.error (.raised (.functionNotFound name) none), b, w)
  | some f => do
    let params := ((f.params.zip args).map fun (name, value) =>
      ({ name, held := { value } } : Var)).reverse
    let frame : Frame :=
      { vars := params ++ b.vars, functions := [b.functions], kept := b.kept, level := 1 }
    let (r, frame, w) ← perform stage (run (.stmts f.body)) frame w
    let vars := frame.vars.drop (frame.vars.length - b.vars.length)
    return (ended stage w r, { b with vars }, w)

/-- Calls a function value, which sees what it captured and no more. -/
def callPointer (run : Run) (stage : Stage) (b : Binding) (name : String) (curried : List Value)
    (function : Option FnDef) (args : List Value) (w : World) :
    Option (Except Fault Value × Binding × World) := do
  let call : Eval Value := do
    Eval.valueOf (← callValue stage run name function none (curried ++ args) none)
  let call := if function.isSome then call else Eval.deeper call
  let (r, _, w) ← perform stage call { functions := [b.functions] } w
  return (ended stage w r, b, w)

/-- Calls an entry point, if the instance is ready and has it. -/
def call (budget : Nat) (libraries : Libraries) (i : Instance) (e : EntryPoint)
    (args : List Value) (w : World) : Option (Option (Except Fault Value) × Instance × World) :=
  match i.state, i.callable? e with
  | .ready, some (b, c) => do
    let stage := i.stage libraries
    let run := evaluate stage budget
    let (r, b, w) ← match c with
      | .function => callNamed run stage b e.name args w
      | .value name curried function => callPointer run stage b name curried function args w
    return (some r, { i with binding := some b }, w)
  | _, _ => some (none, i, w)

/-- Runs an entry point of an instance that is not stopped. A failure changes nothing but what the
entry point itself changed. -/
def invoke (budget : Nat) (libraries : Libraries) (i : Instance) (e : EntryPoint)
    (args : List HostValue) (w : World) : Option (Outcome × Instance × World) :=
  if !i.running then some (.skipped, i, w)
  else do
    match ← i.call budget libraries e (args.map HostValue.toScript) w with
    | (none, i, w) => return (.skipped, i, w)
    | (some (.ok v), i, w) => return (.completed v, i, w)
    | (some (.error f), i, w) => return (.failed ⟨i.name, e, f.message⟩, i, w)

/-- The instance, stopped. -/
def stop (i : Instance) : Instance := { i with running := false }

/-- The instance, after its first update. -/
def markInitialized (i : Instance) : Instance := { i with initialized := true }

/-- Runs an entry point; a failure is reported and stops the instance, and nothing else. -/
def dispatch (budget : Nat) (libraries : Libraries) (i : Instance) (e : EntryPoint)
    (args : List HostValue) (w : World) : Option (Outcome × Instance × World) := do
  match ← i.invoke budget libraries e args w with
  | (.failed err, i, w) => return (.failed err, i.stop, w.record err.report)
  | (outcome, i, w) => return (outcome, i, w)

end Instance
end Stagehand
