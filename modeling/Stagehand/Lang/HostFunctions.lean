import Stagehand.Lang.Machine
import Stagehand.Lang.Natives
import Stagehand.Marshal

/-!
# What scripts can ask of the host

The functions on references. Each is found by its name and the types of its arguments, like any
other function; a refusal by the host is thrown as a message.
-/

namespace Stagehand.Lang

open Eval

/-- A number, whole or not. -/
def numberOf (v : Value) : Eval Float :=
  match v with
  | .int n => return floatOfInt n
  | .float x => return x
  | v => reject ("expected a number, found '" ++ v.typePath ++ "'")

/-- The value of the host for a value of a script. -/
def marshal (v : Value) : Eval HostValue := do
  match HostValue.ofScript (← get).realm.heap v with
  | .ok v => return v
  | .error e => reject e.message

/-- The entries of the host for the fields of an object. -/
def marshalFields (fields : List (String × Value)) : Eval (List (String × HostValue)) := do
  match ← marshal (.object fields) with
  | .map entries => return entries
  | _ => return []

/-- Asks the host for an image. -/
def imageAt (path : String) : Eval Value := do
  match ← askWorld (World.loadImage · path) with
  | .ok id => return .handle (.image id)
  | .error e => reject e.message

/-- Asks the host for a number in a range. -/
def randomIn (low high : Value) : Eval Value := do
  let low ← numberOf low
  let high ← numberOf high
  match ← askWorld (World.random · low high) with
  | .ok x => return .float x
  | .error e => reject e.message

/-- Draws an image onto another. -/
def drawOnto (target source : ImageId) (x y : Value) : Eval Value := do
  let x ← numberOf x
  let y ← numberOf y
  modifyWorld (World.drawImage · target source x y)
  return .unit

/-- Changes the world; the result is the unit. -/
def act (f : World → World) : Eval Value := do
  modifyWorld f
  return .unit

/-- The state of the host, as a value. -/
def askHost (f : HostState → Value) : Eval Value := return f (← get).world.host

/-- Functions on the host. -/
def onHost (name : String) (args : List Value) : Option (Eval Value) :=
  match name, args with
  | "Frame", [] => some (askHost fun h => countValue h.frame)
  | "Add", [.str s] => some (act (World.requestAdd · s))
  | "Screen", [] => some (askHost fun h => .handle (.image h.screen))
  | "ScreenWidth", [] => some (askHost fun h => countValue h.width)
  | "ScreenHeight", [] => some (askHost fun h => countValue h.height)
  | "LoadImage", [.str path] => some (imageAt path)
  | "Log", [.str s] => some (act (World.record · ⟨.info, s, [], some "script"⟩))
  | "Rand", [low, high] => some (randomIn low high)
  | _, _ => none

/-- Functions on a store. -/
def onData (id : StoreId) (name : String) (args : List Value) : Option (Eval Value) :=
  match name, args with
  | "Get", [.str key] => some do
    match ((← get).world.store id).get? key with
    | some v => return v.toScript
    | none => return .unit
  | "Set", [.str key, v] => some do
    let v ← marshal v
    act (World.modifyStore · id fun d => d.set key v)
  | "SetAll", [.object fields] => some do
    let entries ← marshalFields fields
    act (World.modifyStore · id fun d => d.setAll entries)
  | "Keys", [] => some do
    return .array (((← get).world.store id).keys.map .str)
  | _, _ => none

/-- Functions on a script. -/
def onScript (handle : ScriptHandle) (name : String) (args : List Value) : Option (Eval Value) :=
  match name, args with
  | "Remove", [] => some (act (World.requestRemoval · handle.id))
  | "Name", [] => some (return .str handle.name)
  | _, _ => none

/-- Functions on an image. -/
def onImage (id : ImageId) (name : String) (args : List Value) : Option (Eval Value) :=
  match name, args with
  | "Width", [] => some do return countValue ((← get).world.imageSize id).1
  | "Height", [] => some do return countValue ((← get).world.imageSize id).2
  | "Draw", [.handle (.image source), x, y] => some (drawOnto id source x y)
  | _, _ => none

/-- What a script prints goes to the log under its name. -/
def printed (stage : Stage) (level : Level) (text : String) : Eval Value :=
  act (World.record · (level.report text [("script", stage.owner.name)]))

/-- The function of the host for a name and arguments, if there is one. -/
def hostFunction (name : String) (args : List Value) : Option (Eval Value) :=
  match args with
  | .handle (.host _) :: rest => onHost name rest
  | .handle (.data id) :: rest => onData id name rest
  | .handle (.script h) :: rest => onScript h name rest
  | .handle (.image id) :: rest => onImage id name rest
  | _ => none

/-- Reads the clock. -/
def readClock : Eval Value := return .timestamp (← askWorld World.tick)

/-- The functions that speak to the log, read the clock, or end the run. -/
def outputFunction (stage : Stage) (name : String) (args : List Value) : Option (Eval Value) :=
  match name, args with
  | "print", [] => some (printed stage .info "")
  | "print", [v] => some (printed stage .info v.text)
  | "debug", [] => some (printed stage .debug "")
  | "debug", [v] => some (printed stage .debug v.debugText)
  | "timestamp", [] => some readClock
  | "exit", [] => some (throw (.exit .unit))
  | "exit", [v] => some (throw (.exit v))
  | _, _ => none

end Stagehand.Lang
