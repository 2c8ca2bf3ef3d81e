import Stagehand.Config
import Stagehand.Watch

/-!
# The registry of scripts

The registry holds all instances, in the order in which they were added, and drives them. Every pass
visits the instances one after the other; scripts that are asked for on the way are added at the
end of the list before the next visit, so that the same pass gets to them. Removals are put off to
the end of a draw pass, behind the scan for changed sources.
-/

namespace Stagehand

/-- All instances of a host, and the world that they share. -/
structure Registry where
  scripts : ScriptConfig
  libraries : Libraries
  world : World
  instances : List Instance := []
  nextId : InstanceId := 1
  /-- How long the last update took. -/
  updateCost : Int := 0

namespace Registry

/-- The host of a configuration, without instances. -/
def start (c : HostConfig) (w : World) : Registry :=
  let (libraries, reports) := Libraries.index w.files c.scripts.librariesDir Lang.builtinNames
  let w := World.HostState.start c.window.width c.window.height c.assets.dir (w.recordAll reports)
  { scripts := c.scripts, libraries, world := w }

/-- The first instance of a name. -/
def find? (r : Registry) (name : String) : Option Instance := r.instances.find? (·.name == name)

/-- A registry with a new instance that was not loaded yet, and the instance. -/
def create (r : Registry) (name : String) : Instance × Registry :=
  let (data, world) := r.world.addStore
  ({ handle := ⟨r.nextId, name⟩, source := r.scripts.sourcePath name, data },
    { r with world, nextId := r.nextId + 1 })

/-- Adds an instance and loads it. -/
def add (budget : Nat) (r : Registry) (name : String) : Option (InstanceId × Registry) := do
  let (i, r) := r.create name
  let (_, i, world) ← i.reload budget r.libraries r.world
  return (i.id, { r with world, instances := r.instances ++ [i] })

/-- Adds instances one after the other. -/
def addAll (budget : Nat) (r : Registry) : List String → Option Registry
  | [] => some r
  | name :: rest => do
    let (_, r) ← r.add budget name
    r.addAll budget rest

/-- Adds the instances that are there from the start. -/
def addStartup (budget : Nat) (r : Registry) : Option Registry :=
  r.addAll budget r.scripts.startup

/-- Adds what scripts asked for. -/
def applyAdds (budget : Nat) (r : Registry) : Option Registry :=
  let (names, world) := r.world.takeAdds
  { r with world }.addAll budget names

/-- Asks for the removal of an instance. -/
def remove (r : Registry) (id : InstanceId) : Registry :=
  { r with world := r.world.requestRemoval id }

/-- Takes out the instances whose removal was asked for. -/
def applyRemovals (r : Registry) : Registry :=
  let (gone, world) := r.world.takeRemovals
  if gone.isEmpty then { r with world }
  else
    let left := r.instances.filter fun i => !gone.contains i.id
    let world := (gone.foldl World.forget world).record (Level.debug.report "applied removals"
      [("removed", toString gone.length), ("remaining", toString left.length)])
    { r with world, instances := left }

/-- Takes out all instances, forgets all requests, and starts anew; numbers are not used again. -/
def reset (budget : Nat) (r : Registry) : Option Registry :=
  let world := r.instances.foldl (fun w i => w.forget i.id) r.world
  { r with world := world.takeRemovals.2.takeAdds.2, instances := [] }.addStartup budget

/-- Loads the instances of a name again. -/
def reloadIn (budget : Nat) (libraries : Libraries) (name : String) :
    List Instance → World → Option (List (Except ReloadError Unit) × List Instance × World)
  | [], w => some ([], [], w)
  | i :: rest, w => do
    if i.name == name then
      let (r, i, w) ← i.reload budget libraries w
      let (rs, rest, w) ← reloadIn budget libraries name rest w
      return (r :: rs, i :: rest, w)
    else
      let (rs, rest, w) ← reloadIn budget libraries name rest w
      return (rs, i :: rest, w)

/-- Loads the instances of a name again. -/
def reload (budget : Nat) (r : Registry) (name : String) :
    Option (List (Except ReloadError Unit) × Registry) := do
  let (results, instances, world) ← reloadIn budget r.libraries name r.instances r.world
  return (results, { r with instances, world })

/-! ## Passes -/

/-- What is done with an instance on a visit. -/
abbrev Visit (α : Type) := Instance → World → Option (α × Instance × World)

/-- Visits the instance at a place of the list, then adds what was asked for. -/
def visitAt {α : Type} (budget : Nat) (visit : Visit α) (r : Registry) (index : Nat)
    (i : Instance) : Option (α × Registry) := do
  let (a, i, world) ← visit i r.world
  let r ← { r with world, instances := r.instances.set index i }.applyAdds budget
  return (a, r)

/-- Visits all instances from a place on, those included that join on the way. -/
def passFrom {α : Type} (budget : Nat) (visit : Visit α) :
    Nat → Nat → Registry → Option (List α × Registry)
  | 0, _, _ => none
  | left + 1, index, r =>
    match r.instances[index]? with
    | none => some ([], r)
    | some i => do
      let (a, r) ← r.visitAt budget visit index i
      let (as, r) ← passFrom budget visit left (index + 1) r
      return (a :: as, r)

/-- Visits all instances. -/
def pass {α : Type} (budget : Nat) (visit : Visit α) (r : Registry) : Option (List α × Registry) :=
  passFrom budget visit budget 0 r

/-- An update of an instance: its first one begins with `OnInit`. -/
def updateVisit (budget : Nat) (libraries : Libraries) : Visit (Option Outcome × Outcome) :=
  fun i w => do
    let (first, i, w) ←
      if !i.initialized && i.state == .ready then do
        let (o, i, w) ← i.dispatch budget libraries .onInit [] w
        pure (some o, i.markInitialized, w)
      else pure (none, i, w)
    let (o, i, w) ← i.dispatch budget libraries .onUpdate [] w
    return ((first, o), i, w)

/-- Updates all instances and counts the frame. -/
def update (budget : Nat) (r : Registry) : Option Registry := do
  let (started, world) := r.world.tick
  let (_, r) ← { r with world }.pass budget (updateVisit budget r.libraries)
  let (ended, world) := (r.world.modifyHost fun h => { h with frame := h.frame + 1 }).tick
  let world := world.record (Level.debug.report "update pass"
    [("scripts", toString r.instances.length)])
  return { r with world, updateCost := ended - started }

/-- Draws an instance. -/
def drawVisit (budget : Nat) (libraries : Libraries) : Visit Outcome :=
  fun i w => i.dispatch budget libraries .onDraw [] w

/-- Draws all instances on a surface, reloads what changed, and takes out what is to go. -/
def draw (budget : Nat) (surface : ImageId) (r : Registry) :
    Option (Except ScanError Unit × Registry) := do
  let world := r.world.modifyHost fun h => { h with screen := surface }
  let (_, r) ← { r with world }.pass budget (drawVisit budget r.libraries)
  let (result, instances, world) ← scan budget r.libraries r.scripts.dir r.instances r.world
  return (result.map fun _ => (), { r with instances, world }.applyRemovals)

/-- Delivers a message to an instance of the name; yields whether it was handled. -/
def messageVisit (budget : Nat) (libraries : Libraries) (name : String) (payload : HostValue) :
    Visit Bool :=
  fun i w =>
    if i.name == name then do
      let (o, i, w) ← i.dispatch budget libraries .onMessage [payload] w
      return (o.isCompleted, i, w)
    else some (false, i, w)

/-- Delivers a message to all instances of a name; yields how many handled it. -/
def sendMessage (budget : Nat) (r : Registry) (name : String) (payload : HostValue) :
    Option (Nat × Registry) := do
  let (handled, r) ← r.pass budget (messageVisit budget r.libraries name payload)
  return (handled.count true, r)

end Registry
end Stagehand
