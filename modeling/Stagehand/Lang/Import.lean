import Stagehand.Lang.Job
import Stagehand.Lang.Parser
import Stagehand.Lang.Prune

/-!
# Imports

An import names a library by text. Libraries that a script keeps are found by that very text;
any other is looked up in the index, and evaluated for this instance unless it already was since its
file last changed. A library is evaluated in a frame of its own; what it exports, its functions and
what it imported itself make the module.
-/

namespace Stagehand.Lang

open Eval

/-- The variables that a library exports, under their names outside; of two with one name the later
counts. A variable that is shared stays so. -/
def exportedVars (vars : List Var) : List (String × Value) :=
  vars.foldl (fun done v =>
    v.aliases.foldl (fun m name => Entries.put name v.held.value m) done) []

/-- The module of a library whose top level has ended in this frame. -/
def moduleOf (script : Script) (frame : Frame) : Module :=
  .mk none (exportedVars frame.vars.reverse) script.functions (frame.constants.getD [])
    frame.imports

/-- A library's own closures are found by their names alone, where the library is in reach. -/
def Script.unlinked (script : Script) : Script :=
  { script with functions := script.functions.map fun f => { f with linked := false } }

/-- Evaluates a library in a frame of its own. -/
def evaluateLibrary (run : Run) (script : Script) : Eval Module := do
  let outer := (← get).frame
  modifyFrame fun _ => { functions := [script.functions], constants := some [] }
  let outcome ← attempt (run (.stmts script.body))
  let inner := (← get).frame
  modifyFrame fun _ => outer
  match outcome with
  | .ok _ | .error (.ret _) | .error (.exit _) => return moduleOf script inner
  | .error h => throw h

/-- Runs the part of an import that can go wrong; a fault leaves it with the text of the import. -/
def inModule {α : Type} (text : String) (pos : Place) (x : Eval α) : Eval α := do
  match ← attempt x with
  | .ok a => return a
  | .error (.fault f) => throw (.fault (.inModule f text pos))
  | .error h => throw h

/-- Reads and evaluates a library. -/
def readLibrary (run : Run) (file : FilePath) : Eval Module := do
  match (← get).world.files.readText file with
  | .error e => reject ("reading " ++ file.text ++ ": " ++ e.message)
  | .ok source =>
    match Script.parse source with
    | .error e => raise (.parsing e) (some e.pos)
    | .ok script => evaluateLibrary run (script.prune []).unlinked

/-- The library in a file that was last changed at a time: as it was evaluated for this instance, if
that was at the same time of the file. The file itself is read only now, and may have changed since
it was asked for its time. -/
def fetchLibrary (stage : Stage) (run : Run) (file : FilePath) (modified : Option Instant)
    (text : String) (pos : Place) : Eval Module := do
  match ((← get).realm.modules.find? (·.1 == file)).map (·.2) with
  | some cached =>
    if cached.modified = modified then return cached.module
  | none => pure ()
  let module ← inModule text pos (readLibrary run file)
  modifyWorld (World.record · (Level.debug.report "library module loaded"
    [("library", text), ("file", file.text), ("owner", toString stage.owner.id)]))
  modify fun m => { m with realm := { m.realm with
    modules := (file, ⟨modified, module⟩) :: m.realm.modules.filter (·.1 != file) } }
  return module

/-- The library in a file. -/
def loadLibrary (stage : Stage) (run : Run) (file : FilePath) (text : String) (pos : Place) :
    Eval Module := do
  fetchLibrary stage run file ((← get).world.files.modified? file) text pos

/-- The library that the text of an import names. -/
def resolveLibrary (stage : Stage) (run : Run) (text : String) (pos : Place) : Eval Module :=
  match stage.libraries.path? text with
  | some file => loadLibrary stage run file text pos
  | none => raise (.moduleNotFound text) pos

/-- The library for an import: the one that is kept under this text, or the one the index names. -/
def importLibrary (stage : Stage) (run : Run) (text : String) (pos : Place) : Eval Module := do
  match Module.find? text (← get).frame.kept with
  | some m => return m
  | none => resolveLibrary stage run text pos

end Stagehand.Lang
