import Stagehand.App
import Stagehand.Pace

/-!
# The outer layer of the program

The program runs on a tree of files; this layer reads the tree from the working directory before
each frame, prints what was reported, waits out what is left of a frame, and writes the snapshot.
It decides nothing itself. What lies outside the working directory is not seen.
-/

namespace Stagehand.Outer

/-- The steps that a script may take in one run. -/
def budget : Nat := 1000000000000

/-- How deep directories are read; links can make a directory lie inside itself. -/
def maxDepth : Nat := 32

/-- A point in time as the system gives it. -/
def instantOf (t : IO.FS.SystemTime) : Instant := t.sec * 1000000000 + t.nsec.toNat

/-- The node of a directory entry, and the latest change in it; nothing, if it cannot be read. -/
def readNode : Nat → IO.FS.DirEntry → IO (Option (Node × Instant))
  | 0, _ => return none
  | depth + 1, e => do
    try
      let metadata ← e.path.metadata
      let modified := instantOf metadata.modified
      if metadata.type == .dir then
        let found ← (← e.path.readDir).toList.filterMapM fun child => do
          return (← readNode depth child).map fun (n, latest) => ((child.fileName, n), latest)
        return some (.dir (found.map (·.1)), found.foldl (fun t (_, u) => max t u) 0)
      else return some (.file (← IO.FS.readBinFile e.path) modified, modified)
    catch _ => return none

/-- The world with the files as they are now. Its clock goes on past every change, so that what was
changed before is older than what is loaded from here on. -/
def refresh (w : World) : IO World := do
  match ← readNode maxDepth { root := ".", fileName := "." } with
  | some (root, latest) => return { w with files := { root }, clock := max w.clock (latest + 1) }
  | none => return w

/-- Prints what was reported, and clears it. -/
def printLog (w : World) : IO World := do
  for r in w.log do
    if r.isPublic then IO.println r.line
  return { w with log := #[] }

/-- Writes the snapshot, if the run made one. -/
def writeFile (path : Option FilePath) (before after : FileTree) : IO Unit := do
  match path with
  | none => return ()
  | some p =>
    match after.read p, before.read p with
    | .ok bytes, .ok old => if bytes != old then IO.FS.writeBinFile p.text bytes
    | .ok bytes, .error _ => IO.FS.writeBinFile p.text bytes
    | .error _, _ => return ()

/-- Runs to the end. -/
partial def loop (c : CommandLine) (pace : Pace) (progress : App.Progress) :
    IO (Except App.Failure Unit × World) := do
  match progress with
  | .ended result w => return (result, w)
  | .going r =>
    let pace := pace.tick (← IO.monoNanosNow)
    let world ← refresh r.registry.world
    match ({ r with registry := { r.registry with world } } : App.Run).step budget with
    | none => throw (IO.userError "a script does not end")
    | some (.ended result w) =>
      writeFile c.snapshot world.files w.files
      return (result, w)
    | some (.going r) =>
      let world ← printLog r.registry.world
      IO.sleep (UInt32.ofNat (pace.remaining (← IO.monoNanosNow) / 1000000))
      loop c pace (.going { r with registry := { r.registry with world } })

/-- The frames per second that a run is configured for. -/
def frameRate (c : CommandLine) (files : FileTree) : Nat :=
  match (App.loadConfig c files).1 with
  | .ok config => config.frameRate
  | .error _ => 0

/-- The program, from its arguments on. -/
def start (args : List String) : IO App.Ending := do
  match CommandLine.parse args with
  | .error e => return App.refusal e
  | .ok c =>
    let w ← refresh { (default : World) with clock := 1 }
    match App.launch budget c w with
    | none => throw (IO.userError "a script does not end")
    | some progress =>
      let pace := Pace.starting (frameRate c w.files) (← IO.monoNanosNow)
      let (result, w) ← loop c pace progress
      let (ending, w) := App.ending result w
      let _ ← printLog w
      return ending

end Stagehand.Outer

/-- Runs the program; its exit code says how it ended. -/
def main (args : List String) : IO UInt32 := do
  let ending ← Stagehand.Outer.start ("stagehand" :: args)
  IO.eprint ending.stderr
  return UInt32.ofNat ending.code.toNat
