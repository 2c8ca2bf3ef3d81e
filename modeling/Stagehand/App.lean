import Stagehand.CommandLine
import Stagehand.ConfigFile
import Stagehand.Registry

/-!
# The program

A run of the program loads the configuration, adds the startup scripts, and then goes through
frames: an update, a clear of the surface, and a draw onto it. If the scripts cannot be scanned for
changes, the run ends there; otherwise it ends after as many frames as were asked for, and the
surface as the last draw left it can be written to a file.
-/

namespace Stagehand.App

/-- Where the configuration is, if nothing else is said. -/
def defaultConfig : FilePath := ⟨"config/host.json"⟩

/-- Why a run ended early. -/
inductive Failure where
  | config (e : ConfigError)
  | scan (e : ScanError)
  | snapshotFile (path : FilePath) (cause : FileError)
  | snapshotImage (path : FilePath) (cause : ImageError)

/-- The failure with what lies behind it. -/
def Failure.chain : Failure → String
  | .config e => e.chain
  | .scan e => "Script change scan failed: " ++ e.chain
  | .snapshotFile path cause => "Failed to write snapshot " ++ path.text ++ ": " ++ cause.message
  | .snapshotImage path cause => "Failed to write snapshot " ++ path.text ++ ": " ++ cause.message

/-- A list of names, as it is reported. -/
def namesText (names : List String) : String :=
  "[" ++ ", ".intercalate (names.map Text.quoted) ++ "]"

/-- The configuration for a command line, and what there is to report. -/
def loadConfig (c : CommandLine) (files : FileTree) :
    Except ConfigError HostConfig × List LogRecord :=
  let found := match c.config with
    | some path => HostConfig.load files path
    | none => if files.pathExists defaultConfig then HostConfig.load files defaultConfig else .ok {}
  match found with
  | .error e => (.error e, [])
  | .ok config =>
    let o := c.overrides
    (.ok (o.apply config),
      if o.isEmpty then []
      else [Level.info.report "applying command-line overrides" [("fields", namesText o.fields)]])

/-- Where a file can be made, or why not. -/
def checkPlace (files : FileTree) (path : FilePath) : Except FileError Unit :=
  match files.lookup path with
  | .ok (.dir _) => .error .isDirectory
  | .ok _ => .ok ()
  | .error .notFound =>
    let above := FileTree.splitLast path
    match files.walkFrom FileTree.maxLinks (if path.isAbsolute then .outside else .inside [])
        above.1 with
    | .error e => .error e
    | .ok spot =>
      if path.text = "" || path.text.toList.getLast? = some '/' then
        .error (if path.text = "" then .notFound else .isDirectory)
      else if !files.isDirAt spot then .error .notDirectory
      else if path.isAbsolute then .error .notFound
      else .ok ()
  | .error e => .error e

/-- Writes an image to a file of the format that its name tells. The file is made before the image
is encoded. -/
def writeSnapshot (path : FilePath) (image : Image) (w : World) :
    Except Failure Unit × World :=
  match ImageFormat.ofPath path with
  | .error e => (.error (.snapshotImage path e), w)
  | .ok format =>
    match checkPlace w.files path with
    | .error e => (.error (.snapshotFile path e), w)
    | .ok () =>
      let (now, w) := w.tick
      let put := fun (w : World) bytes => { w with files := w.files.write path bytes now }
      match image.encode format with
      | .error e => (.error (.snapshotImage path e), put w ByteArray.empty)
      | .ok bytes =>
        (.ok (), (put w bytes).record (Level.info.report "wrote final frame" [("path", path.text)]))

/-- A run under way. -/
structure Run where
  command : CommandLine
  registry : Registry
  surface : ImageId
  /-- How many frames are done. -/
  done : Nat := 0

/-- What a run comes to. -/
inductive Progress where
  | going (r : Run)
  | ended (result : Except Failure Unit) (w : World)

/-- Starts a host and adds the scripts that are there from the start. -/
def start (budget : Nat) (c : CommandLine) (config : HostConfig) (w : World) : Option Run := do
  let w := w.record (Level.info.report "starting script host"
    [("title", config.window.title), ("width", toString config.window.width),
      ("height", toString config.window.height), ("scripts", config.scripts.dir.text)])
  let r ← (Registry.start config w).addStartup budget
  let (surface, world) := r.world.addImage
    (.filled config.window.width config.window.height .clear)
  return { command := c, registry := { r with world }, surface }

/-- Begins a run: loads the configuration and starts the host. -/
def launch (budget : Nat) (c : CommandLine) (w : World) : Option Progress :=
  let (config, reports) := loadConfig c w.files
  match config with
  | .error e => some (.ended (.error (.config e)) w)
  | .ok config => (start budget c config (w.recordAll reports)).map .going

/-- One frame on a surface. -/
def frame (budget : Nat) (surface : ImageId) (r : Registry) :
    Option (Except ScanError Unit × Registry) := do
  let r ← r.update budget
  let cleared := (r.world.image surface).fill .black
  { r with world := r.world.setImage surface cleared }.draw budget surface

/-- The end of a run whose frames all completed. -/
def finish (r : Run) : Except Failure Unit × World :=
  let w := r.registry.world
  let (written, w) := match r.command.snapshot with
    | some path => writeSnapshot path (w.image r.surface) w
    | none => (.ok (), w)
  match written with
  | .error e => (.error e, w)
  | .ok () => (.ok (), w.record (Level.info.report "script host stopped"
      [("frames", toString r.done), ("scripts", toString r.registry.instances.length)]))

/-- Goes on for one frame, or ends if there were enough. -/
def Run.step (budget : Nat) (r : Run) : Option Progress :=
  if r.command.frames = some r.done then
    let (result, w) := finish r
    some (.ended result w)
  else do
    match ← frame budget r.surface r.registry with
    | (.error e, registry) => return .ended (.error (.scan e)) registry.world
    | (.ok (), registry) => return .going { r with registry, done := r.done + 1 }

/-- Goes on to the end, if that is at most so many steps away. -/
def Progress.complete (budget : Nat) : Nat → Progress → Option (Except Failure Unit × World)
  | _, .ended result w => some (result, w)
  | 0, .going _ => none
  | steps + 1, .going r => do (← r.step budget).complete budget steps

/-- A run of the program. Without a number of frames only a failed scan ends it. -/
def run (budget : Nat) (c : CommandLine) (w : World) : Option (Except Failure Unit × World) := do
  let steps := match c.frames with
    | some n => n + 1
    | none => budget
  (← launch budget c w).complete budget steps

/-- How the program ends: its exit code, and what it says on its way out. -/
structure Ending where
  code : UInt8
  stderr : String
  deriving DecidableEq, Repr

/-- The end of the program if its arguments are not in order. -/
def refusal (e : ArgumentError) : Ending := ⟨2, "[cli] " ++ e.message ++ "\n"⟩

/-- The end of the program after a run. -/
def ending (result : Except Failure Unit) (w : World) : Ending × World :=
  match result with
  | .ok () => (⟨0, ""⟩, w)
  | .error e => (⟨1, ""⟩, w.record (Level.error.report ("Application error: " ++ e.chain) []))

/-- The program, from its arguments on; the first of them is its name. -/
def main (budget : Nat) (args : List String) (w : World) : Option (Ending × World) :=
  match CommandLine.parse args with
  | .error e => some (refusal e, w)
  | .ok c => do
    let (result, w) ← run budget c w
    return ending result w

end Stagehand.App
