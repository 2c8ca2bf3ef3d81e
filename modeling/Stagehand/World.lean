import Stagehand.Files.Edit
import Stagehand.HostValue
import Stagehand.Image.Format
import Stagehand.Lang.Value
import Stagehand.Libraries

/-!
# The world of a host

Everything that outlives the run of a script: files and the clock, the log, the host's own state,
images, stores, requests, and for each instance its realm, that is, its shared cells and the
libraries evaluated for it. Scripts reach the world through references alone.
-/

namespace Stagehand

/-- Images by the text of the path they were asked for by. -/
structure AssetCache where
  root : FilePath
  images : List (String × ImageId) := []
  deriving Inhabited

/-- The state of the host that scripts can ask for. -/
structure HostState where
  frame : Nat := 0
  width : Nat
  height : Nat
  screen : ImageId
  assets : AssetCache
  /-- Names of the scripts to be added, the first request first. -/
  adds : List String := []
  deriving Inhabited

/-- The dump of a host. -/
def HostState.dump (h : HostState) : String :=
  "Host \x7b frame: " ++ toString h.frame ++ ", width: " ++ toString h.width ++ ", height: " ++
    toString h.height ++ " \x7d"

/-- A library as it was evaluated, and the time of its file's last change before that. -/
structure CachedModule where
  modified : Option Instant
  module : Lang.Module
  deriving Inhabited

/-- What belongs to one instance and outlives its runs. -/
structure Realm where
  heap : Lang.Heap := #[]
  modules : List (FilePath × CachedModule) := []
  deriving Inhabited

/-- The state around the scripts. -/
structure World where
  files : FileTree := {}
  clock : Instant := 0
  log : Array LogRecord := #[]
  host : HostState
  images : Array Image := #[]
  stores : Array DataStore := #[]
  removals : RemovalQueue := {}
  realms : List (InstanceId × Realm) := []
  seed : UInt64 := 0
  deriving Inhabited

/-- Why an image is not there. -/
inductive AssetError where
  | reading (path : FilePath) (cause : FileError)
  | decoding (path : FilePath) (cause : ImageError)
  deriving DecidableEq, Repr

/-- The wording of the fault. -/
def AssetError.message : AssetError → String
  | .reading path cause => "Reading image " ++ path.text ++ ": " ++ cause.message
  | .decoding path cause => "Decoding image " ++ path.text ++ ": " ++ cause.message

/-- A range of numbers that is too wide to pick from. -/
structure RangeError where
  low : Float
  high : Float

/-- The wording of the fault. -/
def RangeError.message (e : RangeError) : String :=
  "Rand range " ++ Number.plain.format e.low ++ ".." ++ Number.plain.format e.high ++
    " is not finite"

namespace World

/-- The number of the host. -/
def hostId : HostId := 0

/-- Adds a report to the log. -/
def record (w : World) (r : LogRecord) : World := { w with log := w.log.push r }

/-- Adds reports to the log. -/
def recordAll (w : World) (rs : List LogRecord) : World := rs.foldl record w

/-- The time, which is later at every look. -/
def tick (w : World) : Instant × World := (w.clock, { w with clock := w.clock + 1 })

/-- Changes the host's state. -/
def modifyHost (w : World) (f : HostState → HostState) : World := { w with host := f w.host }

/-- The image with a number. -/
def image (w : World) (id : ImageId) : Image := w.images[id]?.getD default

/-- Adds an image. -/
def addImage (w : World) (image : Image) : ImageId × World :=
  (w.images.size, { w with images := w.images.push image })

/-- Puts another image under a number. -/
def setImage (w : World) (id : ImageId) (image : Image) : World :=
  { w with images := w.images.setIfInBounds id image }

/-- The size of the image with a number. -/
def imageSize (w : World) (id : ImageId) : Nat × Nat := ((w.image id).width, (w.image id).height)

/-- Draws an image onto another, which can be the same. -/
def drawImage (w : World) (target source : ImageId) (x y : Float) : World :=
  w.setImage target ((w.image target).draw (w.image source) x y)

/-- The store with a number. -/
def store (w : World) (id : StoreId) : DataStore := w.stores[id]?.getD default

/-- Adds an empty store. -/
def addStore (w : World) : StoreId × World :=
  (w.stores.size, { w with stores := w.stores.push {} })

/-- Changes a store. -/
def modifyStore (w : World) (id : StoreId) (f : DataStore → DataStore) : World :=
  { w with stores := w.stores.setIfInBounds id (f (w.store id)) }

/-- Asks for the removal of an instance. -/
def requestRemoval (w : World) (id : InstanceId) : World :=
  { w with removals := w.removals.push id }

/-- Takes all requests for removal. -/
def takeRemovals (w : World) : List InstanceId × World :=
  (w.removals.pending, { w with removals := {} })

/-- Asks for a script to be added. -/
def requestAdd (w : World) (name : String) : World :=
  w.modifyHost fun h => { h with adds := h.adds ++ [name] }

/-- Takes all requests for scripts to be added. -/
def takeAdds (w : World) : List String × World :=
  (w.host.adds, w.modifyHost fun h => { h with adds := [] })

/-- The realm of an instance. -/
def realm (w : World) (owner : InstanceId) : Realm :=
  ((w.realms.find? (·.1 == owner)).map (·.2)).getD {}

/-- Puts another realm in an instance's place. -/
def setRealm (w : World) (owner : InstanceId) (realm : Realm) : World :=
  { w with realms := (owner, realm) :: w.realms.filter (·.1 != owner) }

/-- Drops the realm of an instance. -/
def forget (w : World) (owner : InstanceId) : World :=
  { w with realms := w.realms.filter (·.1 != owner) }

/-- The image at a path: the one that was read first under this very text, or else the file's. -/
def loadImage (w : World) (path : String) : Except AssetError ImageId × World :=
  let assets := w.host.assets
  match Entries.get? path assets.images with
  | some id => (.ok id, w)
  | none =>
    let file := assets.root.join ⟨path⟩
    match w.files.read file with
    | .error e => (.error (.reading file e), w)
    | .ok bytes =>
      match Image.decode bytes with
      | .error e => (.error (.decoding file e), w)
      | .ok image =>
        let (id, w) := w.addImage image
        (.ok id, w.modifyHost fun h =>
          { h with assets := { assets with images := Entries.put path id assets.images } })

/-- A number that looks as if picked from `0 ≤ u < 1`. -/
def pick (w : World) : Float × World :=
  let seed := w.seed + 0x9e3779b97f4a7c15
  let z := (seed ^^^ (seed >>> 30)) * 0xbf58476d1ce4e5b9
  let z := (z ^^^ (z >>> 27)) * 0x94d049bb133111eb
  let z := z ^^^ (z >>> 31)
  ((z >>> 11).toFloat / 9007199254740992.0, { w with seed := seed })

/-- A number in `low ≤ x < high`, or `low` if there is none. -/
def random (w : World) (low high : Float) : Except RangeError Float × World :=
  if !(high - low).isFinite then (.error ⟨low, high⟩, w)
  else if low < high then
    let (u, w) := w.pick
    let x := low + (high - low) * u
    (.ok (if x < high then x else low), w)
  else (.ok low, w)

/-- An image to draw on and a cache of images at a root, for a host of this size. -/
def HostState.start (width height : Nat) (assets : FilePath) (w : World) : World :=
  let (screen, w) := w.addImage (.filled width height .clear)
  { w with host := { width, height, screen, assets := { root := assets } } }

end World
end Stagehand
