import Stagehand.Capability
import Stagehand.Entries
import Stagehand.Number.Layout
import Stagehand.Text.Quoted

/-!
# Values of the host

What can be kept in a store or handed to a script: plain data and references. A map is a list of
entries by ascending key.
-/

namespace Stagehand

/-- A value that crosses between the host and its scripts. -/
inductive HostValue where
  | unit
  | bool (b : Bool)
  | int (n : Int64)
  | float (x : Float)
  | str (s : String)
  | list (items : List HostValue)
  | map (entries : List (String × HostValue))
  | handle (c : Capability)
  deriving Inhabited

namespace HostValue

mutual

/-- Both values are equal: floats as numbers, so that no NaN equals anything, and references by what
they refer to. -/
def same : HostValue → HostValue → Bool
  | .unit, .unit => true
  | .bool a, .bool b => a == b
  | .int a, .int b => a == b
  | .float a, .float b => a == b
  | .str a, .str b => a == b
  | .list as, .list bs => sameItems as bs
  | .map as, .map bs => sameEntries as bs
  | .handle a, .handle b => a.same b
  | _, _ => false

/-- Equal items in the same order. -/
def sameItems : List HostValue → List HostValue → Bool
  | [], [] => true
  | a :: as, b :: bs => same a b && sameItems as bs
  | _, _ => false

/-- Equal values under the same keys. -/
def sameEntries : List (String × HostValue) → List (String × HostValue) → Bool
  | [], [] => true
  | (k, a) :: as, (l, b) :: bs => k == l && same a b && sameEntries as bs
  | _, _ => false

end

/-- The size of an image. -/
abbrev Sizes := ImageId → Nat × Nat

/-- The dump of an image. -/
def imageText (size : Nat × Nat) : String :=
  "ImageHandle \x7b width: " ++ toString size.1 ++ ", height: " ++ toString size.2 ++ " \x7d"

/-- The dump of a reference. -/
def handleText (sizes : Sizes) : Capability → String
  | .image id => imageText (sizes id)
  | .script h => "Script(" ++ h.name ++ ")"
  | c => c.kind

mutual

/-- The dump of a value: its case and what is in it. -/
def dump (sizes : Sizes) : HostValue → String
  | .unit => "Unit"
  | .bool b => "Bool(" ++ (if b then "true" else "false") ++ ")"
  | .int n => "Int(" ++ toString n.toInt ++ ")"
  | .float x => "Float(" ++ Number.debug.format x ++ ")"
  | .str s => "Str(" ++ Text.quoted s ++ ")"
  | .list items => "List([" ++ ", ".intercalate (dumpItems sizes items) ++ "])"
  | .map entries => "Map(\x7b" ++ ", ".intercalate (dumpEntries sizes entries) ++ "\x7d)"
  | .handle c => "Handle(" ++ handleText sizes c ++ ")"

/-- The dumps of a list of values. -/
def dumpItems (sizes : Sizes) : List HostValue → List String
  | [] => []
  | v :: rest => dump sizes v :: dumpItems sizes rest

/-- The dumps of a map's entries. -/
def dumpEntries (sizes : Sizes) : List (String × HostValue) → List String
  | [] => []
  | (k, v) :: rest => (Text.quoted k ++ ": " ++ dump sizes v) :: dumpEntries sizes rest

end

end HostValue

/-- The dump of a reference to an instance. -/
def ScriptHandle.dump (h : ScriptHandle) : String :=
  "ScriptHandle \x7b id: " ++ toString h.id ++ ", name: " ++ Text.quoted h.name ++ " \x7d"

/-- A store of values by name. -/
structure DataStore where
  entries : List (String × HostValue) := []
  deriving Inhabited

namespace DataStore

/-- The value under a key. -/
def get? (d : DataStore) (key : String) : Option HostValue := Entries.get? key d.entries

/-- Puts a value under a key. -/
def set (d : DataStore) (key : String) (value : HostValue) : DataStore :=
  ⟨Entries.put key value d.entries⟩

/-- Replaces everything. -/
def setAll (_ : DataStore) (entries : List (String × HostValue)) : DataStore :=
  ⟨Entries.ofList entries⟩

/-- The keys in ascending order. -/
def keys (d : DataStore) : List String := Entries.keys d.entries

/-- The number of keys. -/
def size (d : DataStore) : Nat := d.entries.length

/-- The dump of a store. -/
def dump (sizes : HostValue.Sizes) (d : DataStore) : String :=
  "\x7b" ++ ", ".intercalate (HostValue.dumpEntries sizes d.entries) ++ "\x7d"

end DataStore

/-- The instances that are to go, in the order in which this was asked for; none is in it twice. -/
structure RemovalQueue where
  pending : List InstanceId := []
  deriving Inhabited

/-- Asks for the removal of an instance. -/
def RemovalQueue.push (q : RemovalQueue) (id : InstanceId) : RemovalQueue :=
  if q.pending.contains id then q else ⟨q.pending ++ [id]⟩

end Stagehand
