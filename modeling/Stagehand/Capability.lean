/-!
# Capabilities

What a script holds of the host are references: to the host itself, to an image, to a store of
values, or to a script instance. A reference is a number, and two references are the same if their
numbers are.
-/

namespace Stagehand

/-- The number of an instance; no two instances of a host share one. -/
abbrev InstanceId := Nat

/-- The number of a host. -/
abbrev HostId := Nat

/-- The number of an image. -/
abbrev ImageId := Nat

/-- The number of a store. -/
abbrev StoreId := Nat

/-- A reference to an instance. It stays what it is after the instance has gone. -/
structure ScriptHandle where
  id : InstanceId
  name : String
  deriving DecidableEq, Repr, Inhabited

/-- A reference that scripts can hold. -/
inductive Capability where
  | host (id : HostId)
  | image (id : ImageId)
  | data (id : StoreId)
  | script (handle : ScriptHandle)
  deriving DecidableEq, Repr, Inhabited

namespace Capability

/-- The kind of a reference, as scripts know it. -/
def kind : Capability → String
  | .host _ => "Host"
  | .image _ => "Image"
  | .data _ => "Data"
  | .script _ => "Script"

/-- The full name of the kind. -/
def typePath : Capability → String
  | .host _ => "kestrel_script_host::interop::capabilities::Host"
  | .image _ => "kestrel_script_host::assets::ImageHandle"
  | .data _ => "kestrel_script_host::interop::capabilities::DataStore"
  | .script _ => "kestrel_script_host::interop::capabilities::ScriptHandle"

/-- Both refer to the same thing; the name of a script does not count. -/
def same : Capability → Capability → Bool
  | .host a, .host b => a == b
  | .image a, .image b => a == b
  | .data a, .data b => a == b
  | .script a, .script b => a.id == b.id
  | _, _ => false

end Capability
end Stagehand
