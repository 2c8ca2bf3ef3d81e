import Stagehand.FilePath

/-!
# Configuration

The window, the scripts, the images and the pace of a host. Every field has a default, so that a
configuration can leave out whatever it does not want to change.
-/

namespace Stagehand

/-- The window that a host stands for. -/
structure WindowConfig where
  title : String := "Kestrel Script Host"
  width : Nat := 640
  height : Nat := 360
  deriving DecidableEq, Repr, Inhabited

/-- Where scripts are, and which of them are there from the start. -/
structure ScriptConfig where
  dir : FilePath := ⟨"scripts"⟩
  extension : String := "rhai"
  /-- Where libraries are, from the directory of the scripts on. -/
  libraries : FilePath := ⟨"libraries"⟩
  startup : List String := ["Smiley"]
  deriving DecidableEq, Repr, Inhabited

/-- Where images are. -/
structure AssetConfig where
  dir : FilePath := ⟨"."⟩
  deriving DecidableEq, Repr, Inhabited

/-- The configuration of a host. -/
structure HostConfig where
  window : WindowConfig := {}
  scripts : ScriptConfig := {}
  assets : AssetConfig := {}
  frameRate : Nat := 60
  deriving DecidableEq, Repr, Inhabited

/-- The file of the script of a name. -/
def ScriptConfig.sourcePath (c : ScriptConfig) (name : String) : FilePath :=
  c.dir.join ⟨name ++ "." ++ c.extension⟩

/-- The directory of the libraries. -/
def ScriptConfig.librariesDir (c : ScriptConfig) : FilePath := c.dir.join c.libraries

/-- What takes the place of a configured value. -/
structure Overrides where
  width : Option Nat := none
  height : Option Nat := none
  scriptsDir : Option FilePath := none
  deriving DecidableEq, Repr, Inhabited

namespace Overrides

/-- Nothing is overridden. -/
def isEmpty (o : Overrides) : Bool := o.width.isNone && o.height.isNone && o.scriptsDir.isNone

/-- The names of what is overridden. -/
def fields (o : Overrides) : List String :=
  (if o.width.isSome then ["width"] else []) ++ (if o.height.isSome then ["height"] else []) ++
    (if o.scriptsDir.isSome then ["scripts"] else [])

/-- A configuration with these values in place of its own. -/
def apply (o : Overrides) (c : HostConfig) : HostConfig :=
  { c with
    window := { c.window with
      width := o.width.getD c.window.width
      height := o.height.getD c.window.height }
    scripts := { c.scripts with dir := o.scriptsDir.getD c.scripts.dir } }

end Overrides
end Stagehand
