import Stagehand.Config
import Stagehand.Files.Tree
import Stagehand.Json.Reader
import Stagehand.Log

/-!
# Configuration files

A configuration is read from a JSON file. Whatever the file leaves out keeps its default; a file
that cannot be read, or says something that is no configuration, is a fault and never stands for
the defaults.
-/

namespace Stagehand

open Json

/-- The greatest number in a configuration. -/
def maxNumber : Nat := 4294967295

/-- How a path is read. -/
def readPath : Read FilePath := return ⟨← string⟩

/-- The fields of the window. -/
def windowFields : List (FieldReader WindowConfig) :=
  [("title", fun c => return { c with title := ← string }),
   ("width", fun c => return { c with width := ← natural maxNumber }),
   ("height", fun c => return { c with height := ← natural maxNumber })]

/-- The fields of the scripts. -/
def scriptFields : List (FieldReader ScriptConfig) :=
  [("dir", fun c => return { c with dir := ← readPath }),
   ("extension", fun c => return { c with extension := ← string }),
   ("libraries", fun c => return { c with libraries := ← readPath }),
   ("startup", fun c => return { c with startup := ← list string })]

/-- The fields of the images. -/
def assetFields : List (FieldReader AssetConfig) :=
  [("dir", fun c => return { c with dir := ← readPath })]

/-- The fields of a configuration. -/
def configFields : List (FieldReader HostConfig) :=
  [("window", fun c => return { c with window := ← record windowFields {} }),
   ("scripts", fun c => return { c with scripts := ← record scriptFields {} }),
   ("assets", fun c => return { c with assets := ← record assetFields {} }),
   ("frame_rate", fun c => return { c with frameRate := ← natural maxNumber })]

/-- The configuration in a text. -/
def HostConfig.ofJson (bytes : ByteArray) : Except Json.Fault HostConfig :=
  whole (record configFields {}) bytes

/-- Why there is no configuration. -/
inductive ConfigError where
  | reading (path : FilePath) (cause : FileError)
  | parsing (path : FilePath) (cause : Json.Fault)
  deriving DecidableEq, Repr

/-- The wording of the fault. -/
def ConfigError.message : ConfigError → String
  | .reading path _ => "Failed to read config file " ++ path.text
  | .parsing path _ => "Failed to parse config file " ++ path.text

/-- What a fault of JSON is called. -/
def Json.Fault.text : Json.Fault → String
  | .eof => "EOF while parsing"
  | .notJson => "invalid JSON"
  | .data => "invalid value"

/-- The fault with what lies behind it. -/
def ConfigError.chain (e : ConfigError) : String :=
  match e with
  | .reading _ cause => e.message ++ ": " ++ cause.message
  | .parsing _ cause => e.message ++ ": " ++ cause.text

namespace HostConfig

/-- The configuration in a file. -/
def load (files : FileTree) (path : FilePath) : Except ConfigError HostConfig :=
  match files.read path with
  | .error e => .error (.reading path e)
  | .ok bytes =>
    match ofJson bytes with
    | .error e => .error (.parsing path e)
    | .ok c => .ok c

/-- The configuration in a file, or else the defaults and a warning. -/
def loadOrDefault (files : FileTree) (path : FilePath) : HostConfig × List LogRecord :=
  match load files path with
  | .ok c => (c, [])
  | .error e => ({}, [Level.warn.report
      ("Config load error: " ++ e.chain ++ ". Falling back to defaults.") []])

end HostConfig
end Stagehand
