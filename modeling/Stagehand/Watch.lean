import Stagehand.Instance

/-!
# Watching sources

A scan looks at every file below the script directory and reloads the instances that have a file's
name and were loaded before its last change, or never. Empty files do not count: they are most
likely still being written. If the directory cannot be read, nothing is reloaded at all.
-/

namespace Stagehand

/-- A source file that was found. -/
structure SourceFile where
  path : FilePath
  name : String
  modified : Instant
  deriving DecidableEq, Repr

/-- The script directory could not be read. -/
structure ScanError where
  path : FilePath
  cause : WalkError
  deriving DecidableEq, Repr

/-- The wording of the failure. -/
def ScanError.message (e : ScanError) : String :=
  "failed to scan script directory " ++ e.path.text ++ ": " ++ e.cause.message

/-- The failure with what lies behind it. -/
def ScanError.chain (e : ScanError) : String :=
  match e.cause with
  | .io _ cause => e.message ++ ": " ++ e.cause.message ++ ": " ++ cause.message
  | .loop _ _ => e.message ++ ": " ++ e.cause.message

/-- The source file that a found file is. -/
def SourceFile.of? (f : FoundFile) : Option SourceFile :=
  if f.size = 0 then none else f.path.stem?.map fun name => ⟨f.path, name, f.modified⟩

/-- The source files below a directory, and what there is to report. -/
def collectSources (files : FileTree) (root : FilePath) :
    Except ScanError (List SourceFile × List LogRecord) :=
  match files.walk root with
  | .error e => .error ⟨root, e⟩
  | .ok findings =>
    let sources := findings.filterMap fun
      | .file f => SourceFile.of? f
      | .trouble _ => none
    .ok (sources, Libraries.troubles "root" root "skipping directory entry: " findings)

/-- The instance was loaded before the file's last change, or never. -/
def Instance.isStale (i : Instance) (s : SourceFile) : Bool :=
  i.name == s.name && (match i.loadTime with
    | some loaded => decide (loaded < s.modified)
    | none => true)

/-- Reloads the instances that are behind a source file, and counts the attempts. -/
def reloadStale (budget : Nat) (libraries : Libraries) (s : SourceFile) :
    List Instance → World → Option (Nat × List Instance × World)
  | [], w => some (0, [], w)
  | i :: rest, w => do
    let (n, i, w) ←
      if i.isStale s then do
        let w := w.record (Level.debug.report "source changed"
          [("script", i.name), ("file", s.path.text)])
        let (_, i, w) ← i.reload budget libraries w
        pure (1, i, w)
      else pure (0, i, w)
    let (m, rest, w) ← reloadStale budget libraries s rest w
    return (n + m, i :: rest, w)

/-- Goes through source files one after the other. -/
def reloadAll (budget : Nat) (libraries : Libraries) :
    List SourceFile → List Instance → World → Option (Nat × List Instance × World)
  | [], is, w => some (0, is, w)
  | s :: rest, is, w => do
    let (n, is, w) ← reloadStale budget libraries s is w
    let (m, is, w) ← reloadAll budget libraries rest is w
    return (n + m, is, w)

/-- Reloads what changed below a directory; yields the number of attempts. -/
def scan (budget : Nat) (libraries : Libraries) (root : FilePath) (is : List Instance) (w : World) :
    Option (Except ScanError Nat × List Instance × World) :=
  match collectSources w.files root with
  | .error e => some (.error e, is, w)
  | .ok (sources, reports) => do
    let (n, is, w) ← reloadAll budget libraries sources is (w.recordAll reports)
    return (.ok n, is, w)

end Stagehand
