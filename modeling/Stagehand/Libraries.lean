import Stagehand.Entries
import Stagehand.Files.Walk
import Stagehand.Log

/-!
# Libraries

Libraries lie in one directory tree and are known by the stem of their file name, wherever in the
tree they are. The index is made once: files are taken in the order of their paths, and the first
with a stem has it. The text of an import names a stem: directories in front of it and an extension
behind it do not count.
-/

namespace Stagehand

/-- Which file each stem names, and which names of the host are known inside libraries. -/
structure Libraries where
  files : List (String × FilePath)
  globals : List String
  deriving Inhabited

/-- The text behind the last separator. -/
def afterSeparator (cs : List Char) : List Char :=
  (cs.reverse.takeWhile fun c => c ≠ '/' && c ≠ '\\').reverse

/-- The stem that the text of an import names: its last piece without what follows the last dot. A
dot in front does not count. -/
def importStem (text : String) : String :=
  let piece := afterSeparator text.toList
  let tail := piece.reverse.takeWhile (· ≠ '.')
  let head := piece.reverse.drop (tail.length + 1)
  if tail.length = piece.length || head.isEmpty then String.ofList piece
  else String.ofList head.reverse

namespace Libraries

/-- The name of the host is known inside libraries and nested calls. -/
def isGlobal (l : Libraries) (name : String) : Bool := l.globals.contains name

/-- The file that the text of an import names. -/
def path? (l : Libraries) (text : String) : Option FilePath :=
  Entries.get? (importStem text) l.files

/-- The stems in ascending order. -/
def names (l : Libraries) : List String := Entries.keys l.files

/-- Gives a file its stem, or reports which file has it already. -/
def addFile (index : List (String × FilePath) × List LogRecord) (file : FilePath) :
    List (String × FilePath) × List LogRecord :=
  match file.stem? with
  | none => index
  | some stem =>
    match Entries.get? stem index.1 with
    | none => (Entries.put stem file index.1, index.2)
    | some kept =>
      (index.1, index.2 ++ [Level.warn.report "duplicate library stem"
        [("library", stem), ("kept", kept.text), ("ignored", file.text)]])

/-- The files among the findings of a walk. -/
def filesOf (findings : List Finding) : List FilePath :=
  findings.filterMap fun
    | .file f => some f.path
    | .trouble _ => none

/-- A report for each entry that could not be read. -/
def troubles (field : String) (root : FilePath) (what : String) (findings : List Finding) :
    List LogRecord :=
  findings.filterMap fun
    | .file _ => none
    | .trouble e => some (Level.warn.report (what ++ e.message) [(field, root.text)])

/-- The index of files, in the order of their paths. -/
def indexFiles (files : List FilePath) : List (String × FilePath) × List LogRecord :=
  (files.mergeSort FilePath.le).foldl addFile ([], [])

/-- The index of the libraries below a directory, and what there is to report. -/
def index (files : FileTree) (root : FilePath) (globals : List String) :
    Libraries × List LogRecord :=
  let (findings, reports) :=
    if files.isDir root then
      match files.walk root with
      | .ok findings => (findings, troubles "dir" root "skipping library entry: " findings)
      | .error e => ([], troubles "dir" root "skipping library entry: " [.trouble e])
    else ([], [Level.debug.report "library directory missing; imports will not resolve"
      [("dir", root.text)]])
  let (stems, duplicates) := indexFiles (filesOf findings)
  let summary := Level.info.report "indexed script libraries"
    [("dir", root.text), ("libraries", toString stems.length)]
  (⟨stems, globals⟩, reports ++ duplicates ++ [summary])

end Libraries
end Stagehand
