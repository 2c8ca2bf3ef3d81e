import Stagehand.FilePath

/-!
# File trees

The files a host can see, as a value: a directory is a list of named nodes, a file is its bytes and
the time of its last change, a link is the text it points to. `resolve` walks a path through the
tree as a system does: every step but the last must be a directory, `..` leaves the directory that
was reached (not the one that was named), and a link is replaced by its target. What lies outside
the tree is an empty directory.
-/

namespace Stagehand

/-- A point in time, in nanoseconds since the epoch. -/
abbrev Instant := Int

/-- Why a file operation failed. -/
inductive FileError where
  | notFound
  | notDirectory
  | isDirectory
  | tooManyLinks
  | nameTooLong
  | nulByte
  | notText
  deriving DecidableEq, Repr, Inhabited

/-- The text a system gives for the failure. -/
def FileError.message : FileError → String
  | .notFound => "No such file or directory (os error 2)"
  | .notDirectory => "Not a directory (os error 20)"
  | .isDirectory => "Is a directory (os error 21)"
  | .tooManyLinks => "Too many levels of symbolic links (os error 40)"
  | .nameTooLong => "File name too long (os error 36)"
  | .nulByte => "file name contained an unexpected NUL byte"
  | .notText => "stream did not contain valid UTF-8"

/-- A file, a directory or a link. -/
inductive Node where
  | file (bytes : ByteArray) (modified : Instant)
  | dir (entries : List (String × Node))
  | link (target : FilePath)
  deriving Inhabited

namespace Node

/-- The entry of that name in a directory. -/
def entry? : Node → String → Option Node
  | .dir entries, name => (entries.find? (·.1 == name)).map (·.2)
  | _, _ => none

/-- The node at the end of a chain of names; no link is followed. -/
def descend? : Node → List String → Option Node
  | n, [] => some n
  | n, name :: names => match n.entry? name with
    | some child => descend? child names
    | none => none

/-- The names in a directory. -/
def names : Node → List String
  | .dir entries => entries.map (·.1)
  | _ => []

/-- Puts `child` under `name`, in place of what was there. -/
def setEntry (entries : List (String × Node)) (name : String) (child : Node) :
    List (String × Node) :=
  match entries with
  | [] => [(name, child)]
  | (n, old) :: rest =>
    if n == name then (n, child) :: rest else (n, old) :: setEntry rest name child

/-- Rebuilds a tree after changing the node at the end of a chain of names; the change of `none`
removes the node. Missing directories on the way are made. -/
def alter (f : Option Node → Option Node) : List String → Option Node → Option Node
  | [], n => f n
  | name :: names, n =>
    let entries := match n with
      | some (.dir entries) => entries
      | _ => []
    match alter f names ((entries.find? (·.1 == name)).map (·.2)) with
    | some child => some (.dir (setEntry entries name child))
    | none => some (.dir (entries.filter (·.1 != name)))

end Node

/-- A directory tree with everything below it. -/
structure FileTree where
  root : Node := .dir []
  deriving Inhabited

/-- Where a walk through the tree stands: at a chain of names below the root, last name first, or
outside the tree. -/
inductive Spot where
  | inside (trail : List String)
  | outside
  deriving DecidableEq, Repr

namespace FileTree

/-- The node at a spot. -/
def node? (t : FileTree) : Spot → Option Node
  | .inside trail => t.root.descend? trail.reverse
  | .outside => some (.dir [])

/-- The spot is a directory. -/
def isDirAt (t : FileTree) (s : Spot) : Bool :=
  match t.node? s with
  | some (.dir _) => true
  | _ => false

/-- How many links a walk may follow. -/
def maxLinks : Nat := 40

/-- The longest name a directory can hold, in bytes. -/
def maxNameLength : Nat := 255

/-- Follows the pieces of a path. The pieces of a link's target take the place of its name, and
`follow` goes on from there. -/
def walkPieces (t : FileTree) (follow : Spot → List String → Except FileError Spot) (spot : Spot)
    (pieces : List String) : Except FileError Spot :=
  match pieces with
  | [] => .ok spot
  | piece :: rest =>
    if !t.isDirAt spot then .error .notDirectory
    else if piece = "" || piece = "." then walkPieces t follow spot rest
    else if piece = ".." then
      match spot with
      | .inside (_ :: trail) => walkPieces t follow (.inside trail) rest
      | _ => walkPieces t follow .outside rest
    else if maxNameLength < piece.utf8ByteSize then .error .nameTooLong
    else
      match spot with
      | .outside => .error .notFound
      | .inside trail =>
        match t.root.descend? (piece :: trail).reverse with
        | none => .error .notFound
        | some (.link target) =>
          follow (if target.isAbsolute then .outside else spot) (target.pieces ++ rest)
        | some _ => walkPieces t follow (.inside (piece :: trail)) rest

/-- Follows the pieces of a path. Each link costs one of `links`; with none left the walk fails. -/
def walkFrom (t : FileTree) : Nat → Spot → List String → Except FileError Spot
  | 0 => t.walkPieces fun _ _ => .error .tooManyLinks
  | links + 1 => t.walkPieces (walkFrom t links)

/-- The place a path leads to, every link followed. -/
def resolve (t : FileTree) (p : FilePath) : Except FileError Spot :=
  if p.text = "" then .error .notFound
  else if p.text.toList.contains '\x00' then .error .nulByte
  else t.walkFrom maxLinks (if p.isAbsolute then .outside else .inside []) p.pieces

/-- The node a path leads to, every link followed. -/
def lookup (t : FileTree) (p : FilePath) : Except FileError Node := do
  let spot ← t.resolve p
  match t.node? spot with
  | some n => .ok n
  | none => .error .notFound

/-- Something is there. -/
def pathExists (t : FileTree) (p : FilePath) : Bool := (t.lookup p).isOk

/-- A directory is there. -/
def isDir (t : FileTree) (p : FilePath) : Bool :=
  match t.lookup p with
  | .ok (.dir _) => true
  | _ => false

/-- The bytes of a file. -/
def read (t : FileTree) (p : FilePath) : Except FileError ByteArray := do
  match ← t.lookup p with
  | .file bytes _ => .ok bytes
  | _ => .error .isDirectory

/-- The text of a file. -/
def readText (t : FileTree) (p : FilePath) : Except FileError String := do
  match String.fromUTF8? (← t.read p) with
  | some s => .ok s
  | none => .error .notText

/-- When a file was last changed; directories have no time of their own. -/
def modified? (t : FileTree) (p : FilePath) : Option Instant :=
  match t.lookup p with
  | .ok (.file _ modified) => some modified
  | .ok _ => some 0
  | .error _ => none

end FileTree
end Stagehand
