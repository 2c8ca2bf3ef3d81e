import Stagehand.Files.Tree

/-!
# Changes to a file tree

Writing makes the directories above the file and follows a link at its place; removing, renaming
and linking act on the entry itself. An operation whose place cannot be reached leaves the tree as
it was.
-/

namespace Stagehand.FileTree

/-- A path without its last name, and that name. -/
def splitLast (p : FilePath) : List String × Option String :=
  let names := p.pieces.filter fun piece => piece ≠ "" && piece ≠ "."
  (names.dropLast, names.getLast?)

/-- Changes the node at a chain of names. -/
def alterAt (t : FileTree) (trail : List String) (f : Option Node → Option Node) : FileTree :=
  { root := (Node.alter f trail.reverse (some t.root)).getD (.dir []) }

/-- Makes the directories named by `names`, one inside the other, below `trail`. -/
def makeDirs (t : FileTree) (trail : List String) : List String → FileTree
  | [] => t
  | name :: names =>
    match t.walkFrom maxLinks (.inside trail) [name] with
    | .ok (.inside next) => makeDirs t next names
    | .ok .outside => t
    | .error _ =>
      let made := t.alterAt (name :: trail) fun
        | none => some (.dir [])
        | some n => some n
      makeDirs made (name :: trail) names

/-- A directory and everything above it. -/
def mkdir (t : FileTree) (p : FilePath) : FileTree :=
  if p.isAbsolute then t
  else t.makeDirs [] (p.pieces.filter fun piece => piece ≠ "" && piece ≠ ".")

/-- The directory that holds the last name of a path, and that name. -/
def place? (t : FileTree) (p : FilePath) : Option (List String × String) :=
  match splitLast p with
  | (above, some name) =>
    match t.walkFrom maxLinks (if p.isAbsolute then .outside else .inside []) above with
    | .ok (.inside trail) => some (trail, name)
    | _ => none
  | _ => none

/-- Where a write to `name` in the directory `trail` ends up: at the target of a link, as long as
`links` lasts. -/
def writeTrail (t : FileTree) : Nat → List String → String → List String
  | 0, trail, name => name :: trail
  | links + 1, trail, name =>
    match t.root.descend? (name :: trail).reverse with
    | some (.link target) =>
      match t.walkFrom links (.inside trail) (splitLast target).1, (splitLast target).2 with
      | .ok (.inside next), some name => writeTrail t links next name
      | _, _ => name :: trail
    | _ => name :: trail

/-- Creates or replaces a file. -/
def write (t : FileTree) (p : FilePath) (bytes : ByteArray) (modified : Instant) : FileTree :=
  let t := match splitLast p with
    | (above, some _) => if p.isAbsolute then t else t.makeDirs [] above
    | _ => t
  match t.place? p with
  | some (trail, name) =>
    t.alterAt (t.writeTrail maxLinks trail name) fun _ => some (.file bytes modified)
  | none => t

/-- Changes the time of a file and nothing else. -/
def touch (t : FileTree) (p : FilePath) (modified : Instant) : FileTree :=
  match t.resolve p with
  | .ok (.inside trail) => t.alterAt trail fun
    | some (.file bytes _) => some (.file bytes modified)
    | n => n
  | _ => t

/-- Removes a file, a link or a whole directory. -/
def remove (t : FileTree) (p : FilePath) : FileTree :=
  match t.place? p with
  | some (trail, name) => t.alterAt (name :: trail) fun _ => none
  | none => t

/-- Moves an entry to a new place, in the stead of what was there. -/
def rename (t : FileTree) (p q : FilePath) : FileTree :=
  match t.place? p with
  | none => t
  | some (trail, name) =>
    match t.root.descend? (name :: trail).reverse, t.place? q with
    | some n, some (trail', name') =>
      (t.alterAt (name :: trail) fun _ => none).alterAt (name' :: trail') fun _ => some n
    | _, _ => t

/-- Puts a link at a path. -/
def symlink (t : FileTree) (p target : FilePath) : FileTree :=
  let t := match splitLast p with
    | (above, some _) => if p.isAbsolute then t else t.makeDirs [] above
    | _ => t
  match t.place? p with
  | some (trail, name) => t.alterAt (name :: trail) fun _ => some (.link target)
  | none => t

end Stagehand.FileTree
