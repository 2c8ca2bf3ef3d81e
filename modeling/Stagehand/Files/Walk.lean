import Stagehand.Files.Tree

/-!
# Walks through a tree

A walk visits everything below a directory, links followed. It cannot run in circles: a link to a
directory that the walk is inside of is reported and not entered. Only a root that cannot be read
fails the walk as a whole; any other trouble is one finding among the others.
-/

namespace Stagehand

/-- Why an entry of a walk could not be read. -/
inductive WalkError where
  | io (path : FilePath) (cause : FileError)
  | loop (child ancestor : FilePath)
  deriving DecidableEq, Repr

/-- The text of the trouble. -/
def WalkError.message : WalkError → String
  | .io path cause => "IO error for operation on " ++ path.text ++ ": " ++ cause.message
  | .loop child ancestor =>
    "File system loop found: " ++ child.text ++ " points to an ancestor " ++ ancestor.text

/-- A regular file met on a walk. -/
structure FoundFile where
  path : FilePath
  size : Nat
  modified : Instant
  deriving DecidableEq, Repr

/-- What a walk meets. -/
inductive Finding where
  | file (f : FoundFile)
  | trouble (e : WalkError)
  deriving DecidableEq, Repr

mutual
/-- The number of nodes of a tree. -/
def Node.count : Node → Nat
  | .dir entries => countEntries entries + 1
  | _ => 1

/-- The number of nodes below a directory. -/
def Node.countEntries : List (String × Node) → Nat
  | [] => 0
  | (_, n) :: rest => n.count + countEntries rest
end

namespace FileTree

/-- The entry itself is a link. -/
def isLink (t : FileTree) (spot : Spot) (name : String) : Bool :=
  match spot with
  | .inside trail =>
    match t.root.descend? (name :: trail).reverse with
    | some (.link _) => true
    | _ => false
  | .outside => false

/-- Everything below the directory at `spot`. The directories the walk is inside of are `above`,
this one included; they are distinct, so the number of nodes bounds their number. -/
def walkDir (t : FileTree) :
    Nat → FilePath → Spot → List (Spot × FilePath) → List Finding
  | 0, _, _, _ => []
  | fuel + 1, path, spot, above =>
    let names := ((t.node? spot).map Node.names).getD []
    (names.mergeSort fun a b => decide (a ≤ b)).flatMap fun name =>
      let child := path.join ⟨name⟩
      match t.walkFrom maxLinks spot [name] with
      | .error e => [.trouble (.io child e)]
      | .ok next =>
        match t.node? next with
        | some (.file bytes modified) => [.file ⟨child, bytes.size, modified⟩]
        | some (.dir _) =>
          match above.find? (·.1 == next), t.isLink spot name with
          | some (_, ancestor), true => [.trouble (.loop child ancestor)]
          | _, _ => walkDir t fuel child next ((next, child) :: above)
        | _ => []

/-- All regular files at and below `root`, and the entries that could not be read. -/
def walk (t : FileTree) (root : FilePath) : Except WalkError (List Finding) :=
  match t.resolve root with
  | .error e => .error (.io root e)
  | .ok spot =>
    match t.node? spot with
    | some (.file bytes modified) => .ok [.file ⟨root, bytes.size, modified⟩]
    | some (.dir _) => .ok (t.walkDir (t.root.count + 1) root spot [(spot, root)])
    | _ => .error (.io root .notFound)

end FileTree
end Stagehand
