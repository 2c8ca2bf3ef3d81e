/-!
# Paths

A path is the text it was given as; joining never normalises it. Its components do: repeated
separators, a trailing separator and every `.` but a leading one say nothing. Paths are ordered
component by component, so `a/z` comes before `a-b` although `/` comes after `-` in the text.
-/

namespace Stagehand

/-- A slash-separated path, kept as it was written. -/
structure FilePath where
  text : String
  deriving DecidableEq, Repr, Inhabited

namespace FilePath

/-- One step of a path. -/
inductive Component where
  | root
  | current
  | parent
  | normal (name : String)
  deriving DecidableEq, Repr

/-- The pieces between separators. -/
def splitOn (sep : Char) : List Char → List (List Char)
  | [] => [[]]
  | c :: cs =>
    if c = sep then [] :: splitOn sep cs
    else match splitOn sep cs with
      | [] => [[c]]
      | p :: ps => (c :: p) :: ps

/-- The text between separators, in order, empty pieces included. -/
def pieces (p : FilePath) : List String := (splitOn '/' p.text.toList).map String.ofList

/-- The path starts at the root. -/
def isAbsolute (p : FilePath) : Bool := p.text.toList.head? == some '/'

/-- Reads one piece; a `.` counts only where a path begins with it. -/
def component? (leading : Bool) (piece : String) : Option Component :=
  if piece = "" then none
  else if piece = "." then (if leading then some .current else none)
  else if piece = ".." then some .parent
  else some (.normal piece)

/-- The steps that a path takes. -/
def components (p : FilePath) : List Component :=
  if p.isAbsolute then .root :: p.pieces.filterMap (component? false)
  else match p.pieces with
    | [] => []
    | first :: rest =>
      (component? true first).toList ++ rest.filterMap (component? false)

/-- `p` followed by `q`; an absolute `q` replaces `p`. -/
def join (p q : FilePath) : FilePath :=
  if q.isAbsolute then q
  else
    match p.text.toList.getLast? with
    | none => q
    | some '/' => ⟨p.text ++ q.text⟩
    | some _ => ⟨p.text ++ "/" ++ q.text⟩

/-- The last step, if it is a name. -/
def fileName? (p : FilePath) : Option String :=
  match p.components.getLast? with
  | some (.normal name) => some name
  | _ => none

/-- Splits a name at its last dot; the dot that a name begins with does not count. -/
def splitExtension (name : String) : String × Option String :=
  let cs := name.toList
  let tail := cs.reverse.takeWhile (· ≠ '.')
  let head := cs.reverse.drop (tail.length + 1)
  if tail.length = cs.length || head.isEmpty then (name, none)
  else (String.ofList head.reverse, some (String.ofList tail.reverse))

/-- The name of the file without its extension. -/
def stem? (p : FilePath) : Option String := p.fileName?.map fun name => (splitExtension name).1

/-- The text behind the last dot of the name. -/
def extension? (p : FilePath) : Option String :=
  p.fileName?.bind fun name => (splitExtension name).2

/-- The place of a component among components: root, current, parent, then names by their text. -/
def Component.lt : Component → Component → Bool
  | .root, .root => false
  | .root, _ => true
  | .current, .root | .current, .current => false
  | .current, _ => true
  | .parent, .normal _ => true
  | .parent, _ => false
  | .normal a, .normal b => a < b
  | .normal _, _ => false

/-- Lexicographic order of components. -/
def componentsLt : List Component → List Component → Bool
  | _, [] => false
  | [], _ :: _ => true
  | a :: as, b :: bs => a.lt b || (a == b && componentsLt as bs)

/-- `p` comes strictly before `q`. -/
def lt (p q : FilePath) : Bool := componentsLt p.components q.components

/-- `p` does not come after `q`. -/
def le (p q : FilePath) : Bool := !q.lt p

end FilePath
end Stagehand
