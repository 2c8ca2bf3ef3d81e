import Stagehand.Lang.Lexer
import Stagehand.Lang.Syntax

/-!
# The state of a parser

A parser reads tokens from the front of a list and keeps what the grammar has to know about names:
the variables and imports in sight of the current function, the variables that a closure takes from
outside, and the functions met so far. It stops at the first fault. Constructs inside one another go
only so deep.
-/

namespace Stagehand.Lang

/-- Why a source is no script. -/
inductive SyntaxCause where
  | lexical (why : LexError)
  | sourceEnds
  | unexpected (text : String)
  | missing (text purpose : String)
  | reservedName (word : String)
  | nameExpected
  | propertyExpected
  | wrongKind (expected found : String)
  | wrongIndex (text : String)
  | constantTarget (name : String)
  | noTarget
  | duplicate (what name : String)
  | misplaced (what : String)
  | unreachableCase
  | tooDeep
  deriving DecidableEq, Repr, Inhabited

/-- A fault in a source and its place. -/
structure SyntaxError where
  cause : SyntaxCause
  pos : Pos
  deriving DecidableEq, Repr, Inhabited

/-- The wording of a fault. -/
def SyntaxCause.message : SyntaxCause → String
  | .lexical why => why.message
  | .sourceEnds => "Script is incomplete"
  | .unexpected text => "Unexpected '" ++ text ++ "'"
  | .missing text purpose => "Expecting '" ++ text ++ "' " ++ purpose
  | .reservedName word => "'" ++ word ++ "' is a reserved keyword"
  | .nameExpected => "Expecting name of a variable"
  | .propertyExpected => "Expecting name of a property"
  | .wrongKind expected found => "Expecting " ++ expected ++ ", not " ++ found
  | .wrongIndex text => "Invalid index in indexing expression: " ++ text
  | .constantTarget name => "Cannot assign to constant " ++ name
  | .noTarget => "Expression cannot be assigned to"
  | .duplicate what name => "Duplicated " ++ what ++ " '" ++ name ++ "'"
  | .misplaced what => "Not allowed here: " ++ what
  | .unreachableCase => "Case must come before the default case and before ranges"
  | .tooDeep => "Expression exceeds maximum complexity"

/-- The wording of a fault and its place. -/
def SyntaxError.message (e : SyntaxError) : String := e.cause.message ++ e.pos.text

/-- A variable in sight. -/
structure LocalName where
  name : String
  constant : Bool

/-- What a parser knows. -/
structure ParseState where
  rest : List Located
  /-- The variables of the current function, the innermost first. -/
  scope : List LocalName
  /-- The names of the imports of the current function, the last first. -/
  imports : List String
  /-- Names that the current closure takes from outside, in the order of their first use. -/
  outside : List (String × Pos)
  /-- The functions met so far, the last first. -/
  functions : List FnDef

/-- A parser. -/
abbrev Parse := StateT ParseState (Except SyntaxError)

/-- Where a construct stands. -/
structure Site where
  inFunction : Bool
  inLoop : Bool
  topLevel : Bool
  /-- A bar separates patterns and is no operator. -/
  inPattern : Bool := false
  /-- How deep the construct lies inside others. -/
  level : Nat := 0

namespace Site

/-- The site of a part of a construct. -/
def nested (s : Site) : Site := { s with topLevel := false }

/-- How deep constructs may lie inside one another. -/
def limit (s : Site) : Nat := if s.inFunction then 16 else 32

/-- The top level of a script. -/
def script : Site := ⟨false, false, true, false, 0⟩

/-- The body of a function, at a level. -/
def function (level : Nat) : Site := ⟨true, false, false, false, level⟩

end Site

namespace Parse

/-- The token at the front. -/
def peek : Parse Located := do
  match (← get).rest with
  | t :: _ => return t
  | [] => return ⟨.eof, ⟨1, 1⟩⟩

/-- Stops with a fault. -/
def failAt {α : Type} (cause : SyntaxCause) (pos : Pos) : Parse α := throw ⟨cause, pos⟩

/-- Stops at the token at the front: with its own fault if it has one. -/
def failHere {α : Type} (cause : SyntaxCause) : Parse α := do
  let t ← peek
  match t.token with
  | .bad why => failAt (.lexical why) t.pos
  | _ => failAt cause t.pos

/-- Takes the token at the front; the end of the source stays. -/
def advance : Parse Located := do
  let t ← peek
  match t.token with
  | .bad why => failAt (.lexical why) t.pos
  | .eof => return t
  | _ =>
    modify fun s => { s with rest := s.rest.drop 1 }
    return t

/-- The token is this symbol. -/
def isSymbol (t : Located) (text : String) : Bool :=
  match t.token with
  | .symbol s => s == text
  | _ => false

/-- The token is this keyword. -/
def isKeyword (t : Located) (word : String) : Bool :=
  match t.token with
  | .keyword w => w == word
  | _ => false

/-- The source ends here. -/
def isEnd (t : Located) : Bool :=
  match t.token with
  | .eof => true
  | _ => false

/-- Takes the symbol if it is at the front. -/
def acceptSymbol (text : String) : Parse Bool := do
  if isSymbol (← peek) text then
    let _ ← advance
    return true
  return false

/-- Takes the keyword if it is at the front. -/
def acceptKeyword (word : String) : Parse Bool := do
  if isKeyword (← peek) word then
    let _ ← advance
    return true
  return false

/-- The site of a part that lies one level deeper. -/
def deepen (site : Site) : Parse Site := do
  if site.limit ≤ site.level then failHere .tooDeep
  return { site.nested with level := site.level + 1 }

/-- Takes the symbol, which must be at the front. -/
def expectSymbol (text purpose : String) : Parse Unit := do
  unless ← acceptSymbol text do failHere (.missing text purpose)

/-- The spelling of a token that cannot stand where it does. -/
def spelling : Token → String
  | .keyword w => w
  | .symbol s => s
  | .reserved w => w
  | .ident n => n
  | _ => ""

/-- Repeats a parser until it yields nothing; every round takes a token, so the number of tokens
bounds the rounds. -/
def collect {α : Type} (item : Parse (Option α)) : Nat → Parse (List α)
  | 0 => return []
  | fuel + 1 => do
    match ← item with
    | none => return []
    | some a => return a :: (← collect item fuel)

/-- The results of a parser until it yields nothing. -/
def many {α : Type} (item : Parse (Option α)) : Parse (List α) := do
  collect item ((← get).rest.length + 1)

/-- A name that can be bound. -/
def bindable : Parse (String × Pos) := do
  let t ← peek
  match t.token with
  | .ident name => do
    let _ ← advance
    return (name, t.pos)
  | .reserved word => failAt (.reservedName word) t.pos
  | _ => failHere .nameExpected

/-- Brings a variable in sight. -/
def declareName (name : String) (constant : Bool) : Parse Unit :=
  modify fun s => { s with scope := ⟨name, constant⟩ :: s.scope }

/-- Brings an import in sight. -/
def declareImport (name : String) : Parse Unit :=
  modify fun s => { s with imports := name :: s.imports }

/-- The place of the first import of a name, counted from the last import on. -/
def importPlace? (name : String) : Parse (Option Nat) := do
  let imports := (← get).imports
  return (imports.reverse.findIdx? (· == name)).map fun i => imports.length - i

/-- Runs a parser, then forgets the variables and imports it brought in sight. -/
def enclosed {α : Type} (p : Parse α) : Parse α := do
  let before ← get
  let a ← p
  modify fun s => { s with scope := before.scope, imports := before.imports }
  return a

/-- Runs a parser for a function with these parameters, which sees nothing else: its result, and the
names that it takes from outside. -/
def inFunction {α : Type} (params : List String) (p : Parse α) :
    Parse (α × List (String × Pos)) := do
  let outer ← get
  set { outer with
    scope := params.reverse.map fun name => ⟨name, false⟩, imports := [], outside := [] }
  let a ← p
  let outside := (← get).outside
  modify fun s =>
    { s with scope := outer.scope, imports := outer.imports, outside := outer.outside }
  return (a, outside)

/-- Notes the use of a variable: whether it is in sight. One that is not, and names no function met
so far, is taken from outside. -/
def useName (name : String) (pos : Pos) : Parse Bool := do
  let s ← get
  if s.scope.any (·.name == name) then return true
  unless s.functions.any (·.name == name) || s.outside.any (·.1 == name) do
    set { s with outside := s.outside ++ [(name, pos)] }
  return false

/-- The variable in sight is a constant. -/
def isConstant (name : String) : Parse Bool := do
  match (← get).scope.find? (·.name == name) with
  | some v => return v.constant
  | none => return false

end Parse
end Stagehand.Lang
