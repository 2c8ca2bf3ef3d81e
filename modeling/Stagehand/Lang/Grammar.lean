import Stagehand.Lang.Constant
import Stagehand.Lang.Parsing

/-!
# Expressions

What can be asked of the grammar is a `Goal`, and the answer to one goal may need the answers to
others. The parsers here take that as an argument, `rec`, so that each is an ordinary definition.
Operators bind by their precedence, and equal ones to the left but for powers. Literals of the wrong
kind in a condition, an index or a loop are refused at once, and so is what lies too deep inside
other constructs.
-/

namespace Stagehand.Lang

open Parse

/-- What can be parsed. -/
inductive Goal where
  | expr (site : Site)
  /-- Operators that bind tighter than `floor`, with their operands, behind a first operand. -/
  | operators (site : Site) (floor : Nat) (left : Expr)
  | operand (site : Site)
  | stmt (site : Site)
  | block (site : Site)

/-- What a goal yields. -/
abbrev Goal.Result : Goal → Type
  | .expr _ | .operators _ _ _ | .operand _ => Expr
  | .stmt _ => Stmt
  | .block _ => List Stmt

/-- A way to reach goals. -/
abbrev Reach := (g : Goal) → Parse g.Result

/-- An operator between two operands, as it is read. -/
inductive Joint where
  | binary (op : BinaryOp)
  | and
  | or
  | coalesce
  | within
  | notWithin

/-- The operator a token stands for, and how tight it binds. -/
def jointOf? (site : Site) : Token → Option (Joint × Nat)
  | .symbol s =>
    match s with
    | "|" => if site.inPattern then none else some (.binary .bitOr, 30)
    | "||" => some (.or, 30)
    | "^" => some (.binary .bitXor, 30)
    | "&" => some (.binary .bitAnd, 60)
    | "&&" => some (.and, 60)
    | "==" => some (.binary .eq, 90)
    | "!=" => some (.binary .ne, 90)
    | "!in" => some (.notWithin, 110)
    | "<" => some (.binary .lt, 130)
    | "<=" => some (.binary .le, 130)
    | ">" => some (.binary .gt, 130)
    | ">=" => some (.binary .ge, 130)
    | "??" => some (.coalesce, 135)
    | ".." => some (.binary .range, 140)
    | "..=" => some (.binary .rangeIncl, 140)
    | "+" => some (.binary .add, 150)
    | "-" => some (.binary .sub, 150)
    | "*" => some (.binary .mul, 180)
    | "/" => some (.binary .div, 180)
    | "%" => some (.binary .mod, 180)
    | "**" => some (.binary .pow, 190)
    | "<<" => some (.binary .shiftLeft, 210)
    | ">>" => some (.binary .shiftRight, 210)
    | _ => none
  | .keyword "in" => some (.within, 110)
  | _ => none

/-- Two powers in a row group from the right. -/
def Joint.bindsRight : Joint → Bool
  | .binary .pow => true
  | _ => false

/-- The kind of a literal that is no condition. -/
def nonBooleanKind? : Expr → Option String
  | .literal .unit _ => some "()"
  | .literal (.int _) _ => some "a number"
  | .literal (.float _) _ => some "a floating-point number"
  | .literal (.char _) _ => some "a character"
  | .literal (.str _) _ | .template _ _ => some "a string"
  | .array _ _ => some "an array"
  | .object _ _ => some "an object map"
  | .closure _ [] _ => some "Fn"
  | _ => none

/-- The kind of a literal that no loop can run over. -/
def nonIterableKind? : Expr → Option String
  | .literal .unit _ => some "()"
  | .literal (.bool _) _ | .and _ _ _ | .or _ _ _ => some "a boolean"
  | .literal (.int _) _ => some "a number"
  | .literal (.float _) _ => some "a floating-point number"
  | .literal (.char _) _ => some "a character"
  | .object _ _ => some "an object map"
  | _ => none

/-- Refuses an expression that cannot be a condition. -/
def checkBoolean (e : Expr) : Parse Expr :=
  match nonBooleanKind? e with
  | some kind => failAt (.wrongKind "a boolean expression" kind) e.pos
  | none => return e

/-- What a literal can be used for in an indexing. -/
inductive IndexKind where
  | number
  | text
  | never
  | any
  deriving DecidableEq

/-- The kind of an index. -/
def indexKind : Expr → IndexKind
  | .literal (.int _) _ => .number
  | .literal (.str _) _ | .template _ _ => .text
  | .literal _ _ | .and _ _ _ | .or _ _ _ => .never
  | _ => .any

/-- Refuses an index that the base can never take. -/
def checkIndex (base index : Expr) : Parse Unit :=
  let refuse := fun text => failAt (.wrongIndex text) index.pos
  match base with
  | .object _ _ =>
    match indexKind index with
    | .number | .never => refuse "Object map expects string index"
    | _ => return ()
  | .array _ _ | .literal (.str _) _ | .literal (.int _) _ | .template _ _ =>
    match indexKind index with
    | .text | .never => refuse "Array or string expects numeric index"
    | _ => return ()
  | _ => return ()

/-- The expression an operator makes of its operands. -/
def join (joint : Joint) (left right : Expr) (pos : Pos) : Parse Expr := do
  match joint with
  | .binary op => return .binary op left right pos
  | .and => return .and (← checkBoolean left) (← checkBoolean right) pos
  | .or => return .or (← checkBoolean left) (← checkBoolean right) pos
  | .coalesce => return .coalesce left right pos
  | .within => return .call "contains" [right, left] pos
  | .notWithin => return .unary .not (.call "contains" [right, left] pos) pos

/-- The tokens that can follow a range without an end. -/
def endsRange (t : Located) : Bool := [")", "]", "\x7b", "\x7d", ",", ";", "=>"].any (isSymbol t)

/-- The first operand behind an operator. -/
def operandBehind (rec : Reach) (site : Site) (joint : Joint) : Parse Expr := do
  let t ← peek
  match joint with
  | .binary .range | .binary .rangeIncl =>
    if endsRange t then return .literal .unit t.pos
    rec (.operand site.nested)
  | _ => rec (.operand site.nested)

/-- One operator and its right operand behind `left`; nothing if the next token binds no tighter
than `floor`. -/
def operatorStep (rec : Reach) (site : Site) (floor : Nat) (left : Expr) :
    Parse (Option Expr) := do
  let t ← peek
  match jointOf? site t.token with
  | none => return none
  | some (joint, tightness) =>
    if tightness < floor || (tightness == floor && !joint.bindsRight) then return none
    let _ ← advance
    let first ← operandBehind rec site joint
    let right ← match jointOf? site (← peek).token with
      | some (_, next) =>
        if tightness < next || (tightness == next && joint.bindsRight) then
          rec (.operators site tightness first)
        else pure first
      | none => pure first
    return some (← join joint left right t.pos)

/-- All operators behind `left` that bind tighter than `floor`. Each of them lies around those
before it, which counts as one level. -/
def parseOperators (rec : Reach) (site : Site) (floor : Nat) : Nat → Expr → Parse Expr
  | 0, left => return left
  | fuel + 1, left => do
    match ← operatorStep rec site floor left with
    | some e => parseOperators rec (← deepen site) floor fuel e
    | none => return left

/-- A sign in front of an operand; a literal takes it up. -/
def negate (e : Expr) (pos : Pos) : Expr :=
  match e with
  | .literal (.int n) _ =>
    if n == Int64.minValue then .literal (.float 9223372036854775808.0) pos
    else .literal (.int (-n)) pos
  | .literal (.float x) _ => .literal (.float (-x)) pos
  | e => .unary .neg e pos

/-- Items between an opening symbol, already taken, and a closing one, separated by commas; the last
may have a comma too. -/
def commaList {α : Type} (close : String) (item : Parse α) : Parse (List α) := do
  let items ← many do
    if isSymbol (← peek) close then return none
    if isEnd (← peek) then failHere (.missing close "to close this list")
    let a ← item
    let t ← peek
    if isSymbol t "," then
      let _ ← advance
    else unless isSymbol t close do failHere (.missing "," "to separate the items of this list")
    return some a
  expectSymbol close "to close this list"
  return items

/-- The arguments of a call, if they are next. -/
def parseArgs? (rec : Reach) (site : Site) : Parse (Option (List Expr)) := do
  if ← acceptSymbol "()" then return some []
  if ← acceptSymbol "(" then return some (← commaList ")" do rec (.expr (← deepen site)))
  return none

/-- A field of an object. -/
def parseField (rec : Reach) (site : Site) : Parse (String × Pos × Expr) := do
  let t ← peek
  let name ← match t.token with
    | .ident name | .str name => pure name
    | .reserved word => failAt (.reservedName word) t.pos
    | _ => failHere .propertyExpected
  let _ ← advance
  expectSymbol ":" "to follow the name of a property"
  return (name, t.pos, ← rec (.expr (← deepen site)))

/-- Refuses a second field of one name. -/
def checkFields : List String → List (String × Pos × Expr) → Parse Unit
  | _, [] => return ()
  | seen, (name, pos, _) :: rest => do
    if seen.contains name then failAt (.duplicate "property" name) pos
    checkFields (name :: seen) rest

/-- Names between an opening symbol, already taken, and a closing one; no name twice. -/
def parseParams (close : String) : Parse (List String) := do
  let params ← commaList close bindable
  let _ ← params.foldlM (fun seen (name, pos) => do
    if seen.contains name then failAt (.duplicate "parameter" name) pos
    return name :: seen) ([] : List String)
  return params.map (·.1)

/-- The name of a closure, made of the places where it begins and ends. -/
def closureName (first last : Pos) : String :=
  let code := ((first.line * 65536 + first.column) * 65536 + last.line) * 65536 + last.column
  "anon$" ++ String.ofList (Nat.toDigits 16 code)

/-- The statements of a function that is written as one statement. -/
def bodyOf : Stmt → List Stmt
  | .block body _ => body
  | s => [s]

/-- A closure. Its body sees the parameters; all other variables are taken from outside, where they
count as used. It becomes a function of the script, and takes the variables for its first
parameters. -/
def parseClosure (rec : Reach) (site : Site) : Parse Expr := do
  let bar ← advance
  let site ← deepen site
  let params ← if isSymbol bar "||" then pure [] else parseParams "|"
  let (body, captured) ← inFunction params (rec (.stmt (.function site.level)))
  captured.forM fun (name, pos) => do
    let _ ← useName name pos
  let name := closureName bar.pos (← peek).pos
  let f : FnDef := ⟨name, captured.map (·.1) ++ params, bodyOf body, true, true⟩
  modify fun s => { s with functions := f :: s.functions }
  return .closure name captured bar.pos

/-- The parts of a template behind its first piece of text. -/
def parseHoles (rec : Reach) (site : Site) : Parse (List Expr) := do
  let done : Parse (Option (List Expr)) := do
    let hole ← peek
    unless isSymbol hole "\x7b" do return none
    let body ← rec (.block (← deepen site))
    let t ← advance
    match t.token with
    | .str s | .interp s =>
      return some [.control (.block body hole.pos) hole.pos, .literal (.str s) t.pos]
    | _ => failAt (.unexpected (spelling t.token)) t.pos
  return (← many done).flatten

/-- A name in an expression: a call, a member of a module, or a variable. -/
def parseName (rec : Reach) (site : Site) (name : String) (pos : Pos) : Parse Expr := do
  match ← parseArgs? rec site with
  | some args => return .call name args pos
  | none => pure ()
  if isSymbol (← peek) "::" then
    let more ← many do
      if ← acceptSymbol "::" then return some (← bindable) else return none
    let path : ModulePath := ⟨name :: more.dropLast.map (·.1), ← importPlace? name, pos⟩
    let (last, lastPos) := more.getLast?.getD (name, pos)
    match ← parseArgs? rec site with
    | some args => return .memberCall path last args lastPos
    | none => return .member path last lastPos
  return .var name (← useName name pos) pos

/-- A reserved word in an expression: `this`, or a built-in that is called. -/
def parseReserved (rec : Reach) (site : Site) (word : String) (pos : Pos) : Parse Expr := do
  if word == "this" then
    if site.inFunction then return .this pos
    failAt (.misplaced "'this'") pos
  if callableWords.contains word then
    match ← parseArgs? rec site with
    | some args => return .call word args pos
    | none => pure ()
  failAt (.reservedName word) pos

/-- The keywords that begin a statement which can also stand for its value. -/
def controlWords : List String := ["if", "switch", "while", "loop", "do", "for"]

/-- An expression without operators and without steps. -/
def parsePrimary (rec : Reach) (site : Site) : Parse Expr := do
  let t ← peek
  let take {α : Type} (a : α) : Parse α := do
    let _ ← advance
    return a
  match t.token with
  | .eof => failHere .sourceEnds
  | .bad why => failAt (.lexical why) t.pos
  | .int n => take (.literal (.int n) t.pos)
  | .float x => take (.literal (.float x) t.pos)
  | .char c => take (.literal (.char c) t.pos)
  | .str s => take (.literal (.str s) t.pos)
  | .interp s =>
    let _ ← advance
    return .template (.literal (.str s) t.pos :: (← parseHoles rec site)) t.pos
  | .ident name =>
    let _ ← advance
    parseName rec site name t.pos
  | .reserved word =>
    let _ ← advance
    parseReserved rec site word t.pos
  | .keyword word =>
    if word == "true" || word == "false" then take (.literal (.bool (word == "true")) t.pos)
    else if controlWords.contains word then return .control (← rec (.stmt site.nested)) t.pos
    else failHere (.unexpected word)
  | .symbol s =>
    match s with
    | "()" => take (.literal .unit t.pos)
    | "(" =>
      let _ ← advance
      let e ← rec (.expr { ← deepen site with inPattern := false })
      expectSymbol ")" "to close this expression"
      return e
    | "[" =>
      let _ ← advance
      return .array (← commaList "]" do rec (.expr (← deepen site))) t.pos
    | "#\x7b" =>
      let _ ← advance
      let fields ← commaList "\x7d" (parseField rec site)
      checkFields [] fields
      return .object (fields.map fun (name, _, e) => (name, e)) t.pos
    | "\x7b" => return .control (.block (← rec (.block site.nested)) t.pos) t.pos
    | "|" | "||" => parseClosure rec site
    | s => failHere (.unexpected s)

/-- The words that name a built-in method. -/
def methodWords : List String := ["type_of", "call", "curry", "is_shared"]

/-- An index behind `base` and the steps before it, the opening symbol at the front. -/
def parseIndex (rec : Reach) (site : Site) (base : Option Expr) : Parse Step := do
  let t ← advance
  let key ← rec (.expr (← deepen site))
  match base with
  | some base => checkIndex base key
  | none =>
    match indexKind key with
    | .never => failAt (.wrongIndex "Only numbers and strings can index") key.pos
    | _ => pure ()
  expectSymbol "]" "to close this index"
  return .index key (isSymbol t "?[") t.pos

/-- A property or a method behind other steps, the point at the front. -/
def parseMember (rec : Reach) (site : Site) : Parse Step := do
  let safe := isSymbol (← advance) "?."
  let n ← peek
  match n.token with
  | .ident name =>
    let _ ← advance
    match ← parseArgs? rec site with
    | some args => return .method name args safe n.pos
    | none => return .property name safe n.pos
  | .reserved word =>
    let _ ← advance
    unless methodWords.contains word do failAt (.reservedName word) n.pos
    match ← parseArgs? rec site with
    | some args => return .method word args safe n.pos
    | none => failAt (.reservedName word) n.pos
  | _ => failHere .propertyExpected

/-- The steps behind `base`. Everything behind a point lies one level deeper, and each of several
indexes in a row lies inside the one before. -/
def parseSteps (rec : Reach) (site row : Site) (base : Option Expr) : Nat → Parse (List Step)
  | 0 => return []
  | fuel + 1 => do
    let t ← peek
    if isSymbol t "[" || isSymbol t "?[" then
      let row ← deepen row
      let step ← parseIndex rec row base
      return step :: (← parseSteps rec site row none fuel)
    if isSymbol t "." || isSymbol t "?." then
      let site ← deepen site
      let step ← parseMember rec site
      return step :: (← parseSteps rec site site none fuel)
    return []

/-- An expression with its steps. -/
def parseChain (rec : Reach) (site : Site) : Parse Expr := do
  let base ← parsePrimary rec site
  match ← parseSteps rec site site (some base) ((← get).rest.length + 1) with
  | [] => return base
  | steps => return .chain base steps

/-- An operand: signs, then a chain. A range without a start has the unit for its first operand. -/
def parseOperand (rec : Reach) (site : Site) : Parse Expr := do
  let t ← peek
  if isSymbol t "-" then
    let _ ← advance
    return negate (← rec (.operand (← deepen site))) t.pos
  if isSymbol t "+" then
    let _ ← advance
    match ← rec (.operand (← deepen site)) with
    | .literal (.int n) _ => return .literal (.int n) t.pos
    | .literal (.float x) _ => return .literal (.float x) t.pos
    | e => return .unary .plus e t.pos
  if isSymbol t "!" then
    let _ ← advance
    return .unary .not (← rec (.operand (← deepen site))) t.pos
  if isSymbol t ".." || isSymbol t "..=" then return .literal .unit t.pos
  parseChain rec site

/-- An expression. -/
def parseExpr (rec : Reach) (site : Site) : Parse Expr := do
  rec (.operators site 1 (← rec (.operand site)))

end Stagehand.Lang
