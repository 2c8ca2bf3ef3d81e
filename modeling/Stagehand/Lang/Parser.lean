import Stagehand.Lang.Grammar

/-!
# Statements and scripts

Statements, and the knot that ties the grammar together: `parseGoal` answers a goal with answers to
the goals inside it. Every nesting takes a token, and between two tokens there are only a few
goals, so a multiple of the number of tokens bounds the depth. `Script.parse` reads a whole source.
-/

namespace Stagehand.Lang

open Parse

/-- A statement that ends with its own block. -/
def Stmt.endsItself : Stmt → Bool
  | .cond .. | .switch .. | .whileLoop .. | .forLoop .. | .tryCatch .. | .block .. => true
  | _ => false

/-- The statement can be assigned to: a variable, or a part of one. -/
def checkTarget (target : Expr) : Parse Unit :=
  match target with
  | .var name known pos => do
    if known && (← isConstant name) then failAt (.constantTarget name) pos
  | .this _ | .member _ _ _ => return ()
  | .chain (.var _ _ _) steps | .chain (.this _) steps | .chain (.member _ _ _) steps =>
    if steps.any fun | .method .. => true | _ => false then failAt .noTarget target.pos
    else return ()
  | .literal _ pos => failAt (.constantTarget "") pos
  | e => failAt .noTarget e.pos

/-- The operator of an assignment. -/
def assignmentOp? : Token → Option (Option BinaryOp)
  | .symbol s =>
    match s with
    | "=" => some none
    | "+=" => some (some .add)
    | "-=" => some (some .sub)
    | "*=" => some (some .mul)
    | "/=" => some (some .div)
    | "%=" => some (some .mod)
    | "**=" => some (some .pow)
    | "&=" => some (some .bitAnd)
    | "|=" => some (some .bitOr)
    | "^=" => some (some .bitXor)
    | "<<=" => some (some .shiftLeft)
    | ">>=" => some (some .shiftRight)
    | _ => none
  | _ => none

/-- An expression, or an assignment to it. -/
def parseSimple (rec : Reach) (site : Site) : Parse Stmt := do
  let target ← rec (.expr site.nested)
  let t ← peek
  match assignmentOp? t.token with
  | none => return .expr target
  | some op =>
    let _ ← advance
    let value ← rec (.expr site.nested)
    checkTarget target
    return .assign op target value t.pos

/-- A condition in front of a block. -/
def parseTest (rec : Reach) (site : Site) : Parse Expr := do
  if isSymbol (← peek) "\x7b" then failHere (.missing "a boolean" "in front of a block")
  let test ← checkBoolean (← rec (.expr site.nested))
  let t ← peek
  if (assignmentOp? t.token).isSome then failAt (.unexpected (spelling t.token)) t.pos
  return test

/-- An `if`, the word already taken. -/
def parseCond (rec : Reach) (site : Site) (pos : Pos) : Parse Stmt := do
  let test ← parseTest rec site
  let yes ← rec (.block site.nested)
  if ← acceptKeyword "else" then
    if isKeyword (← peek) "if" then
      return .cond test yes [← rec (.stmt site.nested)] pos
    return .cond test yes (← rec (.block site.nested)) pos
  return .cond test yes [] pos

/-- The pattern that an expression in front of an arrow stands for. -/
def patternOf (e : Expr) : Parse Pattern :=
  match e.constant? with
  | some (.range a b inclusive) => return .range a b inclusive
  | some c => return .literal c
  | none => failAt (.wrongKind "a literal" "an expression") e.pos

/-- Patterns separated by bars. -/
def parsePatterns (rec : Reach) (site : Site) : Parse (List Pattern) := do
  let part := do patternOf (← rec (.expr { site.nested with inPattern := true }))
  let first ← part
  let more ← many do
    if ← acceptSymbol "|" then return some (← part) else return none
  return first :: more

/-- A case of a `switch`. -/
abbrev Arm := List Pattern × Option Expr × Stmt

/-- One case, with what follows it; nothing at the closing brace. Behind the default no other case
can come. -/
def parseArm (rec : Reach) (site : Site) : Parse (Option (Pos × Arm)) := do
  let t ← peek
  if isSymbol t "\x7d" then return none
  if isEnd t then failHere (.missing "\x7d" "to terminate this switch block")
  let patterns ←
    if ← acceptSymbol "_" then pure [Pattern.any] else parsePatterns rec site
  let guard ←
    if ← acceptKeyword "if" then do
      if patterns.any (fun | .any => true | _ => false) then
        failAt (.misplaced "a condition of the default case") t.pos
      pure (some (← parseTest rec site))
    else pure none
  expectSymbol "=>" "in this switch case"
  let body ← rec (.stmt site.nested)
  let next ← peek
  if isSymbol next "," then
    let _ ← advance
  else unless isSymbol next "\x7d" || body.endsItself do
    failHere (.missing "," "to separate the items in this switch block")
  return some (t.pos, (patterns, guard, body))

/-- A range with something in it. -/
def Pattern.isWide : Pattern → Bool
  | .range a b inclusive => if inclusive then a ≤ b else a < b
  | _ => false

/-- Refuses a case behind the default, and a number behind a range. -/
def checkArms (seenDefault seenRange : Bool) : List (Pos × Arm) → Parse Unit
  | [] => return ()
  | (pos, patterns, _, _) :: rest => do
    if seenDefault then failAt .unreachableCase pos
    if seenRange && patterns.any (fun | .literal (.int _) => true | _ => false) then
      failAt .unreachableCase pos
    checkArms (patterns.any fun | .any => true | _ => false)
      (seenRange || patterns.any Pattern.isWide) rest

/-- A `switch`, the word already taken. -/
def parseSwitch (rec : Reach) (site : Site) (pos : Pos) : Parse Stmt := do
  let scrutinee ← rec (.expr site.nested)
  expectSymbol "\x7b" "to start a switch block"
  let arms ← many (parseArm rec site)
  checkArms false false arms
  expectSymbol "\x7d" "to terminate this switch block"
  return .switch scrutinee (arms.map (·.2)) pos

/-- The site of a loop's body. -/
def Site.loop (s : Site) : Site := { s.nested with inLoop := true }

/-- A `for`, the word already taken. -/
def parseFor (rec : Reach) (site : Site) (pos : Pos) : Parse Stmt := do
  let (item, counter) ←
    if ← acceptSymbol "(" then do
      let (item, _) ← bindable
      expectSymbol "," "after the iteration variable name"
      let (counter, counterPos) ← bindable
      if item == counter then failAt (.duplicate "variable" counter) counterPos
      expectSymbol ")" "to close the iteration variable"
      pure (item, some counter)
    else do pure ((← bindable).1, none)
  unless ← acceptKeyword "in" do failHere (.missing "in" "after the iteration variable")
  let items ← rec (.expr site.nested)
  match nonIterableKind? items with
  | some kind => failAt (.wrongKind "an iterable value" kind) items.pos
  | none => pure ()
  let body ← enclosed do
    counter.forM fun name => declareName name false
    declareName item false
    rec (.block site.loop)
  return .forLoop item counter items body pos

/-- A `do`, the word already taken. -/
def parseDo (rec : Reach) (site : Site) : Parse Stmt := do
  let body ← rec (.block site.loop)
  let untilTrue ← acceptKeyword "until"
  unless untilTrue || (← acceptKeyword "while") do
    failHere (.missing "while" "for the do statement")
  let test ← checkBoolean (← rec (.expr { site.nested with inLoop := false }))
  let t ← peek
  if (assignmentOp? t.token).isSome then failAt (.unexpected (spelling t.token)) t.pos
  return .doLoop body test untilTrue

/-- A `let` or `const`, the word already taken. -/
def parseDeclare (rec : Reach) (site : Site) (constant exported : Bool) : Parse Stmt := do
  let (name, pos) ← bindable
  let value ←
    if ← acceptSymbol "=" then do pure (some (← rec (.expr site.nested))) else pure none
  declareName name constant
  return .declare name constant exported value pos

/-- The value behind a word that can stand alone. -/
def parseResult (rec : Reach) (site : Site) : Parse (Option Expr) := do
  let t ← peek
  if isEnd t || isSymbol t ";" || (!site.topLevel && isSymbol t "\x7d") then return none
  return some (← rec (.expr site.nested))

/-- A `try`, the word already taken. -/
def parseTry (rec : Reach) (site : Site) : Parse Stmt := do
  let body ← rec (.block site.nested)
  unless ← acceptKeyword "catch" do failHere (.missing "catch" "for the try statement")
  let caught ←
    if ← acceptSymbol "(" then do
      let (name, _) ← bindable
      expectSymbol ")" "to enclose the catch variable"
      pure (some name)
    else pure none
  let handler ← enclosed do
    caught.forM fun name => declareName name false
    rec (.block site.nested)
  return .tryCatch body caught handler

/-- An `import`, the word already taken. -/
def parseImport (rec : Reach) (site : Site) (pos : Pos) : Parse Stmt := do
  let path ← rec (.expr site.nested)
  if ← acceptKeyword "as" then
    let (name, _) ← bindable
    declareImport name
    return .importModule path (some name) pos
  return .importModule path none pos

/-- An `export`, the word already taken. -/
def parseExport (rec : Reach) (site : Site) (pos : Pos) : Parse Stmt := do
  unless site.topLevel do failAt (.misplaced "export") pos
  if ← acceptKeyword "let" then return ← parseDeclare rec site false true
  if ← acceptKeyword "const" then return ← parseDeclare rec site true true
  let (name, namePos) ← bindable
  if ← acceptKeyword "as" then return .exportVar name (← bindable).1 namePos
  return .exportVar name name namePos

/-- A named function, the word already taken. Its body sees its parameters alone. -/
def parseFunction (rec : Reach) (site : Site) (isPrivate : Bool) (pos : Pos) : Parse Stmt := do
  unless site.topLevel do failAt (.misplaced "fn") pos
  let t ← peek
  let name ← match t.token with
    | .ident name => pure name
    | .reserved word => failAt (.reservedName word) t.pos
    | _ => failHere .nameExpected
  let _ ← advance
  let params ←
    if ← acceptSymbol "()" then pure []
    else do
      expectSymbol "(" ("to start the parameters list of function '" ++ name ++ "'")
      parseParams ")"
  unless isSymbol (← peek) "\x7b" do failHere (.missing "\x7b" "to start the body of a function")
  let before := (← get).functions
  let (body, _) ← inFunction params (rec (.block (.function 0)))
  if before.any fun f => f.name == name && f.params.length == params.length then
    failAt (.duplicate "function" name) pos
  modify fun s => { s with functions := ⟨name, params, body, isPrivate, true⟩ :: s.functions }
  return .skip

/-- A statement that begins with a keyword, the word already taken. -/
def parseKeyword (rec : Reach) (site : Site) (word : String) (pos : Pos) : Parse Stmt := do
  match word with
  | "if" => parseCond rec site pos
  | "switch" => parseSwitch rec site pos
  | "while" =>
    let test ← parseTest rec site
    return .whileLoop (some test) (← rec (.block site.loop))
  | "loop" => return .whileLoop none (← rec (.block site.loop))
  | "do" => parseDo rec site
  | "for" => parseFor rec site pos
  | "break" =>
    unless site.inLoop do failAt (.misplaced "break") pos
    return .breakLoop (← parseResult rec site) pos
  | "continue" =>
    unless site.inLoop do failAt (.misplaced "continue") pos
    return .continueLoop pos
  | "return" => return .ret (← parseResult rec site) pos
  | "throw" => return .throw (← parseResult rec site) pos
  | "try" => parseTry rec site
  | "let" => parseDeclare rec site false false
  | "const" => parseDeclare rec site true false
  | "import" => parseImport rec site pos
  | "export" => parseExport rec site pos
  | "fn" => parseFunction rec site false pos
  | "private" =>
    unless ← acceptKeyword "fn" do failHere (.missing "fn" "after private")
    parseFunction rec site true pos
  | word => failAt (.unexpected word) pos

/-- A statement. Its parts lie one level deeper. -/
def parseStmt (rec : Reach) (site : Site) : Parse Stmt := do
  let t ← peek
  match t.token with
  | .symbol ";" =>
    let _ ← advance
    return .skip
  | .symbol "\x7b" => return .block (← rec (.block site.nested)) t.pos
  | .keyword word =>
    let inner := { ← deepen site with topLevel := site.topLevel }
    if word == "true" || word == "false" then parseSimple rec inner
    else
      let _ ← advance
      parseKeyword rec inner word t.pos
  | _ => parseSimple rec (← deepen site)

/-- What must follow a statement: a semicolon, unless the statement or what it stands in ends. -/
def endStmt (s : Stmt) (close : Located → Bool) : Parse Unit := do
  match s with
  | .skip => return ()
  | s =>
    let t ← peek
    if close t || s.endsItself then return ()
    unless ← acceptSymbol ";" do failHere (.missing ";" "to terminate this statement")

/-- Statements up to the end of what they stand in; empty ones are dropped. -/
def parseStmts (rec : Reach) (site : Site) (close : Located → Bool) : Parse (List Stmt) := do
  let found ← many do
    let t ← peek
    if close t then return none
    if isEnd t then failHere (.missing "\x7d" "to terminate this block")
    let s ← rec (.stmt site)
    endStmt s close
    return some s
  return found.filter fun | .skip => false | _ => true

/-- Statements between braces. The variables they declare are out of sight behind them. -/
def parseBlock (rec : Reach) (site : Site) : Parse (List Stmt) := do
  expectSymbol "\x7b" "to start a statement block"
  let inner ← deepen site
  let body ← enclosed (parseStmts rec inner (isSymbol · "\x7d"))
  expectSymbol "\x7d" "to terminate this block"
  return body

/-- Answers a goal, at most `depth` goals deep. -/
def parseGoal : Nat → (g : Goal) → Parse g.Result
  | 0, .expr _ | 0, .operators _ _ _ | 0, .operand _ | 0, .stmt _ | 0, .block _ =>
    failHere .sourceEnds
  | depth + 1, g =>
    let rec' : Reach := fun g => parseGoal depth g
    match g with
    | .expr site => parseExpr rec' site
    | .operators site floor left => do
      parseOperators rec' site floor ((← get).rest.length + 1) left
    | .operand site => parseOperand rec' site
    | .stmt site => parseStmt rec' site
    | .block site => parseBlock rec' site

/-- The goals that can lie between two tokens, and some to spare. -/
def goalsPerToken : Nat := 8

/-- Reads a source. -/
def Script.parse (source : String) : Except SyntaxError Script := do
  let toks := tokens source
  let reach : Reach := fun g => parseGoal (goalsPerToken * (toks.length + 2)) g
  let (body, s) ← (parseStmts reach .script isEnd).run ⟨toks, [], [], [], []⟩
  return ⟨s.functions.reverse, body⟩

end Stagehand.Lang
