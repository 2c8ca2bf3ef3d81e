import Stagehand.Lang.Chain

/-!
# Evaluation

`step` does one job, with other jobs done by its argument; `evaluate` ties the knot, with a budget
that every job inside another takes one from. A budget that is enough yields the same as any larger
one.
-/

namespace Stagehand.Lang

open Eval

/-- Evaluates an expression to a value that is no cell. -/
def flat (run : Run) (e : Expr) : Eval Value := do flatten (← run (.expr e))

/-- Evaluates a condition. -/
def evalTest (run : Run) (e : Expr) : Eval Bool := do
  match ← flat run e with
  | .bool b => return b
  | v => raise (.wrongType v.typeName "bool") (some e.pos)

/-- Evaluates the name of a variable; a cell stays a cell. -/
def readName (stage : Stage) (name : String) (known : Bool) (pos : Pos) : Eval Value := do
  match ← slot stage name known (some pos) with
  | .fixed v => return v
  | .var x => return x.held.value

/-- Where the first argument of a function stands: what a built-in function makes of it stays there,
unless it is a copy, or cannot change at all. -/
inductive Receiver where
  | copy
  | constant
  | var (x : Var)
  | this (held : Held)

/-- Evaluates arguments. A variable that comes first is read after the others; a constant or shared
one is copied. -/
def evalArgs (stage : Stage) (run : Run) (args : List Expr) : Eval (List Value × Receiver) := do
  match args with
  | .var name known pos :: rest =>
    let rest ← rest.mapM (flat run)
    match ← slot stage name known (some pos) with
    | .fixed v => return (v :: rest, .copy)
    | .var x =>
      let v ← flatten x.held.value
      match x.held with
      | ⟨.shared _, _⟩ | ⟨_, some _⟩ => return (v :: rest, .copy)
      | _ => return (v :: rest, .var x)
  | .this pos :: rest =>
    let rest ← rest.mapM (flat run)
    match (← get).frame.this with
    | none => raise .unboundThis (some pos)
    | some held =>
      return (held.value :: rest, if held.isConstant then .copy else .this held)
  | .member .. :: _ => return (← args.mapM (flat run), .constant)
  | args => return (← args.mapM (flat run), .copy)

/-- Keeps what a built-in function made of its first argument. -/
def Receiver.keep (r : Receiver) (v : Value) : Eval Unit :=
  match r with
  | .var x => setVar x v
  | .this held => modifyFrame fun f => { f with this := some (held.put v) }
  | .copy | .constant => return ()

/-- The receiver cannot change. -/
def Receiver.isConstant : Receiver → Bool
  | .constant => true
  | _ => false

/-- Calls a function. -/
def evalCall (stage : Stage) (run : Run) (name : String) (args : List Expr) (pos : Pos) :
    Eval Value := do
  let (values, receiver) ← evalArgs stage run args
  match languageCall stage run name values (some pos) with
  | some x => x
  | none =>
    let free := match receiver with
      | .var _ | .this _ => values.tail
      | .copy | .constant => values
    ensureFree name free (some pos)
    match ← function? name values.length with
    | some f => valueOf (← callFunction run f values none .byName (some pos))
    | none =>
      let upshot ← callBuiltIn stage run name receiver.isConstant values (some pos)
      upshot.changed.forM receiver.keep
      valueOf upshot

/-- Calls a function of a library. -/
def evalMemberCall (stage : Stage) (run : Run) (path : ModulePath) (name : String)
    (args : List Expr) (pos : Pos) : Eval Value := do
  let (values, _) ← evalArgs stage run args
  let (root, m) ← library path
  match m.functions.find? fun f =>
      f.name == name && f.params.length == values.length && !f.isPrivate with
  | some f => valueOf (← callFunction run f values none (.inLibrary m root.path) (some pos))
  | none => raise (.functionNotFound (signature (path.member name) values)) (some pos)

/-- Makes a closure: the variables that it captures become cells, and the cells its first
arguments. -/
def evalClosure (stage : Stage) (name : String) (captured : List (String × Pos)) : Eval Value := do
  captured.forM fun (x, pos) => do
    match ← var? x with
    | some v => shareVar v
    | none => raise (.variableNotFound x) (some pos)
  let curried ← captured.mapM fun (x, pos) => readName stage x false pos
  return .fn name curried ((← anyFunction? name).filter (·.linked))

/-- Evaluates an expression. -/
def evalExpr (stage : Stage) (run : Run) (e : Expr) : Eval Value :=
  match e with
  | .literal c _ => return .ofLiteral c
  | .builtin name _ =>
    match stage.builtin? name with
    | some c => return .handle c
    | none => return .unit
  | .template parts _ => do
    let values ← parts.mapM (flat run)
    return .str (String.join (values.map Value.text))
  | .array items _ => do return .array (← items.mapM (flat run))
  | .object fields _ => do
    let values ← fields.mapM fun (k, e) => do return (k, ← flat run e)
    return .object (Entries.ofList values)
  | .var name known pos => readName stage name known pos
  | .this pos => do
    match (← get).frame.this with
    | some held => return held.value
    | none => raise .unboundThis (some pos)
  | .member path name pos => evalMember path name pos
  | .call name args pos => evalCall stage run name args pos
  | .memberCall path name args pos => evalMemberCall stage run path name args pos
  | .unary op operand pos => do orRaise (op.apply (← flat run operand)) (some pos)
  | .binary op l r pos => do
    let a ← flat run l
    let b ← flat run r
    orRaise (op.apply a b) (some pos)
  | .and l r _ => do
    if ← evalTest run l then return .bool (← evalTest run r) else return .bool false
  | .or l r _ => do
    if ← evalTest run l then return .bool true else return .bool (← evalTest run r)
  | .coalesce l r _ => do
    match ← flat run l with
    | .unit => run (.expr r)
    | v => return v
  | .chain base steps => evalChain stage run none base steps
  | .control (.block body _) _ => run (.block body)
  | .control s _ => run (.stmt s)
  | .closure name captured _ => evalClosure stage name captured

/-! ## Statements -/

/-- Declares a variable. While the top level runs, its functions see its constants. -/
def evalDeclare (run : Run) (name : String) (constant exported : Bool) (value : Option Expr) :
    Eval Value := do
  let v ← match value with
    | some e => flat run e
    | none => pure .unit
  let f := (← get).frame
  if constant && f.level == 0 && f.functions.any (!·.isEmpty) then
    modifyFrame fun f => { f with constants := f.constants.map (Entries.put name v) }
  pushVar
    { name
      held := if constant then .const v else { value := v }
      aliases := if exported then [name] else [] }
  return .unit

/-- The first of some cases whose condition holds. -/
def chooseArm (run : Run) : List (Option Expr × Stmt) → Eval (Option Stmt)
  | [] => return none
  | (none, body) :: _ => return some body
  | (some test, body) :: rest => do
    if ← evalTest run test then return some body else chooseArm run rest

/-- The cases of a `switch` for a value: those that name it, or else those whose range it is in. -/
def armsFor (v : Value) (arms : List (List Pattern × Option Expr × Stmt)) :
    List (Option Expr × Stmt) :=
  let matching := fun (accepts : Pattern → Bool) =>
    arms.flatMap fun (patterns, guard, body) =>
      (patterns.filter accepts).map fun _ => (guard, body)
  match matching (fun | .literal c => v.same (.ofLiteral c) | _ => false) with
  | [] => matching (fun | .range a b inclusive => rangeAccepts a b inclusive v | _ => false)
  | found => found

/-- The default case of a `switch`. -/
def defaultArm? (arms : List (List Pattern × Option Expr × Stmt)) : Option Stmt :=
  (arms.find? fun (patterns, _, _) => patterns.any fun | .any => true | _ => false).map (·.2.2)

/-- A `switch`. -/
def evalSwitch (run : Run) (v : Value) (arms : List (List Pattern × Option Expr × Stmt)) :
    Eval Value := do
  match (← chooseArm run (armsFor v arms)).or (defaultArm? arms) with
  | some (.block body _) => run (.block body)
  | some s => run (.block [s])
  | none => return .unit

/-- What a loop can run over. -/
def itemsOf (v : Value) (pos : Pos) : Eval Items :=
  match v with
  | .array items => return .list items
  | .str s => return .list (s.toList.map .char)
  | .blob bytes => return .list (bytes.map fun b => countValue b.toNat)
  | .range first last inclusive =>
    return .span first.toInt (if inclusive then last.toInt + 1 else last.toInt)
  | _ => raise .notIterable (some pos)

/-- Executes the body of a loop once: whether the loop goes on, or the value that it ends with. -/
def evalRound (run : Run) (body : List Stmt) : Eval (Option Value) := do
  match ← attempt (run (.block body)) with
  | .ok _ | .error .again => return none
  | .error (.leave v) => return some v
  | .error h => throw h

/-- One round of a `for` loop, with its variables. -/
def evalItem (run : Run) (item : String) (counter : Option String) (v : Value) (index : Nat)
    (body : List Stmt) : Eval (Option Value) := enclosed do
  counter.forM fun name => bind name (countValue index)
  bind item v
  evalRound run body

/-- Handles a fault. What is thrown without a value in the handler is the fault itself, from there.
-/
def evalHandler (run : Run) (f : Fault) (caught : Option String) (handler : List Stmt) :
    Eval Value := enclosed do
  let source := (← get).frame.source
  caught.forM fun name => bind name (f.caught source)
  match ← attempt (run (.block handler)) with
  | .ok _ => return .unit
  | .error (.fault (.raised (.thrown .unit) pos)) => throw (.fault (f.movedTo pos))
  | .error h => throw h

/-- A `try`. -/
def evalTry (run : Run) (body : List Stmt) (caught : Option String) (handler : List Stmt) :
    Eval Value := do
  match ← attempt (run (.block body)) with
  | .ok _ => return .unit
  | .error (.fault f) => if f.catchable then evalHandler run f caught handler else throw (.fault f)
  | .error h => throw h

/-- An `import`. -/
def evalImport (stage : Stage) (run : Run) (path : Expr) (name : Option String) (pos : Pos) :
    Eval Value := do
  match ← flat run path with
  | .str text =>
    let m ← importLibrary stage run text (some pos)
    name.forM fun name => modifyFrame fun f => { f with imports := (name, m) :: f.imports }
    return .unit
  | v => raise (.wrongType v.typeName "string") (some path.pos)

/-- The value behind a word that can stand alone. -/
def evalOption (run : Run) (value : Option Expr) : Eval Value :=
  match value with
  | some e => flat run e
  | none => return .unit

/-- Executes a statement. -/
def evalStmt (stage : Stage) (run : Run) (s : Stmt) : Eval Value :=
  match s with
  | .skip => return .unit
  | .expr e => run (.expr e)
  | .declare name constant exported value _ => evalDeclare run name constant exported value
  | .assign op target value pos => do
    store stage run op (← flat run value) pos target
    return .unit
  | .cond test yes no _ => do
    if ← evalTest run test then run (.block yes) else run (.block no)
  | .switch e arms _ => do evalSwitch run (← flat run e) arms
  | .whileLoop test body => run (.whileLoop test body)
  | .doLoop body test untilTrue => run (.doLoop body test untilTrue)
  | .forLoop item counter items body _ => do
    let source ← itemsOf (← flat run items) items.pos
    run (.forLoop item counter source 0 body)
  | .breakLoop value _ => do throw (.leave (← evalOption run value))
  | .continueLoop _ => throw .again
  | .ret value _ => do throw (.ret (← evalOption run value))
  | .throw value pos => do raise (.thrown (← evalOption run value)) (some pos)
  | .tryCatch body caught handler => evalTry run body caught handler
  | .importModule path name pos => evalImport stage run path name pos
  | .exportVar name visible pos => do
    match ← var? name with
    | none => raise (.variableNotFound name) (some pos)
    | some _ =>
      let export' := fun (v : Var) => { v with aliases := v.aliases ++ [visible] }
      modifyFrame fun f => { f with vars := alterVar name export' f.vars }
      return .unit
  | .block body _ => run (.block body)

/-- Executes statements; the value is that of the last one. -/
def evalStmts (run : Run) : List Stmt → Eval Value
  | [] => return .unit
  | [s] => run (.stmt s)
  | s :: rest => do
    let _ ← run (.stmt s)
    evalStmts run rest

/-- Executes a block; what it declares is out of sight behind it. -/
def evalBlock (run : Run) (body : List Stmt) : Eval Value := enclosed do
  modifyFrame fun f => { f with level := f.level + 1 }
  flatten (← evalStmts run body)

/-- The condition of a loop, which goes on for ever if it has none. -/
def loopTest (run : Run) : Option Expr → Eval Bool
  | some e => evalTest run e
  | none => return true

/-- Goes on with a loop as long as its condition holds. -/
def evalWhile (run : Run) (test : Option Expr) (body : List Stmt) : Eval Value := do
  if !(← loopTest run test) then return .unit
  match ← evalRound run body with
  | some v => return v
  | none => run (.whileLoop test body)

/-- Does one job. -/
def step (stage : Stage) (run : Run) (job : Job) : Eval Value :=
  match job with
  | .expr e => evalExpr stage run e
  | .stmt s => evalStmt stage run s
  | .stmts body => evalStmts run body
  | .block body => evalBlock run body
  | .whileLoop test body => evalWhile run test body
  | .doLoop body test untilTrue => do
    match ← evalRound run body with
    | some v => return v
    | none =>
      if (← evalTest run test) == untilTrue then return .unit
      run (.doLoop body test untilTrue)
  | .forLoop item counter items index body => do
    match items.next? with
    | none => return .unit
    | some (v, rest) =>
      match ← evalItem run item counter v index body with
      | some v => return v
      | none => run (.forLoop item counter rest (index + 1) body)

/-- Does a job, with at most `budget` jobs inside one another. -/
def evaluate (stage : Stage) : Nat → Run
  | 0, _ => fun _ => none
  | budget + 1, job => step stage (evaluate stage budget) job

end Stagehand.Lang
