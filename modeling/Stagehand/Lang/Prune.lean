import Stagehand.Lang.Purity

/-!
# Pruning

Before a script runs, what has no effect is taken out of it: statements behind a jump, pure
statements whose value is not used, branches that a constant condition excludes, handlers of blocks
that cannot fail. Operators on constants are replaced by their result, and the name of a constant by
the constant. Each change can make room for another, so a block is gone over until nothing changes.
What is left also tells which libraries a script imports for certain: those whose imports stand in
it with a constant text.
-/

namespace Stagehand.Lang

/-- What pruning knows: whether anything changed, and the variables in sight, the innermost first,
with their value where that is a constant. -/
structure Pruning where
  changed : Bool
  known : List (String × Option Expr)

/-- A pruning pass. -/
abbrev Prune := StateM Pruning

namespace Prune

/-- Something was replaced. -/
def replaced {α : Type} (a : α) : Prune α := do
  modify fun s => { s with changed := true }
  return a

/-- Brings a variable in sight. -/
def declare (name : String) (value : Option Expr) : Prune Unit :=
  modify fun s => { s with known := (name, value) :: s.known }

/-- Runs a pass, then forgets the variables it brought in sight. -/
def enclosed {α : Type} (x : Prune α) : Prune α := do
  let before := (← get).known
  let a ← x
  modify fun s => { s with known := before }
  return a

end Prune

open Prune

mutual

/-- The statements that stand for a statement: a block that declares nothing is its statements. -/
def Stmt.flat : Stmt → List Stmt
  | .block body pos =>
    if body.any Stmt.declares then [.block body pos] else Stmt.flatAll body
  | s => [s]

/-- Statements without blocks that declare nothing. -/
def Stmt.flatAll : List Stmt → List Stmt
  | [] => []
  | s :: rest => s.flat ++ Stmt.flatAll rest

end

/-- A block that declares nothing. -/
def Stmt.isFree : Stmt → Bool
  | .block body _ => !body.any Stmt.declares
  | _ => false

/-- Statements up to the first jump. -/
def reached : List Stmt → List Stmt
  | [] => []
  | s :: rest => if s.jumps then [s] else s :: reached rest

/-- The statement keeps the local statements before it. -/
def Stmt.keepsLocals (idle : Stmt → Bool) (s : Stmt) : Bool :=
  !idle s ||
    match s with
    | .declare _ _ _ value _ => (value.map Expr.isConstant).getD true
    | .expr e => !e.isConstant
    | .importModule path _ _ => !path.isConstant
    | _ => false

/-- Drops statements without effect. Where `keepsLast` holds, the last one stays; local statements
go only from behind the last one that keeps them. -/
def dropIdle (idle : Stmt → Bool) (keepsLast : Bool) : List Stmt → List Stmt
  | [] => []
  | s :: rest =>
    if keepsLast && rest.isEmpty then [s]
    else if s.isPure || (idle s && !rest.any (Stmt.keepsLocals idle)) then
      dropIdle idle keepsLast rest
    else s :: dropIdle idle keepsLast rest

/-- Drops statements without effect and value from the end, which comes first here. In a block whose
value counts, one that follows a value becomes an empty statement. -/
def trimTail (idle : Stmt → Bool) (used : Bool) : List Stmt → List Stmt
  | [] => []
  | s :: rest =>
    if !idle s || (used && s.yields) then s :: rest
    else if used && (rest.head?.map Stmt.yields).getD false then .skip :: rest
    else trimTail idle used rest

/-- The statements of an expression that stands for them. -/
def Stmt.inside : Stmt → List Stmt
  | .block body _ => body
  | s => [s]

/-! ## Folding -/

/-- The constant at another place. -/
def Expr.movedTo (pos : Pos) : Expr → Expr
  | .literal c _ => .literal c pos
  | .builtin name _ => .builtin name pos
  | .closure name captured _ => .closure name captured pos
  | .array items _ => .array items pos
  | .object fields _ => .object fields pos
  | e => e

/-- The operator is one that the language itself has for these values. -/
def BinaryOp.isOwn (op : BinaryOp) (a b : Value) : Bool :=
  let compares := [BinaryOp.eq, .ne, .lt, .le, .gt, .ge].contains op
  match a, b with
  | .int _, .int _ | .float _, .float _ | .int _, .float _ | .float _, .int _ | .bool _, .bool _
  | .unit, .unit | .str _, .str _ | .char _, .char _ | .str _, .char _ | .char _, .str _ => true
  | .range .., .range .. => op == .eq || op == .ne
  | a, b => compares && a.typeName != b.typeName

/-- The operator between two constants, as a constant. -/
def foldBinary (op : BinaryOp) (l r : Expr) (pos : Pos) : Option Expr := do
  let a ← l.value?
  let b ← r.value?
  if !op.isOwn a b then none
  let v ← (op.apply a b).toOption
  return .literal (← v.toLiteral?) pos

/-- The operator in front of a constant, as a constant. -/
def foldUnary (op : UnaryOp) (e : Expr) (pos : Pos) : Option Expr := do
  let v ← (op.apply (← e.value?)).toOption
  return .literal (← v.toLiteral?) pos

/-- The type of a constant, as a constant. -/
def foldType (e : Expr) (pos : Pos) : Option Expr := do
  return .literal (.str (← e.value?).typeName) pos

/-- A call on constants that the language knows the answer of. -/
def foldCall (name : String) (args : List Expr) (pos : Pos) : Option Expr :=
  match name, args with
  | "type_of", [e] => foldType e pos
  | _, _ => none

/-- The place of an index in a sequence, from the end if it is negative. -/
def foldPlace? (index : Int64) (length : Nat) : Option Nat :=
  let n := index.toInt
  let i := if 0 ≤ n then n else length + n
  if 0 ≤ i && i < length then some i.toNat else none

/-- The field of an object, all of whose fields are pure; the unit if it is missing. -/
def foldField (fields : List (String × Expr)) (name : String) (pos : Pos) : Option Expr :=
  if Expr.fieldsPure fields then
    match fields.find? (·.1 == name) with
    | some (_, e) => some (e.movedTo pos)
    | none => some (.literal .unit pos)
  else none

/-- The field of a constant object. -/
def foldConstantField (c : Expr) (name : String) (pos : Pos) : Option Expr :=
  match c with
  | .literal (.object fields) _ => some (.literal ((Entries.get? name fields).getD .unit) pos)
  | .object fields _ => foldField fields name pos
  | _ => none

/-- A chain that can be taken at once: a first step that the unit is safe from, or the only step,
into something that is written out in front of it. -/
def foldChain (base : Expr) (steps : List Step) : Option Expr :=
  match base, steps with
  | .literal .unit p, .property _ true _ :: _ | .literal .unit p, .method _ _ true _ :: _
  | .literal .unit p, .index _ true _ :: _ => some (.literal .unit p)
  | .object fields p, [.property name _ _] => foldField fields name p
  | .object fields p, [.index (.literal (.str name) _) _ _] => foldField fields name p
  | .array items p, [.index (.literal (.int n) _) _ _] =>
    if Expr.allPure items then
      ((foldPlace? n items.length).bind (items[·]?)).map (·.movedTo p)
    else none
  | .literal (.int bits) p, [.index (.literal (.int n) _) _ _] =>
    (foldPlace? n 64).map fun i =>
      .literal (.bool ((bits >>> Int64.ofNat i) &&& 1 == 1)) p
  | .literal (.str s) p, [.index (.literal (.int n) _) _ _] =>
    ((foldPlace? n s.length).bind (s.toList[·]?)).map fun c => .literal (.char c) p
  | e, [.method "type_of" [] _ p] => foldType e p
  | _, _ => none

/-- The operands of conjunctions that begin with one another. -/
def Expr.conjuncts : Expr → List Expr
  | .and l r _ => l.conjuncts ++ [r]
  | e => [e]

/-- The operands of disjunctions that begin with one another. -/
def Expr.disjuncts : Expr → List Expr
  | .or l r _ => l.disjuncts ++ [r]
  | e => [e]

/-- Operands up to the first that is `stop`, without those that are not; each is asked only if the
ones before it left the result open. -/
def settle (stop : Bool) : List Expr → List Expr
  | [] => []
  | .literal (.bool b) p :: rest =>
    if b == stop then [.literal (.bool b) p] else settle stop rest
  | e :: rest => e :: settle stop rest

/-- Operands joined from the left; `empty` if there are none. -/
def joined (join : Expr → Expr → Expr) (empty : Expr) : List Expr → Expr
  | [] => empty
  | e :: rest => rest.foldl join e

/-- Parts of a template without those that show nothing, and with neighbouring pieces of text put
together. -/
def mergeParts : List Expr → List Expr
  | [] => []
  | [e] => [e]
  | e :: f :: rest =>
    match e, mergeParts (f :: rest) with
    | .literal (.str s) p, .literal (.str t) _ :: more => .literal (.str (s ++ t)) p :: more
    | .literal .unit _, more => more
    | e, [.literal .unit _] => [e]
    | .literal (.str "") _, more => more
    | e, [.literal (.str "") _] => [e]
    | e, more => e :: more

/-- The operators that an assignment can be combined with. -/
def BinaryOp.canAssign : BinaryOp → Bool
  | .add | .sub | .mul | .div | .mod | .pow | .bitAnd | .bitOr | .bitXor | .shiftLeft
  | .shiftRight => true
  | _ => false

/-- The operator, its other operand and its place, if a variable is assigned what the operator makes
of the variable itself. -/
def combined? (target value : Expr) : Option (BinaryOp × Expr × Pos) :=
  match target, value with
  | .var name _ _, .binary op (.var other _ _) r pos =>
    if name == other && op.canAssign then some (op, r, pos) else none
  | _, _ => none

/-- The case can never be chosen. -/
def neverChosen : List Pattern × Option Expr × Stmt → Bool
  | (_, some (.literal (.bool false) _), _) => true
  | _ => false

/-- Cases without those that a case before them takes everything from. -/
def withoutTaken (taken : List Value) :
    List (List Pattern × Option Expr × Stmt) → List (List Pattern × Option Expr × Stmt)
  | [] => []
  | (patterns, guard, body) :: rest =>
    let free := patterns.filter fun
      | .literal c => !taken.any fun v => v.same (.ofLiteral c)
      | _ => true
    let here := patterns.filterMap fun
      | .literal c => some (Value.ofLiteral c)
      | _ => none
    let rest := withoutTaken (if guard.isNone then here ++ taken else taken) rest
    if free.isEmpty then rest else (free, guard, body) :: rest

/-! ## The passes -/

mutual

/-- Prunes an expression. -/
def pruneExpr : Nat → Expr → Prune Expr
  | 0, e => return e
  | n + 1, e => do
    let expr := pruneExpr n
    match e with
    | .literal .. | .builtin .. | .this _ | .member .. | .closure .. => return e
    | .var name _ pos =>
      match (← get).known.find? (·.1 == name) with
      | some (_, some c) => replaced (c.movedTo pos)
      | _ => return e
    | .template parts pos =>
      match e.value? with
      | some (.str s) => replaced (.literal (.str s) pos)
      | _ =>
        let pruned ← parts.mapM expr
        let merged := mergeParts pruned
        if merged.length < pruned.length then replaced (.template merged pos)
        else return .template merged pos
    | .array items pos =>
      match e.constant? with
      | some c => replaced (.literal c pos)
      | none => return .array (← items.mapM expr) pos
    | .object fields pos =>
      match e.constant? with
      | some c => replaced (.literal c pos)
      | none => return .object (← fields.mapM fun (k, v) => do return (k, ← expr v)) pos
    | .call name args pos =>
      match foldCall name args pos with
      | some c => replaced c
      | none => return .call name (← args.mapM expr) pos
    | .memberCall path name args pos => return .memberCall path name (← args.mapM expr) pos
    | .unary op operand pos =>
      match foldUnary op operand pos with
      | some c => replaced c
      | none => return .unary op (← expr operand) pos
    | .binary op l r pos =>
      match foldBinary op l r pos with
      | some c => replaced c
      | none => return .binary op (← expr l) (← expr r) pos
    | .and l r pos =>
      let all := l.conjuncts ++ [r]
      let open' := settle false all
      let result := joined (.and · · pos) (.literal (.bool true) pos) (← open'.mapM expr)
      if open'.length < all.length then replaced result else return result
    | .or l r pos =>
      let all := l.disjuncts ++ [r]
      let open' := settle true all
      let result := joined (.or · · pos) (.literal (.bool false) pos) (← open'.mapM expr)
      if open'.length < all.length then replaced result else return result
    | .coalesce (.literal .unit _) r _ => replaced r
    | .coalesce l r pos =>
      if l.isConstant then replaced l else return .coalesce (← expr l) (← expr r) pos
    | .chain base steps => pruneChain n base steps
    | .control s pos =>
      match s.inside with
      | [] => replaced (.literal .unit pos)
      | [.expr e] => replaced (← expr e)
      | body =>
        match ← pruneBlock n true true body with
        | [.expr e] => replaced e
        | body => return .control (.block body pos) pos

/-- Prunes a chain. -/
def pruneChain : Nat → Expr → List Step → Prune Expr
  | 0, base, steps => return .chain base steps
  | n + 1, base, steps => do
    match foldChain base steps with
    | some e => replaced e
    | none =>
      match base, steps with
      | .var name _ _, [.property key _ pos] =>
        match (← get).known.find? (·.1 == name) with
        | some (_, some c) =>
          match foldConstantField c key pos with
          | some e => replaced e
          | none => return .chain base steps
        | _ => return .chain base steps
      | .var .., steps => return .chain base (← steps.mapM (pruneStep n))
      | base, steps => return .chain (← pruneExpr n base) (← steps.mapM (pruneStep n))

/-- Prunes what a step of a chain holds. -/
def pruneStep : Nat → Step → Prune Step
  | 0, s => return s
  | n + 1, s => do
    match s with
    | .property .. => return s
    | .method name args safe pos => return .method name (← args.mapM (pruneExpr n)) safe pos
    | .index key safe pos => return .index (← pruneExpr n key) safe pos

/-- Prunes what is assigned to: the variable stays. -/
def pruneTarget : Nat → Expr → Prune Expr
  | 0, e => return e
  | n + 1, e => do
    match e with
    | .chain base steps => return .chain base (← steps.mapM (pruneStep n))
    | e => return e

/-- Prunes a statement. `used` says that the value of its block counts. -/
def pruneStmt : Nat → Bool → Stmt → Prune Stmt
  | 0, _, s => return s
  | n + 1, used, s => do
    let expr := pruneExpr n
    let inner := pruneBlock n
    match s with
    | .skip | .continueLoop _ | .exportVar .. => return s
    | .expr (.control s pos) =>
      match s.inside with
      | [] => replaced .skip
      | body => replaced (.block (← inner used true body) pos)
    | .expr e => return .expr (← expr e)
    | .declare name constant exported value pos =>
      let value ← value.mapM expr
      let init := value.getD (.literal .unit pos)
      declare name (if constant && init.isConstant then some init else none)
      return .declare name constant exported value pos
    | .assign op target value pos =>
      match op, combined? target value with
      | none, some (op, value, opPos) => replaced (.assign (some op) target value opPos)
      | op, _ => return .assign op (← pruneTarget n target) (← expr value) pos
    | .cond test [] [] pos =>
      let test ← expr test
      replaced (if used then .block [.expr test, .skip] pos else .expr test)
    | .cond (.literal (.bool b) _) yes no pos =>
      match ← inner used true (if b then yes else no) with
      | [] => replaced .skip
      | body => replaced (.block body pos)
    | .cond test yes no pos =>
      return .cond (← expr test) (← inner used true yes) (← inner used true no) pos
    | .switch e arms pos =>
      let e ← expr e
      let pruned ← arms.mapM fun (patterns, guard, body) => do
        let guard ← guard.mapM expr
        match ← expr (.control body pos) with
        | .control body _ => return (patterns, guard, body)
        | e => return (patterns, guard, Stmt.expr e)
      let left := withoutTaken [] (pruned.filter (!neverChosen ·))
      if left.length < arms.length then replaced (.switch e left pos)
      else return .switch e left pos
    | .whileLoop (some (.literal (.bool false) _)) _ => replaced .skip
    | .whileLoop test body =>
      return .whileLoop (← test.mapM expr) (← inner false true body)
    | .doLoop body test untilTrue =>
      let test ← expr test
      return .doLoop (← inner false true body) test untilTrue
    | .forLoop item counter items body pos =>
      return .forLoop item counter (← expr items) (← inner false true body) pos
    | .breakLoop value pos => return .breakLoop (← value.mapM expr) pos
    | .ret value pos => return .ret (← value.mapM expr) pos
    | .throw value pos => return .throw (← value.mapM expr) pos
    | .tryCatch body caught handler =>
      if Stmt.allPure body then
        replaced (.block (← inner false true body) ⟨1, 1⟩)
      else
        let body ← inner false true body
        return .tryCatch body caught (← inner false true handler)
    | .importModule path name pos => return .importModule (← expr path) name pos
    | .block body pos =>
      match ← inner used true body with
      | [] => replaced .skip
      | [s] => if s.declares then return .block [s] pos else replaced s
      | body => return .block body pos

/-- Prunes a block, whose own blocks first become part of it where they declare nothing. `used` says
that its value counts, `isInner` that it ends the scope of what it declares. -/
def pruneBlock : Nat → Bool → Bool → List Stmt → Prune (List Stmt)
  | 0, _, _, body => return body
  | n + 1, used, isInner, body => do
    let before := (← get).changed
    let flat := Stmt.flatAll body
    let result ← pruneRounds n used isInner flat
    if before || body.any Stmt.isFree then replaced result else return result

/-- Goes over a block until nothing changes. -/
def pruneRounds : Nat → Bool → Bool → List Stmt → Prune (List Stmt)
  | 0, _, _, body => return body
  | n + 1, used, isInner, body => do
    modify fun s => { s with changed := false }
    let idle := if isInner then Stmt.isLocal else Stmt.isPure
    let live := reached body
    let pruned ← enclosed (live.mapM (pruneStmt n used))
    let trimmed := (trimTail idle used (dropIdle idle used pruned).reverse).reverse
    if (← get).changed || trimmed.length != body.length then
      let result ← pruneRounds n used isInner trimmed
      replaced result
    else return trimmed

end

/-! ## The imports of a script -/

mutual

/-- The texts of the constant imports in an expression. -/
def Expr.imports : Expr → List String
  | .template parts _ => Expr.allImports parts
  | .array items _ => Expr.allImports items
  | .object fields _ => Expr.fieldImports fields
  | .call _ args _ => Expr.allImports args
  | .memberCall _ _ args _ => Expr.allImports args
  | .unary _ e _ => e.imports
  | .binary _ l r _ | .and l r _ | .or l r _ | .coalesce l r _ => l.imports ++ r.imports
  | .chain base steps => base.imports ++ Step.allImports steps
  | .control s _ => s.imports
  | _ => []

/-- The texts of the constant imports in expressions. -/
def Expr.allImports : List Expr → List String
  | [] => []
  | e :: rest => e.imports ++ Expr.allImports rest

/-- The texts of the constant imports in the fields of an object. -/
def Expr.fieldImports : List (String × Expr) → List String
  | [] => []
  | (_, e) :: rest => e.imports ++ Expr.fieldImports rest

/-- The texts of the constant imports in an expression that can be missing. -/
def Expr.optionImports : Option Expr → List String
  | none => []
  | some e => e.imports

/-- The texts of the constant imports in the steps of a chain. -/
def Step.allImports : List Step → List String
  | [] => []
  | .property _ _ _ :: rest => Step.allImports rest
  | .method _ args _ _ :: rest => Expr.allImports args ++ Step.allImports rest
  | .index key _ _ :: rest => key.imports ++ Step.allImports rest

/-- The texts of the constant imports in a statement. -/
def Stmt.imports : Stmt → List String
  | .skip | .continueLoop _ | .exportVar _ _ _ => []
  | .expr e => e.imports
  | .declare _ _ _ value _ => Expr.optionImports value
  | .assign _ target value _ => target.imports ++ value.imports
  | .cond test yes no _ => test.imports ++ Stmt.allImports yes ++ Stmt.allImports no
  | .switch e arms _ => e.imports ++ Stmt.armImports arms
  | .whileLoop test body => Expr.optionImports test ++ Stmt.allImports body
  | .doLoop body test _ => Stmt.allImports body ++ test.imports
  | .forLoop _ _ items body _ => items.imports ++ Stmt.allImports body
  | .breakLoop value _ => Expr.optionImports value
  | .ret value _ => Expr.optionImports value
  | .throw value _ => Expr.optionImports value
  | .tryCatch body _ handler => Stmt.allImports body ++ Stmt.allImports handler
  | .importModule (.literal (.str text) _) _ _ => [text]
  | .importModule path _ _ => path.imports
  | .block body _ => Stmt.allImports body

/-- The texts of the constant imports in statements. -/
def Stmt.allImports : List Stmt → List String
  | [] => []
  | s :: rest => s.imports ++ Stmt.allImports rest

/-- The texts of the constant imports in the cases of a `switch`. -/
def Stmt.armImports : List (List Pattern × Option Expr × Stmt) → List String
  | [] => []
  | (_, guard, s) :: rest => Expr.optionImports guard ++ s.imports ++ Stmt.armImports rest

end

namespace Script

/-- A script without what has no effect. The names in `constants` stand for references of the
host. `depth` bounds how often a block is gone over, and how deep blocks lie inside one another. -/
def prune (script : Script) (constants : List String) (depth : Nat := 1000) : Script :=
  let known := constants.map fun name => (name, some (Expr.builtin name ⟨1, 1⟩))
  let run := fun (body : List Stmt) => (pruneBlock depth true false body |>.run ⟨false, known⟩).1
  ⟨script.functions.map fun f => { f with body := run f.body }, run script.body⟩

/-- The texts of the constant imports of a script, its functions included, in ascending order and
without repetition. -/
def imports (script : Script) : List String :=
  let all := Stmt.allImports script.body ++ script.functions.flatMap fun f => Stmt.allImports f.body
  Entries.keys (Entries.ofList (all.map fun text => (text, ())))

end Script
end Stagehand.Lang
