import Stagehand.Lang.Token

/-!
# The shape of scripts

Expressions and statements of the script language. A chain of property accesses, method calls and
indexings is one node, a base with its steps in the order in which they are written, because such a
chain is evaluated as a whole: first all arguments, then the base, then step by step, and changes
that a step makes are written back to the base.
-/

namespace Stagehand.Lang

/-- A constant: one written in a script, or what an expression of constants comes to. The fields of
an object are in ascending order. -/
inductive Literal where
  | unit
  | bool (b : Bool)
  | int (n : Int64)
  | float (x : Float)
  | char (c : Char)
  | str (s : String)
  | range (first last : Int64) (inclusive : Bool)
  | array (items : List Literal)
  | object (fields : List (String × Literal))
  deriving Inhabited

/-- An operator between two operands. -/
inductive BinaryOp where
  | add | sub | mul | div | mod | pow
  | bitAnd | bitOr | bitXor | shiftLeft | shiftRight
  | eq | ne | lt | le | gt | ge
  | range | rangeIncl
  deriving DecidableEq, Repr, Inhabited

/-- The spelling of an operator. -/
def BinaryOp.text : BinaryOp → String
  | .add => "+" | .sub => "-" | .mul => "*" | .div => "/" | .mod => "%" | .pow => "**"
  | .bitAnd => "&" | .bitOr => "|" | .bitXor => "^" | .shiftLeft => "<<" | .shiftRight => ">>"
  | .eq => "==" | .ne => "!=" | .lt => "<" | .le => "<=" | .gt => ">" | .ge => ">="
  | .range => ".." | .rangeIncl => "..="

/-- An operator in front of its operand. -/
inductive UnaryOp where
  | neg | plus | not
  deriving DecidableEq, Repr, Inhabited

/-- The spelling of an operator. -/
def UnaryOp.text : UnaryOp → String
  | .neg => "-" | .plus => "+" | .not => "!"

/-- What a case of a `switch` compares with. -/
inductive Pattern where
  | literal (c : Literal)
  | range (first last : Int64) (inclusive : Bool)
  | any
  deriving Inhabited

/-- The way to an imported module: the name of an import, and of those inside one another. `back` is
the place of the import, counted from the last one on, where the parser knows it. -/
structure ModulePath where
  names : List String
  back : Option Nat
  pos : Pos
  deriving Inhabited

/-- The spelling of a path. -/
def ModulePath.text (p : ModulePath) : String := "::".intercalate p.names

/-- The spelling of a name behind a path. -/
def ModulePath.member (p : ModulePath) (name : String) : String := p.text ++ "::" ++ name

mutual

/-- Expressions. -/
inductive Expr where
  | literal (c : Literal) (pos : Pos)
  /-- A reference of the host, in place of its name. -/
  | builtin (name : String) (pos : Pos)
  /-- Text with holes; the parts are literals and blocks. -/
  | template (parts : List Expr) (pos : Pos)
  | array (items : List Expr) (pos : Pos)
  | object (fields : List (String × Expr)) (pos : Pos)
  /-- `known` says that the variable is declared in the same function, in sight of the use. -/
  | var (name : String) (known : Bool) (pos : Pos)
  | this (pos : Pos)
  /-- A variable of an imported module. -/
  | member (path : ModulePath) (name : String) (pos : Pos)
  | call (name : String) (args : List Expr) (pos : Pos)
  /-- A function of an imported module. -/
  | memberCall (path : ModulePath) (name : String) (args : List Expr) (pos : Pos)
  | unary (op : UnaryOp) (operand : Expr) (pos : Pos)
  | binary (op : BinaryOp) (left right : Expr) (pos : Pos)
  | and (left right : Expr) (pos : Pos)
  | or (left right : Expr) (pos : Pos)
  /-- The right operand where the left one is the unit. -/
  | coalesce (left right : Expr) (pos : Pos)
  | chain (base : Expr) (steps : List Step)
  /-- A statement for its value. -/
  | control (body : Stmt) (pos : Pos)
  /-- The function that was written here without a name and has got this one; `captured` variables
  are shared with it and become its first arguments. -/
  | closure (name : String) (captured : List (String × Pos)) (pos : Pos)

/-- One step of a chain; a `safe` step is not taken from the unit. -/
inductive Step where
  | property (name : String) (safe : Bool) (pos : Pos)
  | method (name : String) (args : List Expr) (safe : Bool) (pos : Pos)
  | index (key : Expr) (safe : Bool) (pos : Pos)

/-- Statements. -/
inductive Stmt where
  | skip
  | expr (e : Expr)
  | declare (name : String) (constant exported : Bool) (value : Option Expr) (pos : Pos)
  /-- `op` is the operator of a compound assignment. -/
  | assign (op : Option BinaryOp) (target value : Expr) (pos : Pos)
  | cond (test : Expr) (yes no : List Stmt) (pos : Pos)
  | switch (scrutinee : Expr) (arms : List (List Pattern × Option Expr × Stmt)) (pos : Pos)
  /-- A loop without a test runs until it is left. -/
  | whileLoop (test : Option Expr) (body : List Stmt)
  | doLoop (body : List Stmt) (test : Expr) (untilTrue : Bool)
  | forLoop (item : String) (counter : Option String) (items : Expr) (body : List Stmt) (pos : Pos)
  | breakLoop (value : Option Expr) (pos : Pos)
  | continueLoop (pos : Pos)
  | ret (value : Option Expr) (pos : Pos)
  | throw (value : Option Expr) (pos : Pos)
  | tryCatch (body : List Stmt) (caught : Option String) (handler : List Stmt)
  | importModule (path : Expr) (name : Option String) (pos : Pos)
  | exportVar (name : String) (visible : String) (pos : Pos)
  | block (body : List Stmt) (pos : Pos)

end

instance : Inhabited Expr := ⟨.literal .unit ⟨1, 1⟩⟩
instance : Inhabited Stmt := ⟨.skip⟩

/-- A function of a script. -/
structure FnDef where
  name : String
  params : List String
  body : List Stmt
  isPrivate : Bool
  /-- A closure made of the definition takes it along wherever it goes; otherwise the closure knows
  its name alone. -/
  linked : Bool := true
  deriving Inhabited

/-- A script: its functions, those without a name of their own included, and the statements of its
top level. -/
structure Script where
  functions : List FnDef
  body : List Stmt
  deriving Inhabited

/-- Where an expression begins. -/
def Expr.pos : Expr → Pos
  | .literal _ p | .builtin _ p | .template _ p | .array _ p | .object _ p | .var _ _ p | .this p
  | .call _ _ p | .unary _ _ p | .control _ p | .closure _ _ p => p
  | .member path _ _ | .memberCall path _ _ _ => path.pos
  | .binary _ l _ _ | .and l _ _ | .or l _ _ | .coalesce l _ _ => l.pos
  | .chain base _ => base.pos

end Stagehand.Lang
