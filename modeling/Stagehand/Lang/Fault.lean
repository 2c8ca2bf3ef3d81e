import Stagehand.Lang.Parsing
import Stagehand.Lang.Value

/-!
# Faults

What stops a script: the cause, where it arose, and the functions and libraries it passed through on
its way out. A thrown value can be caught as it is, from however deep; of anything else a handler
gets a description of the fault as it arrived. Running out of the call stack and syntax errors
cannot be caught, unless they come out of a library or of a function that was called on many items.
-/

namespace Stagehand.Lang

/-- Why a script stopped. -/
inductive Cause where
  /-- A value was thrown, by the script or, as a message, by the host. -/
  | thrown (v : Value)
  | parsing (e : SyntaxError)
  | arithmetic (text : String)
  | variableNotFound (name : String)
  | functionNotFound (signature : String)
  | moduleNotFound (path : String)
  | propertyNotFound (text : String)
  | notIndexable (type : String)
  | arrayBounds (length : Nat) (index : Int)
  | stringBounds (length : Nat) (index : Int)
  | bitBounds (length : Nat) (index : Int)
  | constantTarget (name : String)
  | mutatingConstant (name : String)
  | unboundThis
  | wrongType (found expected : String)
  | notIterable
  | stackOverflow
  /-- A shared variable was touched while something was done to it. -/
  | dataRace (detail : String)
  /-- The run was ended where it cannot end. -/
  | exited (v : Value)
  deriving Inhabited

/-- A cause on its way out. The source of a call is the library that the function was called in. -/
inductive Fault where
  | raised (cause : Cause) (pos : Place)
  | inCall (inner : Fault) (function : String) (source : Option String) (pos : Place)
  | inModule (inner : Fault) (path : String) (pos : Place)
  deriving Inhabited

/-- The count of the elements of a sequence that was indexed too far. -/
def boundsText (sequence element : String) (length : Nat) (index : Int) : String :=
  let count := match length with
    | 0 => sequence.toLower ++ " is empty"
    | 1 => "only 1 " ++ element ++ " in " ++ sequence.toLower
    | n => "only " ++ toString n ++ " " ++ element ++ "s in " ++ sequence.toLower
  sequence ++ " index " ++ toString index ++ " out of bounds: " ++ count

/-- The wording of a cause. -/
def Cause.message : Cause → String
  | .thrown v =>
    match v with
    | .unit => "Runtime error"
    | v => if v.display = "" then "Runtime error" else "Runtime error: " ++ v.display
  | .parsing e => "Syntax error: " ++ e.cause.message
  | .arithmetic text => text
  | .variableNotFound name => "Variable not found: " ++ name
  | .functionNotFound signature => "Function not found: " ++ signature
  | .moduleNotFound path => "Module not found: " ++ path
  | .propertyNotFound text => text
  | .notIndexable type => "Indexer unavailable: " ++ type
  | .arrayBounds length index => boundsText "Array" "element" length index
  | .stringBounds length index => boundsText "String" "character" length index
  | .bitBounds length index => boundsText "Bit-field" "bit" length index
  | .constantTarget name => "Cannot modify constant " ++ name
  | .mutatingConstant name => "Non-pure method '" ++ name ++ "' cannot be called on constant"
  | .unboundThis => "'this' not bound"
  | .wrongType found "" => "Data type incorrect: " ++ found
  | .wrongType found expected =>
    "Data type incorrect: " ++ found ++ " (expecting " ++ expected ++ ")"
  | .notIterable => "For loop expects iterable type"
  | .stackOverflow => "Stack overflow"
  | .dataRace "" => "Data race detected"
  | .dataRace detail => "Data race detected on " ++ detail
  | .exited _ => "NOT AN ERROR - exit value"

/-- The name of a kind of cause, as a handler sees it. -/
def Cause.kind : Cause → String
  | .thrown _ => "ErrorRuntime"
  | .parsing _ => "ErrorParsing"
  | .arithmetic _ => "ErrorArithmetic"
  | .variableNotFound _ => "ErrorVariableNotFound"
  | .functionNotFound _ => "ErrorFunctionNotFound"
  | .moduleNotFound _ => "ErrorModuleNotFound"
  | .propertyNotFound _ => "ErrorDotExpr"
  | .notIndexable _ => "ErrorIndexingType"
  | .arrayBounds _ _ => "ErrorArrayBounds"
  | .stringBounds _ _ => "ErrorStringBounds"
  | .bitBounds _ _ => "ErrorBitFieldBounds"
  | .constantTarget _ => "ErrorAssignmentToConstant"
  | .mutatingConstant _ => "ErrorNonPureMethodCallOnConstant"
  | .unboundThis => "ErrorUnboundThis"
  | .wrongType _ _ => "ErrorMismatchDataType"
  | .notIterable => "ErrorFor"
  | .stackOverflow => "ErrorStackOverflow"
  | .dataRace _ => "ErrorDataRace"
  | .exited _ => "Exit"

/-- The details of a cause, as a handler sees them. -/
def Cause.details : Cause → List (String × Value)
  | .variableNotFound name | .constantTarget name | .dataRace name => [("variable", .str name)]
  | .functionNotFound name | .mutatingConstant name => [("function", .str name)]
  | .moduleNotFound path => [("module", .str path)]
  | .propertyNotFound text => [("property", .str text)]
  | .notIndexable type => [("type", .str type)]
  | .arrayBounds length index | .stringBounds length index | .bitBounds length index =>
    [("index", .int (Int64.ofInt index)), ("length", .int (Int64.ofNat length))]
  | .wrongType found expected => [("actual", .str found), ("requested", .str expected)]
  | _ => []

namespace Fault

/-- A fault that leaves functions without a trace. -/
def untraced : Fault → Bool
  | .raised cause _ =>
    match cause with
    | .stackOverflow | .parsing _ => true
    | _ => false
  | _ => false

/-- A fault that a handler can catch. -/
def catchable (f : Fault) : Bool := !f.untraced

/-- Where the fault was last. -/
def place : Fault → Place
  | .raised _ pos | .inCall _ _ _ pos | .inModule _ _ pos => pos

/-- The fault at another place. -/
def movedTo (pos : Place) : Fault → Fault
  | .raised cause _ => .raised cause pos
  | .inCall inner function source _ => .inCall inner function source pos
  | .inModule inner path _ => .inModule inner path pos

/-- Gives a fault that has no place yet a place. -/
def placed (pos : Place) (f : Fault) : Fault := if f.place.isNone then f.movedTo pos else f

/-- The call of a function, as a message names it. -/
def callText (function : String) : String :=
  if Value.isAnonymous function then "in closure call"
  else "in call to function '" ++ function ++ "'"

/-- Where the fault was last, as a message shows it. A fault in a source has its place there. -/
def shownPlace : Fault → String
  | .raised (.parsing e) _ => e.pos.text
  | f => placeText f.place

/-- The wording of a fault, innermost first, without its last place. -/
def text : Fault → String
  | .raised cause _ => cause.message
  | .inCall inner function none _ =>
    inner.text ++ inner.shownPlace ++ "\n" ++ callText function
  | .inCall inner function (some source) _ =>
    inner.text ++ " @ '" ++ source ++ "'" ++ inner.shownPlace ++ "\n" ++ callText function ++
      " (from '" ++ source ++ "')"
  | .inModule inner path _ => inner.text ++ inner.shownPlace ++ "\nin module '" ++ path ++ "'"

/-- The wording of a fault and its last place. -/
def message (f : Fault) : String := f.text ++ f.shownPlace

/-- The cause of a fault. -/
def cause : Fault → Cause
  | .raised cause _ => cause
  | .inCall inner _ _ _ => inner.cause
  | .inModule inner _ _ => inner.cause

/-- The name of the kind of a fault, as a handler sees it. -/
def kind : Fault → String
  | .raised cause _ => cause.kind
  | .inCall .. => "ErrorInFunctionCall"
  | .inModule .. => "ErrorInModule"

/-- The details of a fault, as a handler sees them. -/
def details : Fault → List (String × Value)
  | .raised cause _ => cause.details
  | .inCall _ function source _ =>
    [("function", .str function), ("source", .str (source.getD ""))]
  | .inModule _ path _ => [("module", .str path)]

/-- The description of a fault for a handler that stands in code of `source`. -/
def description (source : Option String) (f : Fault) : List (String × Value) :=
  let standing := match source with
    | some s => [("source", Value.str s)]
    | none => []
  let place := match f.place with
    | some p => [("line", Value.int (Int64.ofNat p.line)),
        ("position", Value.int (Int64.ofNat p.column))]
    | none => []
  Entries.ofList
    (("message", .str f.text) :: standing ++ place ++
      ("error", .str f.kind) :: f.details)

/-- What a handler in code of `source` gets: what was thrown, or a description. -/
def caught (source : Option String) (f : Fault) : Value :=
  match f.cause with
  | .thrown v => v
  | _ => .object (f.description source)

end Fault
end Stagehand.Lang
