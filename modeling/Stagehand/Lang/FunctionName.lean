import Stagehand.Lang.Fault

/-!
# Names of functions

A function value can be made of any name that a function could have, whether there is one or not. A
word or a symbol of the grammar is refused like a syntax error, any other text as a function that is
missing.
-/

namespace Stagehand.Lang

/-- Refuses a text that is no name of a function. -/
def checkName (name : String) : Except Cause Unit :=
  match tokens name with
  | [⟨.ident found, _⟩, ⟨.eof, _⟩] =>
    if found == name then .ok () else .error (.functionNotFound name)
  | [⟨.reserved _, p⟩, ⟨.eof, _⟩] | [⟨.keyword _, p⟩, ⟨.eof, _⟩] | [⟨.symbol _, p⟩, ⟨.eof, _⟩] =>
    .error (.parsing ⟨.reservedName name, p⟩)
  | _ => .error (.functionNotFound name)

/-- The text is the name of a function. -/
def isFunctionName (name : String) : Bool :=
  match checkName name with
  | .ok _ => true
  | .error _ => false

end Stagehand.Lang
