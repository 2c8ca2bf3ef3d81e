/-!
# Real numbers in text

A real number is written as a sign, which can be missing, and the name of an infinity or of no
number, in any case, or digits with at most one point, of which at least one digit is there, and an
exponent, which can be missing.
-/

namespace Stagehand.Number

/-- Why a text is no real number. -/
inductive RealError where
  | empty
  | literal
  deriving DecidableEq, Repr

/-- The wording of the fault. -/
def RealError.message : RealError → String
  | .empty => "cannot parse float from empty string"
  | .literal => "invalid float literal"

/-- What is left behind a sign. -/
def dropSign : List Char → List Char
  | '+' :: rest => rest
  | '-' :: rest => rest
  | cs => cs

/-- An exponent, or nothing. -/
def isExponent : List Char → Bool
  | [] => true
  | e :: rest =>
    let digits := dropSign rest
    (e == 'e' || e == 'E') && !digits.isEmpty && digits.all Char.isDigit

/-- Digits with at most one point, and an exponent. -/
def isDecimal (cs : List Char) : Bool :=
  let whole := cs.takeWhile Char.isDigit
  let (part, rest) := match cs.dropWhile Char.isDigit with
    | '.' :: rest => (rest.takeWhile Char.isDigit, rest.dropWhile Char.isDigit)
    | rest => ([], rest)
  !(whole.isEmpty && part.isEmpty) && isExponent rest

/-- The text is a real number. -/
def checkReal (cs : List Char) : Except RealError Unit :=
  let body := dropSign cs
  if cs.isEmpty then .error .empty
  else if ["inf", "infinity", "nan"].contains (String.ofList (body.map Char.toLower)) then .ok ()
  else if isDecimal body then .ok ()
  else .error .literal

end Stagehand.Number
