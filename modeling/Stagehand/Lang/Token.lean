import Stagehand.Text.Classes

/-!
# Tokens of the script language

A token is a literal, a name, a reserved word or a symbol; the last two carry their spelling. A text
that is no token becomes one all the same, with the reason, so that the parser reports whichever
fault comes first in the source. A template string is cut at its holes: `interp` is text in front of
a hole, `str` the text behind the last one.
-/

namespace Stagehand.Lang

/-- A place in a source: line and column, both from one. -/
structure Pos where
  line : Nat
  column : Nat
  deriving DecidableEq, Repr, Inhabited

/-- A place, if there is one to speak of. -/
abbrev Place := Option Pos

/-- The text of a place behind a message. -/
def Pos.text (p : Pos) : String := s!" (line {p.line}, position {p.column})"

/-- A place behind a message; nothing if there is none. -/
def placeText : Place → String
  | none => ""
  | some p => p.text

/-- Why a text is no token. -/
inductive LexError where
  | unexpected (text : String)
  | unterminatedString
  | malformedEscape (text : String)
  | malformedNumber (text : String)
  | malformedChar (text : String)
  | malformedName (text : String)
  deriving DecidableEq, Repr, Inhabited

/-- The wording of a lexical fault. -/
def LexError.message : LexError → String
  | .unexpected text => "Unexpected '" ++ text ++ "'"
  | .unterminatedString => "Open string is not terminated"
  | .malformedEscape text => "Invalid escape sequence: '" ++ text ++ "'"
  | .malformedNumber text => "Invalid number: '" ++ text ++ "'"
  | .malformedChar text => "Invalid character: '" ++ text ++ "'"
  | .malformedName text => "Variable name is not proper: '" ++ text ++ "'"

/-- A piece of source text. -/
inductive Token where
  | int (n : Int64)
  | float (x : Float)
  | char (c : Char)
  | str (s : String)
  | interp (s : String)
  | ident (name : String)
  | reserved (word : String)
  | keyword (word : String)
  | symbol (text : String)
  | bad (why : LexError)
  | eof
  deriving Inhabited

/-- A token and where it begins. -/
structure Located where
  token : Token
  pos : Pos
  deriving Inhabited

/-- Words with a meaning in the grammar. -/
def keywords : List String :=
  ["true", "false", "let", "const", "if", "else", "switch", "do", "while", "until", "loop", "for",
   "in", "continue", "break", "return", "throw", "try", "catch", "fn", "private", "import",
   "export", "as", "global"]

/-- Words that name a built-in operation; they can be called, but not bound. -/
def callableWords : List String :=
  ["print", "debug", "type_of", "eval", "Fn", "call", "curry", "is_def_fn", "is_def_var",
   "is_shared"]

/-- Words kept for later; nothing can have such a name. -/
def reservedWords : List String :=
  ["public", "protected", "super", "new", "use", "module", "package", "var", "static", "shared",
   "with", "is", "goto", "match", "case", "default", "void", "null", "nil", "spawn", "thread",
   "go", "sync", "async", "await", "yield"]

/-- The token of a name. -/
def Token.ofWord (word : String) : Token :=
  if keywords.contains word && word != "global" then .keyword word
  else if word == "this" || callableWords.contains word || reservedWords.contains word then
    .reserved word
  else .ident word

/-- The symbols of the grammar, longest first. -/
def symbols : List String :=
  ["...", "..=", "**=", "<<=", ">>=", "===", "!==", "::<",
   "**", "..", "<<", ">>", "==", "!=", "<=", ">=", "&&", "||", "??", "?.", "?[", "+=", "-=", "*=",
   "/=", "%=", "&=", "|=", "^=", "=>", "::", "->", "<-", "++", "--", ":=", "(*", "*)", "<|", "|>",
   "!.", "#\x7b", "#!", "()",
   "+", "-", "*", "/", "%", "&", "|", "^", "<", ">", "=", "!", ".", ",", ":", ";", "(", ")", "[",
   "]", "\x7b", "\x7d", "?", "~", "#", "@", "$"]

/-- Symbols with no meaning. -/
def deadSymbols : List String :=
  ["...", "===", "!==", "::<", "->", "<-", "++", "--", ":=", "(*", "*)", "<|", "|>", "!.", "#!",
   "?", "~", "#", "@", "$"]

/-- A value ends with this token, so a sign behind it is an operator between two operands. -/
def Token.endsValue : Token → Bool
  | .int _ | .float _ | .char _ | .str _ | .ident _ | .reserved _ => true
  | .keyword w => w == "true" || w == "false"
  | .symbol s => s == ")" || s == "()" || s == "]" || s == "\x7d"
  | _ => false

end Stagehand.Lang
