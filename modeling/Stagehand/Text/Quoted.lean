import Stagehand.Text.Classes

/-!
# Quoted text

A dump of a value shows a string between double quotes and a character between single quotes, with
a backslash before what would be ambiguous: the quote itself, the backslash, the common controls by
their letters, and every character that cannot be printed, or that would join the character before
it, by its code point in braces.
-/

namespace Stagehand.Text

/-- The code point of a character in lower-case hexadecimal, between braces. -/
def codePoint (c : Char) : List Char :=
  ['\\', 'u', '\x7b'] ++ Nat.toDigits 16 c.toNat ++ ['\x7d']

/-- One character inside the given quote. -/
def escape (quote : Char) (c : Char) : List Char :=
  if c == quote || c == '\\' then ['\\', c]
  else match c with
    | '\x00' => ['\\', '0']
    | '\t' => ['\\', 't']
    | '\n' => ['\\', 'n']
    | '\r' => ['\\', 'r']
    | c => if isExtending c || !isPrintable c then codePoint c else [c]

/-- A string between double quotes. -/
def quoted (s : String) : String :=
  String.ofList ('\x22' :: s.toList.flatMap (escape '\x22') ++ ['\x22'])

/-- A character between single quotes. -/
def quotedChar (c : Char) : String :=
  String.ofList ('\x27' :: escape '\x27' c ++ ['\x27'])

end Stagehand.Text
