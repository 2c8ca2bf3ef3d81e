import Stagehand.Lang.Numeral

/-!
# From text to tokens

`tokens` cuts a source into tokens; white space and comments, which may nest, separate them. A sign
in front of a digit belongs to the numeral unless the token before it ends a value. A template
string is text up to its first hole, then the tokens of the hole between braces, then text again:
the lexer counts the braces that are open inside each hole, and the one that closes the hole takes
it back to the text. The first text that is no token ends the list.
-/

namespace Stagehand.Lang

/-- What is left of a source, and where it begins. -/
structure Cursor where
  rest : List Char
  pos : Pos

/-- The place behind a character. -/
def Pos.after (p : Pos) (c : Char) : Pos :=
  if c = '\n' then ⟨p.line + 1, 1⟩ else ⟨p.line, p.column + 1⟩

/-- The place behind a text. -/
def Pos.afterAll (p : Pos) (cs : List Char) : Pos := cs.foldl Pos.after p

/-- The cursor moved to a later part of its text. -/
def Cursor.to (c : Cursor) (rest : List Char) : Cursor :=
  ⟨rest, c.pos.afterAll (c.rest.take (c.rest.length - rest.length))⟩

/-- Skips to the end of a comment that is `depth` levels deep. -/
def skipComment (pos : Pos) : Nat → List Char → Cursor
  | 0, cs => ⟨cs, pos⟩
  | _ + 1, [] => ⟨[], pos⟩
  | depth + 1, '*' :: '/' :: rest => skipComment ⟨pos.line, pos.column + 2⟩ depth rest
  | depth + 1, '/' :: '*' :: rest => skipComment ⟨pos.line, pos.column + 2⟩ (depth + 2) rest
  | depth + 1, c :: rest => skipComment (pos.after c) (depth + 1) rest
  termination_by _ cs => cs.length

/-- The character of a hexadecimal escape of `n` digits, and what follows. -/
def takeEscape (n : Nat) (cs : List Char) : Option (Char × List Char) :=
  let ds := cs.take n
  if ds.length = n && ds.all (isDigitOf 16) then
    let code := ofDigits 16 ds
    if code.isValidChar then some (Char.ofNat code, cs.drop n) else none
  else none

/-- The text of a string or character up to its closing quote. Behind a backslash at the end of a
line, blanks are skipped up to the column `skipTo`. -/
def scanQuoted (quote : Char) (continues : Bool) (start : Pos) :
    Nat → Cursor → Nat → List Char → Except Located (List Char × Cursor)
  | 0, c, _, _ => .error ⟨.bad .unterminatedString, c.pos⟩
  | fuel + 1, ⟨cs, pos⟩, skipTo, acc =>
    let next := fun (n : Nat) (rest : List Char) => (⟨rest, ⟨pos.line, pos.column + n⟩⟩ : Cursor)
    let go := scanQuoted quote continues start fuel
    match cs with
    | [] => .error ⟨.bad .unterminatedString, start⟩
    | '\\' :: e :: rest =>
      let plain := fun (ch : Char) => go (next 2 rest) 0 (ch :: acc)
      let coded := fun (n : Nat) => match takeEscape n rest with
        | some (ch, rest') => go (next (n + 2) rest') 0 (ch :: acc)
        | none => .error ⟨.bad (.malformedEscape (String.ofList ('\\' :: e :: rest.take n))), pos⟩
      match e with
      | '\\' => plain '\\'
      | 't' => plain '\t'
      | 'n' => plain '\n'
      | 'r' => plain '\r'
      | 'x' => coded 2
      | 'u' => coded 4
      | 'U' => coded 8
      | '\n' =>
        if continues then go ⟨rest, ⟨pos.line + 1, 1⟩⟩ (start.column + 1) acc
        else .error ⟨.bad .unterminatedString, start⟩
      | e =>
        if e == quote || e == '\x22' || e == '\x27' then plain e
        else .error ⟨.bad (.malformedEscape (String.ofList ['\\', e])), pos⟩
    | ch :: rest =>
      if ch == quote then
        match rest with
        | q :: rest' =>
          if q == quote then go (next 2 rest') 0 (ch :: acc) else .ok (acc.reverse, next 1 rest)
        | [] => .ok (acc.reverse, next 1 rest)
      else if ch == '\n' then .error ⟨.bad .unterminatedString, start⟩
      else if pos.column < skipTo && Text.isBlank ch then go (next 1 rest) skipTo acc
      else go (next 1 rest) 0 (ch :: acc)

/-- The text of a template up to its closing quote or its next hole (`true`). -/
def scanTemplate (start : Pos) :
    Nat → Cursor → List Char → Except Located (List Char × Bool × Cursor)
  | 0, c, _ => .error ⟨.bad .unterminatedString, c.pos⟩
  | fuel + 1, ⟨cs, pos⟩, acc =>
    match cs with
    | [] => .error ⟨.bad .unterminatedString, start⟩
    | '$' :: '\x7b' :: rest => .ok (acc.reverse, true, ⟨'\x7b' :: rest, pos.after '$'⟩)
    | '\x60' :: '\x60' :: rest =>
      scanTemplate start fuel ⟨rest, pos.afterAll ['x', 'x']⟩ ('\x60' :: acc)
    | '\x60' :: rest => .ok (acc.reverse, false, ⟨rest, pos.after 'x'⟩)
    | '\r' :: '\n' :: rest => scanTemplate start fuel ⟨'\n' :: rest, pos⟩ acc
    | ch :: rest => scanTemplate start fuel ⟨rest, pos.after ch⟩ (ch :: acc)

/-- Behind the opening quote of a template, a line end is no text. -/
def skipLineEnd (c : Cursor) : Cursor :=
  match c.rest with
  | '\n' :: rest => ⟨rest, c.pos.after '\n'⟩
  | '\r' :: '\n' :: rest => ⟨rest, c.pos.after '\n'⟩
  | '\r' :: rest => ⟨rest, c.pos.after '\n'⟩
  | _ => c

/-- A character of a name. -/
def isNameChar (c : Char) : Bool := isLetter c || isDigitOf 10 c || c == '_'

/-- The token of a run of name characters: before its first digit, a name has a letter. -/
def wordToken (cs : List Char) : Token :=
  if cs = ['_'] then .symbol "_"
  else
    match cs.find? (· ≠ '_') with
    | some c => if isLetter c then .ofWord (String.ofList cs)
      else .bad (.malformedName (String.ofList cs))
    | none => .bad (.malformedName (String.ofList cs))

/-- A character that separates tokens. -/
def isSpace (c : Char) : Bool :=
  c == ' ' || c == '\t' || c == '\n' || c == '\r' || c == '\x0c'

/-- The longest symbol at the front of a text. -/
def symbolAt? (cs : List Char) : Option String :=
  if cs.take 3 == ['!', 'i', 'n'] && !((cs.drop 3).head?.map isNameChar).getD false then some "!in"
  else symbols.find? fun s => s.toList.isPrefixOf cs

/-- Where the lexer stands. -/
structure LexState where
  cursor : Cursor
  /-- The last token ends a value. -/
  afterValue : Bool
  /-- For each open hole, the innermost first, how many braces are open in it. -/
  holes : List Nat

/-- What a step of the lexer yields: tokens and the state behind them, or a last token. -/
inductive LexStep where
  | more (tokens : List Located) (next : LexState)
  | last (token : Located)

/-- Text of a template, begun or taken up again. -/
def lexTemplate (s : LexState) (start : Pos) : LexStep :=
  match scanTemplate start (s.cursor.rest.length + 1) s.cursor [] with
  | .error bad => .last bad
  | .ok (text, false, c) =>
    .more [⟨.str (String.ofList text), start⟩] ⟨c, true, s.holes⟩
  | .ok (text, true, c) =>
    .more [⟨.interp (String.ofList text), start⟩, ⟨.symbol "\x7b", c.pos⟩]
      ⟨⟨c.rest.drop 1, c.pos.after 'x'⟩, false, 0 :: s.holes⟩

/-- A symbol, with the braces of the innermost hole counted. -/
def lexSymbol (s : LexState) (text : String) : LexStep :=
  let c := s.cursor
  let next : Cursor := ⟨c.rest.drop text.length, ⟨c.pos.line, c.pos.column + text.length⟩⟩
  let token : Located := ⟨.symbol text, c.pos⟩
  match s.holes with
  | depth :: outer =>
    if text.endsWith "\x7b" then .more [token] ⟨next, false, (depth + 1) :: outer⟩
    else if text == "\x7d" then
      match depth with
      | 0 =>
        match lexTemplate ⟨next, false, outer⟩ next.pos with
        | .more tokens state => .more (token :: tokens) state
        | .last bad => .more [token] ⟨⟨[], bad.pos⟩, false, outer⟩
      | inner + 1 => .more [token] ⟨next, true, inner :: outer⟩
    else .more [token] ⟨next, token.token.endsValue, s.holes⟩
  | [] => .more [token] ⟨next, token.token.endsValue, []⟩

/-- A string between double quotes, or a character between single quotes. -/
def lexQuoted (s : LexState) (quote : Char) (rest : List Char) : LexStep :=
  let start := s.cursor.pos
  let single := quote == '\x27'
  match scanQuoted quote (!single) start (rest.length + 1) ⟨rest, start.after quote⟩ 0 [] with
  | .error bad => .last bad
  | .ok (text, c) =>
    if single then
      match text with
      | [ch] => .more [⟨.char ch, start⟩] ⟨c, true, s.holes⟩
      | _ => .last ⟨.bad (.malformedChar (String.ofList text)), start⟩
    else .more [⟨.str (String.ofList text), start⟩] ⟨c, true, s.holes⟩

/-- One step of the lexer. -/
def lexStep (s : LexState) : LexStep :=
  let c := s.cursor
  match c.rest with
  | [] => .last ⟨.eof, c.pos⟩
  | '/' :: '/' :: rest =>
    .more [] ⟨c.to (rest.dropWhile (· ≠ '\n')), s.afterValue, s.holes⟩
  | '/' :: '*' :: rest =>
    .more [] ⟨skipComment ⟨c.pos.line, c.pos.column + 2⟩ 1 rest, s.afterValue, s.holes⟩
  | '\x22' :: rest => lexQuoted s '\x22' rest
  | '\x27' :: rest => lexQuoted s '\x27' rest
  | '\x60' :: rest =>
    lexTemplate ⟨skipLineEnd ⟨rest, c.pos.after 'x'⟩, s.afterValue, s.holes⟩ c.pos
  | ch :: rest =>
    let numeral := fun (negative : Bool) (cs : List Char) =>
      match scanNumeral negative cs with
      | (.bad why, _) => LexStep.last ⟨.bad why, c.pos⟩
      | (token, rest') => .more [⟨token, c.pos⟩] ⟨c.to rest', true, s.holes⟩
    if isSpace ch then .more [] ⟨⟨rest, c.pos.after ch⟩, s.afterValue, s.holes⟩
    else if isDigitOf 10 ch then numeral false c.rest
    else if ch == '-' && !s.afterValue && (rest.head?.map (isDigitOf 10)).getD false then
      numeral true rest
    else if isLetter ch || ch == '_' then
      let word := c.rest.takeWhile isNameChar
      match wordToken word with
      | .bad why => .last ⟨.bad why, c.pos⟩
      | token =>
        .more [⟨token, c.pos⟩] ⟨c.to (c.rest.dropWhile isNameChar), token.endsValue, s.holes⟩
    else
      match symbolAt? c.rest with
      | some text => lexSymbol s text
      | none => .last ⟨.bad (.unexpected (String.ofList [ch])), c.pos⟩

/-- The tokens behind a state. Every step reads at least one character, so as many steps as there
are characters, and one for the end, are enough. -/
def lexAll : Nat → LexState → List Located
  | 0, s => [⟨.eof, s.cursor.pos⟩]
  | fuel + 1, s =>
    match lexStep s with
    | .last token => [token]
    | .more tokens next => tokens ++ lexAll fuel next

/-- The tokens of a source. -/
def tokens (source : String) : List Located :=
  let cs := source.toList
  lexAll (cs.length + 1) ⟨⟨cs, ⟨1, 1⟩⟩, false, []⟩

end Stagehand.Lang
