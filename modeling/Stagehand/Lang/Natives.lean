import Stagehand.Lang.Operators
import Stagehand.Number.Whole
import Stagehand.Text.Case
import Stagehand.Text.Classes

/-!
# Built-in functions

Functions that depend on their arguments alone. Each is found by its name and the types of its
arguments; where there is none for these, the answer is `none`. A function that changes its first
argument also yields what that becomes.
-/

namespace Stagehand.Lang

/-- What a built-in function yields: its result, and its first argument if that changes. -/
structure Yield where
  result : Value
  changed : Option Value := none

/-- The answer of a built-in function, if there is one for the arguments. -/
abbrev Answer := Option (Except Cause Yield)

/-- A result that changes nothing. -/
def answer (v : Value) : Answer := some (.ok { result := v })

/-- A whole number that counts something. -/
def countValue (n : Nat) : Value := .int (Int64.ofNat n)

/-- `part` stands in `text`. -/
def isInfix (part : List Char) : List Char → Bool
  | [] => part.isEmpty
  | c :: rest => part.isPrefixOf (c :: rest) || isInfix part rest

/-- Some item equals the value; items are compared one after the other. -/
def hasItem (v : Value) : List Value → Except Cause Bool
  | [] => .ok false
  | item :: rest => do
    if ← item.equal v then return true else hasItem v rest

/-- The number lies in the range. -/
def inRange (first last : Int64) (inclusive : Bool) (n : Int64) : Bool :=
  first ≤ n && (if inclusive then n ≤ last else n < last)

/-- Whether something contains something. -/
def containsAnswer : Value → Value → Answer
  | .array items, v => some ((hasItem v items).map fun b => { result := .bool b })
  | .object fields, .str key => answer (.bool (Entries.get? key fields).isSome)
  | .str s, .str part => answer (.bool (isInfix part.toList s.toList))
  | .str s, .char c => answer (.bool (s.toList.contains c))
  | .range a b i, .int n => answer (.bool (inRange a b i n))
  | .blob bytes, .int n => answer (.bool (bytes.any fun b => (b.toNat : Int) == n.toInt))
  | _, _ => none

/-- The pieces of a text between the places where `sep` stands, at most `limit` of them; `skip`
characters of such a place are still to be dropped, and `piece` is what was read of the current
piece, backwards. -/
def pieces (sep : List Char) : Nat → Nat → List Char → List Char → List (List Char)
  | _, _, piece, [] => [piece.reverse]
  | limit, skip + 1, piece, _ :: rest => pieces sep limit skip piece rest
  | limit, 0, piece, c :: rest =>
    if 1 < limit && sep.isPrefixOf (c :: rest) then
      piece.reverse :: pieces sep (limit - 1) (sep.length - 1) [] rest
    else pieces sep limit 0 (c :: piece) rest

/-- The pieces of a text between the places where `sep` stands. An empty separator stands before and
behind every character. -/
def splitAt (sep : List Char) (limit : Nat) (text : List Char) : List (List Char) :=
  if limit = 0 then []
  else if sep.isEmpty then
    let all := [] :: text.map ([·]) ++ [[]]
    if limit < all.length then all.take (limit - 1) ++ [(all.drop (limit - 1)).flatten] else all
  else pieces sep limit 0 [] text

/-- Words between blanks. -/
def wordsOf (text : List Char) : List (List Char) :=
  let (word, done) := text.foldr (fun c (word, done) =>
    if Text.isBlank c then ([], if word.isEmpty then done else word :: done) else (c :: word, done))
    (([], []) : List Char × List (List Char))
  if word.isEmpty then done else word :: done

/-- An array of texts. -/
def textArray (pieces : List (List Char)) : Value :=
  .array (pieces.map fun p => .str (String.ofList p))

/-- How far a number counts into a sequence: from the end if it is negative. -/
def position (n : Int64) (length : Nat) : Nat :=
  if 0 ≤ n.toInt then min n.toInt.toNat length
  else length - min n.toInt.natAbs length

/-- Cuts a sequence in two: the first part stays, the other is the result. -/
def cutAnswer {α : Type} (sequence : List α → Value) (items : List α) (n : Int64) : Answer :=
  let place := position n items.length
  some (.ok ⟨sequence (items.drop place), some (sequence (items.take place))⟩)

/-- Splits something. An empty text has itself for its only piece. -/
def splitAnswer : List Value → Answer
  | [.str ""] | [.str "", .str _] | [.str "", .char _] => answer (.array [.str ""])
  | [.array items, .int n] => cutAnswer .array items n
  | [.blob bytes, .int n] => cutAnswer .blob bytes n
  | [.str s] => answer (textArray (wordsOf s.toList))
  | [.str s, .str sep] => answer (textArray (splitAt sep.toList (s.length + 2) s.toList))
  | [.str s, .char sep] => answer (textArray (splitAt [sep] (s.length + 2) s.toList))
  | [.str s, .int n] =>
    let at' := position n s.length
    answer (textArray [s.toList.take at', s.toList.drop at'])
  | [.str s, .str sep, .int n] =>
    answer (textArray (splitAt sep.toList (max 1 n.toInt.toNat) s.toList))
  | [.str s, .char sep, .int n] => answer (textArray (splitAt [sep] (max 1 n.toInt.toNat) s.toList))
  | _ => none

/-- A text without blanks around it. -/
def trimmed (cs : List Char) : List Char :=
  ((cs.dropWhile Text.isBlank).reverse.dropWhile Text.isBlank).reverse

/-- Reads a whole number. -/
def parseIntAnswer (text : String) (radix : Nat) : Answer :=
  match Number.parseWhole radix Int64.minValue.toInt Int64.maxValue.toInt (trimmed text.toList) with
  | .ok n => answer (.int (Int64.ofInt n))
  | .error e => some (.error (.arithmetic
      ("Error parsing integer number '" ++ text ++ "': " ++ e.message)))

/-- The whole part of a number. -/
def wholePart (x : Float) : Answer :=
  if 9223372036854775808.0 < x || x < -9223372036854775808.0 then
    some (.error (.arithmetic ("Integer overflow: to_int(" ++ Number.plain.format x ++ ")")))
  else answer (.int x.toInt64)

/-- The lesser of two floats; a number wins over none. -/
def lesser (a b : Float) : Float :=
  if a.isNaN then b else if b.isNaN then a else if b < a then b else a

/-- The lesser of two values. -/
def minAnswer : Value → Value → Answer
  | .int a, .int b => answer (.int (if b < a then b else a))
  | .float a, .float b => answer (.float (lesser a b))
  | .int a, .float b => answer (.float (lesser (floatOfInt a) b))
  | .float a, .int b => answer (.float (lesser a (floatOfInt b)))
  | .char a, .char b => answer (.char (if b < a then b else a))
  | .str a, .str b => answer (.str (if b < a then b else a))
  | _, _ => none

/-- Puts something at the end. -/
def pushAnswer : Value → Value → Answer
  | .array items, v => some (.ok ⟨.unit, some (.array (items ++ [v]))⟩)
  | .blob bytes, .int n =>
    some (.ok ⟨.unit, some (.blob (bytes ++ [lowByte n]))⟩)
  | _, _ => none

/-- Bytes of one value. -/
def blobAnswer (length value : Int64) : Answer :=
  answer (.blob (List.replicate length.toInt.toNat (lowByte value)))

/-- The length of something. -/
def lengthAnswer : Value → Answer
  | .array items => answer (countValue items.length)
  | .object fields => answer (countValue fields.length)
  | .str s => answer (countValue s.length)
  | .blob bytes => answer (countValue bytes.length)
  | _ => none

/-- The size of a number without its sign. -/
def absAnswer : Value → Answer
  | .int n =>
    some ((checkedInt n.toInt.natAbs ("Negation overflow: -" ++ toString n.toInt)).map
      fun v => { result := v })
  | .float x => answer (.float x.abs)
  | _ => none

/-- The upper case of a text or a character. -/
def upperAnswer : Value → Answer
  | .str s => answer (.str (Text.upper s))
  | .char c =>
    answer (match Text.upperChar c with
      | [u] => .char u
      | _ => .char c)
  | _ => none

/-- The whole number that a text stands for in a radix. -/
def radixAnswer (s : String) (radix : Int64) : Answer :=
  if 2 ≤ radix && radix ≤ 36 then parseIntAnswer s radix.toInt.toNat
  else some (.error (.arithmetic ("Invalid radix: '" ++ toString radix.toInt ++ "'")))

/-- The whole number that a value stands for. -/
def toIntAnswer : Value → Answer
  | .int n => answer (.int n)
  | .char c => answer (countValue c.toNat)
  | .float x => wholePart x
  | _ => none

/-- The built-in functions on what has parts. -/
def collectionNative (name : String) (args : List Value) : Answer :=
  match name, args with
  | "len", [v] => lengthAnswer v
  | "push", [a, v] => pushAnswer a v
  | "keys", [.object fields] => answer (.array (fields.map fun (k, _) => .str k))
  | "contains", [a, v] => containsAnswer a v
  | "blob", [] => answer (.blob [])
  | "blob", [.int n] => blobAnswer n 0
  | "blob", [.int n, .int v] => blobAnswer n v
  | _, _ => none

/-- The built-in functions on texts, and those that make a text of a value. -/
def textNative (name : String) (args : List Value) : Answer :=
  match name, args with
  | "type_of", [v] => answer (.str v.typeName)
  | "split", args => splitAnswer args
  | "to_upper", [v] => upperAnswer v
  | "to_string", [v] => answer (.str v.text)
  | "to_debug", [v] => answer (.str v.debugText)
  | _, _ => none

/-- The built-in functions on numbers, and those that make a number of a value. -/
def numberNative (name : String) (args : List Value) : Answer :=
  match name, args with
  | "to_float", [.int n] => answer (.float (floatOfInt n))
  | "to_int", [v] => toIntAnswer v
  | "abs", [v] => absAnswer v
  | "min", [a, b] => minAnswer a b
  | "parse_int", [.str s] => parseIntAnswer s 10
  | "parse_int", [.str s, .int radix] => radixAnswer s radix
  | _, _ => none

/-- The built-in function of a name, for these arguments. -/
def native (name : String) (args : List Value) : Answer :=
  (collectionNative name args).or ((textNative name args).or (numberNative name args))

/-- The property of a value that is no object. -/
def property? (name : String) (v : Value) : Option Value :=
  match name, v with
  | "len", .array items => some (countValue items.length)
  | "len", .str s => some (countValue s.length)
  | "len", .blob bytes => some (countValue bytes.length)
  | "start", .range a _ _ => some (.int a)
  | "end", .range _ b _ => some (.int b)
  | "elapsed", .timestamp _ => some (.float 0.0)
  | "name", .fn name _ _ => some (.str name)
  | "is_anonymous", .fn name _ _ => some (.bool (Value.isAnonymous name))
  | _, _ => none

end Stagehand.Lang
