/-!
# Reading JSON

JSON is read byte by byte from the front, and reading stops at the first fault. A fault is of one of
three kinds: the text ends too early, it is no JSON, or it is JSON but not what was asked for. A
string is decoded only where it is wanted; a value that nobody asks for is skipped, however deep it
is and whatever its numbers and escapes stand for.
-/

namespace Stagehand.Json

/-- The kind of a fault. -/
inductive Fault where
  | eof
  | notJson
  | data
  deriving DecidableEq, Repr

/-- A reader of JSON. -/
abbrev Read := StateT (List UInt8) (Except Fault)

/-- A byte is this character. -/
def is (c : Char) (b : UInt8) : Bool := b.toNat == c.toNat

/-- White space between tokens. -/
def isSpace (b : UInt8) : Bool := is ' ' b || is '\n' b || is '\t' b || is '\r' b

/-- A decimal digit. -/
def isDigit (b : UInt8) : Bool := '0'.toNat ≤ b.toNat && b.toNat ≤ '9'.toNat

/-- The next byte behind white space; it stays. -/
def peek : Read (Option UInt8) := do
  let rest := (← get).dropWhile isSpace
  set rest
  return rest.head?

/-- Drops the next byte. -/
def drop : Read Unit := modify (List.drop 1)

/-- The next byte behind white space, which must be there; it stays. -/
def peekValue : Read UInt8 := do
  match ← peek with
  | some b => return b
  | none => throw .eof

/-- Takes the next byte, which must be there. -/
def next : Read UInt8 := do
  match ← get with
  | b :: rest =>
    set rest
    return b
  | [] => throw .eof

/-- Takes a word. -/
def word : List Char → Read Unit
  | [] => return ()
  | c :: rest => do
    if is c (← next) then word rest else throw .notJson

/-! ## Numbers -/

/-- Takes digits from the front. -/
def digits : Read (List UInt8) := do
  let (ds, rest) := (← get).span isDigit
  set rest
  return ds

/-- The value of decimal digits. -/
def digitsValue (ds : List UInt8) : Nat := ds.foldl (fun n d => n * 10 + (d.toNat - 48)) 0

/-- A number, as it is written. -/
structure Numeral where
  negative : Bool
  whole : List UInt8
  fraction : Option (List UInt8)
  exponent : Option (Bool × List UInt8)

/-- The digits of the whole part: a zero stands alone. `atEnd` is the fault of an end right here. -/
def wholeDigits (atEnd : Fault) : Read (List UInt8) := do
  match ← digits with
  | [] => throw (if (← get).isEmpty then atEnd else .notJson)
  | [d] => return [d]
  | d :: ds => if is '0' d then throw .notJson else return d :: ds

/-- Digits, of which there must be one. -/
def someDigits (atEnd : Fault) : Read (List UInt8) := do
  match ← digits with
  | [] => throw (if (← get).isEmpty then atEnd else .notJson)
  | ds => return ds

/-- Reads a number. The end of the text in the middle of one is an early end only if the number is
wanted. -/
def numeral (wanted : Bool) : Read Numeral := do
  let atEnd : Fault := if wanted then .eof else .notJson
  let negative := ((← get).head?.map (is '-')).getD false
  if negative then drop
  let whole ← wholeDigits atEnd
  let fraction ←
    if ((← get).head?.map (is '.')).getD false then do
      drop
      pure (some (← someDigits atEnd))
    else pure none
  let exponent ←
    if ((← get).head?.map fun b => is 'e' b || is 'E' b).getD false then do
      drop
      let sign := (← get).head?
      let below := (sign.map (is '-')).getD false
      if below || (sign.map (is '+')).getD false then drop
      pure (some (below, ← someDigits atEnd))
    else pure none
  return ⟨negative, whole, fraction, exponent⟩

/-- The number is whole and positive, or zero without a sign. -/
def Numeral.natural? (n : Numeral) : Option Nat :=
  if n.negative || n.fraction.isSome || n.exponent.isSome then none
  else some (digitsValue n.whole)

/-- Digits are taken onto `n` for as long as it stays within 64 bits; with it come the digits that
are left. -/
def significand : List UInt8 → Nat → Nat × List UInt8
  | [], n => (n, [])
  | d :: ds, n =>
    let next := digitsValue [d] + 10 * n
    if next < UInt64.size then significand ds next else (n, d :: ds)

/-- The number is too large for a double. It counts as its leading digits, as far as they fit into
64 bits, times a power of ten, and product and power are rounded each for itself. -/
def Numeral.isTooLarge (n : Numeral) : Bool :=
  let fraction := n.fraction.getD []
  let (leading, left) := significand n.whole 0
  let (leading, rest) := significand fraction leading
  let scale : Int := left.length - (fraction.length - rest.length : Nat)
  let power : Int := match n.exponent with
    | none => 0
    | some (true, ds) => -(digitsValue ds : Int)
    | some (false, ds) => digitsValue ds
  if leading = 0 || scale + power ≤ 0 then false
  else if 308 < scale + power then true
  else (Float.ofNat leading * Float.ofScientific 1 false (scale + power).toNat).isInf

/-- Reads a number that is wanted; one that no double can hold is no JSON. -/
def number : Read Numeral := do
  let n ← numeral true
  if n.isTooLarge then throw .notJson
  return n

/-! ## Strings -/

/-- The value of a hexadecimal digit. -/
def hexValue? (b : UInt8) : Option Nat :=
  let n := b.toNat
  if isDigit b then some (n - 48)
  else if 97 ≤ n && n ≤ 102 then some (n - 87)
  else if 65 ≤ n && n ≤ 70 then some (n - 55)
  else none

/-- Four hexadecimal digits. -/
def hex : Read Nat := do
  match ← get with
  | a :: b :: c :: d :: rest =>
    set rest
    match hexValue? a, hexValue? b, hexValue? c, hexValue? d with
    | some a, some b, some c, some d => return ((a * 16 + b) * 16 + c) * 16 + d
    | _, _, _, _ => throw .notJson
  | _ => throw .eof

/-- The character behind `\u`: of a pair of halves the second must follow. -/
def unicode : Read Char := do
  let n ← hex
  if 0xdc00 ≤ n && n ≤ 0xdfff then throw .notJson
  if n < 0xd800 || 0xdbff < n then return Char.ofNat n
  if !is '\\' (← next) then throw .notJson
  if !is 'u' (← next) then throw .notJson
  let m ← hex
  if m < 0xdc00 || 0xdfff < m then throw .notJson
  return Char.ofNat (0x10000 + (n - 0xd800) * 0x400 + (m - 0xdc00))

/-- The character of an escape of two characters. -/
def simpleEscape? (b : UInt8) : Option Char :=
  if is '\x22' b then some '\x22'
  else if is '\\' b then some '\\'
  else if is '/' b then some '/'
  else if is 'b' b then some '\x08'
  else if is 'f' b then some '\x0c'
  else if is 'n' b then some '\n'
  else if is 'r' b then some '\r'
  else if is 't' b then some '\t'
  else none

/-- The bytes of a string behind its first quote, up to its last; each takes at least one byte of
the text, which bounds their number. -/
def stringBytes : Nat → ByteArray → Read ByteArray
  | 0, _ => throw .eof
  | fuel + 1, done => do
    let b ← next
    if is '\x22' b then return done
    else if b.toNat < 0x20 then throw .notJson
    else if is '\\' b then
      let e ← next
      let c ← if is 'u' e then unicode
        else match simpleEscape? e with
          | some c => pure c
          | none => throw .notJson
      stringBytes fuel (done ++ c.toString.toUTF8)
    else stringBytes fuel (done.push b)

/-- Reads a string behind its first quote. -/
def stringBody : Read String := do
  let bytes ← stringBytes ((← get).length + 1) ByteArray.empty
  match String.fromUTF8? bytes with
  | some s => return s
  | none => throw .notJson

/-- Skips a string behind its first quote. -/
def skipString : Nat → Read Unit
  | 0 => throw .eof
  | fuel + 1 => do
    let b ← next
    if is '\x22' b then return ()
    else if b.toNat < 0x20 then throw .notJson
    else if is '\\' b then
      let e ← next
      if is 'u' e then
        let _ ← hex
        skipString fuel
      else if (simpleEscape? e).isSome then skipString fuel
      else throw .notJson
    else skipString fuel

/-! ## Values that nobody asks for -/

/-- Skips a number, a string or a word that begins with the byte. -/
def skipScalar (b : UInt8) : Read Unit := do
  if is 'n' b then word ['n', 'u', 'l', 'l']
  else if is 't' b then word ['t', 'r', 'u', 'e']
  else if is 'f' b then word ['f', 'a', 'l', 's', 'e']
  else if is '-' b || isDigit b then
    let _ ← numeral false
  else if is '\x22' b then
    drop
    skipString ((← get).length + 1)
  else throw .notJson

/-- What encloses a value that is skipped. -/
inductive Enclosure where
  | list
  | object
  deriving DecidableEq

/-- The byte that ends what encloses a value. -/
def Enclosure.close : Enclosure → Char
  | .list => ']'
  | .object => '\x7d'

/-- Skips a key and the colon behind it. -/
def skipKey : Read Unit := do
  if !is '\x22' (← peekValue) then throw .notJson
  drop
  skipString ((← get).length + 1)
  if !is ':' (← peekValue) then throw .notJson
  drop

/-- Where a skip stands: in front of a value, or behind one or an opening bracket. -/
inductive Spot where
  | value
  | opened
  | behind
  deriving DecidableEq

/-- Skips a value and what follows it in everything that encloses it. -/
def skipFrom : Nat → Spot → List Enclosure → Read Unit
  | 0, _, _ => throw .eof
  | fuel + 1, .value, outer => do
    let b ← peekValue
    if is '[' b then
      drop
      skipFrom fuel .opened (.list :: outer)
    else if is '\x7b' b then
      drop
      skipFrom fuel .opened (.object :: outer)
    else
      skipScalar b
      skipFrom fuel .behind outer
  | _ + 1, _, [] => return ()
  | fuel + 1, spot, e :: outer => do
    let b ← peekValue
    if is e.close b then
      drop
      skipFrom fuel .behind outer
    else
      if spot == .behind then
        if is ',' b then drop else throw .notJson
      if e == .object then skipKey
      skipFrom fuel .value (e :: outer)

/-- Skips a value. -/
def skip : Read Unit := do skipFrom (2 * (← get).length + 2) .value []

/-! ## Values that are asked for -/

/-- A value is of the wrong kind: a fault, but one behind the faults of the value itself. -/
def wrongKind {α : Type} (b : UInt8) : Read α := do
  if is '-' b || isDigit b then
    let _ ← number
  else if is '\x22' b then
    drop
    let _ ← stringBody
  else if is '[' b || is '\x7b' b then pure ()
  else skipScalar b
  throw .data

/-- Reads a string. -/
def string : Read String := do
  let b ← peekValue
  if is '\x22' b then
    drop
    stringBody
  else wrongKind b

/-- Reads a natural number up to a limit. -/
def natural (limit : Nat) : Read Nat := do
  let b ← peekValue
  if is '-' b || isDigit b then
    match (← number).natural? with
    | some n => if n ≤ limit then return n else throw .data
    | none => throw .data
  else wrongKind b

/-- In a list behind its opening bracket: whether there is an item. -/
def hasItem (first : Bool) : Read Bool := do
  let b ← peekValue
  if is ']' b then return false
  if !first then
    if !is ',' b then throw .notJson
    drop
    if is ']' (← peekValue) then throw .notJson
  return true

/-- The items of a list behind its opening bracket. -/
def items {α : Type} (item : Read α) : Nat → Bool → Read (List α)
  | 0, _ => throw .eof
  | fuel + 1, first => do
    if ← hasItem first then
      let a ← item
      return a :: (← items item fuel false)
    else return []

/-- Reads a list. -/
def list {α : Type} (item : Read α) : Read (List α) := do
  let b ← peekValue
  if !is '[' b then wrongKind b
  drop
  let found ← items item ((← get).length + 1) true
  drop
  return found

/-- A field of a record: its name, and how a value for it is read into the record. -/
abbrev FieldReader (σ : Type) := String × (σ → Read σ)

/-- In an object behind its opening brace: whether there is a key. -/
def hasKey (first : Bool) : Read Bool := do
  let b ← peekValue
  if is '\x7d' b then return false
  if !first then
    if !is ',' b then throw .notJson
    drop
  if !is '\x22' (← peekValue) then throw .notJson
  return true

/-- The fields of an object behind its opening brace. A field that is known must not come twice; one
that is not known is skipped. -/
def objectFields {σ : Type} (fields : List (FieldReader σ)) : Nat → Bool → List String → σ → Read σ
  | 0, _, _, _ => throw .eof
  | fuel + 1, first, seen, s => do
    if ← hasKey first then
      drop
      let key ← stringBody
      match fields.find? (·.1 == key) with
      | some (_, read) =>
        if seen.contains key then throw .data
        if !is ':' (← peekValue) then throw .notJson
        drop
        objectFields fields fuel false (key :: seen) (← read s)
      | none =>
        if !is ':' (← peekValue) then throw .notJson
        drop
        skip
        objectFields fields fuel false seen s
    else return s

/-- The fields of a record that is written as a list: in order, as far as the list goes. -/
def listFields {σ : Type} : List (FieldReader σ) → Bool → σ → Read σ
  | [], _, s => return s
  | (_, read) :: rest, first, s => do
    if ← hasItem first then listFields rest false (← read s) else return s

/-- Reads a record into its defaults, from an object or from a list. -/
def record {σ : Type} (fields : List (FieldReader σ)) (s : σ) : Read σ := do
  let b ← peekValue
  if is '\x7b' b then
    drop
    let s ← objectFields fields ((← get).length + 1) true [] s
    drop
    return s
  else if is '[' b then
    drop
    let s ← listFields fields true s
    if !is ']' (← peekValue) then throw .notJson
    drop
    return s
  else wrongKind b

/-- Reads a whole text. -/
def whole {α : Type} (value : Read α) (bytes : ByteArray) : Except Fault α := do
  let read : Read α := do
    let a ← value
    if (← peek).isSome then throw .notJson
    return a
  return (← read.run bytes.data.toList).1

end Stagehand.Json
