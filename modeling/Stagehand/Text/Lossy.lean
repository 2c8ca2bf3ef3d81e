/-!
# Text from any bytes

Bytes need not be UTF-8. `lossy` reads them all the same: what is well-formed stands for its
characters, and each longest piece that begins like a character but does not go on like one stands
for the replacement character.
-/

namespace Stagehand.Text

/-- A character that was begun: how many bytes are missing, the bits so far, and the bounds of the
next byte. -/
structure Begun where
  missing : Nat
  bits : Nat
  low : Nat
  high : Nat

/-- What a byte is that begins something. -/
inductive Lead where
  | char (c : Char)
  | begun (b : Begun)
  | stray

/-- The replacement character. -/
def replacement : Char := Char.ofNat 0xfffd

/-- What a byte begins. Bounds of the second byte exclude overlong forms, surrogates and code points
beyond the last one. -/
def lead (byte : Nat) : Lead :=
  if byte < 0x80 then .char (Char.ofNat byte)
  else if byte < 0xc2 then .stray
  else if byte < 0xe0 then .begun ⟨1, byte - 0xc0, 0x80, 0xbf⟩
  else if byte < 0xf0 then
    .begun ⟨2, byte - 0xe0, if byte = 0xe0 then 0xa0 else 0x80, if byte = 0xed then 0x9f else 0xbf⟩
  else if byte < 0xf5 then
    .begun ⟨3, byte - 0xf0, if byte = 0xf0 then 0x90 else 0x80, if byte = 0xf4 then 0x8f else 0xbf⟩
  else .stray

/-- The characters of bytes, behind a character that may have been begun. -/
def lossyFrom : Option Begun → List UInt8 → List Char
  | none, [] => []
  | some _, [] => [replacement]
  | state, byte :: rest =>
    let n := byte.toNat
    let fresh : List Char := match lead n with
      | .char c => c :: lossyFrom none rest
      | .begun b => lossyFrom (some b) rest
      | .stray => replacement :: lossyFrom none rest
    match state with
    | none => fresh
    | some b =>
      if b.low ≤ n && n ≤ b.high then
        let bits := b.bits * 64 + (n - 0x80)
        if b.missing = 1 then Char.ofNat bits :: lossyFrom none rest
        else lossyFrom (some ⟨b.missing - 1, bits, 0x80, 0xbf⟩) rest
      else replacement :: fresh

/-- The text of bytes. -/
def lossy (bytes : List UInt8) : String := String.ofList (lossyFrom none bytes)

end Stagehand.Text
