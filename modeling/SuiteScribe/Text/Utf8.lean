import SuiteScribe.Text.Basic

/-!
# Characters of a text

`runes` reads a text as UTF-8.  A byte that belongs to no character stands for itself, so no byte
is lost: the bytes of the runes, one after another, are the text.
-/

namespace SuiteScribe

/-- What UTF-8 makes of the next bytes of a text: a character, or a byte that belongs to none. -/
inductive Rune where
  | char (c : Char)
  | stray (b : UInt8)
deriving DecidableEq

namespace Rune

/-- The bytes a rune was read from. -/
def bytes : Rune → Text
  | char c => String.utf8EncodeChar c
  | stray b => [b]

/-- The character shown for a rune: a stray byte shows as the replacement character. -/
def shown : Rune → Char
  | char c => c
  | stray _ => '�'

/-- Whether the rune is a character for which `p` holds. -/
def isCharWith (p : Char → Bool) : Rune → Bool
  | char c => p c
  | stray _ => false

end Rune

namespace Text

/-- The six bits that a continuation byte carries. -/
def trail? (b : UInt8) : Option Nat :=
  if 0x80 ≤ b.toNat ∧ b.toNat < 0xc0 then some (b.toNat - 0x80) else none

/-- The character `n`, unless a shorter encoding would have served or `n` is no scalar value. -/
def scalar? (least n : Nat) : Option Char :=
  if least ≤ n ∧ n.isValidChar then some (Char.ofNat n) else none

/-- The character a text starts with, and how many bytes it takes besides the first. -/
def leading? : Text → Option (Char × Nat)
  | [] => none
  | b :: rest =>
    let n := b.toNat
    if n < 0x80 then some (Char.ofNat n, 0)
    else if n < 0xc0 then none
    else if n < 0xe0 then
      match rest with
      | b1 :: _ => do
        let x1 ← trail? b1
        let c ← scalar? 0x80 ((n - 0xc0) * 64 + x1)
        return (c, 1)
      | _ => none
    else if n < 0xf0 then
      match rest with
      | b1 :: b2 :: _ => do
        let x1 ← trail? b1
        let x2 ← trail? b2
        let c ← scalar? 0x800 (((n - 0xe0) * 64 + x1) * 64 + x2)
        return (c, 2)
      | _ => none
    else if n < 0xf8 then
      match rest with
      | b1 :: b2 :: b3 :: _ => do
        let x1 ← trail? b1
        let x2 ← trail? b2
        let x3 ← trail? b3
        let c ← scalar? 0x10000 ((((n - 0xf0) * 64 + x1) * 64 + x2) * 64 + x3)
        return (c, 3)
      | _ => none
    else none

/-- The runes of a text whose first `skip` bytes belong to a character already read. -/
def runesFrom : (skip : Nat) → Text → List Rune
  | _, [] => []
  | skip + 1, _ :: rest => runesFrom skip rest
  | 0, b :: rest =>
    match leading? (b :: rest) with
    | some (c, more) => .char c :: runesFrom more rest
    | none => .stray b :: runesFrom 0 rest

/-- The text as characters and stray bytes. -/
def runes (t : Text) : List Rune :=
  runesFrom 0 t

/-- Whether every byte belongs to a character. -/
def isUtf8 (t : Text) : Bool :=
  t.runes.all (·.isCharWith fun _ => true)

/-- The UTF-8 bytes of a list of characters. -/
def ofChars (cs : List Char) : Text :=
  cs.flatMap String.utf8EncodeChar

end Text

end SuiteScribe
