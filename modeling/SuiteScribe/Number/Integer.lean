import SuiteScribe.Text.Basic

/-!
# Whole numbers of 64 bits

`Integer.read` reads a sign and decimal digits.  `Integer.readBased` also takes the marks `0x`,
`0o`, `0b` and `0` of the other bases.  Both tell a text that is no number from a number that is too
large, and the excess is noticed at the digit where it arises, before anything wrong behind it.
-/

namespace SuiteScribe.Integer

/-- Why a text is not read as a whole number. -/
inductive Fault where
  | malformed
  | outOfRange
deriving DecidableEq

namespace Fault

/-- The fault in words. -/
def message : Fault → Text
  | malformed => text "invalid syntax"
  | outOfRange => text "value out of range"

end Fault

/-- The value of a digit; the letters follow the nine. -/
def digit? (b : UInt8) : Option Nat :=
  let n := b.toNat
  if 48 ≤ n ∧ n ≤ 57 then some (n - 48)
  else if 97 ≤ n ∧ n ≤ 122 then some (n - 87)
  else if 65 ≤ n ∧ n ≤ 90 then some (n - 55)
  else none

/-- Appends the digits of the text to the value read so far, which stays below 2 ^ 64. -/
def readDigits (base : Nat) : (value : Nat) → Text → Except Fault Nat
  | value, [] => .ok value
  | value, b :: rest =>
    match digit? b with
    | none => .error .malformed
    | some d =>
      if d < base then
        if value * base + d < Nat.pow 2 64 then readDigits base (value * base + d) rest
        else .error .outOfRange
      else .error .malformed

/-- A number without a sign: at least one digit. -/
def readUnsigned (base : Nat) (t : Text) : Except Fault Nat :=
  if t = [] then .error .malformed else readDigits base 0 t

/-- The sign of a text and what follows it. -/
def splitSign : Text → Bool × Text
  | b :: rest =>
    if b = Text.byte '-' then (true, rest)
    else if b = Text.byte '+' then (false, rest)
    else (false, b :: rest)
  | [] => (false, [])

/-- The number of that sign and size, if 64 bits hold it. -/
def ofMagnitude (negative : Bool) (n : Nat) : Except Fault Int :=
  if negative then
    if n ≤ Nat.pow 2 63 then .ok (-(n : Int)) else .error .outOfRange
  else
    if n < Nat.pow 2 63 then .ok (n : Int) else .error .outOfRange

/-- A sign, which may be left out, and digits of the base. -/
def readSigned (base : Nat) (t : Text) : Except Fault Int :=
  let (negative, ds) := splitSign t
  match readUnsigned base ds with
  | .ok n => ofMagnitude negative n
  | .error e => .error e

/-- A sign, which may be left out, and decimal digits. -/
def read (t : Text) : Except Fault Int :=
  readSigned 10 t

/-- The base that the start of a number without a sign marks, and its digits. -/
def splitBase (t : Text) : Nat × Text :=
  match t with
  | b0 :: b1 :: b2 :: rest =>
    if b0 = Text.byte '0' then
      if b1 = Text.byte 'b' ∨ b1 = Text.byte 'B' then (2, b2 :: rest)
      else if b1 = Text.byte 'o' ∨ b1 = Text.byte 'O' then (8, b2 :: rest)
      else if b1 = Text.byte 'x' ∨ b1 = Text.byte 'X' then (16, b2 :: rest)
      else (8, b1 :: b2 :: rest)
    else (10, t)
  | b0 :: rest => if b0 = Text.byte '0' then (8, rest) else (10, t)
  | [] => (10, t)

/-- A number without a sign in the base it marks. -/
def readBasedUnsigned (t : Text) : Except Fault Nat :=
  if t = [] then .error .malformed
  else
    let (base, ds) := splitBase t
    readDigits base 0 ds

/-- A sign, which may be left out, and a number in the base it marks. -/
def readBased (t : Text) : Except Fault Int :=
  let (negative, ds) := splitSign t
  match readBasedUnsigned ds with
  | .ok n => ofMagnitude negative n
  | .error e => .error e

end SuiteScribe.Integer
