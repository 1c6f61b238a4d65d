import SuiteScribe.Number.Integer

/-!
# Numbers with a fraction and an exponent

`Real.accepts` says whether a text is the numeral of a number that a 64-bit float can hold.  A
numeral has a sign, digits around at most one point, and an exponent of ten; after `0x` the digits
are hexadecimal and an exponent of two is required.  Single underscores may stand between digits.
`inf`, `infinity` and `nan` are numerals too.  A number so small that it rounds to zero is held; one
that rounds beyond the largest float is not.
-/

namespace SuiteScribe.Real

/-- Lower case of an ASCII letter. -/
def fold (b : UInt8) : UInt8 :=
  if 65 ≤ b.toNat ∧ b.toNat ≤ 90 then b + 32 else b

/-- The digits before the exponent, as they are read. -/
structure Mantissa where
  /-- The number that the digits spell, without the point. -/
  value : Nat
  /-- How many of the digits stand behind the point. -/
  places : Nat
  /-- Whether there is a digit at all. -/
  digits : Bool
  /-- Whether the point has been seen. -/
  point : Bool

namespace Mantissa

/-- Nothing read yet. -/
def start : Mantissa := ⟨0, 0, false, false⟩

/-- One more digit. -/
def push (m : Mantissa) (base d : Nat) : Mantissa :=
  { m with
    value := m.value * base + d
    places := if m.point then m.places + 1 else m.places
    digits := true }

/-- Reads digits, underscores and the first point, and gives back what follows them. -/
def read (base : Nat) : Mantissa → Text → Mantissa × Text
  | m, [] => (m, [])
  | m, b :: rest =>
    if b = Text.byte '_' then read base m rest
    else if b = Text.byte '.' then
      if m.point then (m, b :: rest) else read base { m with point := true } rest
    else
      match Integer.digit? b with
      | some d => if d < base then read base (m.push base d) rest else (m, b :: rest)
      | none => (m, b :: rest)

end Mantissa

/-- Reads the digits of an exponent, passing over underscores; there has to be nothing else. -/
def exponentDigits? : (value : Nat) → Text → Option Nat
  | value, [] => some value
  | value, b :: rest =>
    if b = Text.byte '_' then exponentDigits? value rest
    else
      match Integer.digit? b with
      | some d => if d < 10 then exponentDigits? (value * 10 + d) rest else none
      | none => none

/-- An exponent after its mark: a sign, which may be left out, and digits, the first of which is no
underscore. -/
def exponent? (t : Text) : Option Int :=
  let (negative, ds) := Integer.splitSign t
  match ds with
  | [] => none
  | b :: _ =>
    if b = Text.byte '_' then none
    else (exponentDigits? 0 ds).map fun n => if negative then -(n : Int) else (n : Int)

/-- What stands before a character, where an underscore has to follow a digit and precede one. -/
inductive Before where
  | digit
  | underscore
  | other
deriving DecidableEq

/-- Whether every underscore of the rest stands between two digits. -/
def underscoresFit (base : Nat) : Before → Text → Bool
  | before, [] => before != .underscore
  | before, b :: rest =>
    if ((Integer.digit? b).any (· < base)) then underscoresFit base .digit rest
    else if b = Text.byte '_' then before == .digit && underscoresFit base .underscore rest
    else before != .underscore && underscoresFit base .other rest

/-- The least number that rounds beyond the largest float. -/
def limit : Nat := Nat.pow 2 1024 - Nat.pow 2 970

/-- Whether `value * base ^ exponent` lies below the limit, for a value of at most `length` digits
of the base. -/
def fits (base value : Nat) (exponent : Int) (length : Nat) : Bool :=
  if value = 0 then true
  else if 0 ≤ exponent then value * Nat.pow base (min exponent.toNat 1100) < limit
  else value < limit * Nat.pow base (min (-exponent).toNat length)

/-- A numeral without its sign, in base ten. -/
def acceptsDecimal (t : Text) : Bool :=
  let (m, rest) := Mantissa.read 10 .start t
  m.digits && underscoresFit 10 .other t &&
    match rest with
    | [] => fits 10 m.value (-(m.places : Int)) t.length
    | b :: rest =>
      fold b == Text.byte 'e' &&
        match exponent? rest with
        | some e => fits 10 m.value (e - m.places) t.length
        | none => false

/-- A numeral after its sign and its mark `0x`.  The mark counts as a digit before an
underscore. -/
def acceptsHexadecimal (t : Text) : Bool :=
  let (m, rest) := Mantissa.read 16 .start t
  m.digits && underscoresFit 16 .digit t &&
    match rest with
    | [] => false
    | b :: rest =>
      fold b == Text.byte 'p' &&
        match exponent? rest with
        | some e => fits 2 m.value (e - 4 * m.places) (4 * t.length)
        | none => false

/-- A numeral of digits. -/
def acceptsDigits (t : Text) : Bool :=
  let (_, ds) := Integer.splitSign t
  match ds with
  | b0 :: b1 :: b2 :: rest =>
    if b0 = Text.byte '0' ∧ fold b1 = Text.byte 'x' then acceptsHexadecimal (b2 :: rest)
    else acceptsDecimal ds
  | _ => acceptsDecimal ds

/-- The names of numbers that have no digits, in either case; only infinity takes a sign. -/
def acceptsName (t : Text) : Bool :=
  let (_, unsigned) := Integer.splitSign t
  let name := unsigned.map fold
  name = text "inf" || name = text "infinity" || t.map fold = text "nan"

/-- Whether the text is the numeral of a number that a 64-bit float can hold.

The exponent is exact here.  A reader of floats that takes no further digits into an exponent which
has come to 10000, as is common, decides otherwise of numerals in which an exponent of six digits
makes up for tens of thousands of digits of the mantissa. -/
def accepts (t : Text) : Bool :=
  acceptsName t || acceptsDigits t

end SuiteScribe.Real
