/-!
# Text

Whatever the generator reads or writes is a list of bytes: a suite may hold bytes that are no
UTF-8, and they have to come out as they went in.  `text` turns a literal into its bytes.
-/

namespace SuiteScribe

/-- A text is the list of its bytes; they need not be valid UTF-8. -/
abbrev Text := List UInt8

/-- The UTF-8 bytes of `s`. -/
def text (s : String) : Text :=
  s.toList.flatMap String.utf8EncodeChar

namespace Text

/-- The byte of an ASCII character. -/
abbrev byte (c : Char) : UInt8 :=
  c.toNat.toUInt8

/-- `n` in base ten. -/
def ofNat (n : Nat) : Text :=
  (Nat.toDigits 10 n).map byte

/-- `i` in base ten, after a minus sign if it is negative. -/
def ofInt : Int → Text
  | .ofNat n => ofNat n
  | .negSucc n => byte '-' :: ofNat (n + 1)

/-- The lowest `width` hexadecimal digits of `n`, highest first. -/
def hex (width n : Nat) : Text :=
  (List.range width).reverse.map fun i => byte (n / Nat.pow 16 i % 16).digitChar

/-- Whether a carriage return or a line feed occurs. -/
def hasLineBreak (t : Text) : Bool :=
  t.any fun b => b == byte '\r' || b == byte '\n'

end Text

end SuiteScribe
