import SuiteScribe.Text.Printable
import SuiteScribe.Text.Utf8

/-!
# Quoted texts

`Text.quote` writes any text between double quotes so that it stays on one line and can be read
back: what does not print is escaped, and so are the quote and the backslash.
-/

namespace SuiteScribe

namespace Rune

/-- The letter that escapes a control character, if it has one of its own. -/
def escapeLetter? (c : Char) : Option Char :=
  match c.toNat with
  | 7 => some 'a'
  | 8 => some 'b'
  | 9 => some 't'
  | 10 => some 'n'
  | 11 => some 'v'
  | 12 => some 'f'
  | 13 => some 'r'
  | _ => none

/-- The escape of a character that does not print: a letter, or its code in as few of two, four
or eight hexadecimal digits as will hold it, where two digits serve ASCII only. -/
def escape (c : Char) : Text :=
  match escapeLetter? c with
  | some letter => text "\\" ++ [Text.byte letter]
  | none =>
    if c.toNat < 0x80 then text "\\x" ++ Text.hex 2 c.toNat
    else if c.toNat < 0x10000 then text "\\u" ++ Text.hex 4 c.toNat
    else text "\\U" ++ Text.hex 8 c.toNat

/-- A rune as it stands between the quotes. -/
def quoted : Rune → Text
  | char c =>
    if c = '"' ∨ c = '\\' then text "\\" ++ [Text.byte c]
    else if isPrintable c then String.utf8EncodeChar c
    else escape c
  | stray b => text "\\x" ++ Text.hex 2 b.toNat

end Rune

/-- The text between double quotes, with escapes. -/
def Text.quote (t : Text) : Text :=
  text "\"" ++ t.runes.flatMap Rune.quoted ++ text "\""

end SuiteScribe
