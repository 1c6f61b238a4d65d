import SuiteScribe.Text.Utf8

/-!
# The characters of a YAML document

A document is UTF-8, or UTF-16 behind a byte order mark that says so, and holds no control
characters but tabs and line ends.  `characters?` reads one; the classes of characters that the
grammar tells apart follow it.  The end of the document counts as a blank and as a line end where
the grammar asks for one, so the classes that matter there are asked about an optional character.
-/

namespace SuiteScribe.Yaml

/-- The characters that a document may hold. -/
def isAllowed (c : Char) : Bool :=
  let n := c.toNat
  n == 0x09 || n == 0x0a || n == 0x0d || (0x20 ≤ n && n ≤ 0x7e) || n == 0x85 ||
    (0xa0 ≤ n && n ≤ 0xfffd) || 0x10000 ≤ n

/-- The character a rune stands for, unless it is a stray byte. -/
def runeChar? : Rune → Option Char
  | .char c => some c
  | .stray _ => none

/-- Two bytes at a time as one number; `big` says that the higher byte comes first. -/
def codeUnits? (big : Bool) : Text → Option (List Nat)
  | [] => some []
  | [_] => none
  | a :: b :: rest =>
    let unit := if big then a.toNat * 256 + b.toNat else b.toNat * 256 + a.toNat
    (codeUnits? big rest).map (unit :: ·)

/-- The characters that UTF-16 code units stand for. -/
def unitChars? : List Nat → Option (List Char)
  | [] => some []
  | u :: rest =>
    if u < 0xd800 ∨ 0xe000 ≤ u then (unitChars? rest).map (Char.ofNat u :: ·)
    else if 0xdc00 ≤ u then none
    else
      match rest with
      | [] => none
      | v :: rest =>
        if 0xdc00 ≤ v ∧ v < 0xe000 then
          (unitChars? rest).map (Char.ofNat ((u - 0xd800) * 0x400 + (v - 0xdc00) + 0x10000) :: ·)
        else none

/-- The characters of a text, without the byte order mark that may lead it. -/
def decode? : Text → Option (List Char)
  | 0xff :: 0xfe :: rest => codeUnits? false rest >>= unitChars?
  | 0xfe :: 0xff :: rest => codeUnits? true rest >>= unitChars?
  | 0xef :: 0xbb :: 0xbf :: rest => (Text.runes rest).mapM runeChar?
  | t => (Text.runes t).mapM runeChar?

/-- The characters of a document, if it may hold them all. -/
def characters? (t : Text) : Option (List Char) := do
  let cs ← decode? t
  if cs.all isAllowed then return cs else none

/-- A space or a tab. -/
def isBlank (c : Char) : Bool :=
  c == ' ' || c == '\t'

/-- A character that ends a line. -/
def isBreak (c : Char) : Bool :=
  c == '\r' || c == '\n' || c == '\u0085' || c == '\u2028' || c == '\u2029'

/-- A line end, or the end of the document. -/
def endsLine : Option Char → Bool
  | none => true
  | some c => isBreak c

/-- A blank, a line end, or the end of the document. -/
def endsWord : Option Char → Bool
  | none => true
  | some c => isBlank c || isBreak c

/-- The characters of names: ASCII letters and digits, hyphen and low line. -/
def isName (c : Char) : Bool :=
  c.isAlphanum || c == '-' || c == '_'

/-- The line end that a list of characters starts with: what it reads as, and how many characters it
takes. -/
def lineEnd? : List Char → Option (Char × Nat)
  | '\r' :: '\n' :: _ => some ('\n', 2)
  | c :: _ =>
    if c == '\u2028' || c == '\u2029' then some (c, 1)
    else if isBreak c then some ('\n', 1)
    else none
  | [] => none

end SuiteScribe.Yaml
