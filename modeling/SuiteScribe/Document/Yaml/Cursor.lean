import SuiteScribe.Document.Yaml.Character

/-!
# A place in a YAML document

A cursor is what is left to read together with the place where that starts.  Columns and indentation
decide what the parts of a document belong to, so every reader moves a cursor along.
-/

namespace SuiteScribe.Yaml

/-- What is left to read, and where it starts.  Lines and columns count from zero. -/
structure Cursor where
  rest : List Char
  index : Nat
  line : Nat
  column : Nat

namespace Cursor

/-- The start of a document. -/
def start (cs : List Char) : Cursor :=
  ⟨cs, 0, 0, 0⟩

/-- The character `n` places ahead. -/
def peek (c : Cursor) (n : Nat) : Option Char :=
  c.rest[n]?

/-- The next character. -/
def next (c : Cursor) : Option Char :=
  c.rest.head?

/-- Whether the next character is this one. -/
def isAt (c : Cursor) (ch : Char) : Bool :=
  c.next == some ch

/-- Moves past `n` characters of the line. -/
def advance (c : Cursor) (n : Nat) : Cursor :=
  ⟨c.rest.drop n, c.index + n, c.line, c.column + n⟩

/-- What the line end reads as, if the cursor is at one. -/
def lineEnd (c : Cursor) : Option Char :=
  (lineEnd? c.rest).map (·.1)

/-- Moves past the line end, if the cursor is at one. -/
def nextLine (c : Cursor) : Cursor :=
  match lineEnd? c.rest with
  | some (_, n) => ⟨c.rest.drop n, c.index + n, c.line + 1, 0⟩
  | none => c

/-- The characters from here on for which `p` holds. -/
def span (c : Cursor) (p : Char → Bool) : List Char :=
  c.rest.takeWhile p

/-- Moves past the characters for which `p` holds, none of which ends a line. -/
def skipWhile (c : Cursor) (p : Char → Bool) : Cursor :=
  c.advance (c.span p).length

/-- Moves to the end of the line. -/
def toLineEnd (c : Cursor) : Cursor :=
  c.skipWhile (!isBreak ·)

/-- Whether the line starts with a mark of three of this character. -/
def isAtMark (c : Cursor) (ch : Char) : Bool :=
  c.column == 0 && c.isAt ch && c.peek 1 == some ch && c.peek 2 == some ch && endsWord (c.peek 3)

/-- Whether a mark that starts or ends a document is here. -/
def isAtDocumentMark (c : Cursor) : Bool :=
  c.isAtMark '-' || c.isAtMark '.'

end Cursor

end SuiteScribe.Yaml
