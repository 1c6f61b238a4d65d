import SuiteScribe.Document.Yaml.Cursor

/-!
# Scalars

A scalar is written plain, in single or double quotes, or as a block of lines.  Plain and quoted
scalars are folded alike: blanks inside a line stay, blanks around a line end go, one line end is a
space, and of several all but the first stay.  What stands between two words is a `Gap` until the
next word shows how it is to be read.

Every reader takes the cursor at the start of a scalar and gives its characters with the cursor
behind it.
-/

namespace SuiteScribe.Yaml

/-- What has been read since the last word of a scalar. -/
inductive Gap where
  /-- Nothing. -/
  | none
  /-- Blanks, the last of them first. -/
  | blanks (read : List Char)
  /-- A line end, the first of them, unless it was escaped; and those after it, the last first. -/
  | lines (first : Option Char) (more : List Char)

namespace Gap

/-- Adds a blank, which counts for nothing behind a line end. -/
def blank (c : Char) : Gap → Gap
  | none => blanks [c]
  | blanks read => blanks (c :: read)
  | lines first more => lines first more

/-- Adds a line end. -/
def line (c : Char) : Gap → Gap
  | lines first more => lines first (c :: more)
  | _ => lines (some c) []

/-- Whether a line ended. -/
def isLines : Gap → Bool
  | lines _ _ => true
  | _ => false

/-- Whether nothing has been read. -/
def isNone : Gap → Bool
  | none => true
  | _ => false

/-- How a gap reads, the last character first. -/
def folded : Gap → List Char
  | none => []
  | blanks read => read
  | lines (some '\n') [] => [' ']
  | lines (some '\n') more => more
  | lines (some c) more => more ++ [c]
  | lines Option.none more => more

end Gap

/-! ## Plain scalars -/

/-- Whether a plain scalar ends before the next character. -/
def endsPlain (flow : Bool) (c : Cursor) : Bool :=
  (c.isAt ':' && endsWord (c.peek 1)) ||
    (flow && (c.isAt ',' || c.isAt '[' || c.isAt ']' || c.isAt '\x7b' || c.isAt '\x7d' ||
      (c.isAt '?' && c.peek 1 != some '\t' && endsWord (c.peek 1))))

/-- Reads on in a plain scalar whose later lines are indented by `indent`; `read` holds its
characters, the last first.  The result says whether the scalar was left behind a line end. -/
def plainFrom? (flow : Bool) (indent : Int) :
    (fuel : Nat) → (read : List Char) → Gap → Cursor → Option (List Char × Bool × Cursor)
  | 0, _, _, _ => none
  | fuel + 1, read, gap, c =>
    match c.next with
    | none => some (read.reverse, gap.isLines, c)
    | some ch =>
      if isBlank ch then
        if gap.isLines && c.column < indent && ch == '\t' then none
        else plainFrom? flow indent fuel read (gap.blank ch) (c.advance 1)
      else if isBreak ch then
        plainFrom? flow indent fuel read (gap.line (c.lineEnd.getD ch)) c.nextLine
      else if !gap.isNone && ((!flow && c.column < indent) || c.isAtDocumentMark || ch == '#') then
        some (read.reverse, gap.isLines, c)
      else if endsPlain flow c then some (read.reverse, gap.isLines, c)
      else plainFrom? flow indent fuel (ch :: (gap.folded ++ read)) .none (c.advance 1)

/-- Reads a plain scalar. -/
def plain? (flow : Bool) (indent : Int) (c : Cursor) : Option (List Char × Bool × Cursor) :=
  plainFrom? flow indent (c.rest.length + 1) [] .none c

/-! ## Quoted scalars -/

/-- The character that a letter behind a backslash stands for. -/
def escaped? : Char → Option Char
  | '0' => some '\x00'
  | 'a' => some '\x07'
  | 'b' => some '\x08'
  | 't' => some '\t'
  | '\t' => some '\t'
  | 'n' => some '\n'
  | 'v' => some '\x0b'
  | 'f' => some '\x0c'
  | 'r' => some '\r'
  | 'e' => some '\x1b'
  | ' ' => some ' '
  | '"' => some '"'
  | '\'' => some '\''
  | '\\' => some '\\'
  | 'N' => some '\u0085'
  | '_' => some '\u00a0'
  | 'L' => some '\u2028'
  | 'P' => some '\u2029'
  | _ => none

/-- How many hexadecimal digits follow a letter behind a backslash. -/
def codeLength? : Char → Option Nat
  | 'x' => some 2
  | 'u' => some 4
  | 'U' => some 8
  | _ => none

/-- The value of a hexadecimal digit. -/
def hexDigit? (c : Char) : Option Nat :=
  if '0' ≤ c ∧ c ≤ '9' then some (c.toNat - 48)
  else if 'a' ≤ c ∧ c ≤ 'f' then some (c.toNat - 87)
  else if 'A' ≤ c ∧ c ≤ 'F' then some (c.toNat - 55)
  else none

/-- The number that hexadecimal digits spell. -/
def hexNumber? (cs : List Char) : Option Nat :=
  cs.foldl (fun n c => do return (← n) * 16 + (← hexDigit? c)) (some 0)

/-- The character whose code the next `length` digits spell. -/
def codeChar? (length : Nat) (cs : List Char) : Option Char := do
  let digits := cs.take length
  let n ← hexNumber? digits
  if digits.length = length ∧ n.isValidChar then return Char.ofNat n else none

/-- Reads on in a quoted scalar; `read` holds its characters, the last first. -/
def quotedFrom? (single : Bool) :
    (fuel : Nat) → (read : List Char) → Gap → Cursor → Option (List Char × Cursor)
  | 0, _, _, _ => none
  | fuel + 1, read, gap, c =>
    match c.next with
    | none => none
    | some ch =>
      if isBlank ch then quotedFrom? single fuel read (gap.blank ch) (c.advance 1)
      else if isBreak ch then
        quotedFrom? single fuel read (gap.line (c.lineEnd.getD ch)) c.nextLine
      else if c.isAtDocumentMark then none
      else
        let read := gap.folded ++ read
        if single then
          if ch = '\'' then
            if c.peek 1 = some '\'' then
              quotedFrom? single fuel ('\'' :: read) .none (c.advance 2)
            else some (read.reverse, c.advance 1)
          else quotedFrom? single fuel (ch :: read) .none (c.advance 1)
        else if ch = '"' then some (read.reverse, c.advance 1)
        else if ch = '\\' then
          match c.peek 1 with
          | none => none
          | some e =>
            if isBreak e then
              quotedFrom? single fuel read (.lines none []) (c.advance 1).nextLine
            else
              match codeLength? e with
              | some n =>
                match codeChar? n (c.rest.drop 2) with
                | some x => quotedFrom? single fuel (x :: read) .none (c.advance (n + 2))
                | none => none
              | none =>
                match escaped? e with
                | some x => quotedFrom? single fuel (x :: read) .none (c.advance 2)
                | none => none
        else quotedFrom? single fuel (ch :: read) .none (c.advance 1)

/-- Reads a quoted scalar, from its opening quote on. -/
def quoted? (single : Bool) (c : Cursor) : Option (List Char × Cursor) :=
  quotedFrom? single (c.rest.length + 1) [] .none (c.advance 1)

/-! ## Block scalars -/

/-- What becomes of the line ends behind the last line of a block. -/
inductive Chomping where
  | strip
  | clip
  | keep
deriving DecidableEq

/-- What a block says of itself before its first line. -/
structure BlockHeader where
  chomping : Chomping
  /-- The indentation beyond that of what the block belongs to, if it is given. -/
  increment : Option Nat

/-- The line ends that a cursor has moved past, and the furthest column that their lines start at.
-/
structure BlankLines where
  breaks : List Char
  furthest : Nat
  cursor : Cursor

/-- Moves past the indentation of the next lines and past those that are empty; `indent` bounds the
indentation where it is known.  A tab cannot indent. -/
def blankLinesFrom? (indent : Option Nat) : (fuel : Nat) → BlankLines → Option BlankLines
  | 0, _ => none
  | fuel + 1, ⟨breaks, furthest, c⟩ =>
    let room := match indent with
      | some n => n - c.column
      | none => c.rest.length
    let c := c.advance (min room (c.span (· == ' ')).length)
    let furthest := max furthest c.column
    let indenting := match indent with
      | some n => decide (c.column < n)
      | none => true
    if indenting && c.isAt '\t' then none
    else
      match lineEnd? c.rest with
      | some (e, _) => blankLinesFrom? indent fuel ⟨breaks ++ [e], furthest, c.nextLine⟩
      | none => some ⟨breaks, furthest, c⟩

/-- Moves past the indentation of the next lines and past those that are empty. -/
def blankLines? (indent : Option Nat) (c : Cursor) : Option BlankLines :=
  blankLinesFrom? indent (c.rest.length + 1) ⟨[], 0, c⟩

/-- The sign of a block header. -/
def chomping? : Option Char → Option Chomping
  | some '+' => some .keep
  | some '-' => some .strip
  | _ => none

/-- The digit of a block header. -/
def increment? : Option Char → Option Nat
  | some ch => if ch.isDigit then some (ch.toNat - 48) else none
  | none => none

/-- Reads the sign and the digit of a block header, in either order; the digit is not zero. -/
def blockSigns? (c : Cursor) : Option (BlockHeader × Cursor) :=
  match chomping? c.next with
  | some chomping =>
    match increment? (c.peek 1) with
    | some 0 => none
    | some n => some (⟨chomping, some n⟩, c.advance 2)
    | none => some (⟨chomping, none⟩, c.advance 1)
  | none =>
    match increment? c.next with
    | some 0 => none
    | some n =>
      match chomping? (c.peek 1) with
      | some chomping => some (⟨chomping, some n⟩, c.advance 2)
      | none => some (⟨.clip, some n⟩, c.advance 1)
    | none => some (⟨.clip, none⟩, c)

/-- Moves past blanks and a comment to the next line, if nothing else is left of this one. -/
def restOfLine? (c : Cursor) : Option Cursor :=
  let c := c.skipWhile isBlank
  let c := if c.isAt '#' then c.toLineEnd else c
  if endsLine c.next then some c.nextLine else none

/-- A block as far as it has been read: its characters, the last first; the line end behind them and
those of the empty lines that follow; and whether its last line starts with a blank. -/
structure Block where
  read : List Char
  last : Option Char
  empty : List Char
  blankLed : Bool

/-- Joins the next line of a block to those before it. -/
def Block.join (folds : Bool) (b : Block) (line : List Char) (last : Option Char)
    (empty : List Char) : Block :=
  let blankLed := (line.head?.map isBlank).getD false
  let joint :=
    if folds && !b.blankLed && !blankLed && b.last == some '\n' then
      if b.empty.isEmpty then [' '] else []
    else b.last.toList
  ⟨line.reverse ++ b.empty.reverse ++ joint ++ b.read, last, empty, blankLed⟩

/-- The characters of a whole block. -/
def Block.chomp (chomping : Chomping) (b : Block) : List Char :=
  let last := if chomping = .strip then [] else b.last.toList
  let empty := if chomping = .keep then b.empty else []
  b.read.reverse ++ last ++ empty

/-- Reads the lines of a block that are indented by `indent`. -/
def blockLinesFrom? (folds : Bool) (indent : Nat) :
    (fuel : Nat) → Block → Cursor → Option (Block × Cursor)
  | 0, _, _ => none
  | fuel + 1, b, c =>
    if c.column = indent ∧ c.next.isSome then do
      let line := c.span (!isBreak ·)
      let c := c.toLineEnd
      let last := c.lineEnd
      let after ← blankLines? (some indent) c.nextLine
      blockLinesFrom? folds indent fuel (b.join folds line last after.breaks) after.cursor
    else some (b, c)

/-- Reads a block scalar, from its indicator on, that belongs to something indented by `indent`. -/
def block? (folds : Bool) (indent : Int) (c : Cursor) : Option (List Char × Cursor) := do
  let (header, c) ← blockSigns? (c.advance 1)
  let c ← restOfLine? c
  let given := header.increment.map ((max indent 0).toNat + ·)
  let before ← blankLines? given c
  let indent := given.getD (max (max before.furthest (indent + 1).toNat) 1)
  let (b, c) ← blockLinesFrom? folds indent (c.rest.length + 1) ⟨[], none, before.breaks, false⟩
    before.cursor
  return (b.chomp header.chomping, c)

end SuiteScribe.Yaml
