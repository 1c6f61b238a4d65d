import SuiteScribe.Document.Tree
import SuiteScribe.Number.Real
import SuiteScribe.Text.Utf8

/-!
# JSON

`Json.read?` reads the value that a text starts with; what follows the value is left alone.  The
grammar is JSON's with a few liberties: one comma or colon may stand before the value, null may
stand for an empty key, a number may be any numeral made of digits, points, signs and the letter e
that starts with a digit or a minus sign, and a string may hold any byte but zero.  Values are
nested at most `Json.maxDepth` deep.

`Value.toTree` reads a value as a tree.
-/

namespace SuiteScribe.Json

open Text (byte)

/-- A value as it is written: a number with its text, a mapping with its fields in their order. -/
inductive Value where
  | null
  | bool (value : Bool)
  | number (value : Text)
  | string (value : Text)
  | list (items : List Value)
  | mapping (fields : List (Text × Value))

namespace Value

mutual

/-- What a value says. -/
def toTree : Value → Tree
  | null => .null
  | bool value => .bool value
  | number value => .number value
  | string value => .string value
  | list items => .list (toTrees items)
  | mapping fields => .mapping (toFields [] fields)

/-- What the items of a list say. -/
def toTrees : List Value → List Tree
  | [] => []
  | v :: rest => v.toTree :: toTrees rest

/-- What the fields of a mapping say, behind the fields read so far. -/
def toFields (read : List (Text × Tree)) : List (Text × Value) → List (Text × Tree)
  | [] => read
  | (key, v) :: rest => toFields (Tree.put read key v.toTree) rest

end

end Value

/-- How deep lists and mappings may be nested. -/
def maxDepth : Nat := 10000

/-- White space between the parts of a document. -/
def isBlank (b : UInt8) : Bool :=
  b == byte ' ' || b == byte '\t' || b == byte '\r' || b == byte '\n'

/-- Leaves out leading white space. -/
def skipBlanks (t : Text) : Text :=
  t.dropWhile isBlank

/-- What follows a word that the text starts with. -/
def afterWord? : (word : Text) → Text → Option Text
  | [], t => some t
  | _ :: _, [] => none
  | b :: word, c :: rest => if b = c then afterWord? word rest else none

/-- A digit of an escape; whatever is no hexadecimal digit counts as zero. -/
def hexValue (b : UInt8) : Nat :=
  match Integer.digit? b with
  | some d => if d < 16 then d else 0
  | none => 0

/-- The code that four bytes of an escape spell. -/
def codeUnit (a b c d : UInt8) : Nat :=
  ((hexValue a * 16 + hexValue b) * 16 + hexValue c) * 16 + hexValue d

/-- Whether a code is half of a pair that stands for one character. -/
def isSurrogate (n : Nat) : Bool :=
  0xd800 ≤ n && n < 0xe000

/-- The character that two halves stand for. -/
def pair? (high low : Nat) : Option Char :=
  if 0xd800 ≤ high ∧ high < 0xdc00 ∧ 0xdc00 ≤ low ∧ low < 0xe000 then
    some (Char.ofNat ((high - 0xd800) * 0x400 + (low - 0xdc00) + 0x10000))
  else none

/-- The character of an escape, given what follows `\u`, and how many bytes of that it takes.  A
half of a pair without the other half is the replacement character.  At least one byte has to follow
the four of a code. -/
def escapedChar? : Text → Option (Char × Nat)
  | a :: b :: c :: d :: e :: rest =>
    let high := codeUnit a b c d
    if isSurrogate high then
      match rest with
      | u :: a2 :: b2 :: c2 :: d2 :: _ :: _ =>
        if e = byte '\\' ∧ u = byte 'u' then
          match pair? high (codeUnit a2 b2 c2 d2) with
          | some c => some (c, 10)
          | none => some ('�', 4)
        else some ('�', 4)
      | _ => some ('�', 4)
    else some (Char.ofNat high, 4)
  | _ => none

/-- The byte that a letter after a backslash stands for. -/
def escapedByte? (b : UInt8) : Option UInt8 :=
  if b = byte '"' ∨ b = byte '\\' ∨ b = byte '/' then some b
  else if b = byte 'b' then some 8
  else if b = byte 'f' then some 12
  else if b = byte 'n' then some 10
  else if b = byte 'r' then some 13
  else if b = byte 't' then some 9
  else none

/-- Reads a string behind its opening quote, given the bytes read so far, the last of them first;
the next `skip` bytes belong to an escape already read. -/
def stringFrom? : (skip : Nat) → (read : Text) → Text → Option (Text × Text)
  | _, _, [] => none
  | skip + 1, read, _ :: rest => stringFrom? skip read rest
  | 0, read, b :: rest =>
    if b = byte '"' then some (read.reverse, rest)
    else if b = 0 then none
    else if b = byte '\\' then
      match rest with
      | [] => none
      | e :: after =>
        if e = byte 'u' then
          match escapedChar? after with
          | some (c, size) =>
            stringFrom? (size + 1) ((String.utf8EncodeChar c).reverse ++ read) rest
          | none => none
        else
          match escapedByte? e with
          | some c => stringFrom? 1 (c :: read) rest
          | none => none
    else stringFrom? 0 (b :: read) rest

/-- Reads a string behind its opening quote. -/
def string? (t : Text) : Option (Text × Text) :=
  stringFrom? 0 [] t

/-- The bytes that a number goes on with. -/
def continuesNumber (b : UInt8) : Bool :=
  (48 ≤ b.toNat && b.toNat ≤ 57) || b == byte '.' || b == byte 'e' || b == byte 'E' ||
    b == byte '+' || b == byte '-'

/-- Reads a number that starts with `b`. -/
def number? (b : UInt8) (rest : Text) : Option (Text × Text) :=
  let numeral := b :: rest.takeWhile continuesNumber
  if Real.accepts numeral then some (numeral, rest.dropWhile continuesNumber) else none

/-- Reads the key of a mapping. -/
def key? (t : Text) : Option (Text × Text) :=
  match skipBlanks t with
  | [] => none
  | b :: rest =>
    if b = byte '"' then string? rest
    else (afterWord? (text "null") (b :: rest)).map fun rest => ([], rest)

mutual

/-- Reads a value at a depth; every step takes one of the `fuel`. -/
def value? : (fuel depth : Nat) → Text → Option (Value × Text)
  | 0, _, _ => none
  | fuel + 1, depth, t =>
    match skipBlanks t with
    | [] => none
    | b :: rest =>
      if b = byte '\x7b' then
        if depth < maxDepth then
          match skipBlanks rest with
          | [] => none
          | c :: after =>
            if c = byte '\x7d' then some (.mapping [], after)
            else fields? fuel (depth + 1) [] rest
        else none
      else if b = byte '[' then
        if depth < maxDepth then
          match skipBlanks rest with
          | [] => none
          | c :: after =>
            if c = byte ']' then some (.list [], after)
            else items? fuel (depth + 1) [] rest
        else none
      else if b = byte '"' then
        (string? rest).map fun (s, rest) => (.string s, rest)
      else if b = byte '-' ∨ (48 ≤ b.toNat ∧ b.toNat ≤ 57) then
        (number? b rest).map fun (s, rest) => (.number s, rest)
      else if b = byte 't' then
        (afterWord? (text "rue") rest).map fun rest => (.bool true, rest)
      else if b = byte 'f' then
        (afterWord? (text "alse") rest).map fun rest => (.bool false, rest)
      else if b = byte 'n' then
        (afterWord? (text "ull") rest).map fun rest => (.null, rest)
      else none

/-- Reads the next field of a mapping and those behind it, given the fields before it, the last of
them first. -/
def fields? : (fuel depth : Nat) → List (Text × Value) → Text → Option (Value × Text)
  | 0, _, _, _ => none
  | fuel + 1, depth, fields, t => do
    let (key, rest) ← key? t
    match skipBlanks rest with
    | [] => none
    | colon :: rest =>
      if colon = byte ':' then
        let (value, rest) ← value? fuel depth rest
        match skipBlanks rest with
        | [] => none
        | b :: rest =>
          if b = byte '\x7d' then some (.mapping ((key, value) :: fields).reverse, rest)
          else if b = byte ',' then fields? fuel depth ((key, value) :: fields) rest
          else none
      else none

/-- Reads the next item of a list and those behind it, given the items before it, the last of them
first. -/
def items? : (fuel depth : Nat) → List Value → Text → Option (Value × Text)
  | 0, _, _, _ => none
  | fuel + 1, depth, items, t => do
    let (value, rest) ← value? fuel depth t
    match skipBlanks rest with
    | [] => none
    | b :: rest =>
      if b = byte ']' then some (.list (value :: items).reverse, rest)
      else if b = byte ',' then items? fuel depth (value :: items) rest
      else none

end

/-- Leaves out a comma or a colon before the value. -/
def skipMark (t : Text) : Text :=
  match skipBlanks t with
  | [] => []
  | b :: rest => if b = byte ',' ∨ b = byte ':' then rest else b :: rest

/-- The value that a document starts with. -/
def read? (t : Text) : Option Value :=
  (value? (2 * t.length + 2) 0 (skipMark t)).map (·.1)

end SuiteScribe.Json
