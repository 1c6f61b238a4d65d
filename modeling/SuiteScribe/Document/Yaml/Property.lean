import SuiteScribe.Document.Yaml.Scalar
import SuiteScribe.Document.Yaml.Token

/-!
# Anchors, tags and directives

An anchor names a node and an alias stands for the node of that name.  A tag says what a node is; it
is written out in angle brackets, or starts with a handle that a directive or the default stands
behind.  The directives of a document give its version and its handles.

Every reader takes the cursor at the first character and gives the mark with the cursor behind it.
-/

namespace SuiteScribe.Yaml

/-! ## Anchors -/

/-- What may follow a name directly. -/
def endsName : Option Char → Bool
  | none => true
  | some c =>
    isBlank c || isBreak c || ['?', ':', ',', ']', '\x7d', '%', '@', '\x60'].contains c

/-- Reads the name behind the sign of an anchor or an alias. -/
def name? (c : Cursor) : Option (Text × Cursor) :=
  let c := c.advance 1
  let name := c.span isName
  let c := c.skipWhile isName
  if name ≠ [] ∧ endsName c.next then some (Text.ofChars name, c) else none

/-! ## Tags -/

/-- The characters of a tag that stand for themselves. -/
def isTagChar (c : Char) : Bool :=
  isName c || [';', '/', '?', ':', '@', '&', '=', '+', '$', ',', '.', '!', '~', '*', '\'', '(', ')',
    '[', ']'].contains c

/-- The byte that an escape spells: a percent sign and two hexadecimal digits. -/
def escapedByte? : List Char → Option UInt8
  | '%' :: a :: b :: _ => do return ((← hexDigit? a) * 16 + (← hexDigit? b)).toUInt8
  | _ => none

/-- How many bytes the character takes that starts with this one. -/
def encodedLength? (b : UInt8) : Option Nat :=
  let n := b.toNat
  if n < 0x80 then some 1
  else if n < 0xc0 then none
  else if n < 0xe0 then some 2
  else if n < 0xf0 then some 3
  else if n < 0xf8 then some 4
  else none

/-- Reads `n` escaped bytes that continue a character. -/
def escapedTrail? : (n : Nat) → List Char → Option Text
  | 0, _ => some []
  | n + 1, cs => do
    let b ← escapedByte? cs
    if 0x80 ≤ b.toNat ∧ b.toNat < 0xc0 then return b :: (← escapedTrail? n (cs.drop 3)) else none

/-- Reads the escapes of one character. -/
def escapedBytes? (cs : List Char) : Option Text := do
  let b ← escapedByte? cs
  let n ← encodedLength? b
  return b :: (← escapedTrail? (n - 1) (cs.drop 3))

/-- Reads the rest of a tag. -/
def tagTextFrom? : (fuel : Nat) → Cursor → Option (Text × Cursor)
  | 0, _ => none
  | fuel + 1, c =>
    match c.next with
    | none => some ([], c)
    | some ch =>
      if isTagChar ch then do
        let (rest, c) ← tagTextFrom? fuel (c.advance 1)
        return (String.utf8EncodeChar ch ++ rest, c)
      else if ch = '%' then do
        let bytes ← escapedBytes? c.rest
        let (rest, c) ← tagTextFrom? fuel (c.advance (3 * bytes.length))
        return (bytes ++ rest, c)
      else some ([], c)

/-- Reads the rest of a tag. -/
def tagText? (c : Cursor) : Option (Text × Cursor) :=
  tagTextFrom? (c.rest.length + 1) c

/-- The characters of a handle: an exclamation mark, a name, and one more mark if there is one. -/
def handleChars (c : Cursor) : List Char :=
  let name := (c.advance 1).span isName
  let close := if c.peek (name.length + 1) = some '!' then ['!'] else []
  '!' :: (name ++ close)

/-- Reads a tag. -/
def tag? (c : Cursor) : Option (Mark × Cursor) := do
  let (mark, c) ←
    if c.peek 1 = some '<' then do
      let (suffix, c) ← tagText? (c.advance 2)
      if suffix ≠ [] ∧ c.isAt '>' then some (Mark.tag [] suffix, c.advance 1) else none
    else do
      let handle := handleChars c
      let (rest, after) ← tagText? (c.advance handle.length)
      if 1 < handle.length ∧ handle.getLast? = some '!' then
        if rest ≠ [] then some (Mark.tag (Text.ofChars handle) rest, after) else none
      else
        let suffix := Text.ofChars handle.tail ++ rest
        if suffix = [] then some (.tag [] (text "!"), after)
        else some (.tag (text "!") suffix, after)
  if endsWord c.next then return (mark, c) else none

/-! ## Directives -/

/-- Reads a number of one or two digits. -/
def versionNumber? (c : Cursor) : Option (Nat × Cursor) :=
  let digits := c.span Char.isDigit
  if digits ≠ [] ∧ digits.length ≤ 2 then
    some (digits.foldl (fun n d => n * 10 + (d.toNat - 48)) 0, c.advance digits.length)
  else none

/-- Reads the numbers of a version. -/
def version? (c : Cursor) : Option (Mark × Cursor) := do
  let (major, c) ← versionNumber? (c.skipWhile isBlank)
  if c.isAt '.' then
    let (minor, c) ← versionNumber? (c.advance 1)
    return (.version major minor, c)
  else none

/-- Reads a handle and the start of the tags that it stands for. -/
def handle? (c : Cursor) : Option (Mark × Cursor) := do
  let c := c.skipWhile isBlank
  let handle := handleChars c
  let c' := c.advance handle.length
  if c.isAt '!' ∧ handle.getLast? = some '!' ∧ (c'.next.map isBlank).getD false then
    let (start, c) ← tagText? (c'.skipWhile isBlank)
    if start ≠ [] ∧ endsWord c.next then return (.handle (Text.ofChars handle) start, c) else none
  else none

/-- Reads a directive and the rest of its line. -/
def directive? (c : Cursor) : Option (Mark × Cursor) := do
  let c := c.advance 1
  let name := c.span isName
  let c := c.skipWhile isName
  if endsWord c.next then
    let (mark, c) ←
      if name = ['Y', 'A', 'M', 'L'] then version? c
      else if name = ['T', 'A', 'G'] then handle? c
      else none
    return (mark, ← restOfLine? c)
  else none

end SuiteScribe.Yaml
