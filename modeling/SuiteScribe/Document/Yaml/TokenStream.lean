import SuiteScribe.Document.Yaml.Property

/-!
# From characters to tokens

Tokens are found one at a time.  Whether a node is the key of a mapping shows only when a colon
follows it, so a node that may be one is remembered, and the tokens that say so are put in front of
it then.

The tokens are taken while they are still being found: two more than the next one are found before
it is taken, and more if it may turn out to be a key.  So what is wrong far behind the first
document of a stream is never seen.  `tokens` gives the tokens that can be taken before something
wrong is found.
-/

namespace SuiteScribe.Yaml

/-- How deep flow collections may be nested, and how deep block collections. -/
def maxNesting : Nat := 10000

/-- A node that may turn out to be a key: where it starts and which token it starts with.  There is
one such place on every level of flow collections. -/
structure KeyPlace where
  /-- Whether there is such a node. -/
  possible : Bool
  /-- Whether the node is in the column of a mapping and so has to be a key. -/
  required : Bool
  /-- Whether its first token waits until it is decided. -/
  awaited : Bool
  /-- How many tokens there are before it. -/
  token : Nat
  index : Nat
  line : Nat
  column : Nat

/-- The tokens found so far and what decides on the next one. -/
structure Scan where
  cursor : Cursor
  tokens : Array Token
  /-- How many tokens have been taken. -/
  taken : Nat
  /-- The column of the innermost block collection, or -1. -/
  indent : Int
  /-- The columns of the block collections around that. -/
  outer : List Int
  /-- Whether a key may start here. -/
  keyAllowed : Bool
  /-- The innermost place first; the last one is outside of all flow collections. -/
  keys : List KeyPlace
  ended : Bool

namespace Scan

/-- Before the first token. -/
def start (cs : List Char) : Scan :=
  ⟨.start cs, #[⟨0, .streamStart⟩], 0, -1, [], true, [⟨false, false, false, 0, 0, 0, 0⟩], false⟩

/-- Whether the cursor is inside a flow collection. -/
def inFlow (s : Scan) : Bool :=
  s.keys.length > 1

/-- Adds a token that starts on a line. -/
def push (s : Scan) (line : Nat) (mark : Mark) : Scan :=
  { s with tokens := s.tokens.push ⟨line, mark⟩ }

/-- Adds a token that starts where the cursor is and takes the next `n` characters. -/
def pushChars (s : Scan) (n : Nat) (mark : Mark) : Scan :=
  { s.push s.cursor.line mark with cursor := s.cursor.advance n }

/-- Puts a token in front of the one with this number, or at the end if that one has been taken. -/
def insert (s : Scan) (number line : Nat) (mark : Mark) : Scan :=
  if s.taken ≤ number then { s with tokens := s.tokens.insertIdxIfInBounds number ⟨line, mark⟩ }
  else s.push line mark

/-! ## Keys -/

/-- Whether a node may still be a key: a key is on one line and at most 1024 characters long.  There
is no answer if it has to be one and cannot. -/
def stillKey? (s : Scan) (k : KeyPlace) : Option Bool :=
  if !k.possible then some false
  else if k.line < s.cursor.line || k.index + 1024 < s.cursor.index then
    if k.required then none else some false
  else some true

/-- Gives up the node that might have been a key. -/
def dropKey? (s : Scan) : Option Scan :=
  match s.keys with
  | [] => some s
  | k :: rest =>
    if k.possible && k.required then none
    else some { s with keys := { k with possible := false, awaited := false } :: rest }

/-- Remembers that the next token may start a key. -/
def saveKey? (s : Scan) : Option Scan :=
  if s.keyAllowed then do
    let s ← s.dropKey?
    let required := !s.inFlow && s.indent == s.cursor.column
    let k : KeyPlace :=
      ⟨true, required, true, s.tokens.size, s.cursor.index, s.cursor.line, s.cursor.column⟩
    return { s with keys := k :: s.keys.tail }
  else some s

/-! ## Indentation -/

/-- Ends the block collections that are further to the right than a column. -/
def dedentTo (column : Int) : (indent : Int) → (outer : List Int) → Scan → Scan
  | indent, outer, s =>
    if indent ≤ column then { s with indent := indent, outer := outer }
    else
      let s := s.push s.cursor.line .blockEnd
      match outer with
      | [] => { s with indent := -1, outer := [] }
      | next :: outer => dedentTo column next outer s

/-- Ends the block collections that are further to the right than a column.  Flow collections pay no
heed to indentation. -/
def dedent (s : Scan) (column : Int) : Scan :=
  if s.inFlow then s else dedentTo column s.indent s.outer s

/-- Starts a block collection at a column, unless there is one, with a token in front of the one
with this number. -/
def indentTo? (s : Scan) (column number line : Nat) (mark : Mark) : Option Scan :=
  if s.inFlow || column ≤ s.indent then some s
  else if maxNesting ≤ s.outer.length then none
  else some { s.insert number line mark with indent := column, outer := s.indent :: s.outer }

/-! ## Blanks and comments -/

/-- Moves on from the end of a comment to the next one, if there is nothing but blanks and line ends
between them. -/
def nextComment : (fuel : Nat) → Cursor → Cursor → Cursor
  | 0, stay, _ => stay
  | fuel + 1, stay, c =>
    match c.next with
    | none => stay
    | some ch =>
      if isBlank ch then nextComment fuel stay (c.advance 1)
      else if isBreak ch then nextComment fuel stay c.nextLine
      else if ch = '#' then
        let c := c.toLineEnd
        nextComment fuel c c
      else stay

/-- Moves past a comment and the comments that follow it. -/
def skipComments (c : Cursor) : Cursor :=
  let c := c.toLineEnd
  nextComment (c.rest.length + 1) c c

/-- Moves past blanks, comments and line ends.  Where a key may start, a tab is no blank. -/
def skipGapFrom : (fuel : Nat) → Scan → Scan
  | 0, s => s
  | fuel + 1, s =>
    let c := s.cursor.skipWhile fun ch => ch == ' ' || ((s.inFlow || !s.keyAllowed) && ch == '\t')
    let c := if c.isAt '#' then skipComments c else c
    match lineEnd? c.rest with
    | some _ =>
      skipGapFrom fuel { s with cursor := c.nextLine, keyAllowed := s.keyAllowed || !s.inFlow }
    | none => { s with cursor := c }

/-- Moves to the next token. -/
def skipGap (s : Scan) : Scan :=
  skipGapFrom (s.cursor.rest.length + 1) s

/-- Moves past a comment at the end of a token's line. -/
def skipLineComment (s : Scan) : Scan :=
  let c := s.cursor.skipWhile isBlank
  if c.isAt '#' then { s with cursor := c.toLineEnd } else s

/-! ## Tokens -/

/-- The end of the stream. -/
def streamEnd? (s : Scan) : Option Scan := do
  let s ← (s.dedent (-1)).dropKey?
  return { s.push s.cursor.line .streamEnd with keyAllowed := false, ended := true }

/-- A directive. -/
def directiveToken? (s : Scan) : Option Scan := do
  let s ← (s.dedent (-1)).dropKey?
  let (mark, c) ← directive? s.cursor
  return { s.push s.cursor.line mark with cursor := c, keyAllowed := false }

/-- The start or the end of a document. -/
def documentToken? (s : Scan) (mark : Mark) : Option Scan := do
  let s ← (s.dedent (-1)).dropKey?
  return { s.pushChars 3 mark with keyAllowed := false }

/-- The start of a flow collection. -/
def flowStart? (s : Scan) (mark : Mark) : Option Scan := do
  let s ← s.saveKey?
  if maxNesting < s.keys.length then none
  else
    let level : KeyPlace := ⟨false, false, false, s.tokens.size, 0, 0, 0⟩
    return { s.pushChars 1 mark with keys := level :: s.keys, keyAllowed := true }

/-- The end of a flow collection.  Whatever waited with the level that is left waits no longer. -/
def flowEnd? (s : Scan) (mark : Mark) : Option Scan := do
  let s ← s.dropKey?
  let keys := match s.keys with
    | level :: k :: rest =>
      (k :: rest).map fun k => { k with awaited := k.awaited && k.token != level.token }
    | keys => keys
  return { s.pushChars 1 mark with keys := keys, keyAllowed := false }

/-- The comma of a flow collection. -/
def flowEntry? (s : Scan) : Option Scan := do
  let s ← s.dropKey?
  return { s.pushChars 1 .flowEntry with keyAllowed := true }

/-- The dash of a block sequence. -/
def blockEntry? (s : Scan) : Option Scan := do
  if !s.inFlow && !s.keyAllowed then none
  else
    let s ← s.indentTo? s.cursor.column s.tokens.size s.cursor.line .blockSequence
    let s ← s.dropKey?
    return { s.pushChars 1 .blockEntry with keyAllowed := true }

/-- The question mark in front of a key. -/
def keyToken? (s : Scan) : Option Scan := do
  if !s.inFlow && !s.keyAllowed then none
  else
    let s ← s.indentTo? s.cursor.column s.tokens.size s.cursor.line .blockMapping
    let s ← s.dropKey?
    return { s.pushChars 1 .key with keyAllowed := !s.inFlow }

/-- The colon in front of a value, which makes a key of the node before it if that may be one. -/
def valueToken? (s : Scan) : Option Scan := do
  match s.keys with
  | [] => none
  | k :: rest =>
    if ← s.stillKey? k then
      let s := s.insert k.token k.line .key
      let s ← s.indentTo? k.column k.token k.line .blockMapping
      let s := { s with keys := { k with possible := false, awaited := false } :: rest }
      return { s.pushChars 1 .value with keyAllowed := false }
    else if !s.inFlow && !s.keyAllowed then none
    else
      let s ← s.indentTo? s.cursor.column s.tokens.size s.cursor.line .blockMapping
      return { s.pushChars 1 .value with keyAllowed := !s.inFlow }

/-- A token that may start a key; `read` reads it. -/
def nodeToken? (s : Scan) (read : Cursor → Option (Mark × Cursor)) : Option Scan := do
  let s ← s.saveKey?
  let (mark, c) ← read s.cursor
  return { s.push s.cursor.line mark with cursor := c, keyAllowed := false }

/-- A quoted scalar. -/
def quotedToken? (s : Scan) (single : Bool) : Option Scan :=
  s.nodeToken? fun c => do
    let (cs, c) ← quoted? single c
    return (.scalar (Text.ofChars cs) false, c)

/-- A block scalar. -/
def blockToken? (s : Scan) (folds : Bool) : Option Scan := do
  let s ← s.dropKey?
  let (cs, c) ← block? folds s.indent s.cursor
  let s := s.push s.cursor.line (.scalar (Text.ofChars cs) false)
  return { s with cursor := c, keyAllowed := true }

/-- A plain scalar.  Behind one that a line end follows, a key may start. -/
def plainToken? (s : Scan) : Option Scan := do
  let s ← s.saveKey?
  let (cs, broken, c) ← plain? s.inFlow (s.indent + 1) s.cursor
  let s := s.push s.cursor.line (.scalar (Text.ofChars cs) true)
  let s := { s with cursor := c, keyAllowed := broken }
  return if broken then s else s.skipLineComment

/-- The characters that have a meaning of their own at the start of a token. -/
def indicators : List Char :=
  ['-', '?', ':', ',', '[', ']', '\x7b', '\x7d', '#', '&', '*', '!', '|', '>', '\'', '"', '%', '@',
    '\x60']

/-- Whether a plain scalar may start with the next characters. -/
def startsPlain (s : Scan) (ch : Char) : Bool :=
  let next := s.cursor.peek 1
  (!isBlank ch && !isBreak ch && !indicators.contains ch) ||
    (ch == '-' && !(next.map isBlank).getD false) ||
    (!s.inFlow && (ch == '?' || ch == ':') && !endsWord next)

/-- A comment may follow most tokens on their line. -/
def thenComment (s : Option Scan) : Option Scan :=
  s.map skipLineComment

/-- Finds the next token. -/
def step? (s : Scan) : Option Scan :=
  let s := s.skipGap
  let s := s.dedent s.cursor.column
  match s.cursor.next with
  | none => s.streamEnd?
  | some ch =>
    let next := s.cursor.peek 1
    if s.cursor.column = 0 ∧ ch = '%' then s.directiveToken?
    else if s.cursor.isAtMark '-' then s.documentToken? .documentStart
    else if s.cursor.isAtMark '.' then s.documentToken? .documentEnd
    else if ch = '[' then thenComment (s.flowStart? .flowSequence)
    else if ch = '\x7b' then thenComment (s.flowStart? .flowMapping)
    else if ch = ']' then thenComment (s.flowEnd? .flowSequenceEnd)
    else if ch = '\x7d' then thenComment (s.flowEnd? .flowMappingEnd)
    else if ch = ',' then thenComment s.flowEntry?
    else if ch = '-' ∧ endsWord next then s.blockEntry?
    else if ch = '?' ∧ (s.inFlow ∨ endsWord next) then thenComment s.keyToken?
    else if ch = ':' ∧ (s.inFlow ∨ endsWord next) then thenComment s.valueToken?
    else if ch = '*' then
      thenComment (s.nodeToken? fun c => (name? c).map fun (name, c) => (.reference name, c))
    else if ch = '&' then
      thenComment (s.nodeToken? fun c => (name? c).map fun (name, c) => (.anchor name, c))
    else if ch = '!' then thenComment (s.nodeToken? tag?)
    else if ch = '|' ∧ !s.inFlow then s.blockToken? false
    else if ch = '>' ∧ !s.inFlow then s.blockToken? true
    else if ch = '\'' then thenComment (s.quotedToken? true)
    else if ch = '"' then thenComment (s.quotedToken? false)
    else if s.startsPlain ch then s.plainToken?
    else none

/-! ## The stream -/

/-- Takes the tokens that can be taken: all but the last two, as far as none of them may turn out to
be a key.  If one has to be a key and cannot, the error is the number of tokens taken before it. -/
def takeFrom : (fuel : Nat) → Scan → Except Nat Scan
  | 0, s => .ok s
  | fuel + 1, s =>
    if s.taken + 2 < s.tokens.size then
      match s.keys.find? fun k => k.awaited && k.token == s.taken with
      | some k =>
        match s.stillKey? k with
        | some true => .ok s
        | some false => takeFrom fuel { s with taken := s.taken + 1 }
        | none => .error s.taken
      | none => takeFrom fuel { s with taken := s.taken + 1 }
    else .ok s

/-- Finds and takes tokens to the end of the stream or until something is wrong. -/
def run : (fuel : Nat) → Scan → List Token
  | 0, s => s.tokens.toList.take s.taken
  | fuel + 1, s =>
    if s.ended then s.tokens.toList
    else
      match takeFrom s.tokens.size s with
      | .error taken => s.tokens.toList.take taken
      | .ok s =>
        match s.step? with
        | none => s.tokens.toList.take s.taken
        | some s => run fuel s

end Scan

/-- The tokens of a document, as far as they can be taken. -/
def tokens (cs : List Char) : List Token :=
  (Scan.start cs).run (cs.length + 2)

end SuiteScribe.Yaml
