import SuiteScribe.Document.Yaml.Node
import SuiteScribe.Document.Yaml.TokenStream

/-!
# From tokens to a document

The first document of a stream is read.  A name may be given to several nodes; an alias means the
one that was given it last.  An anchor gets its number where its node starts, so an alias may also
stand inside that node.
-/

namespace SuiteScribe.Yaml

/-- The tokens left, and what the document has said so far. -/
structure Reader where
  tokens : List Token
  /-- What the handles of tags stand for. -/
  handles : List (Text × Text)
  /-- The number of the anchor that has a name, the latest first. -/
  names : List (Text × Nat)
  anchored : List (Nat × Node)

namespace Reader

/-- A step that reads tokens, unless they do not fit. -/
abbrev Reading := StateT Reader Option

/-- The next token. -/
def peek : Reading Token := fun s =>
  match s.tokens with
  | [] => none
  | t :: _ => some (t, s)

/-- What the next token is. -/
def next : Reading Mark :=
  return (← peek).mark

/-- Leaves the next token behind. -/
def skip : Reading Unit :=
  modify fun s => { s with tokens := s.tokens.tail }

/-- Refuses. -/
def refuse {α : Type} : Reading α := fun _ => none

/-- Gives a name to a node that starts here. -/
def openAnchor (name : Text) : Reading Nat := fun s =>
  some (s.names.length, { s with names := (name, s.names.length) :: s.names })

/-- Sets the node of an anchor. -/
def closeAnchor (number : Nat) (n : Node) : Reading Unit :=
  modify fun s => { s with anchored := (number, n) :: s.anchored }

/-- The number of the anchor that a name means here. -/
def anchor (name : Text) : Reading Nat := fun s =>
  (s.names.lookup name).map (·, s)

/-! ## Nodes -/

/-- What stands before a node. -/
structure Properties where
  /-- The line they start on, or the node if there are none. -/
  line : Nat
  anchor : Option Text
  tag : Option Text

/-- The name of a tag whose handle is written out. -/
def tagName (handle suffix : Text) : Reading Text := fun s =>
  if handle = [] then some (suffix, s)
  else
    match s.handles.lookup handle with
    | some start => if start ++ suffix = [] then none else some (start ++ suffix, s)
    | none => none

/-- Reads an anchor, if there is one. -/
def anchorProperty : Reading (Option Text) := do
  match ← next with
  | .anchor name =>
    skip
    return some name
  | _ => return none

/-- Reads a tag, if there is one. -/
def tagProperty : Reading (Option (Text × Text)) := do
  match ← next with
  | .tag handle suffix =>
    skip
    return some (handle, suffix)
  | _ => return none

/-- Reads the anchor and the tag of a node, in either order. -/
def properties : Reading Properties := do
  let line := (← peek).line
  match ← anchorProperty with
  | some name =>
    let tag ← (← tagProperty).mapM fun (handle, suffix) => tagName handle suffix
    return ⟨line, some name, tag⟩
  | none =>
    let tag ← tagProperty
    let name ← anchorProperty
    let tag ← tag.mapM fun (handle, suffix) => tagName handle suffix
    return ⟨line, name, tag⟩

/-- A scalar on a line; a tag that is a lone exclamation mark says nothing. -/
def scalarNode (line : Nat) (tag : Option Text) (value : Text) (plain : Bool) : Node :=
  let untagged : Node := .scalar line (if plain then resolve value else .text) value
  match tag with
  | some name => if name = text "!" then untagged else .scalar line (.ofName name) value
  | none => untagged

/-- A node that is not there. -/
def emptyNode : Node :=
  .scalar 0 .null []

/-- What kind of node may stand here besides those of the flow style. -/
inductive Context where
  | flow
  | block
  /-- Also the entries of a sequence that is indented no further. -/
  | blockOrEntries
deriving DecidableEq

mutual

/-- Reads a node. -/
def node : (fuel : Nat) → Context → Reading Node
  | 0, _ => refuse
  | fuel + 1, context => do
    match ← next with
    | .reference name =>
      let line := (← peek).line
      skip
      return .reference (line + 1) (← anchor name)
    | _ =>
      let p ← properties
      match p.anchor with
      | some name =>
        let number ← openAnchor name
        let n ← content fuel context p
        closeAnchor number n
        return n
      | none => content fuel context p

/-- Reads what follows the properties of a node. -/
def content : (fuel : Nat) → Context → Properties → Reading Node
  | 0, _, _ => refuse
  | fuel + 1, context, p => do
    let line := p.line + 1
    match ← next with
    | .scalar value plain =>
      skip
      return scalarNode line p.tag value plain
    | .flowSequence =>
      skip
      return .sequence line (← flowItems fuel true)
    | .flowMapping =>
      skip
      return .mapping line (← flowFields fuel true)
    | .blockEntry =>
      if context = .blockOrEntries then return .sequence line (← entries fuel)
      else bare p
    | .blockSequence =>
      if context ≠ .flow then
        skip
        return .sequence line (← blockItems fuel)
      else bare p
    | .blockMapping =>
      if context ≠ .flow then
        skip
        return .mapping line (← blockFields fuel)
      else bare p
    | _ => bare p

/-- A node that has properties only. -/
def bare (p : Properties) : Reading Node :=
  if p.anchor.isSome || p.tag.isSome then return scalarNode (p.line + 1) p.tag [] true else refuse

/-- Reads a node, unless the next token is one of those that end its place. -/
def nodeUnless : (fuel : Nat) → Context → List Mark → Reading Node
  | 0, _, _ => refuse
  | fuel + 1, context, ends => do
    if (← next) ∈ ends then return emptyNode else node fuel context

/-- Reads the entries of a sequence that is indented no further than the mapping it is in. -/
def entries : (fuel : Nat) → Reading (List Node)
  | 0 => refuse
  | fuel + 1 => do
    if (← next) = .blockEntry then
      skip
      let n ← nodeUnless fuel .block [.blockEntry, .key, .value, .blockEnd]
      return n :: (← entries fuel)
    else return []

/-- Reads the items of a block sequence. -/
def blockItems : (fuel : Nat) → Reading (List Node)
  | 0 => refuse
  | fuel + 1 => do
    match ← next with
    | .blockEntry =>
      skip
      let n ← nodeUnless fuel .block [.blockEntry, .blockEnd]
      return n :: (← blockItems fuel)
    | .blockEnd =>
      skip
      return []
    | _ => refuse

/-- Reads the fields of a block mapping. -/
def blockFields : (fuel : Nat) → Reading (List (Node × Node))
  | 0 => refuse
  | fuel + 1 => do
    match ← next with
    | .key =>
      skip
      let k ← nodeUnless fuel .blockOrEntries [.key, .value, .blockEnd]
      let v ← valueOf fuel .blockOrEntries [.key, .value, .blockEnd]
      return (k, v) :: (← blockFields fuel)
    | .blockEnd =>
      skip
      return []
    | _ => refuse

/-- Reads the value behind a key, if there is one. -/
def valueOf : (fuel : Nat) → Context → List Mark → Reading Node
  | 0, _, _ => refuse
  | fuel + 1, context, ends => do
    if (← next) = .value then
      skip
      nodeUnless fuel context ends
    else return emptyNode

/-- Reads the items of a flow sequence.  A key among them starts a mapping of one field; a key that
is left out takes the token behind its mark along. -/
def flowItems : (fuel : Nat) → (first : Bool) → Reading (List Node)
  | 0, _ => refuse
  | fuel + 1, first => do
    if (← next) = .flowSequenceEnd then
      skip
      return []
    else
      unless first do
        if (← next) = .flowEntry then skip else refuse
      match ← next with
      | .key =>
        let line := (← peek).line
        skip
        let k ← do
          if (← next) ∈ [Mark.value, .flowEntry, .flowSequenceEnd] then
            skip
            pure emptyNode
          else node fuel .flow
        let v ← valueOf fuel .flow [.flowEntry, .flowSequenceEnd]
        return .mapping (line + 1) [(k, v)] :: (← flowItems fuel false)
      | .flowSequenceEnd =>
        skip
        return []
      | _ =>
        let n ← node fuel .flow
        return n :: (← flowItems fuel false)

/-- Reads the fields of a flow mapping.  A node among them that is no key is one without a value. -/
def flowFields : (fuel : Nat) → (first : Bool) → Reading (List (Node × Node))
  | 0, _ => refuse
  | fuel + 1, first => do
    if (← next) = .flowMappingEnd then
      skip
      return []
    else
      unless first do
        if (← next) = .flowEntry then skip else refuse
      match ← next with
      | .key =>
        skip
        let k ← nodeUnless fuel .flow [.value, .flowEntry, .flowMappingEnd]
        let v ← valueOf fuel .flow [.flowEntry, .flowMappingEnd]
        return (k, v) :: (← flowFields fuel false)
      | .flowMappingEnd =>
        skip
        return []
      | _ =>
        let k ← node fuel .flow
        return (k, emptyNode) :: (← flowFields fuel false)

end

/-! ## Documents -/

/-- What the handles stand for that no directive gives. -/
def defaultHandles : List (Text × Text) :=
  [(text "!", text "!"), (text "!!", Tag.longStart)]

/-- Reads the directives of a document.  The only version is 1.1, and nothing is said twice. -/
def directives : (fuel : Nat) → (versioned : Bool) → (handles : List (Text × Text)) →
    Reading (List (Text × Text))
  | 0, _, _ => refuse
  | fuel + 1, versioned, handles => do
    match ← next with
    | .version major minor =>
      if versioned ∨ major ≠ 1 ∨ minor ≠ 1 then refuse
      else
        skip
        directives fuel true handles
    | .handle name start =>
      if (handles.lookup name).isSome then refuse
      else
        skip
        directives fuel versioned (handles ++ [(name, start)])
    | _ => return handles ++ defaultHandles

/-- Whether a token stands before a document that says where it starts. -/
def opensDocument : Mark → Bool
  | .version _ _ => true
  | .handle _ _ => true
  | .documentStart => true
  | _ => false

/-- Whether a token ends a document before anything is in it. -/
def closesDocument : Mark → Bool
  | .documentEnd => true
  | .streamEnd => true
  | mark => opensDocument mark

/-- Reads the outermost node of the first document, if there is one. -/
def root (fuel : Nat) : Reading (Option Node) := do
  skip
  match ← next with
  | .streamEnd => return none
  | mark =>
    let handles ← directives fuel false []
    modify fun s => { s with handles := handles }
    let n ←
      if opensDocument mark then do
        if (← next) = .documentStart then skip else refuse
        if closesDocument (← next) then pure emptyNode else node fuel .block
      else node fuel .block
    let _ ← next
    return some n

end Reader

/-- The first document of a stream, or nothing if there is none; there is no answer if it is not
well-formed. -/
def document? (t : Text) : Option (Option Document) := do
  let ts := tokens (← characters? t)
  let (root, s) ← (Reader.root (4 * ts.length + 4)).run ⟨ts, [], [], []⟩
  return root.map fun n => ⟨n, s.anchored⟩

end SuiteScribe.Yaml
