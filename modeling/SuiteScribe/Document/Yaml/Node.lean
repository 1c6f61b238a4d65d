import SuiteScribe.Document.Tree
import SuiteScribe.Document.Yaml.Tag

/-!
# The nodes of a YAML document

An alias stands for a node that has an anchor, somewhere else in the document.  It holds the number
of that anchor, and the document knows the node of every number.  So a document is a graph, and it
may happen that an alias stands inside the node it stands for; nothing can be read from there.

`Document.toTree` reads a document as a tree.
-/

namespace SuiteScribe.Yaml

/-- A part of a document, with the line it starts on, counted from one. -/
inductive Node where
  | scalar (line : Nat) (tag : Tag) (value : Text)
  | sequence (line : Nat) (items : List Node)
  | mapping (line : Nat) (fields : List (Node × Node))
  | reference (line : Nat) (anchor : Nat)

/-- A document: its outermost node, and the nodes that have anchors. -/
structure Document where
  root : Node
  anchored : List (Nat × Node)

/-- Why a document is no tree. -/
inductive NodeError where
  /-- A key is not a scalar. -/
  | keyNotScalar (line : Nat)
  /-- A scalar is tagged as a boolean, and is none. -/
  | notBool (line : Nat) (value : Text)
  /-- An alias stands inside its own node, or for no node. -/
  | endless (line : Nat)

/-- The error in words. -/
def NodeError.message : NodeError → Text
  | keyNotScalar line => text "line " ++ Text.ofNat line ++ text ": mapping keys must be scalars"
  | notBool line value =>
    text "line " ++ Text.ofNat line ++ text ": yaml: cannot decode " ++ (resolve value).name ++
      text " `" ++ value ++ text "` as a !!bool"
  | endless line => text "line " ++ Text.ofNat line ++ text ": alias without end"

namespace Node

/-- The line a node starts on. -/
def line : Node → Nat
  | scalar line _ _ => line
  | sequence line _ => line
  | mapping line _ => line
  | reference line _ => line

/-- The text of a key. -/
def key? : Node → Except NodeError Text
  | scalar _ _ value => .ok value
  | other => .error (.keyNotScalar other.line)

/-- What a scalar says. -/
def scalarTree (line : Nat) (tag : Tag) (value : Text) : Except NodeError Tree :=
  match tag with
  | .null => .ok .null
  | .int => .ok (.number value)
  | .float => .ok (.number value)
  | .text => .ok (.string value)
  | .bool =>
    if trueWords.contains value then .ok (.bool true)
    else if falseWords.contains value then .ok (.bool false)
    else .error (.notBool line value)

mutual

/-- What a node says; `depth` bounds how many aliases are followed into each other. -/
def toTree (anchored : List (Nat × Node)) (depth : Nat) : Node → Except NodeError Tree
  | scalar line tag value => scalarTree line tag value
  | sequence _ items => return .list (← toTrees anchored depth items)
  | mapping _ fields => return .mapping (← toFields anchored depth [] fields)
  | reference line anchor =>
    match depth, anchored.lookup anchor with
    | depth + 1, some target => toTree anchored depth target
    | _, _ => .error (.endless line)
termination_by n => (depth, sizeOf n)

/-- What the items of a sequence say. -/
def toTrees (anchored : List (Nat × Node)) (depth : Nat) : List Node → Except NodeError (List Tree)
  | [] => .ok []
  | n :: rest => do
    let t ← toTree anchored depth n
    let ts ← toTrees anchored depth rest
    return t :: ts
termination_by items => (depth, sizeOf items)

/-- What the fields of a mapping say, behind the fields read so far. -/
def toFields (anchored : List (Nat × Node)) (depth : Nat) (read : List (Text × Tree)) :
    List (Node × Node) → Except NodeError (List (Text × Tree))
  | [] => .ok read
  | (k, v) :: rest => do
    let key ← k.key?
    let value ← toTree anchored depth v
    toFields anchored depth (Tree.put read key value) rest
termination_by fields => (depth, sizeOf fields)

end

end Node

/-- What a document says.  No alias of a document that can be read at all lies behind more aliases
than there are anchors. -/
def Document.toTree (d : Document) : Except NodeError Tree :=
  d.root.toTree d.anchored d.anchored.length

end SuiteScribe.Yaml
