import SuiteScribe.Document.Tree
import SuiteScribe.Number.Real
import SuiteScribe.Suite.Node
import SuiteScribe.Text.Ascending

/-!
# Suites in documents

A document is a mapping whose key `tests` holds a list of tests; a test is a mapping with a `name`
and a list of `statements`; and a node is a mapping with a `kind` and the fields of that kind, a
bare string, or a bare number.  Other keys are not looked at, and a key that holds null is as good
as one that is not there.

`Tree.toSuite` reads a tree this way.  What it refuses, it refuses with the path of the first part
that is at fault.
-/

namespace SuiteScribe

/-- What a part of a document may have to be. -/
inductive Shape where
  | mapping
  | list
  | string
  | number
  | integer
  | node

/-- The shape in words. -/
def Shape.label : Shape → Text
  | mapping => text "a mapping"
  | list => text "a list"
  | string => text "a string"
  | number => text "a number"
  | integer => text "an integer"
  | node => text "a node"

/-- What is wrong with a part of a document. -/
inductive Fault where
  | missing
  | wanted (shape : Shape) (got : Tree)
  | unknownKind (name : Text)
  | emptyModule
  | notNumber (value : Text)
  | notInteger (value : Text) (fault : Integer.Fault)

namespace Fault

/-- The names of the kinds, in ascending order. -/
def knownKinds : Text :=
  text "[" ++ (text " ").intercalate (Text.ascending (Kind.all.map Kind.name)) ++ text "]"

/-- The fault in words. -/
def message : Fault → Text
  | missing => text "missing"
  | wanted shape got => text "want " ++ shape.label ++ text ", got " ++ got.describe
  | unknownKind name =>
    text "unknown node kind " ++ name.quote ++ text " (known: " ++ knownKinds ++ text ")"
  | emptyModule => text "empty module name"
  | notNumber value => value.quote ++ text " is not a number"
  | notInteger value fault =>
    text "strconv.ParseInt: parsing " ++ value.quote ++ text ": " ++ fault.message

end Fault

/-- A fault and where it is. -/
structure DecodeError where
  path : Path
  fault : Fault

/-- The refusal in words. -/
def DecodeError.message (e : DecodeError) : Text :=
  text "path=" ++ e.path.label ++ text ": " ++ e.fault.message

/-- What comes of reading a part of a document. -/
abbrev Decoded := Except DecodeError

namespace Tree

/-- A string that has to be there. -/
def toText (path : Path) : Tree → Decoded Text
  | string value => .ok value
  | null => .error ⟨path, .missing⟩
  | other => .error ⟨path, .wanted .string other⟩

/-- A list; one that is not there is empty, unless it has to be there. -/
def toList (path : Path) (required : Bool) : Tree → Decoded (List Tree)
  | list items => .ok items
  | null => if required then .error ⟨path, .missing⟩ else .ok []
  | other => .error ⟨path, .wanted .list other⟩

/-- A bare number is a whole number if 64 bits hold it, and keeps its text otherwise. -/
def numberNode (value : Text) : Node :=
  match Integer.read value with
  | .ok i => .int i
  | .error _ => .number value

/-- The value of a number node: a number, or a string that is a numeral. -/
def toNumeral (path : Path) : Tree → Decoded Text
  | number value => .ok value
  | string value =>
    if Real.accepts value then .ok value else .error ⟨path, .notNumber value⟩
  | other => .error ⟨path, .wanted .number other⟩

/-- The value of a whole number. -/
def toInteger (path : Path) : Tree → Decoded Int
  | number value =>
    match Integer.read value with
    | .ok i => .ok i
    | .error fault => .error ⟨path, .notInteger value fault⟩
  | other => .error ⟨path, .wanted .integer other⟩

/-- The kind of that name. -/
def toKind (path : Path) (name : Text) : Decoded Kind :=
  match Kind.ofName? name with
  | some kind => .ok kind
  | none => .error ⟨path, .unknownKind name⟩

/-- The module of an import. -/
def toModule (path : Path) (t : Tree) : Decoded Text := do
  let name ← t.toText path
  if name = [] then .error ⟨path, .emptyModule⟩ else .ok name

mutual

/-- Reads a node. -/
def toNode (path : Path) : Tree → Decoded Node
  | string value => .ok (.str value)
  | number value => .ok (numberNode value)
  | mapping fields => do
    let name ← (get fields (text "kind")).toText (path.field "kind")
    match ← toKind (path.field "kind") name with
    | .importOf =>
      return .importOf (← (get fields (text "module")).toModule (path.field "module"))
    | .assignment =>
      let lhs ← toPart (path.field "lhs") true (get fields (text "lhs"))
      let rhs ← toPart (path.field "rhs") true (get fields (text "rhs"))
      return .assignment lhs rhs
    | .assertion =>
      let lhs ← toPart (path.field "lhs") true (get fields (text "lhs"))
      let rhs ← toPart (path.field "rhs") true (get fields (text "rhs"))
      return .assertion lhs rhs
    | .call =>
      let receiver ← toPart (path.field "receiver") true (get fields (text "receiver"))
      let args ← toNodes (path.field "args") (get fields (text "args"))
      return .call receiver args
    | .member =>
      let owner ← toPart (path.field "instance") true (get fields (text "instance"))
      let name ← toPart (path.field "attribute") true (get fields (text "attribute"))
      return .member owner name
    | .sequence =>
      return .sequence (← toNodes (path.field "elements") (get fields (text "elements")))
    | .ifPyd =>
      return .ifPyd (← toNodes (path.field "body") (get fields (text "body")))
    | .ifPynih =>
      return .ifPynih (← toNodes (path.field "body") (get fields (text "body")))
    | .shouldThrow =>
      let exception ← toPart (path.field "exception") false (get fields (text "exception"))
      let body ← toNodes (path.field "body") (get fields (text "body"))
      return .shouldThrow exception body
    | .number =>
      return .number (← (get fields (text "value")).toNumeral (path.field "value"))
    | .string =>
      return .string (← (get fields (text "value")).toText (path.field "value"))
    | .bytes =>
      return .bytes (← (get fields (text "value")).toText (path.field "value"))
    | .int =>
      return .int (← (get fields (text "value")).toInteger (path.field "value"))
    | .str =>
      return .str (← (get fields (text "value")).toText (path.field "value"))
  | other => .error ⟨path, .wanted .node other⟩
termination_by t => (sizeOf t, 0)
decreasing_by all_goals exact Prod.Lex.left _ _ (sizeOf_get_lt fields _)

/-- Reads a part of a node, which is absent if it is not there and need not be. -/
def toPart (path : Path) (required : Bool) : Tree → Decoded Node
  | null => if required then .error ⟨path, .missing⟩ else .ok .absent
  | t => toNode path t
termination_by t => (sizeOf t, 1)

/-- Reads a list of nodes, which is empty if it is not there. -/
def toNodes (path : Path) : Tree → Decoded (List Node)
  | list items => toNodesFrom path 0 items
  | null => .ok []
  | other => .error ⟨path, .wanted .list other⟩
termination_by t => (sizeOf t, 1)

/-- Reads the items of a list of nodes, counted from `i`. -/
def toNodesFrom (path : Path) : (i : Nat) → List Tree → Decoded (List Node)
  | _, [] => .ok []
  | i, t :: rest => do
    let n ← toNode (path.item i) t
    let ns ← toNodesFrom path (i + 1) rest
    return n :: ns
termination_by _ items => (sizeOf items, 0)

end

/-- Reads a test. -/
def toTest (path : Path) : Tree → Decoded Test
  | mapping fields => do
    let name ← (get fields (text "name")).toText (path.field "name")
    let statements ← (get fields (text "statements")).toNodes (path.field "statements")
    return ⟨name, statements⟩
  | other => .error ⟨path, .wanted .mapping other⟩

/-- Reads the tests of a suite, counted from `i`. -/
def toTestsFrom (path : Path) : (i : Nat) → List Tree → Decoded Suite
  | _, [] => .ok []
  | i, t :: rest => do
    let test ← t.toTest (path.item i)
    let tests ← toTestsFrom path (i + 1) rest
    return test :: tests

/-- Reads a suite. -/
def toSuite : Tree → Decoded Suite
  | mapping fields => do
    let path : Path := [.field (text "tests")]
    let tests ← (get fields (text "tests")).toList path true
    toTestsFrom path 0 tests
  | other => .error ⟨[], .wanted .mapping other⟩

end Tree

end SuiteScribe
