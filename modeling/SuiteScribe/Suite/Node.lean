import SuiteScribe.Suite.Kind
import SuiteScribe.Text.Quoted

/-!
# Test suites

A suite is a list of tests, and a test is a name with a list of statements.  A statement is a node,
a tree of the fourteen kinds.  Where a node could stand and none does, there is `Node.absent`; and a
node may come from outside the kinds (`Node.foreign`), with what it says of itself: its kind, the
name of its type, and its spelling.

`Node.spell` writes a node on one line.
-/

namespace SuiteScribe

/-- A statement of a test, or a part of one. -/
inductive Node where
  | absent
  | importOf (name : Text)
  | assignment (lhs rhs : Node)
  | assertion (lhs rhs : Node)
  | call (receiver : Node) (args : List Node)
  | member (owner name : Node)
  | sequence (elements : List Node)
  | ifPyd (body : List Node)
  | ifPynih (body : List Node)
  | shouldThrow (exception : Node) (body : List Node)
  | number (value : Text)
  | string (value : Text)
  | bytes (value : Text)
  | int (value : Int)
  | str (value : Text)
  | foreign (kind typeName shown : Text)

/-- A test: the name of the method to write, and what it does. -/
structure Test where
  name : Text
  statements : List Node

/-- The tests of a suite, in order. -/
abbrev Suite := List Test

namespace Node

/-- The name of the kind that a node says it is of. -/
def kindName : Node → Text
  | absent => []
  | importOf _ => Kind.importOf.name
  | assignment _ _ => Kind.assignment.name
  | assertion _ _ => Kind.assertion.name
  | call _ _ => Kind.call.name
  | member _ _ => Kind.member.name
  | sequence _ => Kind.sequence.name
  | ifPyd _ => Kind.ifPyd.name
  | ifPynih _ => Kind.ifPynih.name
  | shouldThrow _ _ => Kind.shouldThrow.name
  | number _ => Kind.number.name
  | string _ => Kind.string.name
  | bytes _ => Kind.bytes.name
  | int _ => Kind.int.name
  | str _ => Kind.str.name
  | foreign kind _ _ => kind

/-- Spelled nodes between square brackets. -/
def bracket (parts : List Text) : Text :=
  text "[" ++ (text ", ").intercalate parts ++ text "]"

mutual

/-- The node on one line: its kind with its fields, or its value alone for a whole number and a bare
string.  A foreign node is spelled as it likes. -/
def spell : Node → Text
  | absent => text "None"
  | importOf name => text "Import(module=" ++ name.quote ++ text ")"
  | assignment lhs rhs =>
    text "Assignment(lhs=" ++ lhs.spell ++ text ", rhs=" ++ rhs.spell ++ text ")"
  | assertion lhs rhs =>
    text "Assertion(lhs=" ++ lhs.spell ++ text ", rhs=" ++ rhs.spell ++ text ")"
  | call receiver args =>
    text "FunctionCall(receiver=" ++ receiver.spell ++ text ", args=" ++ bracket (spellAll args)
      ++ text ")"
  | member owner name =>
    text "Attribute(instance=" ++ owner.spell ++ text ", attribute=" ++ name.spell ++ text ")"
  | sequence elements => text "Sequence(elements=" ++ bracket (spellAll elements) ++ text ")"
  | ifPyd body => text "IfPyd(body=" ++ bracket (spellAll body) ++ text ")"
  | ifPynih body => text "IfPynih(body=" ++ bracket (spellAll body) ++ text ")"
  | shouldThrow exception body =>
    text "ShouldThrow(exception=" ++ exception.spell ++ text ", body=" ++ bracket (spellAll body)
      ++ text ")"
  | number value => text "NumLiteral(value=" ++ value ++ text ")"
  | string value => text "StringLiteral(value=" ++ value.quote ++ text ")"
  | bytes value => text "BytesLiteral(value=b" ++ value.quote ++ text ")"
  | int value => Text.ofInt value
  | str value => value.quote
  | foreign _ _ shown => shown

/-- Every node of a list on a line. -/
def spellAll : List Node → List Text
  | [] => []
  | n :: rest => n.spell :: spellAll rest

end

end Node

end SuiteScribe
