import SuiteScribe.Text.Basic

/-!
# Kinds of nodes

The fourteen kinds a node of a test suite can be of, and their names in documents and messages.
-/

namespace SuiteScribe

/-- What a node of a test suite is. -/
inductive Kind where
  | importOf
  | assignment
  | assertion
  | call
  | member
  | sequence
  | ifPyd
  | ifPynih
  | shouldThrow
  | number
  | string
  | bytes
  | int
  | str
deriving DecidableEq

namespace Kind

/-- The name of a kind. -/
def name : Kind → Text
  | importOf => text "Import"
  | assignment => text "Assignment"
  | assertion => text "Assertion"
  | call => text "FunctionCall"
  | member => text "Attribute"
  | sequence => text "Sequence"
  | ifPyd => text "IfPyd"
  | ifPynih => text "IfPynih"
  | shouldThrow => text "ShouldThrow"
  | number => text "NumLiteral"
  | string => text "StringLiteral"
  | bytes => text "BytesLiteral"
  | int => text "int"
  | str => text "str"

/-- The kinds in the order in which they are listed. -/
def all : List Kind :=
  [importOf, assignment, assertion, call, member, sequence, ifPyd, ifPynih, shouldThrow, number,
    string, bytes, int, str]

/-- The kind of that name. -/
def ofName? (t : Text) : Option Kind :=
  all.find? fun k => k.name == t

/-- Whether nodes of the kind are kept as markers instead of being rendered. -/
def isPlaceholder : Kind → Bool
  | ifPyd | ifPynih | shouldThrow => true
  | _ => false

end Kind

end SuiteScribe
