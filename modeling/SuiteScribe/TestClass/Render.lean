import SuiteScribe.Suite.Node
import SuiteScribe.TestClass.Error
import SuiteScribe.Text.Case

/-!
# Nodes as lines of code

`Node.render` writes a node as one line of C#, given the modules that have a using directive: a bare
name of such a module before a member is written in the case of its namespace.  Kinds without a
counterpart stay visible as markers.  `Node.statement` makes a comment of the line.
-/

namespace SuiteScribe

/-- Text that goes into a line as it is has to stay on it. -/
def requireOneLine (kind : Kind) (field : Text) (value : Text) : Except NodeError Text :=
  if value.hasLineBreak then .error (.malformed kind.name (.named field) (.lineBreak value))
  else .ok value

namespace Node

/-- A part that its parent cannot do without. -/
def required (parent : Kind) (field : Field) (n : Node) (rendered : Except NodeError Text) :
    Except NodeError Text :=
  match n with
  | absent => .error (.malformed parent.name field .missing)
  | _ => rendered

/-- The owner of a member: the bare name of a module with a using directive is written as its
namespace. -/
def ownerName (modules : List Text) (owner : Node) (rendered : Text) : Text :=
  match owner with
  | str name => if modules.contains name then rendered.capitalize else rendered
  | _ => rendered

/-- A node that stays visible as a marker. -/
def marker (kind : Text) (spelled : Text) : Text :=
  text "// TODO: " ++ kind ++ text " " ++ spelled

/-- A node from outside the kinds is kept as a marker if the kind it names is, and refused
otherwise. -/
def renderForeign (kind typeName shown : Text) : Except NodeError Text :=
  match Kind.ofName? kind with
  | none => .error (.unknownKind kind)
  | some k =>
    if k.isPlaceholder then .ok (marker kind shown)
    else .error (.malformed kind .whole (.foreignShape typeName))

mutual

/-- The node as one line of code. -/
def render (modules : List Text) : Node → Except NodeError Text
  | absent => .error (.malformed [] .whole .missing)
  | importOf _ => .ok []
  | assignment lhs rhs => do
    let l ← required .assignment (.named (text "lhs")) lhs (render modules lhs)
    let r ← required .assignment (.named (text "rhs")) rhs (render modules rhs)
    return text "var " ++ l ++ text " = " ++ r
  | assertion lhs rhs => do
    let actual ← required .assertion (.named (text "lhs")) lhs (render modules lhs)
    let expected ← required .assertion (.named (text "rhs")) rhs (render modules rhs)
    return text "Assert.AreEqual(" ++ expected ++ text ", " ++ actual ++ text ")"
  | call receiver args => do
    let f ← required .call (.named (text "receiver")) receiver (render modules receiver)
    let xs ← renderItems modules .call (text "args") 0 args
    return f ++ text "(" ++ (text ", ").intercalate xs ++ text ")"
  | member owner name => do
    let o ← required .member (.named (text "instance")) owner (render modules owner)
    let m ← required .member (.named (text "attribute")) name (render modules name)
    return ownerName modules owner o ++ text "." ++ m.capitalize
  | sequence elements => do
    let xs ← renderItems modules .sequence (text "elements") 0 elements
    return text "\x7b" ++ (text ", ").intercalate xs ++ text "\x7d"
  | ifPyd body => .ok (marker Kind.ifPyd.name (ifPyd body).spell)
  | ifPynih body => .ok (marker Kind.ifPynih.name (ifPynih body).spell)
  | shouldThrow exception body =>
    .ok (marker Kind.shouldThrow.name (shouldThrow exception body).spell)
  | number value =>
    if value = [] then .error (.malformed Kind.number.name (.named (text "value")) .missing)
    else requireOneLine .number (text "value") value
  | string value => .ok value.quote
  | bytes value => .ok (text "b" ++ value.quote)
  | int value => .ok (Text.ofInt value)
  | str value => requireOneLine .str (text "value") value
  | foreign kind typeName shown => renderForeign kind typeName shown

/-- The items of a list, counted from `i`. -/
def renderItems (modules : List Text) (parent : Kind) (field : Text) :
    (i : Nat) → List Node → Except NodeError (List Text)
  | _, [] => .ok []
  | i, n :: rest => do
    let x ← required parent (.item field i) n (render modules n)
    let xs ← renderItems modules parent field (i + 1) rest
    return x :: xs

end

/-- The line written for a statement: a comment, or nothing at all. -/
def statement (modules : List Text) : Node → Except NodeError Text
  | absent => .error (.malformed (text "statement") .whole .missing)
  | n => do
    let line ← n.render modules
    return if line = [] then [] else text "// " ++ line ++ text ";"

end Node

end SuiteScribe
