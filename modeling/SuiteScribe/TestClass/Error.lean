import SuiteScribe.Suite.Kind
import SuiteScribe.Text.Quoted

/-!
# Why a suite is not generated

A node is refused because its kind is unknown, or because it is not shaped as its kind demands.  The
refusal is told together with the test and the statement it was met in.
-/

namespace SuiteScribe

/-- The part of a node that is at fault. -/
inductive Field where
  | whole
  | named (name : Text)
  | item (name : Text) (index : Nat)

/-- The part in words; the node as a whole has none. -/
def Field.label : Field → Text
  | whole => []
  | named name => name
  | item name index => name ++ text "[" ++ Text.ofNat index ++ text "]"

/-- What is wrong with a part of a node. -/
inductive Reason where
  | missing
  | lineBreak (value : Text)
  | notIdentifier (name : Text)
  | foreignShape (typeName : Text)

/-- The reason in words. -/
def Reason.message : Reason → Text
  | missing => text "missing"
  | lineBreak value => text "line break in " ++ value.quote
  | notIdentifier name => name.quote ++ text " is not a C# identifier"
  | foreignShape typeName => text "unexpected Go type " ++ typeName

/-- Why a node is refused. -/
inductive NodeError where
  | unknownKind (kind : Text)
  | malformed (kind : Text) (field : Field) (reason : Reason)

/-- The refusal in words. -/
def NodeError.message : NodeError → Text
  | unknownKind kind => text "no C# handler for IR type " ++ kind
  | malformed kind field reason =>
    text "malformed " ++ kind ++ text " node: " ++
      (if field.label = [] then reason.message else field.label ++ text ": " ++ reason.message)

/-- Why a suite is refused: a statement of the test of that name, or the name of the test with that
number. -/
inductive SuiteError where
  | inStatement (test : Text) (index : Nat) (error : NodeError)
  | inName (index : Nat) (error : NodeError)

namespace SuiteError

/-- The refusal of a node behind the refusal of the suite. -/
def cause : SuiteError → NodeError
  | inStatement _ _ error => error
  | inName _ error => error

/-- The refusal in words. -/
def message : SuiteError → Text
  | inStatement test index error =>
    text "test " ++ test ++ text ": statement " ++ Text.ofNat index ++ text ": " ++ error.message
  | inName index error => text "test " ++ Text.ofNat index ++ text ": " ++ error.message

end SuiteError

end SuiteScribe
