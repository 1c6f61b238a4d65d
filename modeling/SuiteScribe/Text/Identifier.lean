import SuiteScribe.Text.Digit
import SuiteScribe.Text.Letter
import SuiteScribe.Text.Utf8

/-!
# Identifiers

The name of a test becomes the name of a method, so it has to be a letter or an underscore
followed by letters, decimal digits and underscores.
-/

namespace SuiteScribe

/-- Whether an identifier may start with `c`. -/
def startsIdentifier (c : Char) : Bool :=
  c == '_' || isLetter c

/-- Whether an identifier may go on with `c`. -/
def continuesIdentifier (c : Char) : Bool :=
  startsIdentifier c || isDigit c

/-- Whether the text is an identifier. -/
def Text.isIdentifier (t : Text) : Bool :=
  match t.runes with
  | [] => false
  | r :: rest => r.isCharWith startsIdentifier && rest.all (·.isCharWith continuesIdentifier)

end SuiteScribe
