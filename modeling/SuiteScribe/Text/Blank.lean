import SuiteScribe.Text.CodeSet
import SuiteScribe.Text.Utf8

/-!
# White space

The code points with the property White_Space.  A text is blank if it has nothing else.
-/

namespace SuiteScribe

/-- The ranges of the white space. -/
def spaces : CodeSet := [
    (9, 13), (32, 32), (133, 133), (160, 160), (5760, 5760), (8192, 8202), (8232, 8233),
    (8239, 8239), (8287, 8287), (12288, 12288)]

/-- Whether `c` is white space. -/
def isSpace (c : Char) : Bool :=
  spaces.holds c.toNat

/-- Whether a text holds nothing but white space. -/
def Text.isBlank (t : Text) : Bool :=
  t.runes.all (·.isCharWith isSpace)

end SuiteScribe
