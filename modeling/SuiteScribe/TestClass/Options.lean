import SuiteScribe.Writer.Basic

/-!
# Options of the generated class

What is left open in `Options` takes a default: an empty text, or a list of excluded modules that
was not given.
-/

namespace SuiteScribe

/-- What a caller asks for. -/
structure Options where
  spaceName : Text := []
  className : Text := []
  framework : Text := []
  excluded : Option (List Text) := none
  indent : Text := []

/-- What the generator works with. -/
structure Settings where
  spaceName : Text
  className : Text
  framework : Text
  excluded : List Text
  indent : Text

namespace Options

/-- The namespace of the generated class. -/
def defaultSpaceName : Text := text "Autowrap.CSharp.Tests"

/-- The name of the generated class. -/
def defaultClassName : Text := text "TestMain"

/-- The namespace of the test framework. -/
def defaultFramework : Text := text "Microsoft.VisualStudio.TestTools.UnitTesting"

/-- Modules whose counterpart is always at hand. -/
def defaultExcluded : List Text := [text "datetime"]

/-- A text, or a default in place of the empty one. -/
def orElse (t default : Text) : Text :=
  if t = [] then default else t

/-- The options with their defaults. -/
def settings (o : Options) : Settings where
  spaceName := orElse o.spaceName defaultSpaceName
  className := orElse o.className defaultClassName
  framework := orElse o.framework defaultFramework
  excluded := o.excluded.getD defaultExcluded
  indent := orElse o.indent Writer.defaultUnit

end Options

end SuiteScribe
