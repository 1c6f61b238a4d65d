import SuiteScribe.TestClass.Options
import SuiteScribe.TestClass.Using
import SuiteScribe.Text.Identifier

/-!
# The generated file

A file holds one namespace with the using directives and one class, which has a method for every
test of the suite; a method holds a comment for every statement that has a line.

`TestClass.stream` writes the file into a sink as far as it gets.  `TestClass.generate` gives the
whole file or an error.
-/

namespace SuiteScribe

/-- Why a file is not written: the sink refused a text, or the suite cannot be generated. -/
inductive GenerateError where
  | sink (error : SinkError)
  | suite (error : SuiteError)

/-- The failure in words. -/
def GenerateError.message : GenerateError → Text
  | sink error => text "failed to write generated output: " ++ error.message
  | suite error => error.message

namespace TestClass

/-- What the generator does with its writer. -/
abbrev Piece := Action Unit SuiteError

/-- The first line of every file. -/
def warning : Text := text "// this file is autogenerated, do not modify by hand"

/-- The name of a test has to be an identifier. -/
def checkName (index : Nat) (name : Text) : Except SuiteError Unit :=
  let refuse (reason : Reason) : SuiteError :=
    .inName index (.malformed (text "Test") (.named (text "name")) reason)
  if name = [] then .error (refuse .missing)
  else if name.isIdentifier then .ok ()
  else .error (refuse (.notIdentifier name))

/-- The line of a statement of the test of that name. -/
def writeStatement (modules : List Text) (test : Text) (i : Nat) (n : Node) : Piece := fun w =>
  match n.statement modules with
  | .error e => (w, .failed (.inStatement test i e))
  | .ok line => if line = [] then (w, .done) else Writer.writeLine line w

/-- The method of a test. -/
def writeTest (s : Settings) (modules : List Text) (i : Nat) (test : Test) : Piece := fun w =>
  match checkName i test.name with
  | .error e => (w, .failed e)
  | .ok () =>
    Writer.block
      [text "[" ++ s.framework ++ text ".TestMethod]",
        text "public void " ++ test.name ++ text "()"]
      (Writer.forEach (writeStatement modules test.name) 0 test.statements) w

/-- The class with its methods. -/
def writeClass (s : Settings) (modules : List Text) (suite : Suite) : Piece :=
  Writer.block
    [text "[" ++ s.framework ++ text ".TestClass]", text "public class " ++ s.className]
    (Writer.forEach (writeTest s modules) 0 suite)

/-- The using directives and an empty line. -/
def writeUsing (namespaces : List Text) : Piece :=
  Writer.writeLines (namespaces.map (fun n => text "using " ++ n ++ text ";") ++ [[]])

/-- The whole file.  The imports are looked at first, so a bad one leaves the sink untouched. -/
def write (s : Settings) (suite : Suite) : Piece := fun w =>
  match Using.imported suite with
  | .error e => (w, .failed e)
  | .ok modules =>
    Writer.andThen (Writer.writeLine warning)
      (Writer.block [text "namespace " ++ s.spaceName]
        (Writer.andThen (writeUsing (Using.namespaces modules s.excluded s.framework))
          (writeClass s (Using.kept modules s.excluded) suite))) w

/-- Writes the file into a sink.  A refusal of the sink is told even if the suite is at fault too.
-/
def stream (sink : Sink) (suite : Suite) (options : Options) : Sink × Option GenerateError :=
  let s := options.settings
  let (w, ending) := write s suite (Writer.new sink s.indent ())
  match w.failure, ending with
  | some e, _ => (w.sink, some (.sink e))
  | none, .failed e => (w.sink, some (.suite e))
  | none, _ => (w.sink, none)

/-- The whole file, or why there is none. -/
def generate (suite : Suite) (options : Options) : Except GenerateError Text :=
  match stream .endless suite options with
  | (sink, none) => .ok sink.output
  | (_, some e) => .error e

end TestClass

end SuiteScribe
