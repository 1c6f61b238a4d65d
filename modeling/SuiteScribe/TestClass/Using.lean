import SuiteScribe.TestClass.Render
import SuiteScribe.Text.Ascending

/-!
# Using directives

The modules that the statements of a suite import become using directives of the whole file.  A set
of modules is the ascending list of its members (`Text.ascending`), so nothing here depends on the
order or the number of the imports.
-/

namespace SuiteScribe.Using

/-- The modules that the statements of a test import, counted from `i`; each has to have a name on
one line. -/
def ofStatements (test : Text) : (i : Nat) → List Node → Except SuiteError (List Text)
  | _, [] => .ok []
  | i, .importOf name :: rest =>
    if name = [] then
      .error (.inStatement test i (.malformed Kind.importOf.name (.named (text "module")) .missing))
    else
      match requireOneLine .importOf (text "module") name with
      | .error e => .error (.inStatement test i e)
      | .ok name => do
        let names ← ofStatements test (i + 1) rest
        return name :: names
  | i, _ :: rest => ofStatements test (i + 1) rest

/-- The modules that the tests import, in the order of the statements. -/
def ofTests : List Test → Except SuiteError (List Text)
  | [] => .ok []
  | test :: rest => do
    let names ← ofStatements test.name 0 test.statements
    let more ← ofTests rest
    return names ++ more

/-- The set of the modules that a suite imports. -/
def imported (suite : Suite) : Except SuiteError (List Text) := do
  return Text.ascending (← ofTests suite)

/-- The modules that get a using directive. -/
def kept (modules excluded : List Text) : List Text :=
  modules.filter (!excluded.contains ·)

/-- The namespaces of the modules, each once and none of those seen before. -/
def namespacesFrom : (seen : List Text) → List Text → List Text
  | _, [] => []
  | seen, m :: rest =>
    if seen.contains m.capitalize then namespacesFrom seen rest
    else m.capitalize :: namespacesFrom (m.capitalize :: seen) rest

/-- The namespaces to use: those of the modules in the order of the modules' names, and the test
framework last. -/
def namespaces (modules excluded : List Text) (framework : Text) : List Text :=
  namespacesFrom [framework] (Text.ascending (kept modules excluded)) ++ [framework]

end SuiteScribe.Using
