import SuiteScribe.Text.Basic

/-!
# Finite sets of texts

A finite set of texts is kept as the list of its members in ascending order of their bytes, so two
sets with the same members are the same list.
-/

namespace SuiteScribe.Text

/-- Puts `t` at its place in an ascending list, unless it is there already. -/
def insertAscending (t : Text) : List Text → List Text
  | [] => [t]
  | u :: rest =>
    if t < u then t :: u :: rest
    else if t = u then u :: rest
    else u :: insertAscending t rest

/-- The members of a list in ascending order, each once. -/
def ascending (ts : List Text) : List Text :=
  ts.foldr insertAscending []

end SuiteScribe.Text
