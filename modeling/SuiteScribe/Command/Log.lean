import SuiteScribe.Text.Quoted

/-!
# Log lines

A log line is a list of keys with their values.  A value that could be misread stands in quotes.
-/

namespace SuiteScribe.Log

/-- Whether a value has to be quoted in a log line: an empty one, and one that holds a space, an
equals sign, a quote or something that does not print. -/
def needsQuotes (t : Text) : Bool :=
  t.isEmpty || t.runes.any fun
    | .stray _ => true
    | .char c =>
      if c.toNat < 0x80 then c == ' ' || c == '=' || c == '"' || c.toNat < 32
      else c == '�' || !isPrintable c

/-- A value in a log line. -/
def value (t : Text) : Text :=
  if needsQuotes t then t.quote else t

/-- A log line about progress. -/
def line (message : Text) (attributes : List (Text × Text)) : Text :=
  text "level=DEBUG msg=" ++ value message ++
    attributes.flatMap (fun (key, v) => text " " ++ key ++ text "=" ++ value v) ++ text "\n"

end SuiteScribe.Log
