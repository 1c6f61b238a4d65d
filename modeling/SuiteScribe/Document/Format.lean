import SuiteScribe.Text.Case
import SuiteScribe.Text.Quoted

/-!
# Document formats

A format is asked for by name, or follows from the name of a file.
-/

namespace SuiteScribe

/-- How a document is written. -/
inductive Format where
  | json
  | yaml
deriving DecidableEq

/-- A name that no format has. -/
structure FormatError where
  name : Text

/-- The error in words. -/
def FormatError.message (e : FormatError) : Text :=
  text "unsupported IR format " ++ e.name.quote ++ text " (want json or yaml)"

namespace Format

/-- The name of a format. -/
def name : Format → Text
  | json => text "json"
  | yaml => text "yaml"

/-- The format that has this very name. -/
def ofName? (t : Text) : Option Format :=
  if t = json.name then some json
  else if t = yaml.name then some yaml
  else none

/-- The format that a name asks for, in capitals or not; there is a short name, too. -/
def parse (t : Text) : Except FormatError Format :=
  let t' := t.lowercase
  if t' = text "yml" then .ok yaml
  else
    match ofName? t' with
    | some format => .ok format
    | none => .error ⟨t⟩

/-- The extension of a file name, read from its end: what is up to the first point, with the point,
if there is one in the last part of the path. -/
def extensionFrom : (read : Text) → Text → Text
  | _, [] => []
  | read, b :: rest =>
    if b = Text.byte '/' then []
    else if b = Text.byte '.' then b :: read
    else extensionFrom (b :: read) rest

/-- The extension of a path, from the last point on. -/
def extension (path : Text) : Text :=
  extensionFrom [] path.reverse

/-- The format of the file with this path. -/
def ofPath (path : Text) : Format :=
  let e := (extension path).lowercase
  if e = text ".yaml" ∨ e = text ".yml" then yaml else json

end Format

end SuiteScribe
