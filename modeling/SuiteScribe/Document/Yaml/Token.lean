import SuiteScribe.Text.Basic

/-!
# The tokens of a YAML document

Besides what a document spells out, there are tokens for what its indentation says: where the
sequences and mappings of the block style start and end.
-/

namespace SuiteScribe.Yaml

/-- What a token is. -/
inductive Mark where
  | streamStart
  | streamEnd
  | version (major minor : Nat)
  | handle (name start : Text)
  | documentStart
  | documentEnd
  | blockSequence
  | blockMapping
  | blockEnd
  | flowSequence
  | flowSequenceEnd
  | flowMapping
  | flowMappingEnd
  | blockEntry
  | flowEntry
  | key
  | value
  | reference (name : Text)
  | anchor (name : Text)
  | tag (handle suffix : Text)
  | scalar (value : Text) (plain : Bool)
deriving DecidableEq

/-- A token and the line it starts on, counted from zero. -/
structure Token where
  line : Nat
  mark : Mark

end SuiteScribe.Yaml
