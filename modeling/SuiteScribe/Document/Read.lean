import SuiteScribe.Document.Decode
import SuiteScribe.Document.Format
import SuiteScribe.Document.Json
import SuiteScribe.Document.Yaml.Document
import SuiteScribe.Text.Blank

/-!
# Reading a suite

A suite is read from a document in two steps: the document becomes a tree, and the tree a suite.
-/

namespace SuiteScribe

/-- Why no suite was read. -/
inductive DocumentError where
  /-- The document could not be had. -/
  | unreadable (reason : Text)
  /-- There is no format of that name. -/
  | unsupported (name : Text)
  /-- There is nothing in the document. -/
  | empty (format : Format)
  /-- The document is not well-formed. -/
  | malformed
  /-- The document is no tree. -/
  | noTree (e : Yaml.NodeError)
  /-- The tree is no suite. -/
  | noSuite (e : DecodeError)

namespace DocumentError

/-- Whether it is the document itself that is wrong, what it says or how it is written. -/
def isInvalid : DocumentError → Bool
  | unreadable _ => false
  | unsupported _ => false
  | _ => true

/-- What is wrong with a document, in words. -/
def detail : DocumentError → Text
  | unreadable reason => reason
  | unsupported name => name.quote
  | empty .json => text "empty JSON"
  | empty .yaml => text "empty YAML"
  | malformed => text "<syntax>"
  | noTree e => e.message
  | noSuite e => e.message

/-- The error in words. -/
def message (e : DocumentError) : Text :=
  match e with
  | unreadable _ => text "failed to read IR document: " ++ e.detail
  | unsupported _ => text "unsupported IR format " ++ e.detail
  | _ => text "invalid IR document: " ++ e.detail

end DocumentError

/-- The tree of a document. -/
def Format.readTree (format : Format) (t : Text) : Except DocumentError Tree :=
  match format with
  | json =>
    if t.isBlank then .error (.empty json)
    else
      match Json.read? t with
      | some value => .ok value.toTree
      | none => .error .malformed
  | yaml =>
    match Yaml.document? t with
    | none => .error .malformed
    | some none => .error (.empty yaml)
    | some (some document) =>
      match document.toTree with
      | .ok tree => .ok tree
      | .error e => .error (.noTree e)

namespace Suite

/-- The suite that a tree says. -/
def ofTree (tree : Tree) : Except DocumentError Suite :=
  match tree.toSuite with
  | .ok suite => .ok suite
  | .error e => .error (.noSuite e)

/-- The suite of a document. -/
def read (format : Format) (t : Text) : Except DocumentError Suite := do
  let tree ← format.readTree t
  ofTree tree

/-- The suite of a document in the format of that very name. -/
def readNamed (name : Text) (t : Text) : Except DocumentError Suite :=
  match Format.ofName? name with
  | some format => read format t
  | none => .error (.unsupported name)

/-- The suite of a document that may not be had; `failure` says why. -/
def readFrom (name : Text) (source : Except Text Text) : Except DocumentError Suite :=
  match source with
  | .ok t => readNamed name t
  | .error failure => .error (.unreadable failure)

end Suite

end SuiteScribe
