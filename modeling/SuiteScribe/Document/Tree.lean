import SuiteScribe.Text.Basic

/-!
# Document trees

Both document formats are read into the same trees.  A number keeps the text it was written with.  A
mapping keeps one value for every key, in ascending order of the keys, so it does not matter in
which order they were written; a later value takes the place of an earlier one.

A `Path` leads from the root of a tree to one of its parts.
-/

namespace SuiteScribe

/-- What a document says, whatever its format. -/
inductive Tree where
  | null
  | bool (value : Bool)
  | number (value : Text)
  | string (value : Text)
  | list (items : List Tree)
  | mapping (fields : List (Text × Tree))

namespace Tree

/-- Sets the value of a key, at its place among the others. -/
def put : List (Text × Tree) → (key : Text) → (value : Tree) → List (Text × Tree)
  | [], key, value => [(key, value)]
  | (k, v) :: rest, key, value =>
    if key < k then (key, value) :: (k, v) :: rest
    else if key = k then (key, value) :: rest
    else (k, v) :: put rest key value

/-- The value of a key; one that is not there reads as null. -/
def get : List (Text × Tree) → Text → Tree
  | [], _ => null
  | (k, v) :: rest, key => if k = key then v else get rest key

/-- What a value is, in words. -/
def describe : Tree → Text
  | null => text "null"
  | bool _ => text "a boolean"
  | number _ => text "a number"
  | string _ => text "a string"
  | list _ => text "a list"
  | mapping _ => text "a mapping"

theorem sizeOf_get_lt (fields : List (Text × Tree)) (key : Text) :
    sizeOf (get fields key) < sizeOf (mapping fields) := by
  induction fields with
  | nil => simp [get]
  | cons field rest ih =>
    obtain ⟨k, v⟩ := field
    simp only [get]
    split
    · simp
      omega
    · simp at ih ⊢
      omega

end Tree

/-- A step into a tree. -/
inductive PathStep where
  | field (key : Text)
  | item (index : Nat)

/-- The steps from the root of a tree to one of its parts. -/
abbrev Path := List PathStep

namespace Path

/-- The path of a field of what is at the path. -/
def field (p : Path) (key : String) : Path :=
  p ++ [.field (text key)]

/-- The path of an item of what is at the path. -/
def item (p : Path) (index : Nat) : Path :=
  p ++ [.item index]

/-- The steps in words, each behind what leads to it. -/
def labelFrom : Path → Text
  | [] => []
  | .field key :: rest => text "." ++ key ++ labelFrom rest
  | .item index :: rest => text "[" ++ Text.ofNat index ++ text "]" ++ labelFrom rest

/-- The path in words; the root is the document itself. -/
def label : Path → Text
  | [] => text "<doc>"
  | .field key :: rest => key ++ labelFrom rest
  | path => labelFrom path

end Path

end SuiteScribe
