import SuiteScribe.Text.Basic

/-!
# Paths in their shortest form

A path is a text whose parts are divided by slashes.  Its shortest form has no empty parts, no parts
that stay where they are, and goes up only where it starts.
-/

namespace SuiteScribe

/-- A path in its shortest form: whether it starts at the root, and its parts. -/
structure CleanPath where
  rooted : Bool
  parts : List Text

namespace CleanPath

/-- The part of a path that stays where it is. -/
def stay : Text := text "."

/-- The part of a path that goes up. -/
def up : Text := text ".."

/-- The parts of a path, empty ones included. -/
def split : Text → List Text
  | [] => [[]]
  | b :: rest =>
    if b = Text.byte '/' then [] :: split rest
    else
      match split rest with
      | [] => [[b]]
      | part :: parts => (b :: part) :: parts

/-- Whether a path starts at the root. -/
def isRooted : Text → Bool
  | [] => false
  | b :: _ => b == Text.byte '/'

/-- Adds a part to those before it, the last of them first. -/
def push (rooted : Bool) (before : List Text) (part : Text) : List Text :=
  if part = [] ∨ part = stay then before
  else if part = up then
    match before with
    | [] => if rooted then [] else [up]
    | last :: rest => if last = up then up :: before else rest
  else part :: before

/-- The shortest form of a path. -/
def ofText (path : Text) : CleanPath :=
  let rooted := isRooted path
  ⟨rooted, ((split path).foldl (push rooted) []).reverse⟩

/-- The path as a text. -/
def toText (p : CleanPath) : Text :=
  if p.rooted then text "/" ++ (text "/").intercalate p.parts
  else if p.parts = [] then stay
  else (text "/").intercalate p.parts

/-- The directory that a path leads into: the path up to its last slash. -/
def directoryOf (path : Text) : CleanPath :=
  ofText (path.reverse.dropWhile (· ≠ Text.byte '/')).reverse

end CleanPath

end SuiteScribe
