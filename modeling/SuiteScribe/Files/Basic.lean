import SuiteScribe.Files.CleanPath

/-!
# Files and directories

A file system is a table of places, each with a file or a directory.  A path is followed from part
to part, and every part has to stand in a directory that is there.

`Files.read`, `Files.makeDirectories` and `Files.write` are what the program does with files.  What
they refuse, they refuse with the path and the cause.
-/

namespace SuiteScribe

/-- A place in a file system: the names that lead to it from the root. -/
abbrev Place := List Text

/-- What is at a place. -/
inductive FileEntry where
  | file (content : Text)
  | directory
deriving DecidableEq

/-- Why something cannot be done with a path. -/
inductive FileCause where
  | missing
  | notDirectory
  | isDirectory
  | alreadyThere
  | tooLong
  | invalid
deriving DecidableEq

/-- The cause in words. -/
def FileCause.message : FileCause → Text
  | missing => text "no such file or directory"
  | notDirectory => text "not a directory"
  | isDirectory => text "is a directory"
  | alreadyThere => text "file exists"
  | tooLong => text "file name too long"
  | invalid => text "invalid argument"

/-- What is done with a path. -/
inductive FileAction where
  | opening
  | reading
  | making
deriving DecidableEq

/-- The action in one word. -/
def FileAction.label : FileAction → Text
  | opening => text "open"
  | reading => text "read"
  | making => text "mkdir"

/-- What could not be done with which path, and why. -/
structure FileError where
  action : FileAction
  path : Text
  cause : FileCause

/-- The error in words. -/
def FileError.message (e : FileError) : Text :=
  e.action.label ++ text " " ++ e.path ++ text ": " ++ e.cause.message

/-- A file system and the directory that the program works in. -/
structure Files where
  entries : List (Place × FileEntry)
  home : Place

namespace Files

/-- How long a name may be, and how long a path. -/
def maxName : Nat := 255

/-- How long a path may be. -/
def maxPath : Nat := 4095

/-- What is at a place; the root is a directory. -/
def get? (files : Files) (place : Place) : Option FileEntry :=
  if place = [] then some .directory else files.entries.lookup place

/-- Puts something at a place. -/
def set (files : Files) (place : Place) (entry : FileEntry) : Files :=
  { files with entries := (place, entry) :: files.entries.filter (·.1 ≠ place) }

/-- Follows the parts of a path from a place.  What the last part names need not be there. -/
def follow (files : Files) : Place → List Text → Except FileCause Place
  | place, [] => .ok place
  | place, part :: rest =>
    match files.get? place with
    | none => .error .missing
    | some (.file _) => .error .notDirectory
    | some .directory =>
      if part = [] ∨ part = CleanPath.stay then follow files place rest
      else if part = CleanPath.up then follow files place.dropLast rest
      else if maxName < part.length then .error .tooLong
      else follow files (place ++ [part]) rest

/-- The place that a path leads to. -/
def locate (files : Files) (path : Text) : Except FileCause Place :=
  if (0 : UInt8) ∈ path then .error .invalid
  else if path = [] then .error .missing
  else if maxPath < path.length then .error .tooLong
  else follow files (if CleanPath.isRooted path then [] else files.home) (CleanPath.split path)

/-- What a path leads to. -/
def find (files : Files) (path : Text) : Except FileCause FileEntry :=
  match files.locate path with
  | .error cause => .error cause
  | .ok place =>
    match files.get? place with
    | none => .error .missing
    | some entry => .ok entry

/-- The content of a file. -/
def read (files : Files) (path : Text) : Except FileError Text :=
  match files.find path with
  | .ok (.file content) => .ok content
  | .ok .directory => .error ⟨.reading, path, .isDirectory⟩
  | .error cause => .error ⟨.opening, path, cause⟩

/-- Makes a directory where there is nothing. -/
def makeDirectory (files : Files) (path : Text) : Files × Option FileError :=
  match files.locate path with
  | .error cause => (files, some ⟨.making, path, cause⟩)
  | .ok place =>
    match files.get? place with
    | some _ => (files, some ⟨.making, path, .alreadyThere⟩)
    | none => (files.set place .directory, none)

/-- Makes the directory with these parts, the last of them first, and whatever is missing above it.
-/
def makeParts (files : Files) (rooted : Bool) : (parts : List Text) → Files × Option FileError
  | [] => (files, none)
  | name :: above =>
    let path := CleanPath.toText ⟨rooted, (name :: above).reverse⟩
    match files.find path with
    | .ok .directory => (files, none)
    | .ok (.file _) => (files, some ⟨.making, path, .notDirectory⟩)
    | .error _ =>
      match makeParts files rooted above with
      | (files, some e) => (files, some e)
      | (files, none) => files.makeDirectory path

/-- Makes a directory and whatever is missing above it.  What has been made stays, even if not all
could be. -/
def makeDirectories (files : Files) (path : CleanPath) : Files × Option FileError :=
  files.makeParts path.rooted path.parts.reverse

/-- Writes a file, which takes the place of one that is there. -/
def write (files : Files) (path content : Text) : Files × Option FileError :=
  match files.locate path with
  | .error cause => (files, some ⟨.opening, path, cause⟩)
  | .ok place =>
    match files.get? place with
    | some .directory => (files, some ⟨.opening, path, .isDirectory⟩)
    | _ => (files.set place (.file content), none)

/-- Everything below a place, under the names that lead there from it. -/
def below (files : Files) (place : Place) : List (Place × FileEntry) :=
  files.entries.filterMap fun (p, entry) =>
    if place.isPrefixOf p ∧ p ≠ place then some (p.drop place.length, entry) else none

end Files

end SuiteScribe
