import SuiteScribe.Command.Run

/-!
# The program

The world of the machine, and the program that `Command.perform` is in it.
-/

namespace SuiteScribe

/-- A text as a string; what is no UTF-8 in it shows as the replacement character. -/
def Text.toName (t : Text) : String :=
  String.ofList (t.runes.map Rune.shown)

/-- The cause that the code of a system error stands for, whichever sign it is told with. -/
def FileCause.ofCode (code : UInt32) : FileCause :=
  match min code.toNat (-code).toNat with
  | 20 => .notDirectory
  | 21 => .isDirectory
  | 36 => .tooLong
  | _ => .invalid

/-- The cause of an error of the system.  Something that is in the way of a directory is a file. -/
def FileCause.ofError : IO.Error → FileCause
  | .noFileOrDirectory _ _ _ => .missing
  | .alreadyExists _ _ _ => .notDirectory
  | .inappropriateType _ code _ => ofCode code
  | .invalidArgument _ code _ => ofCode code
  | .resourceExhausted _ code _ => ofCode code
  | .otherError code _ => ofCode code
  | _ => .invalid

namespace Program

/-- Writes bytes to a stream. -/
def put (stream : IO.FS.Stream) (t : Text) : IO Unit := do
  stream.write ⟨t.toArray⟩
  stream.flush

/-- Reads a stream to its end. -/
partial def readAll (stream : IO.FS.Stream) (read : ByteArray) : IO ByteArray := do
  let more ← stream.read 65536
  if more.isEmpty then return read else readAll stream (read ++ more)

/-- Does something with a path; what goes wrong is told as an error of that path. -/
def attempting {α : Type} (path : Text) (action : FileCause → FileAction) (work : IO α) :
    IO (Except FileError α) := do
  try
    return .ok (← work)
  catch e =>
    let cause := FileCause.ofError e
    return .error ⟨action cause, path, cause⟩

/-- The error that something done with a path ends with, if any. -/
def errorOf (result : Except FileError Unit) : Option FileError :=
  match result with
  | .ok () => none
  | .error e => some e

/-- The world of the machine. -/
def world : World IO where
  readInput := return (← readAll (← IO.getStdin) ByteArray.empty).toList
  readFile path := do
    let action (cause : FileCause) : FileAction :=
      if cause = .isDirectory then .reading else .opening
    return (← attempting path action (IO.FS.readBinFile path.toName)).map ByteArray.toList
  makeDirectories path := do
    if path.parts = [] then return none
    else
      let made := IO.FS.createDirAll path.toText.toName
      return errorOf (← attempting path.toText (fun _ => .making) made)
  writeFile path content := do
    let written := IO.FS.writeBinFile path.toName ⟨content.toArray⟩
    return errorOf (← attempting path (fun _ => .opening) written)

/-- Does what the arguments ask for; the result is the exit code. -/
def run (arguments : List String) : IO UInt32 := do
  let report ← Command.perform (arguments.map text) world
  put (← IO.getStdout) report.standardOutput
  put (← IO.getStderr) report.standardError
  return if report.error.isSome then 1 else 0

end Program

end SuiteScribe

/-- The program. -/
def main (arguments : List String) : IO UInt32 :=
  SuiteScribe.Program.run arguments
