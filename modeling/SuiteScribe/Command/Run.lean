import SuiteScribe.Command.Log
import SuiteScribe.Command.Plan

/-!
# Running a command

A request is carried out in steps: the document is read, the suite is decoded, the test class is
generated, and it goes to the standard output or into a file.  Nothing is written before the whole
class has been generated.

What the steps ask of the world around the program is a `World`.  `Command.perform` decides, for any
world, what is asked and what is said in the end; the program does this with the world of the
machine, and `Command.run` with a file system.
-/

namespace SuiteScribe

/-! ## The world around the program -/

/-- What the program asks of the world around it. -/
structure World (m : Type → Type) where
  /-- All of the standard input. -/
  readInput : m Text
  /-- The content of a file. -/
  readFile (path : Text) : m (Except FileError Text)
  /-- Makes a directory and whatever is missing above it. -/
  makeDirectories (path : CleanPath) : m (Option FileError)
  /-- Writes a file, which takes the place of one that is there. -/
  writeFile (path content : Text) : m (Option FileError)

namespace World

/-- The world of a standard input and a file system. -/
def ofFiles (standardInput : Text) : World (StateM Files) where
  readInput := pure standardInput
  readFile path := return (← get).read path
  makeDirectories path := modifyGet fun files => (files.makeDirectories path).swap
  writeFile path content := modifyGet fun files => (files.write path content).swap

/-- Writes a file and the directories it is in. -/
def deliver {m : Type → Type} [Monad m] (world : World m) (path content : Text) :
    m (Option CommandError) := do
  match ← world.makeDirectories (CleanPath.directoryOf path) with
  | some e => return some (.makeDirectory e)
  | none =>
    match ← world.writeFile path content with
    | some e => return some (.writeFile e)
    | none => return none

end World

/-- Writes a file and the directories it is in into a file system. -/
def Files.deliver (files : Files) (path content : Text) : Files × Option CommandError :=
  (((World.ofFiles []).deliver path content).run files).swap

/-! ## Requests -/

/-- What the program says when it is done. -/
structure Report where
  standardOutput : Text
  standardError : Text
  error : Option CommandError

/-- The report of a failure, with what was logged before. -/
def Report.failed (log : Text) (e : CommandError) : Report :=
  ⟨[], log ++ e.report, some e⟩

namespace Request

/-- Whether the document comes from the standard input. -/
def readsStandardInput (r : Request) : Bool :=
  r.input = text "-"

/-- The format of the document: the one that is asked for, or the one that its path says. -/
def documentFormat (r : Request) : Except FormatError Format :=
  if r.format ≠ [] then Format.parse r.format
  else if r.readsStandardInput then .ok Format.json
  else .ok (Format.ofPath r.input)

/-- A log line, if they are asked for. -/
def log (r : Request) (message : Text) (attributes : List (Text × Text)) : Text :=
  if r.verbose then Log.line message attributes else []

/-- What is logged when a suite has been decoded. -/
def logDecoded (r : Request) (suite : Suite) : Text :=
  r.log (text "decoded IR")
    [(text "input", r.input), (text "tests", Text.ofNat suite.length)]

/-- What is logged when a file has been written. -/
def logWritten (r : Request) : Text :=
  r.log (text "wrote C# file") [(text "output", r.output)]

/-- What is logged when a document is converted, and the test class that comes of it. -/
def convert (r : Request) (format : Format) (document : Except FileError Text) :
    Text × Except CommandError Text :=
  match document with
  | .error e => ([], .error (.document (.unreadable e.message)))
  | .ok t =>
    match Suite.read format t with
    | .error e => ([], .error (.document e))
    | .ok suite =>
      match TestClass.generate suite r.options with
      | .ok content => (r.logDecoded suite, .ok content)
      | .error e => (r.logDecoded suite, .error (.generate e))

variable {m : Type → Type} [Monad m]

/-- The document of a request. -/
def fetch (r : Request) (world : World m) : m (Except FileError Text) := do
  if r.readsStandardInput then return .ok (← world.readInput) else world.readFile r.input

/-- Carries out a request.  Nothing is read if the format is not known. -/
def perform (r : Request) (world : World m) : m Report := do
  match r.documentFormat with
  | .error e => return .failed [] (.format e)
  | .ok format =>
    match r.convert format (← r.fetch world) with
    | (log, .error e) => return .failed log e
    | (log, .ok content) =>
      if r.output = [] then return ⟨content, log, none⟩
      else
        match ← world.deliver r.output content with
        | some e => return .failed log e
        | none => return ⟨[], log ++ r.logWritten, none⟩

end Request

/-! ## Runs -/

namespace Command

/-- Does what the arguments ask for. -/
def perform {m : Type → Type} [Monad m] (arguments : List Text) (world : World m) : m Report :=
  match Plan.ofArguments arguments with
  | .showPage page => return ⟨page, [], none⟩
  | .refuse e => return .failed [] e
  | .convert request => request.perform world

end Command

/-- What a run leaves behind. -/
structure Outcome extends Report where
  files : Files

/-- What something done with a file system leaves behind. -/
def Outcome.ofWork (work : StateM Files Report) (files : Files) : Outcome :=
  let (report, files) := work.run files
  { report with files }

/-- Runs the program with a file system. -/
def Command.run (arguments : List Text) (standardInput : Text) (files : Files) : Outcome :=
  .ofWork (perform arguments (.ofFiles standardInput)) files

end SuiteScribe
