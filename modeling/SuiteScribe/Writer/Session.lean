import SuiteScribe.Writer.Basic

/-!
# Sessions with a writer

A session is a list of steps, where the body of a block and of an attempt is again a list of
steps.  A step that ends with an error stops its list only if it is strict; a panic stops every list
up to the nearest attempt, which makes an error of it.

A session keeps a journal: for every step that came to an end, how it ended, what the writer was
like then, and what had reached the sink since the entry before.
-/

namespace SuiteScribe.Session

/-- How the body of a block ends when its steps have been taken. -/
inductive Close where
  | quietly
  | failing (message : Text)
  | panicking (message : Text)

/-- Something asked of the writer. -/
inductive Step where
  | write (content : Text) (strict : Bool)
  | line (content : Text) (strict : Bool)
  | block (headers : List Text) (body : List Step) (close : Close) (strict : Bool)
  | attempt (body : List Step) (strict : Bool)

/-- An error of a session besides the refusals of the sink. -/
inductive Error where
  | raised (message : Text)
  | recovered (message : Text)

/-- What a step was. -/
inductive Label where
  | write
  | line
  | block
  | attempt

namespace Step

/-- Whether an error of the step stops the list that it stands in. -/
def strict : Step → Bool
  | write _ strict | line _ strict | block _ _ _ strict | attempt _ strict => strict

/-- What the step is. -/
def label : Step → Label
  | write _ _ => .write
  | line _ _ => .line
  | block _ _ _ _ => .block
  | attempt _ _ => .attempt

end Step

/-- What is noted when a step comes to an end. -/
structure Entry where
  label : Label
  error : Option Text
  depth : Nat
  failure : Option Text
  added : Text

/-- The entries made so far, and how many texts the sink had taken at the last of them. -/
structure Journal where
  entries : List Entry
  noted : Nat

/-- What a step does. -/
abbrev Deed := Action Journal Error

/-- The error that an ending stands for. -/
def errorOf : Ending Error → Option Text
  | .done => none
  | .refused e => some e.message
  | .failed (.raised message) => some message
  | .failed (.recovered message) => some (text "panic: " ++ message)
  | .panicked message => some (text "panic: " ++ message)

/-- Whether a list of steps goes on after one of them. -/
def goesOn (strict : Bool) : Ending Error → Bool
  | .done => true
  | .panicked _ => false
  | _ => !strict

/-- Notes that a step has come to an end; one that was left by a panic has not. -/
def note (label : Label) (ending : Ending Error) (w : Writer Journal) : Writer Journal :=
  match ending with
  | .panicked _ => w
  | _ =>
    let entry : Entry :=
      { label
        error := errorOf ending
        depth := w.depth
        failure := w.failure.map SinkError.message
        added := (w.sink.accepted.drop w.notes.noted).flatten }
    { w with notes := ⟨w.notes.entries ++ [entry], w.sink.accepted.length⟩ }

/-- A body that ended well ends as the block says. -/
def Close.apply : Close → Ending Error → Ending Error
  | failing message, .done => .failed (.raised message)
  | panicking message, .done => .panicked message
  | _, ending => ending

/-- An attempt makes an error of a panic. -/
def recover : Ending Error → Ending Error
  | .panicked message => .failed (.recovered message)
  | ending => ending

mutual

/-- Takes one step. -/
def take : Step → Deed
  | .write content _ => Writer.write content
  | .line content _ => Writer.writeLine content
  | .block headers body close _ =>
    Writer.block headers fun w =>
      let (w, ending) := takeAll body w
      (w, close.apply ending)
  | .attempt body _ => fun w =>
    let (w, ending) := takeAll body w
    (w, recover ending)

/-- Takes the steps of a list and notes each. -/
def takeAll : List Step → Deed
  | [], w => (w, .done)
  | step :: rest, w =>
    let (w, ending) := take step w
    let w := note step.label ending w
    if goesOn step.strict ending then takeAll rest w else (w, ending)

end

/-- A session with a new writer. -/
def run (sink : Sink) (unit : Text) (steps : List Step) : Writer Journal × Ending Error :=
  takeAll steps (Writer.new sink unit ⟨[], 0⟩)

end SuiteScribe.Session
