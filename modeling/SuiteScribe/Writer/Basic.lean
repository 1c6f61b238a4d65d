import SuiteScribe.Text.Basic

/-!
# Writing indented blocks

A `Writer` puts lines into a sink, indented once for every block that is open.  The sink may refuse
any text and take a later one; but from the first text it refuses on, the writer hands over nothing
more, and whatever is asked of it ends with that failure.

An `Action` is something done with a writer.  It may end with an error of its own, or in a panic,
which leaves every block around it; `Writer.block` closes its brace however its body ends.
-/

namespace SuiteScribe

/-- Why a sink refuses a text, in the sink's own words. -/
structure SinkError where
  message : Text
deriving DecidableEq

/-- The refusal of a sink without room. -/
def SinkError.full : SinkError := ⟨text "sink full"⟩

/-- Where texts are written to: any behaviour, told by the answers it gives.  How much of a text a
sink keeps that it refuses is not told; no writer asks for it. -/
structure Sink where
  /-- The answer to a text after those that were handed over before it; none if it is taken. -/
  answer : List Text → Text → Option SinkError
  /-- The texts handed over so far, in order, each with the answer to it. -/
  log : List (Text × Option SinkError)

namespace Sink

/-- A sink that takes everything. -/
def endless : Sink := ⟨fun _ _ => none, []⟩

/-- A sink that takes `n` texts. -/
def limited (n : Nat) : Sink :=
  ⟨fun before _ => if before.length < n then none else some .full, []⟩

/-- Hands a text to the sink. -/
def put (s : Sink) (t : Text) : Sink × Option SinkError :=
  let answer := s.answer (s.log.map Prod.fst) t
  ({ s with log := s.log ++ [(t, answer)] }, answer)

/-- The texts taken so far, in order. -/
def accepted (s : Sink) : List Text :=
  (s.log.filter fun handed => handed.2.isNone).map Prod.fst

/-- Everything the sink has taken. -/
def output (s : Sink) : Text :=
  s.accepted.flatten

end Sink

/-- A sink with an indentation.  Whoever uses a writer may keep `notes` with it. -/
structure Writer (ν : Type) where
  sink : Sink
  /-- What a line is indented with, once for every open block. -/
  unit : Text
  /-- How many blocks are open. -/
  depth : Nat
  /-- The first refusal of the sink. -/
  failure : Option SinkError
  notes : ν

/-- How an action on a writer ends. -/
inductive Ending (ε : Type) where
  | done
  | refused (error : SinkError)
  | failed (error : ε)
  | panicked (message : Text)

/-- Something done with a writer. -/
abbrev Action (ν ε : Type) := Writer ν → Writer ν × Ending ε

namespace Writer

/-- The indentation of a writer for which none is given. -/
def defaultUnit : Text := text "    "

variable {ν ε : Type}

/-- A writer with no block open; an empty unit stands for the default. -/
def new (sink : Sink) (unit : Text) (notes : ν) : Writer ν :=
  ⟨sink, if unit = [] then defaultUnit else unit, 0, none, notes⟩

/-- Writes a text as it is. -/
def write (t : Text) : Action ν ε := fun w =>
  match w.failure with
  | some e => (w, .refused e)
  | none =>
    match w.sink.put t with
    | (sink, none) => ({ w with sink }, .done)
    | (sink, some e) => ({ w with sink, failure := some e }, .refused e)

/-- The indentation at the current depth. -/
def indentation (w : Writer ν) : Text :=
  (List.replicate w.depth w.unit).flatten

/-- Writes a line; one without text gets no indentation. -/
def writeLine (t : Text) : Action ν ε := fun w =>
  write (if t = [] then text "\n" else w.indentation ++ t ++ text "\n") w

/-- Does one thing for every member of a list, counted from `i`, until one does not end well. -/
def forEach {α : Type} (action : Nat → α → Action ν ε) : (i : Nat) → List α → Action ν ε
  | _, [], w => (w, .done)
  | i, a :: rest, w =>
    match action i a w with
    | (w, .done) => forEach action (i + 1) rest w
    | stopped => stopped

/-- Does `first` and, if it ends well, `second`. -/
def andThen (first second : Action ν ε) : Action ν ε := fun w =>
  match first w with
  | (w, .done) => second w
  | stopped => stopped

/-- Writes lines. -/
def writeLines (ts : List Text) : Action ν ε :=
  forEach (fun _ t => writeLine t) 0 ts

/-- Writes the headers that are not empty and an opening brace, does the body one level deeper, and
writes the closing brace.  If the opening fails the body is not done; once it is done the brace is
closed however it ended, and only a failure that the body did not have is told. -/
def block (headers : List Text) (body : Action ν ε) : Action ν ε := fun w =>
  match writeLines (headers.filter (· ≠ []) ++ [text "\x7b"]) w with
  | (w, .done) =>
    let (w, ending) := body { w with depth := w.depth + 1 }
    let (w, closing) := writeLine (text "\x7d") { w with depth := w.depth - 1 }
    match ending with
    | .done => (w, closing)
    | ended => (w, ended)
  | stopped => stopped

end Writer

end SuiteScribe
