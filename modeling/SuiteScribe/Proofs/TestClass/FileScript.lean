import SuiteScribe.Proofs.FirstFault
import SuiteScribe.Proofs.Writer.Script
import SuiteScribe.TestClass.Generate

/-!
# The script of a generated file

Writing a file follows a script (`follows_write`), so what reaches the sink and which error is told
can be read off the script and the room of the sink (`stream_eq`, `generate_eq`).  The script stops
at the first thing the generator refuses: an import, the name of a test, or a statement
(`fault_fileScript`).
-/

namespace SuiteScribe.TestClass

variable (s : Settings) (modules : List Text)

def statementScript (test : Text) (i : Nat) (n : Node) : Script SuiteError :=
  match n.statement modules with
  | .error e => .stop (.inStatement test i e)
  | .ok line => if line = [] then .nothing else .line line

def methodScript (i : Nat) (test : Test) : Script SuiteError :=
  match checkName i test.name with
  | .error e => .stop e
  | .ok () =>
    .block
      [text "[" ++ s.framework ++ text ".TestMethod]",
        text "public void " ++ test.name ++ text "()"]
      (.forEach (statementScript modules test.name) 0 test.statements)

def classScript (suite : Suite) : Script SuiteError :=
  .block [text "[" ++ s.framework ++ text ".TestClass]", text "public class " ++ s.className]
    (.forEach (methodScript s modules) 0 suite)

def usingScript (namespaces : List Text) : Script SuiteError :=
  ⟨(namespaces.map (fun n => text "using " ++ n ++ text ";") ++ [[]]).map (Line.mk 0), none⟩

/-- What is written for a suite whose imports have been looked at. -/
def spaceScript (suite : Suite) : Script SuiteError :=
  (Script.line warning).andThen
    (.block [text "namespace " ++ s.spaceName]
      ((usingScript (Using.namespaces modules s.excluded s.framework)).andThen
        (classScript s (Using.kept modules s.excluded) suite)))

def fileScript (suite : Suite) : Script SuiteError :=
  match Using.imported suite with
  | .error e => .stop e
  | .ok modules => spaceScript s modules suite

section Fault

/-- The fault of two scripts is that of the first, or else of the second. -/
theorem fault_andThen {ε : Type} (first second : Script ε) :
    (first.andThen second).fault = first.fault.or second.fault := by
  unfold Script.andThen
  split <;> rename_i h <;> rw [h] <;> rfl

theorem fault_forEach {ε α : Type} (f : Nat → α → Script ε) (i : Nat) (xs : List α) :
    (Script.forEach f i xs).fault = firstFault (fun j x => (f j x).fault) i xs := by
  induction xs generalizing i with
  | nil => rfl
  | cons x xs ih =>
    rw [Script.forEach, fault_andThen, firstFault, ih]
    rcases (f i x).fault <;> rfl

theorem fault_statementScript (test : Text) (i : Nat) (n : Node) :
    (statementScript modules test i n).fault
      = (errorOf (n.statement modules)).map (.inStatement test i) := by
  unfold statementScript
  rcases n.statement modules with e | line
  · rfl
  · simp only [errorOf]
    split_ifs <;> rfl

/-- The fault of a method: that of the name, or else that of the first statement at fault. -/
theorem fault_methodScript (i : Nat) (test : Test) :
    (methodScript s modules i test).fault
      = (errorOf (checkName i test.name)).or
          (firstFault (fun j n => (errorOf (n.statement modules)).map (.inStatement test.name j))
            0 test.statements) := by
  unfold methodScript
  rcases checkName i test.name with e | ⟨⟩
  · rfl
  · simp only [Script.block, fault_forEach, fault_statementScript]
    rfl

theorem fault_spaceScript (suite : Suite) :
    (spaceScript s modules suite).fault
      = firstFault (fun i test => (methodScript s (Using.kept modules s.excluded) i test).fault)
          0 suite := by
  rw [← fault_forEach]
  rfl

theorem fault_fileScript (suite : Suite) :
    (fileScript s suite).fault = match Using.imported suite with
      | .error e => some e
      | .ok modules =>
        firstFault (fun i test => (methodScript s (Using.kept modules s.excluded) i test).fault)
          0 suite := by
  unfold fileScript
  rcases Using.imported suite with e | modules
  · rfl
  · exact fault_spaceScript s modules suite

end Fault

theorem follows_writeStatement (test : Text) (i : Nat) (n : Node) :
    Follows (writeStatement modules test i n) (statementScript modules test i n) := by
  unfold writeStatement statementScript
  rcases n.statement modules with e | line
  · exact follows_stop _
  · simp only
    split_ifs
    · exact follows_nothing
    · exact follows_writeLine line

theorem follows_writeTest (i : Nat) (test : Test) :
    Follows (writeTest s modules i test) (methodScript s modules i test) := by
  unfold writeTest methodScript
  rcases checkName i test.name with e | ⟨⟩
  · exact follows_stop e
  · exact follows_block (follows_forEach (follows_writeStatement modules test.name) 0 _) _

theorem follows_writeClass (suite : Suite) :
    Follows (writeClass s modules suite) (classScript s modules suite) :=
  follows_block (follows_forEach (follows_writeTest s modules) 0 suite) _

/-- Writing a file follows the script of the file. -/
theorem follows_write (suite : Suite) : Follows (write s suite) (fileScript s suite) := by
  unfold write fileScript
  rcases Using.imported suite with e | modules
  · exact follows_stop e
  · exact follows_andThen (follows_writeLine warning)
      (follows_block (follows_andThen (follows_writeLines _) (follows_writeClass s _ suite)) _)

theorem indent_settings_ne_nil (options : Options) : options.settings.indent ≠ [] := by
  unfold Options.settings Options.orElse
  simp only
  split_ifs with h
  · decide
  · exact h

/-- The texts handed to a sink that takes them all. -/
def texts (options : Options) (suite : Suite) : List Text :=
  (fileScript options.settings suite).lines.map (Line.bytes options.settings.indent 0)

/-- The sink takes the texts of the script as far as it will, and only if it takes them all is the
error of the script told. -/
theorem stream_eq (sink : Sink) (suite : Suite) (options : Options) :
    stream sink suite options
      = ((sink.feed (texts options suite)).1,
          match (sink.feed (texts options suite)).2 with
          | some e => some (.sink e)
          | none => (fileScript options.settings suite).fault.map .suite) := by
  have hnew : Writer.new sink options.settings.indent ()
      = ⟨sink, options.settings.indent, 0, none, ()⟩ := by
    simp only [Writer.new, indent_settings_ne_nil, if_false]
  rcases hw : write options.settings suite (Writer.new sink options.settings.indent ())
    with ⟨w, ending⟩
  obtain ⟨hfeed, hend⟩ := (follows_write options.settings suite).apply hw
  rw [hnew, Writer.feed_of_none rfl] at hfeed
  simp only [stream, hw]
  rcases hf : sink.feed (texts options suite) with ⟨sink', _ | e⟩
  · have hs : w.sink = sink' := by rw [hfeed]; exact congrArg Prod.fst hf
    have hno : w.failure = none := by rw [hfeed]; exact congrArg Prod.snd hf
    rw [hend hno, hno, hs, Script.ending]
    rcases (fileScript options.settings suite).fault <;> rfl
  · have hs : w.sink = sink' := by rw [hfeed]; exact congrArg Prod.fst hf
    have hno : w.failure = some e := by rw [hfeed]; exact congrArg Prod.snd hf
    rw [hno, hs]

/-- A sink that takes everything gets the texts of the file, up to its fault. -/
theorem stream_endless (suite : Suite) (options : Options) :
    stream .endless suite options
      = (Sink.endless.taking (texts options suite),
          (fileScript options.settings suite).fault.map .suite) := by
  rw [stream_eq, Sink.feed_endless]

theorem accepted_stream_endless (suite : Suite) (options : Options) :
    (stream .endless suite options).1.accepted = texts options suite := by
  rw [stream_endless, Sink.accepted_taking]
  rfl

theorem output_stream_endless (suite : Suite) (options : Options) :
    (stream .endless suite options).1.output = (texts options suite).flatten := by
  rw [Sink.output, accepted_stream_endless]

theorem generate_eq (suite : Suite) (options : Options) :
    generate suite options = match (fileScript options.settings suite).fault with
      | none => .ok (texts options suite).flatten
      | some e => .error (.suite e) := by
  have hout := output_stream_endless suite options
  rw [stream_endless] at hout
  simp only [generate, stream_endless]
  rcases (fileScript options.settings suite).fault with _ | e
  · exact congrArg Except.ok hout
  · rfl

end SuiteScribe.TestClass
