import SuiteScribe.Proofs.Writer.Session

/-!
# The moments of a session

`trace` lists the moments of a session in order, each with the writer as it is then: where a step
begins, where a text is handed over, and where a step ends, be it by an error or a panic.

At every moment as many blocks are open as stand around the step (`sound_trace`), from one moment to
the next only handing over a text changes the sink or the failure (`timeline_trace`), and the
entries of the journal are made where steps end (`entries_trace`).
-/

namespace SuiteScribe.Session

/-- What happens at a moment of a session. -/
inductive Event where
  | begins (step : Step)
  | hands (content : Text)
  | ends (step : Step) (ending : Ending Error)

/-- A moment of a session: how many blocks stand around it, the writer, and what happens. -/
structure Moment where
  level : Nat
  writer : Writer Journal
  event : Event

/-- The lines up to the first that is refused, each where it is handed over. -/
def linesTrace (level : Nat) : List Text → Writer Journal → List Moment
  | [], _ => []
  | t :: rest, w =>
    ⟨level, w, .hands ((Line.mk 0 t).bytes w.unit w.depth)⟩ ::
      match Writer.writeLine (ε := Error) t w with
      | (w, .done) => linesTrace level rest w
      | _ => []

mutual

/-- The moments between the beginning of a step and its end. -/
def stepTrace (level : Nat) : Step → Writer Journal → List Moment
  | .write content _, w => [⟨level, w, .hands content⟩]
  | .line content _, w => linesTrace level [content] w
  | .block headers body _ _, w =>
    linesTrace level (headers.filter (· ≠ []) ++ [text "\x7b"]) w ++
      match Writer.writeLines (ε := Error) (headers.filter (· ≠ []) ++ [text "\x7b"]) w with
      | (w, .done) =>
        trace (level + 1) body w.enter ++
          linesTrace level [text "\x7d"] (takeAll body w.enter).1.leave
      | _ => []
  | .attempt body _, w => trace level body w

/-- The moments of a list of steps. -/
def trace (level : Nat) : List Step → Writer Journal → List Moment
  | [], _ => []
  | step :: rest, w =>
    let (w', ending) := take step w
    ⟨level, w, .begins step⟩ :: (stepTrace level step w ++ ⟨level, w', .ends step ending⟩ ::
      if goesOn step.strict ending then trace level rest (note step.label ending w') else [])

end

/-- The moments of a session with a new writer. -/
def history (sink : Sink) (unit : Text) (steps : List Step) : List Moment :=
  trace 0 steps (Writer.new sink unit ⟨[], 0⟩)

/-- A line is handed over, and the lines behind it only if the sink takes it. -/
theorem linesTrace_cons (level : Nat) (t : Text) (ts : List Text) (w : Writer Journal) :
    linesTrace level (t :: ts) w
      = ⟨level, w, .hands ((Line.mk 0 t).bytes w.unit w.depth)⟩ ::
        if (w.feed [(Line.mk 0 t).bytes w.unit w.depth]).failure = none
        then linesTrace level ts (w.feed [(Line.mk 0 t).bytes w.unit w.depth]) else [] := by
  rw [linesTrace, Writer.writeLine_eq]
  rcases (w.feed [(Line.mk 0 t).bytes w.unit w.depth]).failure with _ | e <;> rfl

/-- A step begins, runs and ends, and the next one begins if its ending lets the session go on. -/
theorem trace_cons (level : Nat) (step : Step) (rest : List Step) (w : Writer Journal) :
    trace level (step :: rest) w
      = ⟨level, w, .begins step⟩ :: (stepTrace level step w
        ++ ⟨level, (take step w).1, .ends step (take step w).2⟩ ::
          if goesOn step.strict (take step w).2
          then trace level rest (note step.label (take step w).2 (take step w).1) else []) := by
  rw [trace]

theorem take_block (headers : List Text) (body : List Step) (close : Close) (strict : Bool) :
    take (.block headers body close strict)
      = Writer.block headers fun w => ((takeAll body w).1, close.apply (takeAll body w).2) := by
  rw [take]

/-- Nothing comes of a block but its opening lines, if one of them is refused. -/
theorem stepTrace_block_of_refused {headers : List Text} {w opened : Writer Journal} {e : SinkError}
    (hopen : w.feed ((Writer.opening headers).map (Line.bytes w.unit w.depth)) = opened)
    (h : opened.failure = some e) (level : Nat) (body : List Step) (close : Close)
    (strict : Bool) :
    stepTrace level (.block headers body close strict) w
      = linesTrace level (headers.filter (· ≠ []) ++ [text "\x7b"]) w := by
  rw [stepTrace, Writer.writeLines_opening, hopen, h]
  exact List.append_nil _

/-- The body of an opened block runs one level deeper, and the closing line is handed over after it,
however it ended. -/
theorem stepTrace_block_of_opened {headers : List Text} {w opened : Writer Journal}
    (hopen : w.feed ((Writer.opening headers).map (Line.bytes w.unit w.depth)) = opened)
    (h : opened.failure = none) (level : Nat) (body : List Step) (close : Close)
    (strict : Bool) :
    stepTrace level (.block headers body close strict) w
      = linesTrace level (headers.filter (· ≠ []) ++ [text "\x7b"]) w
        ++ (trace (level + 1) body opened.enter
          ++ linesTrace level [text "\x7d"] (takeAll body opened.enter).1.leave) := by
  rw [stepTrace, Writer.writeLines_opening, hopen, h]
  rfl

section Level

/-- A step leaves as many blocks open as it found, however it ends. -/
theorem depth_take (step : Step) (w : Writer Journal) : (take step w).1.depth = w.depth :=
  Writer.depth_of_forget_eq_feed (does_take step w).1

theorem depth_takeAll (steps : List Step) (w : Writer Journal) :
    (takeAll steps w).1.depth = w.depth :=
  Writer.depth_of_forget_eq_feed (does_takeAll steps w).1

theorem unit_take (step : Step) (w : Writer Journal) : (take step w).1.unit = w.unit :=
  Writer.unit_of_forget_eq_feed (does_take step w).1

theorem unit_takeAll (steps : List Step) (w : Writer Journal) :
    (takeAll steps w).1.unit = w.unit :=
  Writer.unit_of_forget_eq_feed (does_takeAll steps w).1

/-- The writer has the unit of the session and is as deep as the moment, and what ends is a step
that was taken. -/
structure Moment.Sound (unit : Text) (m : Moment) : Prop where
  unit_eq : m.writer.unit = unit
  depth_eq : m.writer.depth = m.level
  ends : ∀ step ending, m.event = .ends step ending → ∃ w, take step w = (m.writer, ending)

variable {level : Nat} {unit : Text}

theorem sound_linesTrace :
    ∀ (ts : List Text) {w : Writer Journal}, w.unit = unit → w.depth = level →
      ∀ m ∈ linesTrace level ts w, m.Sound unit
  | [], _, _, _, m, hm => by cases hm
  | t :: ts, w, hu, hd, m, hm => by
    rw [linesTrace_cons] at hm
    rcases List.mem_cons.1 hm with rfl | hm
    · exact ⟨hu, hd, fun _ _ h => by cases h⟩
    · split_ifs at hm
      · exact sound_linesTrace ts (by rw [Writer.feed_unit, hu]) (by rw [Writer.feed_depth, hd])
          m hm
      · cases hm

mutual

theorem sound_stepTrace : ∀ {level : Nat} (step : Step) {w : Writer Journal}, w.unit = unit →
    w.depth = level → ∀ m ∈ stepTrace level step w, m.Sound unit
  | _, .write content _, w, hu, hd, m, hm => by
    cases List.mem_singleton.1 hm
    exact ⟨hu, hd, fun _ _ h => by cases h⟩
  | _, .line content _, w, hu, hd, m, hm => sound_linesTrace [content] hu hd m hm
  | _, .attempt body _, w, hu, hd, m, hm => sound_trace body hu hd m hm
  | level, .block headers body close strict, w, hu, hd, m, hm => by
    rcases hopen : w.feed ((Writer.opening headers).map (Line.bytes w.unit w.depth)) with opened
    have hunit : opened.unit = unit := by rw [← hopen, Writer.feed_unit, hu]
    have hdepth : opened.depth = level := by rw [← hopen, Writer.feed_depth, hd]
    rcases hfail : opened.failure with _ | e
    · have hdeep : opened.enter.depth = level + 1 := congrArg (· + 1) hdepth
      rw [stepTrace_block_of_opened hopen hfail, List.mem_append, List.mem_append] at hm
      rcases hm with hm | hm | hm
      · exact sound_linesTrace _ hu hd m hm
      · exact sound_trace (w := opened.enter) body hunit hdeep m hm
      · have hback : (takeAll body opened.enter).1.leave.depth = level := by
          rw [Writer.leave, depth_takeAll, hdeep, Nat.add_sub_cancel]
        have hsame : (takeAll body opened.enter).1.leave.unit = unit :=
          (unit_takeAll body opened.enter).trans hunit
        exact sound_linesTrace _ hsame hback m hm
    · rw [stepTrace_block_of_refused hopen hfail] at hm
      exact sound_linesTrace _ hu hd m hm

/-- At every moment of a run as many blocks are open as stand around it. -/
theorem sound_trace : ∀ {level : Nat} (steps : List Step) {w : Writer Journal}, w.unit = unit →
    w.depth = level → ∀ m ∈ trace level steps w, m.Sound unit
  | _, [], w, hu, hd, m, hm => by cases hm
  | level, step :: rest, w, hu, hd, m, hm => by
    have hu' : (take step w).1.unit = unit := (unit_take step w).trans hu
    have hd' : (take step w).1.depth = level := (depth_take step w).trans hd
    rw [trace_cons, List.mem_cons, List.mem_append, List.mem_cons] at hm
    rcases hm with rfl | hm | rfl | hm
    · exact ⟨hu, hd, fun _ _ h => by cases h⟩
    · exact sound_stepTrace step hu hd m hm
    · refine ⟨hu', hd', fun _ _ h => ?_⟩
      cases h
      exact ⟨w, rfl⟩
    · split_ifs at hm
      · exact sound_trace rest (by rw [note_unit, hu']) (by rw [note_depth, hd']) m hm
      · cases hm

end

end Level

section Timeline

/-- What of a writer only handing over a text can change. -/
def status (w : Writer Journal) : Sink × Option SinkError :=
  (w.sink, w.failure)

/-- The writer right after a moment. -/
def Moment.after (m : Moment) : Writer Journal :=
  match m.event with
  | .hands content => (Writer.write (ε := Error) content m.writer).1
  | _ => m.writer

/-- The moments lead from one writer to another, and nothing reaches the sink between them. -/
def Timeline : Writer Journal → List Moment → Writer Journal → Prop
  | w, [], w' => status w' = status w
  | w, m :: ms, w' => status m.writer = status w ∧ Timeline m.after ms w'

namespace Timeline

variable {w w' v v' : Writer Journal} {ms ns : List Moment}

/-- A timeline is about the sinks and the failures of its writers alone. -/
theorem congr (h : Timeline w ms w') (hv : status w = status v) (hv' : status v' = status w') :
    Timeline v ms v' := by
  induction ms generalizing w v with
  | nil => exact (hv'.trans h).trans hv
  | cons m ms ih => exact ⟨h.1.trans hv, ih h.2 rfl⟩

/-- Two timelines make one, if the second starts where the first ends. -/
theorem append (h : Timeline w ms v) (h' : Timeline v ns w') : Timeline w (ms ++ ns) w' := by
  induction ms generalizing w with
  | nil => exact h'.congr h rfl
  | cons m ms ih => exact ⟨h.1, ih h.2⟩

end Timeline

theorem after_hands (level : Nat) (w : Writer Journal) (content : Text) :
    (Moment.mk level w (.hands content)).after = w.feed [content] :=
  congrArg Prod.fst (Writer.write_eq (ε := Error) content w)

/-- Handing over lines one by one leads to the writer that is fed with all of them. -/
theorem timeline_linesTrace (level : Nat) :
    ∀ (ts : List Text) (w : Writer Journal), Timeline w (linesTrace level ts w)
      (w.feed ((ts.map (Line.mk 0)).map (Line.bytes w.unit w.depth)))
  | [], w => by
    rw [List.map_nil, List.map_nil, Writer.feed_nil]
    rfl
  | t :: ts, w => by
    rw [List.map_cons, List.map_cons, Writer.feed_cons, linesTrace_cons]
    refine ⟨rfl, ?_⟩
    rw [after_hands]
    split_ifs with hf
    · have ih := timeline_linesTrace level ts (w.feed [(Line.mk 0 t).bytes w.unit w.depth])
      rw [Writer.feed_unit, Writer.feed_depth] at ih
      exact ih
    · rw [Writer.feed_of_failure hf]
      rfl

theorem status_note (label : Label) (ending : Ending Error) (w : Writer Journal) :
    status (note label ending w) = status w := by
  rw [status, note_sink, note_failure, status]

mutual

theorem timeline_stepTrace : ∀ (level : Nat) (step : Step) (w : Writer Journal),
    Timeline w (stepTrace level step w) (take step w).1
  | _, .write content _, w => ⟨rfl, rfl⟩
  | level, .line content strict, w => by
    rw [show take (.line content strict) w = Writer.writeLine content w from rfl,
      Writer.writeLine_eq]
    exact timeline_linesTrace level [content] w
  | level, .attempt body _, w => timeline_trace level body w
  | level, .block headers body close strict, w => by
    rcases hopen : w.feed ((Writer.opening headers).map (Line.bytes w.unit w.depth)) with opened
    have hlines := timeline_linesTrace level (headers.filter (· ≠ []) ++ [text "\x7b"]) w
    rw [← Writer.opening, hopen] at hlines
    rcases hfail : opened.failure with _ | e
    · rcases hbody : takeAll body opened.enter with ⟨inner, ending⟩
      have htrace : Timeline opened (trace (level + 1) body opened.enter) inner.leave := by
        have ih := timeline_trace (level + 1) body opened.enter
        rw [hbody] at ih
        exact ih.congr rfl rfl
      rw [stepTrace_block_of_opened hopen hfail, take_block,
        Writer.block_of_opened hopen hfail (by rw [hbody]), hbody]
      exact hlines.append (htrace.append (timeline_linesTrace level [text "\x7d"] inner.leave))
    · rw [stepTrace_block_of_refused hopen hfail, take_block, Writer.block_of_refused hopen hfail]
      exact hlines

/-- The moments of a run lead without a gap from the writer before it to the writer after it. -/
theorem timeline_trace : ∀ (level : Nat) (steps : List Step) (w : Writer Journal),
    Timeline w (trace level steps w) (takeAll steps w).1
  | _, [], w => rfl
  | level, step :: rest, w => by
    rw [trace_cons]
    refine ⟨rfl, (timeline_stepTrace level step w).append ⟨rfl, ?_⟩⟩
    simp only [takeAll]
    split_ifs
    · exact (timeline_trace level rest _).congr (status_note _ _ _) rfl
    · exact status_note _ _ _

end

end Timeline

section Journal

/-- The entry that is made when a step ends. -/
def Moment.entry? (m : Moment) : Option Entry :=
  match m.event with
  | .ends _ (.panicked _) => none
  | .ends step ending => some
      { label := step.label
        error := errorOf ending
        depth := m.writer.depth
        failure := m.writer.failure.map SinkError.message
        added := (m.writer.sink.accepted.drop m.writer.notes.noted).flatten }
  | _ => none

theorem entries_note (level : Nat) (step : Step) (ending : Ending Error) (w : Writer Journal) :
    (note step.label ending w).notes.entries
      = w.notes.entries ++ [Moment.mk level w (.ends step ending)].filterMap Moment.entry? := by
  cases ending with
  | panicked message => exact (List.append_nil _).symm
  | done => rfl
  | refused e => rfl
  | failed e => rfl

theorem filterMap_linesTrace (level : Nat) :
    ∀ (ts : List Text) (w : Writer Journal),
      (linesTrace level ts w).filterMap Moment.entry? = []
  | [], _ => rfl
  | t :: ts, w => by
    rw [linesTrace_cons, List.filterMap_cons_none rfl]
    split_ifs
    · exact filterMap_linesTrace level ts _
    · rfl

mutual

theorem entries_stepTrace : ∀ (level : Nat) (step : Step) (w : Writer Journal),
    (take step w).1.notes.entries
      = w.notes.entries ++ (stepTrace level step w).filterMap Moment.entry?
  | _, .write content _, w => by
    rw [take, Writer.write_eq, Writer.feed_notes]
    exact (List.append_nil _).symm
  | level, .line content _, w => by
    rw [take, Writer.writeLine_eq, Writer.feed_notes, stepTrace, filterMap_linesTrace,
      List.append_nil]
  | level, .attempt body _, w => entries_trace level body w
  | level, .block headers body close strict, w => by
    rcases hopen : w.feed ((Writer.opening headers).map (Line.bytes w.unit w.depth)) with opened
    have hnotes : opened.notes = w.notes := by rw [← hopen, Writer.feed_notes]
    rcases hfail : opened.failure with _ | e
    · rcases hbody : takeAll body opened.enter with ⟨inner, ending⟩
      have ih := entries_trace (level + 1) body opened.enter
      rw [hbody, show opened.enter.notes = w.notes from hnotes] at ih
      rw [stepTrace_block_of_opened hopen hfail, take_block,
        Writer.block_of_opened hopen hfail (by rw [hbody]), Writer.close, Writer.feed_notes,
        List.filterMap_append, List.filterMap_append, filterMap_linesTrace, filterMap_linesTrace,
        List.nil_append, List.append_nil]
      exact ih
    · rw [stepTrace_block_of_refused hopen hfail, take_block, Writer.block_of_refused hopen hfail,
        filterMap_linesTrace, List.append_nil, hnotes]

/-- The journal gains an entry for each step that ends, in the order in which they do. -/
theorem entries_trace : ∀ (level : Nat) (steps : List Step) (w : Writer Journal),
    (takeAll steps w).1.notes.entries
      = w.notes.entries ++ (trace level steps w).filterMap Moment.entry?
  | _, [], w => (List.append_nil _).symm
  | level, step :: rest, w => by
    have hstep := entries_stepTrace level step w
    have hnote := entries_note level step (take step w).2 (take step w).1
    rw [hstep] at hnote
    rw [trace_cons, List.filterMap_cons_none rfl, List.append_cons, List.filterMap_append,
      List.filterMap_append, ← List.append_assoc, ← List.append_assoc, ← hnote]
    simp only [takeAll]
    split_ifs
    · exact entries_trace level rest _
    · exact (List.append_nil _).symm

end

end Journal

end SuiteScribe.Session
