import SuiteScribe.Proofs.Writer.Trace

/-!
# The course of a session

The first text that is refused divides a session: before it the writer has not failed, and from then
on the failure and the sink stay as they are and every text is refused, whatever the sink would say
to it (`course_of_timeline`).  If the sink takes everything, each step writes its texts and ends as
the step alone tells (`take_of_free`).

For a whole session this says what a sink with little room gets of it (`run_limited`), and where its
lines stand (`depth_history`).
-/

namespace SuiteScribe.Session

section Course

/-- The writer has not failed, and it takes the text if one is handed over. -/
def Moment.Unhindered (m : Moment) : Prop :=
  m.writer.failure = none ∧ m.after.failure = none

/-- The writer has failed with `e` and left the sink at that; even a sink with room would get
nothing more from it. -/
structure Moment.Stuck (e : SinkError) (sink : Sink) (m : Moment) : Prop where
  failure_eq : m.writer.failure = some e
  sink_eq : m.writer.sink = sink
  write_eq : ∀ content other, Writer.write (ε := Error) content { m.writer with sink := other }
    = ({ m.writer with sink := other }, .refused e)

/-- The moments of a session that leaves `w`: either no text is refused, or one is, which the sink
does not take, before which the writer has not failed and after which it is stuck. -/
inductive Course : List Moment → Writer Journal → Prop
  | smooth {ms : List Moment} {w : Writer Journal} (hms : ∀ m ∈ ms, m.Unhindered)
    (hw : w.failure = none) : Course ms w
  | broken {before late : List Moment} {m : Moment} {content : Text} {e : SinkError}
    {refusing : Sink} {w : Writer Journal} (hbefore : ∀ b ∈ before, b.Unhindered)
    (hm : m.writer.failure = none) (hevent : m.event = .hands content)
    (hrefused : Writer.write (ε := Error) content m.writer
      = ({ m.writer with sink := refusing, failure := some e }, .refused e))
    (haccepted : refusing.accepted = m.writer.sink.accepted)
    (hlate : ∀ l ∈ late, l.Stuck e refusing)
    (hw : w.failure = some e ∧ w.sink = refusing) : Course (before ++ m :: late) w

theorem write_of_failure {w : Writer Journal} {e : SinkError} (h : w.failure = some e)
    (content : Text) : Writer.write (ε := Error) content w = (w, .refused e) := by
  simp only [Writer.write, h]

theorem write_of_refused {w : Writer Journal} {e : SinkError} {content : Text}
    (hw : w.failure = none) (h : (Writer.write (ε := Error) content w).1.failure = some e) :
    ∃ refusing, w.sink.put content = (refusing, some e)
      ∧ Writer.write (ε := Error) content w
        = ({ w with sink := refusing, failure := some e }, .refused e) := by
  simp only [Writer.write, hw] at h ⊢
  rcases hput : w.sink.put content with ⟨sink, _ | d⟩ <;> rw [hput] at h
  · cases h
  · cases h
    exact ⟨sink, rfl, rfl⟩

/-- A writer that has failed stays as it is. -/
theorem Moment.after_of_failure {m : Moment} {e : SinkError} (h : m.writer.failure = some e) :
    m.after = m.writer := by
  unfold Moment.after
  split
  · rw [write_of_failure h]
  · rfl

/-- A writer fails by a text that is handed over. -/
theorem Moment.refused_of_after {m : Moment} {e : SinkError} (hw : m.writer.failure = none)
    (h : m.after.failure = some e) :
    ∃ content refusing, m.event = .hands content
      ∧ m.writer.sink.put content = (refusing, some e)
      ∧ Writer.write (ε := Error) content m.writer
        = ({ m.writer with sink := refusing, failure := some e }, .refused e) := by
  obtain ⟨level, w, event⟩ := m
  cases event with
  | begins step => exact absurd (hw.symm.trans h) (by simp)
  | ends step ending => exact absurd (hw.symm.trans h) (by simp)
  | hands content =>
    obtain ⟨refusing, hput, hrefused⟩ := write_of_refused hw h
    exact ⟨content, refusing, rfl, hput, hrefused⟩

/-- From a failed writer on, every moment is stuck at the same failure and the same sink. -/
theorem stuck_of_timeline {e : SinkError} :
    ∀ {ms : List Moment} {w w' : Writer Journal}, Timeline w ms w' → w.failure = some e →
      (∀ m ∈ ms, m.Stuck e w.sink) ∧ w'.failure = some e ∧ w'.sink = w.sink
  | [], w, w', h, hw => by
    have hfail : w'.failure = w.failure := congrArg Prod.snd h
    exact ⟨by simp, hfail.trans hw, congrArg Prod.fst h⟩
  | m :: ms, w, w', h, hw => by
    obtain ⟨hm, hms⟩ := h
    have hfail : m.writer.failure = some e := (congrArg Prod.snd hm).trans hw
    have hsink : m.writer.sink = w.sink := congrArg Prod.fst hm
    rw [Moment.after_of_failure hfail] at hms
    obtain ⟨hlate, hend⟩ := stuck_of_timeline hms hfail
    rw [hsink] at hlate hend
    refine ⟨fun l hl => ?_, hend⟩
    rcases List.mem_cons.1 hl with rfl | hl
    · exact ⟨hfail, hsink, fun content other =>
        write_of_failure (w := { l.writer with sink := other }) hfail content⟩
    · exact hlate l hl

theorem Course.cons {m : Moment} {ms : List Moment} {w : Writer Journal} (hm : m.Unhindered)
    (h : Course ms w) : Course (m :: ms) w := by
  cases h with
  | smooth hms hw => exact .smooth (List.forall_mem_cons.2 ⟨hm, hms⟩) hw
  | broken hbefore hm' hevent hrefused haccepted hlate hw =>
    exact .broken (List.forall_mem_cons.2 ⟨hm, hbefore⟩) hm' hevent hrefused haccepted hlate hw

/-- What starts without a failure goes smoothly, or up to the first refusal. -/
theorem course_of_timeline :
    ∀ {ms : List Moment} {w w' : Writer Journal}, Timeline w ms w' → w.failure = none →
      Course ms w'
  | [], w, w', h, hw => .smooth (by simp) ((congrArg Prod.snd h).trans hw)
  | m :: ms, w, w', h, hw => by
    obtain ⟨hm, hms⟩ := h
    have hbegin : m.writer.failure = none := (congrArg Prod.snd hm).trans hw
    rcases hafter : m.after.failure with _ | e
    · exact (course_of_timeline hms hafter).cons ⟨hbegin, hafter⟩
    · obtain ⟨content, refusing, hevent, hput, hrefused⟩ := Moment.refused_of_after hbegin hafter
      have hsink : m.after.sink = refusing := by
        simp only [Moment.after, hevent, hrefused]
      obtain ⟨hlate, hend⟩ := stuck_of_timeline hms hafter
      rw [hsink] at hlate hend
      show Course ([] ++ m :: ms) w'
      exact .broken (by simp) hbegin hevent hrefused (Sink.accepted_put_of_some hput) hlate hend

end Course

section Free

/-- The writer has not failed, and its sink takes everything. -/
def Free (w : Writer Journal) : Prop :=
  w.failure = none ∧ ∀ before t, w.sink.answer before t = none

theorem Free.congr {w w' : Writer Journal} (h : Free w) (hw : status w' = status w) : Free w' := by
  obtain ⟨hsink, hfail⟩ := Prod.mk.inj hw
  exact ⟨hfail.trans h.1, hsink ▸ h.2⟩

theorem Free.after {m : Moment} (h : Free m.writer) : Free m.after := by
  unfold Moment.after
  split
  · rw [Writer.write_eq, Writer.feed_of_none h.1, Sink.feed_unlimited h.2]
    exact ⟨rfl, h.2⟩
  · exact h

/-- Where the sink takes everything, the writer never fails. -/
theorem free_of_timeline :
    ∀ {ms : List Moment} {w w' : Writer Journal}, Timeline w ms w' → Free w →
      ∀ m ∈ ms, Free m.writer
  | m :: ms, w, w', h, hw, l, hl => by
    obtain ⟨hm, hms⟩ := h
    have hfree : Free m.writer := hw.congr hm
    rcases List.mem_cons.1 hl with rfl | hl
    · exact hfree
    · exact free_of_timeline hms hfree.after l hl

theorem take_of_free {w : Writer Journal} (h : Free w) (step : Step) :
    (take step w).1.sink.accepted = w.sink.accepted ++ step.texts w.unit w.depth
      ∧ (take step w).2 = step.outcome := by
  obtain ⟨hfeed, hend⟩ := does_take step w
  rw [Writer.feed_of_none (w := w.forget) h.1, Writer.forget_sink, Sink.feed_unlimited h.2] at hfeed
  refine ⟨?_, hend ?_⟩
  · rw [← Writer.forget_sink, hfeed, Sink.accepted_taking]
  · rw [← Writer.forget_failure, hfeed]

end Free

variable (unit : Text) (steps : List Step)

/-- The unit of a session's writer. -/
def sessionUnit : Text := if unit = [] then Writer.defaultUnit else unit

/-- A session is the same as handing over the texts of its steps. -/
theorem forget_run (sink : Sink) :
    (run sink unit steps).1.forget
      = (Writer.new sink unit ()).feed (textsAll (sessionUnit unit) 0 steps) :=
  (does_takeAll steps _).1

theorem sink_run (sink : Sink) :
    (run sink unit steps).1.sink = (sink.feed (textsAll (sessionUnit unit) 0 steps)).1 := by
  rw [← Writer.forget_sink, forget_run, Writer.feed_of_none rfl]
  rfl

theorem failure_run (sink : Sink) :
    (run sink unit steps).1.failure = (sink.feed (textsAll (sessionUnit unit) 0 steps)).2 := by
  rw [← Writer.forget_failure, forget_run, Writer.feed_of_none rfl]
  rfl

theorem accepted_run_endless :
    (run .endless unit steps).1.sink.accepted = textsAll (sessionUnit unit) 0 steps := by
  rw [sink_run, Sink.feed_endless, Sink.accepted_taking]
  rfl

theorem sound_history (sink : Sink) :
    ∀ m ∈ history sink unit steps, m.Sound (sessionUnit unit) :=
  sound_trace steps rfl rfl

theorem timeline_history (sink : Sink) :
    Timeline (Writer.new sink unit ⟨[], 0⟩) (history sink unit steps) (run sink unit steps).1 :=
  timeline_trace 0 steps _

theorem entries_history (sink : Sink) :
    (run sink unit steps).1.notes.entries = (history sink unit steps).filterMap Moment.entry? :=
  entries_trace 0 steps _

/-- Whether the step writes a single text. -/
def Step.isText : Step → Bool
  | .write _ _ | .line _ _ => true
  | .block _ _ _ _ | .attempt _ _ => false

/-- A step that writes a single text ends as the writer does. -/
theorem ending_of_isText {step : Step} (h : step.isText = true) (w : Writer Journal) :
    (take step w).2 = .ofFailure (take step w).1.failure := by
  cases step with
  | write content strict => rw [take, Writer.write_eq]
  | line content strict => rw [take, Writer.writeLine_eq]
  | block headers body close strict => cases h
  | attempt body strict => cases h

/-- A sink with room for `n` texts gets the first `n` of those that the session would write into a
sink without limit.  The first text that is refused divides the session, and each step that writes a
single text ends as the writer is then. -/
theorem run_limited (n : Nat) :
    (run (.limited n) unit steps).1.sink.output
        = ((run .endless unit steps).1.sink.accepted.take n).flatten
      ∧ (run (.limited n) unit steps).1.failure
        = (if n < (run .endless unit steps).1.sink.accepted.length then some .full else none)
      ∧ Course (history (.limited n) unit steps) (run (.limited n) unit steps).1
      ∧ (∀ m ∈ history (.limited n) unit steps, ∀ step ending, m.event = .ends step ending →
          step.isText = true → ending = .ofFailure m.writer.failure)
      ∧ (run (.limited n) unit steps).1.notes.entries
        = (history (.limited n) unit steps).filterMap Moment.entry? := by
  obtain ⟨haccepted, hfail⟩ := Sink.feed_limited n (textsAll (sessionUnit unit) 0 steps)
  rw [accepted_run_endless, failure_run, Sink.output, sink_run, haccepted]
  refine ⟨rfl, hfail, course_of_timeline (timeline_history unit steps _) rfl, ?_,
    entries_history unit steps _⟩
  intro m hm step ending hends htext
  obtain ⟨w, htake⟩ := (sound_history unit steps _ m hm).ends step ending hends
  have hend := ending_of_isText htext w
  rw [htake] at hend
  exact hend

/-- A block that is left by a panic. -/
def panickingBlock : Step :=
  .block [] [.write (text "x") false, .line (text "y") false] (.panicking (text "stop")) false

/-- The panic leaves two blocks before it is recovered. -/
def panickingSession : List Step :=
  [.attempt [.block [text "a"] [panickingBlock] .quietly false] false]

theorem run_limited_panickingSession :
    (run (.limited 3) [] panickingSession).1.sink.output = text "a\n\x7b\n    \x7b\n"
      ∧ (run (.limited 3) [] panickingSession).1.failure = some .full
      ∧ ∃ m ∈ history (.limited 3) [] panickingSession,
          m.event = .ends (.line (text "y") false) (.refused .full)
            ∧ .refused .full = Ending.ofFailure (ε := Error) m.writer.failure := by
  obtain ⟨hout, hfail, -, hends, -⟩ := run_limited [] panickingSession 3
  rw [accepted_run_endless] at hout hfail
  obtain ⟨m, hm, hevent⟩ : ∃ m, (history (.limited 3) [] panickingSession)[11]? = some m
      ∧ m.event = .ends (.line (text "y") false) (.refused .full) := ⟨_, rfl, rfl⟩
  have hmem := List.mem_of_getElem? hm
  exact ⟨hout.trans (by decide), hfail.trans (by decide), m, hmem, hevent,
    hends m hmem _ _ hevent rfl⟩

/-- No step changes the depth, and at every moment it is the number of the blocks around it.  On a
sink without limit a block begun at any moment writes its headers, its braces and what its body
writes one level deeper, and it ends as its body does. -/
theorem depth_history (sink : Sink) :
    (∀ step w, (take step w).1.depth = w.depth)
      ∧ (∀ m ∈ history sink unit steps, m.writer.depth = m.level)
      ∧ (run sink unit steps).1.depth = 0
      ∧ (run sink unit steps).1.notes.entries
        = (history sink unit steps).filterMap Moment.entry?
      ∧ ∀ m ∈ history .endless unit steps, ∀ headers body close strict,
          (take (.block headers body close strict) m.writer).1.sink.accepted
              = m.writer.sink.accepted
                ++ ((Writer.opening headers).map (Line.bytes (sessionUnit unit) m.level)
                  ++ textsAll (sessionUnit unit) (m.level + 1) body
                  ++ [Writer.closing.bytes (sessionUnit unit) m.level])
            ∧ (take (.block headers body close strict) m.writer).2
              = close.apply (outcomeAll body) := by
  refine ⟨depth_take, fun m hm => (sound_history unit steps sink m hm).depth_eq,
    depth_takeAll steps _, entries_history unit steps sink, ?_⟩
  intro m hm headers body close strict
  have hsound := sound_history unit steps _ m hm
  have hfree := free_of_timeline (timeline_history unit steps .endless) ⟨rfl, fun _ _ => rfl⟩
    m hm
  have htake := take_of_free hfree (.block headers body close strict)
  rw [hsound.unit_eq, hsound.depth_eq] at htake
  exact htake

theorem depth_history_panickingSession :
    ∃ m ∈ history .endless [] panickingSession,
      m.event = .begins panickingBlock ∧ m.level = 1 ∧ m.writer.depth = 1
        ∧ (take panickingBlock m.writer).2 = .panicked (text "stop")
        ∧ (take panickingBlock m.writer).1.sink.accepted
          = m.writer.sink.accepted
            ++ [text "    \x7b\n", text "x", text "        y\n", text "    \x7d\n"] := by
  obtain ⟨-, hdepth, -, -, hblock⟩ := depth_history [] panickingSession .endless
  obtain ⟨m, hm, hevent, hlevel⟩ : ∃ m, (history .endless [] panickingSession)[4]? = some m
      ∧ m.event = .begins panickingBlock ∧ m.level = 1 := ⟨_, rfl, rfl, rfl⟩
  have hmem := List.mem_of_getElem? hm
  obtain ⟨htexts, hend⟩ := hblock m hmem [] [.write (text "x") false, .line (text "y") false]
    (.panicking (text "stop")) false
  rw [hlevel] at htexts
  refine ⟨m, hmem, hevent, hlevel, (hdepth m hmem).trans hlevel, hend,
    htexts.trans (congrArg _ ?_)⟩
  decide

end SuiteScribe.Session
