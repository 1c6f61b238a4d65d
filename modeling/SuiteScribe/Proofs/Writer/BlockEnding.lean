import SuiteScribe.Proofs.Writer.Course

/-!
# How a block ends

In the history of a session the end of a step stands right behind the moments of the step, which
its beginning leads (`nested_history`).  The moments of a block are those of its opening and, unless
one of its lines is refused there, those of its body and its closing brace (`BlockRun`).

The failure of a writer is the one refusal of its sink (`failure_eq_some_iff`), and a block that has
been opened ends as its body unless the body ended well.  So a block ends well only if nothing was
refused, be it in the block, around it or in a body that did not care, and an error of its body is
told even if the brace cannot be closed (`block_ending`).  The sink may be any: one that would take
the next text is not asked again.
-/

namespace SuiteScribe.Session

section Refusals

/-- The sink is handed a text at the moment and refuses it. -/
def Moment.Refuses (e : SinkError) (m : Moment) : Prop :=
  m.writer.failure = none
    ∧ ∃ content, m.event = .hands content ∧ (m.writer.sink.put content).2 = some e

theorem Moment.refuses_iff {m : Moment} {e : SinkError} :
    m.Refuses e ↔ m.writer.failure = none ∧ m.after.failure = some e := by
  refine and_congr_right fun hw => ⟨?_, fun h => ?_⟩
  · rintro ⟨content, hevent, hput⟩
    simp only [Moment.after, hevent, Writer.write, hw]
    rcases h : m.writer.sink.put content with ⟨sink, _ | d⟩ <;> rw [h] at hput
    · cases hput
    · exact hput
  · obtain ⟨content, refusing, hevent, hput, -⟩ := Moment.refused_of_after hw h
    exact ⟨content, hevent, congrArg Prod.snd hput⟩

theorem Timeline.of_append_cons {m : Moment} {ns : List Moment} {w' : Writer Journal} :
    ∀ {ms : List Moment} {w : Writer Journal}, Timeline w (ms ++ m :: ns) w' →
      Timeline w ms m.writer
  | [], _, h => h.1
  | _ :: _, _, h => ⟨h.1, of_append_cons h.2⟩

/-- A writer that has not failed at first fails with an error exactly if the sink refuses a text
with it; there is one such refusal at most, since nothing is handed over after it. -/
theorem failure_eq_some_iff {ms : List Moment} {w w' : Writer Journal} (h : Timeline w ms w')
    (hw : w.failure = none) (e : SinkError) : w'.failure = some e ↔ ∃ m ∈ ms, m.Refuses e := by
  cases course_of_timeline h hw with
  | smooth hms hend =>
    refine iff_of_false (by simp [hend]) ?_
    rintro ⟨m, hm, hrefuses⟩
    have hafter := (Moment.refuses_iff.1 hrefuses).2
    rw [(hms m hm).2] at hafter
    cases hafter
  | @broken before late m content d refusing _ hbefore hm hevent hrefused haccepted hlate hend =>
    have hafter : m.after.failure = some d := by simp only [Moment.after, hevent, hrefused]
    rw [hend.1]
    constructor
    · rintro ⟨⟩
      exact ⟨m, by simp, Moment.refuses_iff.2 ⟨hm, hafter⟩⟩
    · rintro ⟨l, hl, hrefuses⟩
      obtain ⟨hnone, hsome⟩ := Moment.refuses_iff.1 hrefuses
      rcases List.mem_append.1 hl with hl | hl
      · rw [(hbefore l hl).2] at hsome
        cases hsome
      rcases List.mem_cons.1 hl with rfl | hl
      · exact hafter.symm.trans hsome
      · rw [(hlate l hl).failure_eq] at hnone
        cases hnone

theorem failure_eq_none_iff {ms : List Moment} {w w' : Writer Journal} (h : Timeline w ms w')
    (hw : w.failure = none) : w'.failure = none ↔ ∀ m ∈ ms, ∀ e, ¬ m.Refuses e := by
  simp only [Option.eq_none_iff_forall_ne_some, ne_eq, failure_eq_some_iff h hw, not_exists,
    not_and]
  exact ⟨fun hnone m hm e => hnone e m hm, fun hnone e m hm => hnone m hm e⟩

end Refusals

section Nesting

/-- The end of a step stands right behind the moments of the step, which its beginning leads. -/
def Nested (ms : List Moment) : Prop :=
  ∀ before m after step ending, ms = before ++ m :: after → m.event = .ends step ending →
    ∃ earlier w, before = earlier ++ ⟨m.level, w, .begins step⟩ :: stepTrace m.level step w
      ∧ take step w = (m.writer, ending)

theorem nested_of_not_ends {ms : List Moment}
    (h : ∀ m ∈ ms, ∀ step ending, m.event ≠ .ends step ending) : Nested ms := by
  rintro before m after step ending rfl hends
  exact absurd hends (h m (by simp) step ending)

theorem Nested.append {ms ns : List Moment} (hms : Nested ms) (hns : Nested ns) :
    Nested (ms ++ ns) := by
  intro before m after step ending heq hends
  rcases List.append_eq_append_iff.1 heq with ⟨inside, rfl, hinside⟩ | ⟨inside, hinside, hrest⟩
  · obtain ⟨earlier, w, rfl, htake⟩ := hns inside m after step ending hinside hends
    exact ⟨ms ++ earlier, w, (List.append_assoc _ _ _).symm, htake⟩
  · rcases inside with _ | ⟨_, inside⟩
    · obtain ⟨earlier, w, hnil, -⟩ := hns [] m after step ending hrest.symm hends
      simp at hnil
    · obtain ⟨rfl, -⟩ := List.cons.inj hrest
      exact hms before m inside step ending hinside hends

theorem Nested.cons {m : Moment} {ms : List Moment}
    (hm : ∀ step ending, m.event ≠ .ends step ending) (hms : Nested ms) : Nested (m :: ms) := by
  have hone : Nested [m] := nested_of_not_ends (by simpa using hm)
  exact hone.append hms

theorem nested_linesTrace (level : Nat) :
    ∀ (ts : List Text) (w : Writer Journal), Nested (linesTrace level ts w)
  | [], _ => nested_of_not_ends (by simp [linesTrace])
  | t :: ts, w => by
    rw [linesTrace_cons]
    refine Nested.cons (by simp) ?_
    split_ifs
    · exact nested_linesTrace level ts _
    · exact nested_of_not_ends (by simp)

/-- The moments of a step with its beginning and its end. -/
theorem nested_step {level : Nat} {step : Step} {w : Writer Journal}
    (h : Nested (stepTrace level step w)) :
    Nested (⟨level, w, .begins step⟩ :: stepTrace level step w
      ++ [⟨level, (take step w).1, .ends step (take step w).2⟩]) := by
  have hled : Nested (⟨level, w, .begins step⟩ :: stepTrace level step w) :=
    Nested.cons (by simp) h
  intro before m after step' ending heq hends
  rcases List.append_eq_append_iff.1 heq with ⟨inside, rfl, hinside⟩ | ⟨inside, hinside, hrest⟩
  · -- The step that ends is this one.
    obtain ⟨rfl, hm⟩ | ⟨_, -, hnil⟩ := List.append_eq_cons_iff.1 hinside.symm
    · obtain ⟨rfl, -⟩ := List.cons.inj hm
      cases hends
      exact ⟨[], w, List.append_nil _, rfl⟩
    · simp at hnil
  · rcases inside with _ | ⟨_, inside⟩
    · obtain ⟨rfl, -⟩ := List.cons.inj hrest
      cases hends
      exact ⟨[], w, by simpa using hinside.symm, rfl⟩
    · obtain ⟨rfl, -⟩ := List.cons.inj hrest
      exact hled before m inside step' ending hinside hends

mutual

theorem nested_stepTrace : ∀ (level : Nat) (step : Step) (w : Writer Journal),
    Nested (stepTrace level step w)
  | _, .write _ _, _ => nested_of_not_ends (by simp [stepTrace])
  | level, .line content _, w => nested_linesTrace level [content] w
  | level, .attempt body _, w => nested_trace level body w
  | level, .block headers body close strict, w => by
    have hopening := nested_linesTrace level (headers.filter (· ≠ []) ++ [text "\x7b"]) w
    rcases hopen : w.feed ((Writer.opening headers).map (Line.bytes w.unit w.depth)) with opened
    rcases hfail : opened.failure with _ | e
    · rw [stepTrace_block_of_opened hopen hfail]
      exact hopening.append
        ((nested_trace (level + 1) body opened.enter).append (nested_linesTrace level _ _))
    · rw [stepTrace_block_of_refused hopen hfail]
      exact hopening

/-- The moments of a run are nested as its steps are. -/
theorem nested_trace : ∀ (level : Nat) (steps : List Step) (w : Writer Journal),
    Nested (trace level steps w)
  | _, [], _ => nested_of_not_ends (by simp [trace])
  | level, step :: rest, w => by
    rw [trace_cons, List.append_cons, ← List.cons_append, ← List.cons_append]
    refine (nested_step (nested_stepTrace level step w)).append ?_
    split_ifs
    · exact nested_trace level rest _
    · exact nested_of_not_ends (by simp)

end

theorem nested_history (sink : Sink) (unit : Text) (steps : List Step) :
    Nested (history sink unit steps) :=
  nested_trace 0 steps _

end Nesting

section Block

/-- The moments at which the headers of a block and its brace are handed over. -/
def openingTrace (level : Nat) (headers : List Text) (w : Writer Journal) : List Moment :=
  linesTrace level (headers.filter (· ≠ []) ++ [text "\x7b"]) w

/-- The moments of a block that begins with `w`, and how its body ended, if it was run. -/
inductive BlockRun (level : Nat) (headers : List Text) (body : List Step) (close : Close)
    (w : Writer Journal) : List Moment → Option (Ending Error) → Prop
  | shut (hopening : ∃ o ∈ openingTrace level headers w, o.after.failure ≠ none) :
    BlockRun level headers body close w (openingTrace level headers w) none
  | entered {opened inner : Writer Journal} {ending : Ending Error}
    (hopening : ∀ o ∈ openingTrace level headers w, o.after.failure = none)
    (hopened : Writer.writeLines (ε := Error) (headers.filter (· ≠ []) ++ [text "\x7b"]) w
      = (opened, .done))
    (hbody : takeAll body opened.enter = (inner, ending)) :
    BlockRun level headers body close w
      (openingTrace level headers w ++ (trace (level + 1) body opened.enter
        ++ linesTrace level [text "\x7d"] inner.leave))
      (some (close.apply ending))

/-- A block ends well if its body does and its closing line is taken. -/
theorem closing_eq_done_iff {ending : Ending Error} {failure : Option SinkError} :
    ending.closing failure = .done ↔ ending = .done ∧ failure = none := by
  cases ending <;> cases failure <;> simp [Ending.closing, Ending.ofFailure]

theorem closing_of_ne_done {ending : Ending Error} (h : ending ≠ .done)
    (failure : Option SinkError) : ending.closing failure = ending := by
  cases ending with
  | done => exact absurd rfl h
  | refused e => rfl
  | failed e => rfl
  | panicked message => rfl

/-- Lines are written without a failure exactly if none of them meets one. -/
theorem forall_linesTrace_iff (level : Nat) :
    ∀ (ts : List Text) (w : Writer Journal), ts ≠ [] ∨ w.failure = none →
      ((∀ o ∈ linesTrace level ts w, o.after.failure = none)
        ↔ (w.feed ((ts.map (Line.mk 0)).map (Line.bytes w.unit w.depth))).failure = none)
  | [], w, h => by
    have hw : w.failure = none := h.resolve_left fun hne => hne rfl
    simp [linesTrace, hw]
  | t :: ts, w, _ => by
    rw [List.map_cons, List.map_cons, Writer.feed_cons, linesTrace_cons, List.forall_mem_cons,
      after_hands]
    by_cases hf : (w.feed [(Line.mk 0 t).bytes w.unit w.depth]).failure = none
    · have ih := forall_linesTrace_iff level ts _ (.inr hf)
      rw [Writer.feed_unit, Writer.feed_depth] at ih
      rw [if_pos hf, ih]
      simp [hf]
    · rw [Writer.feed_of_failure hf]
      simp [hf]

variable {headers : List Text} {body : List Step} {close : Close} {strict : Bool}
  {ending : Ending Error}

theorem exists_blockRun {w w' : Writer Journal}
    (htake : take (.block headers body close strict) w = (w', ending)) (level : Nat) :
    ∃ returned,
      BlockRun level headers body close w
          (stepTrace level (.block headers body close strict) w) returned
        ∧ (ending = .done ↔ returned = some .done ∧ w'.failure = none)
        ∧ (returned = none → ∃ e, w'.failure = some e ∧ ending = .refused e)
        ∧ ∀ error, returned = some error → error ≠ .done → ending = error := by
  rcases hopen : w.feed ((Writer.opening headers).map (Line.bytes w.unit w.depth)) with opened
  have hlines := forall_linesTrace_iff level (headers.filter (· ≠ []) ++ [text "\x7b"]) w
    (.inl (by simp))
  have hwritten := Writer.writeLines_opening (ε := Error) headers w
  rw [← Writer.opening, hopen] at hlines
  rw [hopen] at hwritten
  rcases hfail : opened.failure with _ | e
  · rcases hbody : takeAll body opened.enter with ⟨inner, inside⟩
    rw [hfail] at hwritten
    rw [take_block, Writer.block_of_opened hopen hfail (by rw [hbody])] at htake
    obtain ⟨rfl, rfl⟩ := Prod.mk.inj htake
    refine ⟨some (close.apply inside), ?_, ?_, by simp, ?_⟩
    · rw [stepTrace_block_of_opened hopen hfail, hbody]
      exact .entered (hlines.2 hfail) hwritten hbody
    · rw [closing_eq_done_iff, Option.some.injEq]
    · rintro error herror hne
      obtain rfl := Option.some.inj herror
      exact closing_of_ne_done hne _
  · rw [take_block, Writer.block_of_refused hopen hfail] at htake
    obtain ⟨rfl, rfl⟩ := Prod.mk.inj htake
    refine ⟨none, ?_, by simp, fun _ => ⟨e, hfail, rfl⟩, by simp⟩
    rw [stepTrace_block_of_refused hopen hfail]
    refine .shut ?_
    by_contra hnone
    rw [hlines.1 fun o ho => not_not.1 fun hne => hnone ⟨o, ho, hne⟩] at hfail
    cases hfail

theorem BlockRun.eq_none {level : Nat} {w : Writer Journal} {ms : List Moment}
    {returned : Option (Ending Error)} (h : BlockRun level headers body close w ms returned)
    (hopening : ∃ o ∈ openingTrace level headers w, o.after.failure ≠ none) : returned = none := by
  cases h with
  | shut _ => rfl
  | entered hnone _ _ =>
    obtain ⟨o, ho, hfail⟩ := hopening
    exact absurd (hnone o ho) hfail

/-- The failure of the writer at the end of a block is what the sink has refused a text with, from
the beginning of the session to the closing brace.  The block ends well exactly if its body was run
and ended well and there was no such refusal.  If a header or the opening brace cannot be
written, the block ends with the failure of the writer and its body is not run.  If the body was run
and ended with an error, the block ends with that error, whether or not it could be closed. -/
theorem block_ending {sink : Sink} {unit : Text} {steps : List Step} {before after : List Moment}
    {m : Moment} (h : history sink unit steps = before ++ m :: after)
    (hends : m.event = .ends (.block headers body close strict) ending) :
    ∃ earlier w during returned,
      before = earlier ++ ⟨m.level, w, .begins (.block headers body close strict)⟩ :: during
        ∧ BlockRun m.level headers body close w during returned
        ∧ (∀ e, m.writer.failure = some e ↔ ∃ b ∈ before, b.Refuses e)
        ∧ (ending = .done ↔ returned = some .done ∧ ∀ b ∈ before, ∀ e, ¬ b.Refuses e)
        ∧ ((∃ o ∈ openingTrace m.level headers w, o.after.failure ≠ none) →
            returned = none ∧ ∃ e, m.writer.failure = some e ∧ ending = .refused e)
        ∧ ∀ error, returned = some error → error ≠ .done → ending = error := by
  obtain ⟨earlier, w, hbefore, htake⟩ :=
    nested_history sink unit steps before m after _ ending h hends
  obtain ⟨returned, hrun, hdone, hshut, herror⟩ := exists_blockRun htake m.level
  have htimeline : Timeline (Writer.new sink unit ⟨[], 0⟩) before m.writer :=
    .of_append_cons (h ▸ timeline_history unit steps sink)
  refine ⟨earlier, w, _, returned, hbefore, hrun, failure_eq_some_iff htimeline rfl, ?_,
    fun hopening => ?_, herror⟩
  · rw [hdone, failure_eq_none_iff htimeline rfl]
  · exact ⟨hrun.eq_none hopening, hshut (hrun.eq_none hopening)⟩

/-- A block around another that fails, which it does not care about. -/
def carelessBlock : Step :=
  .block [text "a"] [.block [] [.line (text "x") false] (.failing (text "bad")) false] .quietly
    false

/-- A sink that refuses the fourth text and takes all others. -/
def onceBusy : Sink :=
  ⟨fun before _ => if before.length = 3 then some ⟨text "busy"⟩ else none, []⟩

/-- The refused line is ignored and both bodies are run to their ends, the inner one to an error of
its own; yet the outer block tells the refusal, though the sink would have taken the braces. -/
theorem block_ending_carelessBlock :
    ∃ before m after, history onceBusy [] [carelessBlock] = before ++ m :: after
      ∧ m.event = .ends carelessBlock (.refused ⟨text "busy"⟩)
      ∧ (∀ t, (m.writer.sink.put t).2 = none)
      ∧ ∃ b ∈ before, b.Refuses ⟨text "busy"⟩ := by
  obtain ⟨m, hm, hevent, hfail, hput⟩ : ∃ m, (history onceBusy [] [carelessBlock])[11]? = some m
      ∧ m.event = .ends carelessBlock (.refused ⟨text "busy"⟩)
      ∧ m.writer.failure = some ⟨text "busy"⟩
      ∧ ∀ t, (m.writer.sink.put t).2 = none := ⟨_, rfl, rfl, rfl, fun _ => rfl⟩
  obtain ⟨before, after, h⟩ := List.append_of_mem (List.mem_of_getElem? hm)
  obtain ⟨_, _, _, _, -, -, hrefused, -, -, -⟩ := block_ending h hevent
  exact ⟨before, m, after, h, hevent, hput, (hrefused _).1 hfail⟩

end Block

end SuiteScribe.Session
