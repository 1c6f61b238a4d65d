import SuiteScribe.Proofs.Writer.Script
import SuiteScribe.Writer.Session

/-!
# What a session writes

On a sink that takes everything, what a step hands over and how it ends can be told from the step
alone (`Step.texts`, `Step.outcome`): a block contributes its headers, its braces and what its body
writes, however the body ends.  On any sink a session leaves the writer as handing over these texts
would, and it ends as told unless the writer has failed (`does_take`, `does_takeAll`).

A session keeps a journal with its writer, and no text depends on it, so writers are compared
without their notes (`Writer.forget`).
-/

namespace SuiteScribe

/-- How a block ends: as its body, or as closing it if the body ended well. -/
def Ending.closing {ε : Type} (body : Ending ε) (failure : Option SinkError) : Ending ε :=
  match body with
  | .done => .ofFailure failure
  | ended => ended

namespace Writer

variable {ν ε : Type}

def forget (w : Writer ν) : Writer Unit := { w with notes := () }

@[simp] theorem forget_sink (w : Writer ν) : w.forget.sink = w.sink := rfl

@[simp] theorem forget_unit (w : Writer ν) : w.forget.unit = w.unit := rfl

@[simp] theorem forget_depth (w : Writer ν) : w.forget.depth = w.depth := rfl

@[simp] theorem forget_failure (w : Writer ν) : w.forget.failure = w.failure := rfl

/-- Texts are handed over in the same way, whatever the writer has noted. -/
theorem forget_feed (w : Writer ν) (ts : List Text) : (w.feed ts).forget = w.forget.feed ts := by
  obtain ⟨sink, unit, depth, failure, notes⟩ := w
  rcases failure <;> rfl

theorem unit_of_forget_eq_feed {w w' : Writer ν} {ts : List Text}
    (h : w'.forget = w.forget.feed ts) : w'.unit = w.unit := by
  rw [← forget_unit w', h, feed_unit, forget_unit]

theorem depth_of_forget_eq_feed {w w' : Writer ν} {ts : List Text}
    (h : w'.forget = w.forget.feed ts) : w'.depth = w.depth := by
  rw [← forget_depth w', h, feed_depth, forget_depth]

/-- Lines written one by one are texts handed over, up to the first that is refused. -/
theorem forEach_writeLine_eq :
    ∀ (i : Nat) (ts : List Text) (w : Writer ν), ts ≠ [] ∨ w.failure = none →
      forEach (ε := ε) (fun _ t => writeLine t) i ts w
        = (w.feed ((ts.map (Line.mk 0)).map (Line.bytes w.unit w.depth)),
          .ofFailure (w.feed ((ts.map (Line.mk 0)).map (Line.bytes w.unit w.depth))).failure)
  | _, [], w, h => by
    have hw : w.failure = none := h.resolve_left fun hne => hne rfl
    simp only [forEach, List.map_nil, feed_nil, hw]
    rfl
  | i, t :: ts, w, _ => by
    rw [List.map_cons, List.map_cons, feed_cons, forEach, writeLine_eq]
    rcases hf : (w.feed [(Line.mk 0 t).bytes w.unit w.depth]).failure with _ | e
    · have ih := forEach_writeLine_eq (i + 1) ts _ (.inr hf)
      rw [feed_unit, feed_depth] at ih
      exact ih
    · have hfail : (w.feed [(Line.mk 0 t).bytes w.unit w.depth]).failure ≠ none := by simp [hf]
      rw [feed_of_failure hfail, hf]
      rfl

/-- The lines that open a block. -/
def opening (headers : List Text) : List Line :=
  (headers.filter (· ≠ []) ++ [text "\x7b"]).map (Line.mk 0)

/-- The line that closes a block. -/
def closing : Line := ⟨0, text "\x7d"⟩

/-- The writer in the body of a block it has opened. -/
def enter (w : Writer ν) : Writer ν := { w with depth := w.depth + 1 }

/-- The writer back outside the block. -/
def leave (w : Writer ν) : Writer ν := { w with depth := w.depth - 1 }

/-- The writer after the block has been closed. -/
def close (w : Writer ν) : Writer ν :=
  w.leave.feed [closing.bytes w.leave.unit w.leave.depth]

/-- The opening of a block is written like any other lines. -/
theorem writeLines_opening (headers : List Text) (w : Writer ν) :
    writeLines (ε := ε) (headers.filter (· ≠ []) ++ [text "\x7b"]) w
      = (w.feed ((opening headers).map (Line.bytes w.unit w.depth)),
        .ofFailure (w.feed ((opening headers).map (Line.bytes w.unit w.depth))).failure) :=
  forEach_writeLine_eq 0 _ w (.inl (by simp))

section Block

variable {headers : List Text} {body : Action ν ε} {w opened inner : Writer ν} {ending : Ending ε}

/-- A block that cannot be opened does not do its body. -/
theorem block_of_refused {e : SinkError}
    (hopen : w.feed ((opening headers).map (Line.bytes w.unit w.depth)) = opened)
    (h : opened.failure = some e) : block headers body w = (opened, .refused e) := by
  unfold block
  rw [writeLines_opening, hopen, h]
  rfl

/-- A block that has been opened is closed however its body ends. -/
theorem block_of_opened
    (hopen : w.feed ((opening headers).map (Line.bytes w.unit w.depth)) = opened)
    (h : opened.failure = none) (hbody : body opened.enter = (inner, ending)) :
    block headers body w = (inner.close, ending.closing inner.close.failure) := by
  unfold block
  rw [writeLines_opening, hopen, h]
  simp only [Ending.ofFailure]
  rw [show body { opened with depth := opened.depth + 1 } = (inner, ending) from hbody]
  simp only [writeLine_eq]
  rcases ending <;> rfl

end Block

end Writer

namespace Session

mutual

/-- How a step ends if the sink takes everything. -/
def Step.outcome : Step → Ending Error
  | .write _ _ => .done
  | .line _ _ => .done
  | .block _ body close _ => close.apply (outcomeAll body)
  | .attempt body _ => recover (outcomeAll body)

def outcomeAll : List Step → Ending Error
  | [] => .done
  | step :: rest => if goesOn step.strict step.outcome then outcomeAll rest else step.outcome

end

mutual

/-- What a step hands to a sink that takes everything while `depth` blocks are open: a text as it
is, a line indented once for every open block, and for a block its headers that are not empty, its
braces and, between them, what its body hands over one level deeper. -/
def Step.texts (unit : Text) (depth : Nat) : Step → List Text
  | .write content _ => [content]
  | .line content _ => [(Line.mk 0 content).bytes unit depth]
  | .block headers body _ _ =>
    (Writer.opening headers).map (Line.bytes unit depth) ++ textsAll unit (depth + 1) body
      ++ [Writer.closing.bytes unit depth]
  | .attempt body _ => textsAll unit depth body

def textsAll (unit : Text) (depth : Nat) : List Step → List Text
  | [] => []
  | step :: rest =>
    step.texts unit depth
      ++ if goesOn step.strict step.outcome then textsAll unit depth rest else []

end

/-- The deed leaves the writer, apart from its notes, as handing over the texts would, and ends with
the outcome unless the writer has failed. -/
def Does (deed : Deed) (texts : Text → Nat → List Text) (outcome : Ending Error) : Prop :=
  ∀ w, (deed w).1.forget = w.forget.feed (texts w.unit w.depth)
    ∧ ((deed w).1.failure = none → (deed w).2 = outcome)

section Does

variable {deed : Deed} {texts : Text → Nat → List Text} {outcome : Ending Error}

/-- What a deed does, read off from its result. -/
theorem Does.apply (h : Does deed texts outcome) {w w' : Writer Journal} {ending : Ending Error}
    (hd : deed w = (w', ending)) :
    w'.forget = w.forget.feed (texts w.unit w.depth) ∧ (w'.failure = none → ending = outcome) := by
  have hw := h w
  rw [hd] at hw
  exact hw

theorem does_of_eq_feed (h : ∀ w, deed w = (w.feed (texts w.unit w.depth),
      .ofFailure (w.feed (texts w.unit w.depth)).failure)) : Does deed texts .done := by
  intro w
  rw [h w]
  refine ⟨Writer.forget_feed w _, fun hw => ?_⟩
  simp only at hw
  rw [hw]
  rfl

theorem does_body (h : Does deed texts outcome) (g : Ending Error → Ending Error) :
    Does (fun w => ((deed w).1, g (deed w).2)) texts (g outcome) :=
  fun w => ⟨(h w).1, fun hw => congrArg g ((h w).2 hw)⟩

/-- The body of an open block, with the depth put back. -/
theorem forget_leave (h : Does deed texts outcome) {w inner : Writer Journal}
    {ending : Ending Error} (hbody : deed w.enter = (inner, ending)) :
    inner.leave.forget = w.forget.feed (texts w.unit (w.depth + 1)) := by
  have hinner : inner.forget = { w.forget.feed (texts w.unit (w.depth + 1)) with
      depth := w.depth + 1 } := by
    rw [← Writer.feed_withDepth]
    exact (h.apply hbody).1
  rw [show inner.leave.forget = { inner.forget with depth := inner.forget.depth - 1 } from rfl,
    hinner]
  exact Writer.withDepth_feed w.forget _

/-- A block hands over its opening, what its body hands over one level deeper, and its closing
line. -/
theorem does_block (h : Does deed texts outcome) (headers : List Text) :
    Does (Writer.block headers deed)
      (fun unit depth => (Writer.opening headers).map (Line.bytes unit depth)
        ++ texts unit (depth + 1) ++ [Writer.closing.bytes unit depth]) outcome := by
  intro w
  rcases hopen : w.feed ((Writer.opening headers).map (Line.bytes w.unit w.depth)) with opened
  have hunit : opened.unit = w.unit := by rw [← hopen, Writer.feed_unit]
  have hdepth : opened.depth = w.depth := by rw [← hopen, Writer.feed_depth]
  simp only
  rw [List.append_assoc, ← Writer.feed_feed, ← Writer.forget_feed, hopen, ← hunit, ← hdepth]
  rcases hfail : opened.failure with _ | e
  · rcases hbody : deed opened.enter with ⟨inner, ending⟩
    have hleave := forget_leave h hbody
    have hleave_unit := Writer.unit_of_forget_eq_feed hleave
    have hleave_depth := Writer.depth_of_forget_eq_feed hleave
    rw [Writer.block_of_opened hopen hfail hbody]
    refine ⟨?_, fun hclosed => ?_⟩
    · rw [Writer.close, Writer.forget_feed, hleave, Writer.feed_feed, hleave_unit, hleave_depth]
    · have hinner : inner.failure = none := Writer.failure_of_feed (w := inner.leave) hclosed
      obtain rfl := (h.apply hbody).2 hinner
      simp only at hclosed
      rw [hclosed]
      rcases ending <;> rfl
  · rw [Writer.block_of_refused hopen hfail]
    refine ⟨(Writer.feed_of_failure (by simp [hfail]) _).symm, fun hw => ?_⟩
    simp only [hfail, reduceCtorEq] at hw

end Does

section Note

variable (label : Label) (ending : Ending Error) (w : Writer Journal)

/-- To note something changes nothing but the notes. -/
theorem forget_note : (note label ending w).forget = w.forget := by
  cases ending <;> rfl

@[simp] theorem note_unit : (note label ending w).unit = w.unit := by
  cases ending <;> rfl

@[simp] theorem note_depth : (note label ending w).depth = w.depth := by
  cases ending <;> rfl

@[simp] theorem note_sink : (note label ending w).sink = w.sink := by
  cases ending <;> rfl

@[simp] theorem note_failure : (note label ending w).failure = w.failure := by
  cases ending <;> rfl

end Note

theorem does_nil : Does (takeAll []) (fun unit depth => textsAll unit depth []) (outcomeAll []) :=
  fun w => ⟨(Writer.feed_nil w.forget).symm, fun _ => rfl⟩

theorem does_cons {step : Step} {rest : List Step}
    (hstep : Does (take step) (fun unit depth => step.texts unit depth) step.outcome)
    (hrest : Does (takeAll rest) (fun unit depth => textsAll unit depth rest) (outcomeAll rest)) :
    Does (takeAll (step :: rest)) (fun unit depth => textsAll unit depth (step :: rest))
      (outcomeAll (step :: rest)) := by
  intro w
  rcases htake : take step w with ⟨w', ending⟩
  obtain ⟨hfeed, hend⟩ := hstep.apply htake
  have hunit := Writer.unit_of_forget_eq_feed hfeed
  have hdepth := Writer.depth_of_forget_eq_feed hfeed
  have hnote := forget_note step.label ending w'
  obtain ⟨hfeed', hend'⟩ := hrest (note step.label ending w')
  rw [hnote, note_unit, note_depth, hunit, hdepth] at hfeed'
  simp only [takeAll, htake, textsAll, outcomeAll]
  rw [← Writer.feed_feed, ← hfeed]
  by_cases hfail : w'.failure = none
  · obtain rfl := hend hfail
    split
    · exact ⟨hfeed', hend'⟩
    · rw [Writer.feed_nil]
      exact ⟨hnote, fun _ => rfl⟩
  · -- Once the writer has failed, neither the steps that are left nor their texts change it.
    have hstay : ∀ ts, w'.forget.feed ts = w'.forget := Writer.feed_of_failure hfail
    rw [hstay] at hfeed' ⊢
    split
    · refine ⟨hfeed', fun hw => absurd ?_ hfail⟩
      rw [← Writer.forget_failure w', ← hfeed']
      exact hw
    · refine ⟨hnote, fun hw => absurd ?_ hfail⟩
      rw [← note_failure step.label ending w']
      exact hw

mutual

/-- A step hands over its texts, and ends with its outcome unless one of them is refused. -/
theorem does_take : ∀ step : Step,
    Does (take step) (fun unit depth => step.texts unit depth) step.outcome
  | .write content _ => does_of_eq_feed fun w => Writer.write_eq content w
  | .line content _ => does_of_eq_feed fun w => Writer.writeLine_eq content w
  | .block headers body close _ => does_block (does_body (does_takeAll body) close.apply) headers
  | .attempt body _ => does_body (does_takeAll body) recover

theorem does_takeAll : ∀ steps : List Step,
    Does (takeAll steps) (fun unit depth => textsAll unit depth steps) (outcomeAll steps)
  | [] => does_nil
  | step :: rest => does_cons (does_take step) (does_takeAll rest)

end

end Session

end SuiteScribe
