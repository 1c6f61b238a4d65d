import Mathlib.Data.List.Basic
import SuiteScribe.Writer.Basic

/-!
# Scripts

A `Script` tells what an action writes and how it ends without any writer: the lines in order, each
with the number of blocks opened around it, and the error that stopped the action, if one did.
Scripts are put together as actions are, and an action that is put together from actions that follow
scripts follows the script put together from these (`follows_andThen`, `follows_forEach`,
`follows_block`).

The sink may refuse a text anywhere.  An action that follows a script then leaves the writer as
handing over the texts of the script would, so nothing behind the refused text is written, and how
the action ends is told only of a writer that has not failed.
-/

namespace SuiteScribe

/-- A line, `level` blocks deeper than the writer was when the action began. -/
structure Line where
  level : Nat
  content : Text

namespace Line

/-- The text handed to the sink for a line; a line without content is not indented. -/
def bytes (unit : Text) (depth : Nat) (l : Line) : Text :=
  if l.content = [] then text "\n"
  else (List.replicate (depth + l.level) unit).flatten ++ l.content ++ text "\n"

/-- The line inside one more block. -/
def deeper (l : Line) : Line :=
  ⟨l.level + 1, l.content⟩

/-- A line inside one more block is a line of a writer that is one block deeper. -/
theorem bytes_deeper (unit : Text) (depth : Nat) (l : Line) :
    l.deeper.bytes unit depth = l.bytes unit (depth + 1) := by
  unfold bytes deeper
  rw [Nat.add_assoc, Nat.add_comm 1]

theorem map_bytes_deeper (unit : Text) (depth : Nat) (ls : List Line) :
    (ls.map deeper).map (bytes unit depth) = ls.map (bytes unit (depth + 1)) := by
  rw [List.map_map]
  exact List.map_congr_left fun l _ => bytes_deeper unit depth l

end Line

/-- The lines that an action writes, and the error of its own that stopped it. -/
structure Script (ε : Type) where
  lines : List Line
  fault : Option ε

namespace Script

variable {ε : Type} {α : Type}

/-- How an action with the script ends if the sink takes everything. -/
def ending (s : Script ε) : Ending ε :=
  match s.fault with
  | none => .done
  | some e => .failed e

def nothing : Script ε := ⟨[], none⟩

def line (t : Text) : Script ε := ⟨[⟨0, t⟩], none⟩

def stop (e : ε) : Script ε := ⟨[], some e⟩

def andThen (first second : Script ε) : Script ε :=
  match first.fault with
  | none => ⟨first.lines ++ second.lines, second.fault⟩
  | some _ => first

def forEach (script : Nat → α → Script ε) : (i : Nat) → List α → Script ε
  | _, [] => nothing
  | i, a :: rest => (script i a).andThen (forEach script (i + 1) rest)

/-- The closing brace belongs to the block whether or not its body was stopped. -/
def block (headers : List Text) (body : Script ε) : Script ε where
  lines := (headers.filter (· ≠ []) ++ [text "\x7b"]).map (Line.mk 0)
    ++ body.lines.map Line.deeper ++ [⟨0, text "\x7d"⟩]
  fault := body.fault

theorem andThen_of_none {first : Script ε} (h : first.fault = none) (second : Script ε) :
    first.andThen second = ⟨first.lines ++ second.lines, second.fault⟩ := by
  unfold andThen
  rw [h]

theorem andThen_of_some {first : Script ε} {e : ε} (h : first.fault = some e)
    (second : Script ε) : first.andThen second = first := by
  unfold andThen
  rw [h]

/-- Where no member of the list is stopped, neither is the list, and the lines stand one after
another. -/
theorem forEach_of_none {f : Nat → α → Script ε} {g : α → List Line} :
    ∀ (i : Nat) (xs : List α), (∀ j, ∀ a ∈ xs, f j a = ⟨g a, none⟩) →
      forEach f i xs = ⟨xs.flatMap g, none⟩
  | _, [], _ => rfl
  | i, a :: xs, h => by
    have ih := forEach_of_none (i + 1) xs fun j b hb => h j b (List.mem_cons_of_mem a hb)
    rw [forEach, h i a List.mem_cons_self, andThen_of_none rfl, ih]
    rfl

/-- Where a member of the list stops, the members before it are not stopped, and nothing comes after
its lines. -/
theorem exists_of_fault_forEach {f : Nat → α → Script ε} {e : ε} :
    ∀ (i : Nat) (xs : List α), (forEach f i xs).fault = some e →
      ∃ before x after, xs = before ++ x :: after
        ∧ (forEach f i before).fault = none
        ∧ (f (i + before.length) x).fault = some e
        ∧ (forEach f i xs).lines
          = (forEach f i before).lines ++ (f (i + before.length) x).lines
  | _, [], h => by cases h
  | i, a :: xs, h => by
    rcases ha : (f i a).fault with _ | d
    · rw [forEach, andThen_of_none ha] at h
      obtain ⟨before, x, after, rfl, hbefore, hx, hlines⟩ := exists_of_fault_forEach (i + 1) xs h
      refine ⟨a :: before, x, after, rfl, ?_, ?_, ?_⟩
      · rw [forEach, andThen_of_none ha]
        exact hbefore
      · rw [List.length_cons, show i + (before.length + 1) = i + 1 + before.length by omega]
        exact hx
      · rw [forEach, forEach, andThen_of_none ha, andThen_of_none ha, hlines, List.length_cons,
          show i + (before.length + 1) = i + 1 + before.length by omega, List.append_assoc]
    · rw [forEach, andThen_of_some ha] at h
      refine ⟨[], a, xs, rfl, rfl, h, ?_⟩
      rw [show forEach f i (a :: xs) = f i a from andThen_of_some ha _]
      rfl

end Script

namespace Sink

theorem accepted_put_of_none {s s' : Sink} {t : Text} (h : s.put t = (s', none)) :
    s'.accepted = s.accepted ++ [t] := by
  obtain ⟨rfl, ha⟩ := Prod.mk.inj h
  simp [accepted, ha]

/-- A text that is refused is not among those the sink has accepted. -/
theorem accepted_put_of_some {s s' : Sink} {t : Text} {e : SinkError}
    (h : s.put t = (s', some e)) : s'.accepted = s.accepted := by
  obtain ⟨rfl, ha⟩ := Prod.mk.inj h
  simp [accepted, ha]

/-- Hands texts over until one is refused. -/
def feed (s : Sink) : List Text → Sink × Option SinkError
  | [] => (s, none)
  | t :: ts =>
    match s.put t with
    | (s', none) => s'.feed ts
    | refused => refused

/-- Texts behind others are handed over if the others are taken. -/
theorem feed_append (s : Sink) (ts us : List Text) :
    s.feed (ts ++ us) = match s.feed ts with
      | (s', none) => s'.feed us
      | refused => refused := by
  induction ts generalizing s with
  | nil => rfl
  | cons t ts ih =>
    simp only [List.cons_append, feed]
    rcases s.put t with ⟨s', _ | e⟩
    · exact ih s'
    · rfl

/-- The sink after it has taken texts. -/
def taking (s : Sink) (ts : List Text) : Sink :=
  { s with log := s.log ++ ts.map (·, none) }

@[simp] theorem accepted_taking (s : Sink) (ts : List Text) :
    (s.taking ts).accepted = s.accepted ++ ts := by
  have hall : (ts.map fun t => (t, (none : Option SinkError))).filter
      (fun handed => handed.2.isNone) = ts.map (·, none) := by
    rw [List.filter_eq_self]
    intro handed hmem
    obtain ⟨t, -, rfl⟩ := List.mem_map.1 hmem
    rfl
  rw [accepted, taking, List.filter_append, List.map_append, hall, List.map_map]
  exact congrArg _ (List.map_id ts)

/-- A sink that takes every text takes all that it is fed. -/
theorem feed_unlimited {s : Sink} (h : ∀ before t, s.answer before t = none) (ts : List Text) :
    s.feed ts = (s.taking ts, none) := by
  induction ts generalizing s with
  | nil => simp [feed, taking]
  | cons t ts ih =>
    have ih' := ih (s := s.taking [t]) h
    simp only [feed, put, h]
    rw [show (⟨s.answer, s.log ++ [(t, none)]⟩ : Sink) = s.taking [t] from rfl, ih']
    simp [taking]

theorem feed_endless (ts : List Text) : endless.feed ts = (endless.taking ts, none) :=
  feed_unlimited (fun _ _ => rfl) ts

/-- Room for `n` texts is told by how many have been handed over, as long as all were taken. -/
theorem feed_of_room {s : Sink} {n : Nat} (h : s.answer = (limited n).answer)
    (hroom : s.log.length ≤ n) (ts : List Text) :
    (s.feed ts).1.accepted = s.accepted ++ ts.take (n - s.log.length)
      ∧ (s.feed ts).2 = if n < s.log.length + ts.length then some .full else none := by
  induction ts generalizing s with
  | nil => simp [feed, Nat.not_lt.2 hroom]
  | cons t ts ih =>
    have hanswer : s.answer (s.log.map Prod.fst) t
        = if s.log.length < n then none else some .full := by
      simp only [h, limited, List.length_map]
    rcases hput : s.put t with ⟨s', answer⟩
    by_cases hlt : s.log.length < n
    · rw [if_pos hlt] at hanswer
      have hs' : s'.log.length = s.log.length + 1 := by
        rw [← (Prod.mk.inj hput).1]
        simp
      obtain rfl : answer = none := (Prod.mk.inj hput).2.symm.trans hanswer
      obtain ⟨haccepted, hend⟩ := ih (s := s') ((Prod.mk.inj hput).1 ▸ h) (by omega)
      rw [accepted_put_of_none hput, hs'] at haccepted
      simp only [feed, hput]
      refine ⟨?_, hend.trans ?_⟩
      · rw [haccepted, show n - s.log.length = n - (s.log.length + 1) + 1 by omega,
          List.take_succ_cons, List.append_assoc, List.singleton_append]
      · rw [hs', List.length_cons, Nat.add_assoc, Nat.add_comm 1]
    · rw [if_neg hlt] at hanswer
      obtain rfl : answer = some .full := (Prod.mk.inj hput).2.symm.trans hanswer
      simp only [feed, hput, List.length_cons]
      refine ⟨?_, (if_pos (by omega)).symm⟩
      rw [accepted_put_of_some hput, show n - s.log.length = 0 by omega, List.take_zero,
        List.append_nil]

/-- A sink with room for `n` texts takes the first `n`, and refuses if there are more. -/
theorem feed_limited (n : Nat) (ts : List Text) :
    ((limited n).feed ts).1.accepted = ts.take n
      ∧ ((limited n).feed ts).2 = if n < ts.length then some .full else none := by
  have h := feed_of_room (s := limited n) rfl (Nat.zero_le n) ts
  rw [show (limited n).log.length = 0 from rfl, Nat.zero_add, Nat.sub_zero] at h
  exact h

end Sink

/-- How writing a text ends, told by the failure of the writer after it. -/
def Ending.ofFailure {ε : Type} : Option SinkError → Ending ε
  | none => .done
  | some e => .refused e

namespace Writer

variable {ν ε : Type}

/-- The writer after texts have been handed to its sink, as far as they were taken. -/
def feed (w : Writer ν) (ts : List Text) : Writer ν :=
  match w.failure with
  | some _ => w
  | none => { w with sink := (w.sink.feed ts).1, failure := (w.sink.feed ts).2 }

@[simp] theorem feed_unit (w : Writer ν) (ts : List Text) : (w.feed ts).unit = w.unit := by
  unfold feed
  split <;> rfl

@[simp] theorem feed_depth (w : Writer ν) (ts : List Text) : (w.feed ts).depth = w.depth := by
  unfold feed
  split <;> rfl

@[simp] theorem feed_notes (w : Writer ν) (ts : List Text) : (w.feed ts).notes = w.notes := by
  unfold feed
  split <;> rfl

@[simp] theorem feed_nil (w : Writer ν) : w.feed [] = w := by
  unfold feed
  split
  · rfl
  · rename_i h
    obtain ⟨sink, unit, depth, failure, notes⟩ := w
    simp only at h
    simp [Sink.feed, h]

/-- A writer that has failed hands nothing over. -/
theorem feed_of_failure {w : Writer ν} (h : w.failure ≠ none) (ts : List Text) :
    w.feed ts = w := by
  obtain ⟨e, he⟩ := Option.ne_none_iff_exists'.1 h
  unfold feed
  rw [he]

theorem feed_of_none {w : Writer ν} (h : w.failure = none) (ts : List Text) :
    w.feed ts = { w with sink := (w.sink.feed ts).1, failure := (w.sink.feed ts).2 } := by
  unfold feed
  rw [h]

/-- It makes no difference whether texts are handed over at once or in two goes. -/
theorem feed_feed (w : Writer ν) (ts us : List Text) :
    (w.feed ts).feed us = w.feed (ts ++ us) := by
  by_cases hw : w.failure = none
  · rw [feed_of_none hw ts, feed_of_none hw (ts ++ us), Sink.feed_append]
    rcases hf : w.sink.feed ts with ⟨s', _ | e⟩
    · exact feed_of_none rfl us
    · exact feed_of_failure (by simp) us
  · rw [feed_of_failure hw, feed_of_failure hw, feed_of_failure hw]

theorem feed_cons (w : Writer ν) (t : Text) (ts : List Text) :
    w.feed (t :: ts) = (w.feed [t]).feed ts := by
  rw [feed_feed, List.singleton_append]

theorem failure_of_feed {w : Writer ν} {ts : List Text} (h : (w.feed ts).failure = none) :
    w.failure = none := by
  by_contra hw
  rw [feed_of_failure hw] at h
  exact hw h

theorem feed_withDepth (w : Writer ν) (d : Nat) (ts : List Text) :
    ({ w with depth := d } : Writer ν).feed ts = { w.feed ts with depth := d } := by
  obtain ⟨sink, unit, depth, failure, notes⟩ := w
  rcases failure <;> rfl

theorem withDepth_feed (w : Writer ν) (ts : List Text) :
    ({ w.feed ts with depth := w.depth } : Writer ν) = w.feed ts := by
  rw [← feed_withDepth]

theorem write_eq (t : Text) (w : Writer ν) :
    write (ε := ε) t w = (w.feed [t], .ofFailure (w.feed [t]).failure) := by
  unfold write
  rcases hw : w.failure with _ | e
  · rw [feed_of_none hw]
    simp only [Sink.feed]
    rcases w.sink.put t with ⟨sink, _ | e⟩ <;> rfl
  · rw [feed_of_failure (by simp [hw])]
    simp only [hw]
    rfl

/-- To write a line is to hand over its bytes. -/
theorem writeLine_eq (t : Text) (w : Writer ν) :
    writeLine (ε := ε) t w = (w.feed [(Line.mk 0 t).bytes w.unit w.depth],
      .ofFailure (w.feed [(Line.mk 0 t).bytes w.unit w.depth]).failure) :=
  write_eq _ w

end Writer

section Follows

variable {ν ε α : Type}

/-- The action leaves the writer as handing over the texts of the script would, and ends as the
script does unless the writer has failed. -/
def Follows (action : Action ν ε) (s : Script ε) : Prop :=
  ∀ w : Writer ν, (action w).1 = w.feed (s.lines.map (Line.bytes w.unit w.depth))
    ∧ ((action w).1.failure = none → (action w).2 = s.ending)

/-- What an action that follows a script leaves, read off from its result. -/
theorem Follows.apply {action : Action ν ε} {s : Script ε} (h : Follows action s)
    {w w' : Writer ν} {ending : Ending ε} (ha : action w = (w', ending)) :
    w' = w.feed (s.lines.map (Line.bytes w.unit w.depth))
      ∧ (w'.failure = none → ending = s.ending) := by
  obtain ⟨hw, he⟩ := h w
  rw [ha] at hw he
  exact ⟨hw, he⟩

theorem follows_nothing : Follows (fun w : Writer ν => (w, .done)) (.nothing : Script ε) :=
  fun w => ⟨(Writer.feed_nil w).symm, fun _ => rfl⟩

theorem follows_stop (e : ε) : Follows (fun w : Writer ν => (w, .failed e)) (.stop e) :=
  fun w => ⟨(Writer.feed_nil w).symm, fun _ => rfl⟩

theorem follows_writeLine (t : Text) :
    Follows (Writer.writeLine t : Action ν ε) (.line t) := by
  intro w
  rw [Writer.writeLine_eq]
  refine ⟨rfl, fun h => ?_⟩
  simp only at h
  rw [h]
  rfl

/-- One action after the other follows the one script and, unless that has a fault, the other. -/
theorem follows_andThen {first second : Action ν ε} {s t : Script ε} (hs : Follows first s)
    (ht : Follows second t) : Follows (Writer.andThen first second) (s.andThen t) := by
  intro w
  rcases hf : first w with ⟨w', ending⟩
  obtain ⟨hw, he⟩ := hs.apply hf
  obtain ⟨hw', he'⟩ := ht w'
  have hall : w'.feed (t.lines.map (Line.bytes w'.unit w'.depth))
      = w.feed ((s.lines ++ t.lines).map (Line.bytes w.unit w.depth)) := by
    rw [hw, Writer.feed_feed, Writer.feed_unit, Writer.feed_depth, List.map_append]
  by_cases hfail : w'.failure = none
  · have hend := he hfail
    rcases hfault : s.fault with _ | e
    · rw [Script.andThen_of_none hfault]
      simp only [Script.ending, hfault] at hend
      subst hend
      simp only [Writer.andThen, hf]
      exact ⟨hw'.trans hall, he'⟩
    · rw [Script.andThen_of_some hfault]
      simp only [Script.ending, hfault] at hend
      subst hend
      simp only [Writer.andThen, hf]
      exact ⟨hw, fun _ => by simp only [Script.ending, hfault]⟩
  · have hstay : (Writer.andThen first second w).1 = w' := by
      simp only [Writer.andThen, hf]
      split
      · rename_i h
        cases h
        rw [hw', Writer.feed_of_failure hfail]
      · rfl
    refine ⟨?_, fun h => absurd (hstay ▸ h) hfail⟩
    rw [hstay]
    rcases hfault : s.fault with _ | e
    · rw [Script.andThen_of_none hfault, ← hall, Writer.feed_of_failure hfail]
    · rw [Script.andThen_of_some hfault]
      exact hw

theorem follows_forEach {action : Nat → α → Action ν ε} {script : Nat → α → Script ε}
    (h : ∀ i a, Follows (action i a) (script i a)) :
    ∀ (i : Nat) (xs : List α), Follows (Writer.forEach action i xs) (.forEach script i xs)
  | _, [] => follows_nothing
  | i, a :: rest => follows_andThen (h i a) (follows_forEach h (i + 1) rest)

theorem forEach_line (i : Nat) (ts : List Text) :
    Script.forEach (fun _ t => (.line t : Script ε)) i ts = ⟨ts.map (Line.mk 0), none⟩ := by
  have h := Script.forEach_of_none (f := fun _ t => (.line t : Script ε))
    (g := fun t => [⟨0, t⟩]) i ts fun _ _ _ => rfl
  rw [h, ← List.map_eq_flatMap]

theorem follows_writeLines (ts : List Text) :
    Follows (Writer.writeLines ts : Action ν ε) ⟨ts.map (Line.mk 0), none⟩ := by
  rw [← forEach_line 0 ts]
  exact follows_forEach (fun _ t => follows_writeLine t) 0 ts

/-- The body of a block, with the depth put back where it was. -/
theorem follows_body {body : Action ν ε} {s : Script ε} (h : Follows body s) {w w' : Writer ν}
    {ending : Ending ε} (hb : body { w with depth := w.depth + 1 } = (w', ending)) :
    ({ w' with depth := w'.depth - 1 } : Writer ν)
        = w.feed ((s.lines.map Line.deeper).map (Line.bytes w.unit w.depth))
      ∧ (w'.failure = none → ending = s.ending) := by
  obtain ⟨hw, he⟩ := h.apply hb
  refine ⟨?_, he⟩
  rw [Writer.feed_withDepth] at hw
  rw [hw, Line.map_bytes_deeper]
  exact Writer.withDepth_feed w _

/-- Once the opening has been written the closing brace is too, whatever the body did. -/
theorem follows_block {body : Action ν ε} {s : Script ε} (h : Follows body s)
    (headers : List Text) : Follows (Writer.block headers body) (.block headers s) := by
  intro w
  rcases hf : Writer.writeLines (ε := ε) (headers.filter (· ≠ []) ++ [text "\x7b"]) w
    with ⟨w₁, opened⟩
  rcases hb : body { w₁ with depth := w₁.depth + 1 } with ⟨w₂, ending⟩
  rcases hc : Writer.writeLine (ε := ε) (text "\x7d") { w₂ with depth := w₂.depth - 1 }
    with ⟨w₃, closing⟩
  obtain ⟨hw₁, he₁⟩ := (follows_writeLines _).apply hf
  obtain ⟨hw₂, he₂⟩ := follows_body h hb
  obtain ⟨hw₃, he₃⟩ := (follows_writeLine _).apply hc
  have hall : w₃ = w.feed ((Script.block headers s).lines.map (Line.bytes w.unit w.depth)) := by
    rw [hw₃, hw₂, hw₁]
    simp only [Writer.feed_feed, Writer.feed_unit, Writer.feed_depth, Script.block, Script.line,
      List.map_append]
  by_cases hfail : w₁.failure = none
  · have hopen : opened = .done := he₁ hfail
    subst hopen
    have hblock : (Writer.block headers body w).1 = w₃ := by
      simp only [Writer.block, hf, hb, hc]
      split <;> rfl
    refine ⟨hblock.trans hall, fun h₃ => ?_⟩
    rw [hblock] at h₃
    have hclose : closing = .done := he₃ h₃
    rw [hw₃] at h₃
    have h₂ := Writer.failure_of_feed h₃
    have hend := he₂ h₂
    simp only [Writer.block, hf, hb, hc]
    split
    · exact hclose.trans hend
    · exact hend
  · have hstay : w₃ = w₁ := by
      rw [hw₃, hw₂, Writer.feed_of_failure hfail, Writer.feed_of_failure hfail]
    have hblock : (Writer.block headers body w).1 = w₁ := by
      simp only [Writer.block, hf]
      split
      · rename_i h₁
        cases h₁
        simp only [hb, hc]
        split <;> exact hstay
      · rfl
    refine ⟨?_, fun h => absurd (hblock ▸ h) hfail⟩
    rw [hblock, ← hstay]
    exact hall

end Follows

end SuiteScribe
