import SuiteScribe.Proofs.TestClass.Layout

/-!
# Files that are not finished

Writing a file can end early for two reasons.  A sink without room for the whole file has taken the
first of the texts it was handed, and its refusal is told even if the suite is at fault too
(`stream_limited`).  A suite that is refused leaves nothing if an import is at fault, and else the
file of what stands before the fault, with the using directives of the whole suite and every block
closed (`stream_refused`).
-/

namespace SuiteScribe

section Balanced

def IsBrace (t : Text) : Prop :=
  t = text "\x7b" ∨ t = text "\x7d"

/-- Lines that stand inside `level` blocks: every block that is opened is closed, and the lines
between its braces are one level deeper. -/
inductive Balanced : (level : Nat) → List Line → Prop
  | nil {level : Nat} : Balanced level []
  | line {level : Nat} {t : Text} {ls : List Line} (ht : ¬ IsBrace t) (h : Balanced level ls) :
    Balanced level (⟨level, t⟩ :: ls)
  | block {level : Nat} {body ls : List Line} (hbody : Balanced (level + 1) body)
    (h : Balanced level ls) :
    Balanced level (⟨level, text "\x7b"⟩ :: (body ++ ⟨level, text "\x7d"⟩ :: ls))

namespace Balanced

variable {ε α : Type} {level : Nat}

theorem append {ls ms : List Line} (hl : Balanced level ls) (hm : Balanced level ms) :
    Balanced level (ls ++ ms) := by
  induction hl with
  | nil => exact hm
  | line ht _ ih => exact .line ht (ih hm)
  | block hbody _ _ ih =>
    rw [List.cons_append, List.append_assoc, List.cons_append]
    exact .block hbody (ih hm)

/-- Balanced lines stay balanced inside one more block. -/
theorem deeper {ls : List Line} (h : Balanced level ls) :
    Balanced (level + 1) (ls.map Line.deeper) := by
  induction h with
  | nil => exact .nil
  | line ht _ ih => exact .line ht ih
  | block _ _ ihbody ih =>
    rw [List.map_cons, List.map_append, List.map_cons]
    exact .block ihbody ih

theorem ofTexts : ∀ {ts : List Text}, (∀ t ∈ ts, ¬ IsBrace t) → Balanced 0 (ts.map (Line.mk 0))
  | [], _ => .nil
  | t :: _, h =>
    .line (h t List.mem_cons_self) (ofTexts fun u hu => h u (List.mem_cons_of_mem t hu))

theorem andThen {s t : Script ε} (hs : Balanced 0 s.lines) (ht : Balanced 0 t.lines) :
    Balanced 0 (s.andThen t).lines := by
  rcases hfault : s.fault with _ | e
  · rw [Script.andThen_of_none hfault]
    exact hs.append ht
  · rw [Script.andThen_of_some hfault]
    exact hs

theorem forEach {f : Nat → α → Script ε} (h : ∀ i a, Balanced 0 (f i a).lines) :
    ∀ (i : Nat) (xs : List α), Balanced 0 (Script.forEach f i xs).lines
  | _, [] => .nil
  | i, a :: rest => (h i a).andThen (forEach h (i + 1) rest)

/-- The brace of a block is closed where its body stops, too. -/
theorem scriptBlock {body : Script ε} {headers : List Text} (hh : ∀ t ∈ headers, ¬ IsBrace t)
    (h : Balanced 0 body.lines) : Balanced 0 (Script.block headers body).lines := by
  have hfilter : ∀ t ∈ headers.filter (· ≠ []), ¬ IsBrace t :=
    fun t ht => hh t (List.mem_of_mem_filter ht)
  have hblock := (ofTexts hfilter).append (.block h.deeper .nil)
  simpa only [Script.block, List.map_append, List.map_cons, List.map_nil, List.append_assoc,
    List.cons_append, List.nil_append] using hblock

end Balanced

theorem not_isBrace_of_head {t : Text} {b : UInt8} (h : t.head? = some b)
    (hb : some b ≠ (text "\x7b").head? ∧ some b ≠ (text "\x7d").head?) : ¬ IsBrace t := by
  rintro (rfl | rfl)
  · exact hb.1 h.symm
  · exact hb.2 h.symm

end Balanced

namespace TestClass

variable (s : Settings) (modules : List Text)

theorem balanced_statementScript (test : Text) (i : Nat) (n : Node) :
    Balanced 0 (statementScript modules test i n).lines := by
  unfold statementScript
  rcases h : n.statement modules with e | line
  · exact .nil
  · obtain ⟨code, hcode⟩ := Node.render_ok_of_statement_ok h
    rw [Node.statement_of_render_ok hcode] at h
    cases h
    rcases hc : n.comment? modules with _ | line
    · exact .nil
    · obtain ⟨rest, rfl⟩ := Node.comment?_prefix modules hc
      exact .line (not_isBrace_of_head (b := Text.byte '/') rfl (by decide)) .nil

theorem balanced_methodScript (i : Nat) (test : Test) :
    Balanced 0 (methodScript s modules i test).lines := by
  unfold methodScript
  rcases checkName i test.name with e | ⟨⟩
  · exact .nil
  · refine .scriptBlock ?_ (.forEach (balanced_statementScript modules test.name) 0 _)
    simp only [List.mem_cons, List.not_mem_nil, or_false, forall_eq_or_imp, forall_eq]
    exact ⟨not_isBrace_of_head (b := Text.byte '[') rfl (by decide),
      not_isBrace_of_head (b := Text.byte 'p') rfl (by decide)⟩

theorem balanced_classScript (suite : Suite) :
    Balanced 0 (classScript s modules suite).lines := by
  refine .scriptBlock ?_ (.forEach (balanced_methodScript s modules) 0 suite)
  simp only [List.mem_cons, List.not_mem_nil, or_false, forall_eq_or_imp, forall_eq]
  exact ⟨not_isBrace_of_head (b := Text.byte '[') rfl (by decide),
    not_isBrace_of_head (b := Text.byte 'p') rfl (by decide)⟩

theorem balanced_usingScript (namespaces : List Text) :
    Balanced 0 (usingScript namespaces).lines := by
  refine .ofTexts fun t ht => ?_
  rcases List.mem_append.1 ht with ht | ht
  · obtain ⟨n, -, rfl⟩ := List.mem_map.1 ht
    exact not_isBrace_of_head (b := Text.byte 'u') rfl (by decide)
  · rw [List.mem_singleton.1 ht]
    simp [IsBrace, text]

/-- Whatever is wrong with the suite, what is written of its file closes every block. -/
theorem balanced_fileScript (suite : Suite) : Balanced 0 (fileScript s suite).lines := by
  unfold fileScript
  rcases Using.imported suite with e | modules
  · exact .nil
  · have hwarning : Balanced 0 (Script.line warning : Script SuiteError).lines :=
      .line (not_isBrace_of_head (b := Text.byte '/') rfl (by decide)) .nil
    refine hwarning.andThen (.scriptBlock ?_
      ((balanced_usingScript _).andThen (balanced_classScript s _ suite)))
    simp only [List.mem_singleton, forall_eq]
    exact not_isBrace_of_head (b := Text.byte 'n') rfl (by decide)

section Cut

/-- The suite up to the name of a test or the statement that is refused with that error, where
everything before it passes. -/
inductive CutBefore (modules : List Text) (suite : Suite) : Suite → SuiteError → Prop
  | name {before after : Suite} {test : Test} {e : SuiteError}
    (hsuite : suite = before ++ test :: after) (hpass : ∀ t ∈ before, Passes modules t)
    (he : checkName before.length test.name = .error e) :
    CutBefore modules suite before e
  | statement {before after : Suite} {test : Test} {done rest : List Node} {n : Node}
    {e : NodeError} (hsuite : suite = before ++ test :: after)
    (hstatements : test.statements = done ++ n :: rest)
    (hpass : ∀ t ∈ before ++ [⟨test.name, done⟩], Passes modules t)
    (he : n.statement modules = .error e) :
    CutBefore modules suite (before ++ [⟨test.name, done⟩])
      (.inStatement test.name done.length e)

theorem statementScript_of_fault {test : Text} {i : Nat} {n : Node} {e : SuiteError}
    (h : (statementScript modules test i n).fault = some e) :
    ∃ d, n.statement modules = .error d ∧ e = .inStatement test i d
      ∧ (statementScript modules test i n).lines = [] := by
  rw [fault_statementScript, Option.map_eq_some_iff] at h
  obtain ⟨d, hd, rfl⟩ := h
  rw [errorOf_eq_some] at hd
  refine ⟨d, hd, rfl, ?_⟩
  unfold statementScript
  rw [hd]
  rfl

/-- A method that is stopped is stopped at its name, and not begun, or at a statement, and written
as that of the test without the statements from there on. -/
theorem methodScript_of_fault {i : Nat} {test : Test} {e : SuiteError}
    (h : (methodScript s modules i test).fault = some e) :
    (checkName i test.name = .error e ∧ (methodScript s modules i test).lines = [])
    ∨ ∃ done n rest d, test.statements = done ++ n :: rest
        ∧ Passes modules ⟨test.name, done⟩
        ∧ n.statement modules = .error d
        ∧ e = .inStatement test.name done.length d
        ∧ (methodScript s modules i test).lines
          = (methodBlock s modules ⟨test.name, done⟩).lines := by
  rcases hname : checkName i test.name with d | ⟨⟩
  · left
    simp only [methodScript, hname] at h ⊢
    cases h
    exact ⟨rfl, rfl⟩
  · right
    simp only [methodScript, hname, Script.block] at h
    obtain ⟨done, n, rest, hstatements, hdone, hn, hlines⟩ :=
      Script.exists_of_fault_forEach 0 test.statements h
    rw [Nat.zero_add] at hn hlines
    obtain ⟨d, hd, rfl, hnil⟩ := statementScript_of_fault modules hn
    rw [hnil, List.append_nil] at hlines
    have hpass : Passes modules ⟨test.name, done⟩ := by
      rw [← fault_methodScript_eq_none_iff s modules i]
      simp only [methodScript, hname, Script.block]
      exact hdone
    refine ⟨done, n, rest, d, hstatements, hpass, hd, rfl, ?_⟩
    rw [← methodScript_of_passes s modules hpass i]
    simp only [methodScript, hname, Script.block, hlines]

/-- The tests before the one at fault are written, and of that one what stands before its fault. -/
theorem exists_cutBefore {suite : Suite} {e : SuiteError}
    (h : (Script.forEach (methodScript s modules) 0 suite).fault = some e) :
    ∃ cut, CutBefore modules suite cut e
      ∧ (Script.forEach (methodScript s modules) 0 suite).lines
        = cut.flatMap fun test => (methodBlock s modules test).lines := by
  obtain ⟨before, test, after, rfl, hbefore, htest, hlines⟩ :=
    Script.exists_of_fault_forEach 0 suite h
  rw [fault_forEach, firstFault_methodScript_eq_none_iff] at hbefore
  rw [methodsScript_of_passes s modules hbefore, Nat.zero_add] at hlines
  rw [Nat.zero_add] at htest
  rcases methodScript_of_fault s modules htest with
    ⟨hname, hnil⟩ | ⟨done, n, rest, d, hstatements, hpass, hd, rfl, hmethod⟩
  · refine ⟨before, .name rfl hbefore hname, ?_⟩
    rw [hlines, hnil, List.append_nil]
  · refine ⟨before ++ [⟨test.name, done⟩], .statement rfl hstatements ?_ hd, ?_⟩
    · intro t ht
      rcases List.mem_append.1 ht with ht | ht
      · exact hbefore t ht
      · rw [List.mem_singleton.1 ht]
        exact hpass
    · rw [hlines, hmethod, List.flatMap_append, List.flatMap_singleton]

end Cut

/-- What a refused suite leaves in a sink that takes everything: nothing if an import is at fault,
and else the file of the suite cut before the fault, which uses the modules of the whole suite.
Either way every block is closed. -/
theorem stream_refused (suite : Suite) (options : Options) (e : SuiteError)
    (h : (stream .endless suite options).2 = some (.suite e)) :
    ((Using.imported suite = .error e ∧ (stream .endless suite options).1.accepted = [])
      ∨ ∃ modules cut, Using.imported suite = .ok modules
        ∧ CutBefore (Using.kept modules options.settings.excluded) suite cut e
        ∧ (stream .endless suite options).1.output
          = Text.ofLines (Layout.ofSuite options.settings modules cut))
    ∧ ∃ ls, Balanced 0 ls ∧ (stream .endless suite options).1.accepted
        = ls.map (Line.bytes options.settings.indent 0) := by
  rw [stream_endless] at h
  rw [output_stream_endless, accepted_stream_endless]
  refine ⟨?_, _, balanced_fileScript options.settings suite, rfl⟩
  have hfault : (fileScript options.settings suite).fault = some e := by
    simpa using h
  unfold texts
  unfold fileScript at hfault ⊢
  rcases hi : Using.imported suite with d | modules <;> rw [hi] at hfault
  · cases hfault
    exact .inl ⟨rfl, rfl⟩
  · right
    simp only [fault_spaceScript, ← fault_forEach] at hfault
    obtain ⟨cut, hcut, hlines⟩ := exists_cutBefore options.settings _ hfault
    refine ⟨modules, cut, rfl, hcut, ?_⟩
    simp only [lines_spaceScript options.settings modules hlines]
    rw [Text.ofLines, List.flatMap_def]

/-- The first statement of the second test passes and the second is of no kind; the import after it
still has its using directive. -/
def unknownStatement : Suite :=
  [⟨text "one", [.importOf (text "math")]⟩,
    ⟨text "two", [.int 1, .foreign (text "Lambda") [] [], .importOf (text "json")]⟩]

theorem stream_refused_unknownStatement :
    (stream .endless unknownStatement {}).2
        = some (.suite (.inStatement (text "two") 1 (.unknownKind (text "Lambda"))))
      ∧ ∃ modules cut, Using.imported unknownStatement = .ok modules
        ∧ CutBefore (Using.kept modules [text "datetime"]) unknownStatement cut
          (.inStatement (text "two") 1 (.unknownKind (text "Lambda")))
        ∧ (stream .endless unknownStatement {}).1.output
          = Text.ofLines (Layout.ofSuite (Options.settings {}) modules cut) := by
  have h : (stream .endless unknownStatement {}).2
      = some (.suite (.inStatement (text "two") 1 (.unknownKind (text "Lambda")))) := rfl
  refine ⟨h, ?_⟩
  rcases (stream_refused unknownStatement {} _ h).1 with ⟨himports, -⟩ | hcut
  · cases himports
  · exact hcut

/-- Room for `n` texts: with fewer than it is handed, the sink takes the first `n` and its refusal
is told, whatever is wrong with the suite; with as many, nothing differs from a sink that takes
everything. -/
theorem stream_limited (suite : Suite) (options : Options) (n : Nat) :
    (n < (stream .endless suite options).1.accepted.length →
      (stream (.limited n) suite options).1.output
          = ((stream .endless suite options).1.accepted.take n).flatten
        ∧ (stream (.limited n) suite options).1.accepted.length = n
        ∧ ∃ e, (stream (.limited n) suite options).2 = some e
          ∧ e.message = text "failed to write generated output: " ++ SinkError.full.message)
    ∧ ((stream .endless suite options).1.accepted.length ≤ n →
      (stream (.limited n) suite options).1.output = (stream .endless suite options).1.output
        ∧ (stream (.limited n) suite options).1.accepted.length
          = (stream .endless suite options).1.accepted.length
        ∧ (stream (.limited n) suite options).2 = (stream .endless suite options).2) := by
  obtain ⟨haccepted, hfail⟩ := Sink.feed_limited n (texts options suite)
  rw [accepted_stream_endless, output_stream_endless, Sink.output, stream_eq (.limited n),
    haccepted, hfail, stream_endless]
  refine ⟨fun h => ?_, fun h => ?_⟩
  · rw [if_pos h]
    exact ⟨rfl, List.length_take_of_le (Nat.le_of_lt h), _, rfl, rfl⟩
  · rw [if_neg (Nat.not_lt.2 h), List.take_of_length_le h]
    exact ⟨rfl, rfl, rfl⟩

theorem stream_limited_unknownStatement :
    (stream .endless unknownStatement {}).2
        = some (.suite (.inStatement (text "two") 1 (.unknownKind (text "Lambda"))))
      ∧ 4 < (stream .endless unknownStatement {}).1.accepted.length
      ∧ ∃ e, (stream (.limited 4) unknownStatement {}).2 = some e
        ∧ e.message = text "failed to write generated output: " ++ SinkError.full.message := by
  have h : 4 < (stream .endless unknownStatement {}).1.accepted.length := by decide
  exact ⟨rfl, h, ((stream_limited unknownStatement {} 4).1 h).2.2⟩

end TestClass

end SuiteScribe
