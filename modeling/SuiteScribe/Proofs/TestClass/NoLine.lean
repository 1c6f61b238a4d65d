import SuiteScribe.Proofs.TestClass.Verbatim

/-!
# Statements without a line

An import leaves no line in a method, and the empty bare name leaves none.  Every other statement
that passes leaves one (`statement_eq_ok_nil_iff`): whether a line is empty is seen only once it is
put together, but a node with parts writes brackets, a point or a word around their texts, so its
own text is not empty even if all of theirs are.

So the body of a method is the statements of its test less the silent ones, in order, a line for
each (`forall₂_filterMap_comment?`).
-/

namespace SuiteScribe

namespace Node

/-- Whether a statement has nothing to say in a method. -/
def isSilent : Node → Bool
  | importOf _ => true
  | str value => value.isEmpty
  | _ => false

theorem isSilent_iff {n : Node} : n.isSilent = true ↔ (∃ name, n = importOf name) ∨ n = str [] := by
  cases n <;> simp [isSilent]

section Render

variable (modules : List Text)

theorem assemble_ne_nil {n : Node} (hc : n.isComposite = true) {xs : List Text}
    (hl : n.parts.length = xs.length) : assemble modules n xs ≠ [] := by
  cases n with
  | assignment | assertion | member =>
    obtain ⟨x, y, rfl⟩ := List.length_eq_two.1 hl.symm
    simp [assemble, text]
  | call =>
    rcases xs with _ | ⟨f, args⟩
    · cases hl
    · simp [assemble, text]
  | sequence => simp [assemble, text]
  | _ => cases hc

theorem marker_ne_nil (kind spelled : Text) : marker kind spelled ≠ [] := by
  simp [marker, text]

theorem renderForeign_ne_nil (kind typeName shown : Text) :
    renderForeign kind typeName shown ≠ .ok [] := by
  unfold renderForeign
  split
  · simp
  · split_ifs
    · simp [marker_ne_nil]
    · simp

/-- A line of code is empty for the silent statements only. -/
theorem render_eq_ok_nil_iff (n : Node) : n.render modules = .ok [] ↔ n.isSilent = true := by
  cases n with
  | assignment | assertion | call | member | sequence =>
    refine iff_of_false (fun h => ?_) (by simp [isSilent])
    obtain ⟨xs, hxs, hnil⟩ := exists_render_of_isComposite modules rfl h
    exact assemble_ne_nil modules rfl hxs.length_eq hnil.symm
  | absent | importOf | string | bytes => simp [render, isSilent, Text.quote, text]
  | ifPyd | ifPynih | shouldThrow => simp [render, isSilent, marker_ne_nil]
  | int value => cases value <;> simp [render, isSilent, Text.ofInt, Text.ofNat]
  | number value =>
    refine iff_of_false (fun h => ?_) (by simp [isSilent])
    simp only [render] at h
    split_ifs at h with hnil
    exact hnil (requireOneLine_eq_ok_iff.1 h).1.symm
  | str value =>
    rw [render, requireOneLine_eq_ok_iff, isSilent, List.isEmpty_iff, eq_comm]
    exact and_iff_left_of_imp fun h => by rw [h, Text.hasLineBreak_nil]
  | foreign kind typeName shown =>
    exact iff_of_false (renderForeign_ne_nil kind typeName shown) (by simp [isSilent])

theorem statement_eq_ok_nil_iff (n : Node) : n.statement modules = .ok [] ↔ n.isSilent = true := by
  rw [← render_eq_ok_nil_iff modules]
  by_cases hn : n = absent
  · subst hn
    simp [statement, render]
  · rw [statement_of_ne_absent modules hn]
    rcases n.render modules with e | line
    · exact iff_of_false (fun h => by cases h) fun h => by cases h
    · by_cases hline : line = [] <;> simp [hline, text]

theorem comment?_eq_none_iff {n : Node} {code : Text} (h : n.render modules = .ok code) :
    n.comment? modules = none ↔ n.isSilent = true := by
  rw [← statement_eq_ok_nil_iff modules, statement_of_render_ok h]
  rcases hc : n.comment? modules with _ | line
  · simp
  · simp [comment?_ne_nil hc]

/-- The statements that are not silent have their lines in order, none of which is empty. -/
theorem forall₂_filterMap_comment? {ns : List Node}
    (h : ∀ n ∈ ns, ∃ code, n.render modules = .ok code) :
    List.Forall₂ (fun n line => n.statement modules = .ok line ∧ line ≠ [])
      (ns.filter (!·.isSilent)) (ns.filterMap (comment? modules)) := by
  induction ns with
  | nil => exact .nil
  | cons n ns ih =>
    obtain ⟨⟨code, hcode⟩, hns⟩ := List.forall_mem_cons.1 h
    have hsilent := comment?_eq_none_iff modules hcode
    rcases hc : n.comment? modules with _ | line
    · rw [List.filterMap_cons_none hc, List.filter_cons_of_neg (by simp [hsilent.1 hc])]
      exact ih hns
    · have hspeaks : n.isSilent = false := by
        rw [Bool.eq_false_iff, ne_eq, ← hsilent, hc]
        exact Option.some_ne_none line
      rw [List.filterMap_cons_some hc, List.filter_cons_of_pos (by simp [hspeaks])]
      refine .cons ⟨?_, comment?_ne_nil hc⟩ (ih hns)
      rw [statement_of_render_ok hcode, hc, Option.getD_some]

end Render

end Node

namespace TestClass

/-- A statement succeeds with an empty line exactly if it is an import or the empty bare name.  So
in a generated file, the lines of which are written one by one, the body of the method of a test has
a line for every statement of the test but those, in their order. -/
theorem generate_keeps_statements (suite : Suite) (options : Options) :
    (∀ modules (n : Node), n.statement modules = .ok []
      ↔ (∃ name, n = .importOf name) ∨ n = .str [])
    ∧ ∀ out, generate suite options = .ok out →
        ∃ imports lines, ∃ methods : List Method,
          Using.imported suite = .ok imports
          ∧ lines = Layout.file options.settings (Using.namespaces imports
              options.settings.excluded options.settings.framework) methods
          ∧ out = Text.ofLines lines
          ∧ (stream .endless suite options).1.accepted = lines.map (· ++ text "\n")
          ∧ List.Forall₂ (fun test (m : Method) => m.name = test.name
              ∧ m.body.length = (test.statements.filter (!·.isSilent)).length
              ∧ List.Forall₂ (fun n line =>
                  n.statement (Using.kept imports options.settings.excluded) = .ok line
                    ∧ line ≠ [])
                (test.statements.filter (!·.isSilent)) m.body)
            suite methods := by
  refine ⟨fun modules n => by rw [Node.statement_eq_ok_nil_iff, Node.isSilent_iff], ?_⟩
  intro out h
  obtain ⟨imports, hi, hp, rfl⟩ := (generate_eq_ok_iff suite options out).1 h
  refine ⟨imports, _, _, hi, rfl, rfl, ?_, ?_⟩
  · rw [accepted_stream_endless, texts_of_passes hi hp]
    rfl
  · rw [List.forall₂_map_right_iff, List.forall₂_same]
    intro test htest
    have hbody := Node.forall₂_filterMap_comment? _ (hp test htest).2
    exact ⟨rfl, hbody.length_eq.symm, hbody⟩

/-- Statements made of nothing but imports and empty names. -/
def emptyParts : Suite :=
  [⟨text "t", [.importOf (text "m"), .str [], .sequence [.importOf (text "m"), .str []],
    .member (.str []) (.str []), .call (.str []) []]⟩]

/-- Two of them are silent, and the other three have a line each. -/
theorem generate_keeps_statements_emptyParts :
    ∃ m : Method, generate emptyParts {} = .ok (Text.ofLines (Layout.file (Options.settings {})
        [text "M", Options.defaultFramework] [m]))
      ∧ m.body.length = 3 := by
  have hout : generate emptyParts {}
      = .ok (Text.ofLines (Layout.ofSuite (Options.settings {}) [text "m"] emptyParts)) := rfl
  obtain ⟨imports, lines, methods, hi, rfl, heq, -, hmethods⟩ :=
    (generate_keeps_statements emptyParts {}).2 _ hout
  obtain rfl : [text "m"] = imports := Except.ok.inj hi
  obtain ⟨m, rest, ⟨-, hlength, -⟩, hrest, rfl⟩ := List.forall₂_cons_left_iff.1 hmethods
  obtain rfl := List.forall₂_nil_left_iff.1 hrest
  exact ⟨m, hout.trans (congrArg Except.ok heq), hlength⟩

end TestClass

end SuiteScribe
