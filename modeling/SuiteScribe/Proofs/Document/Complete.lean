import SuiteScribe.Document.Decode
import SuiteScribe.Proofs.TestClass.Defect

/-!
# What is read from a document can be generated

A node that was read from a document is complete (`complete_of_toNode`): at any depth it is of one
of the kinds, it has all its parts, and its imports have names.  Only the exception of a
`shouldThrow` may be absent, which is kept as a marker.  So of the defects of a suite only those in
its texts are left (`textDefect_of_defectAt`).
-/

namespace SuiteScribe

/-- The node is of one of the kinds at any depth, with nothing missing. -/
inductive Node.Complete : Node → Prop
  | importOf {name : Text} (h : name ≠ []) : Complete (.importOf name)
  | assignment {lhs rhs : Node} (hl : Complete lhs) (hr : Complete rhs) :
    Complete (.assignment lhs rhs)
  | assertion {lhs rhs : Node} (hl : Complete lhs) (hr : Complete rhs) :
    Complete (.assertion lhs rhs)
  | call {receiver : Node} {args : List Node} (hr : Complete receiver)
    (ha : ∀ n ∈ args, Complete n) : Complete (.call receiver args)
  | member {owner name : Node} (ho : Complete owner) (hn : Complete name) :
    Complete (.member owner name)
  | sequence {elements : List Node} (h : ∀ n ∈ elements, Complete n) : Complete (.sequence elements)
  | ifPyd {body : List Node} (h : ∀ n ∈ body, Complete n) : Complete (.ifPyd body)
  | ifPynih {body : List Node} (h : ∀ n ∈ body, Complete n) : Complete (.ifPynih body)
  | shouldThrow {exception : Node} {body : List Node}
    (he : exception ≠ .absent → Complete exception) (h : ∀ n ∈ body, Complete n) :
    Complete (.shouldThrow exception body)
  | number {value : Text} : Complete (.number value)
  | string {value : Text} : Complete (.string value)
  | bytes {value : Text} : Complete (.bytes value)
  | int {value : Int} : Complete (.int value)
  | str {value : Text} : Complete (.str value)

namespace Tree

theorem complete_numberNode (value : Text) : (numberNode value).Complete := by
  unfold numberNode
  split
  · exact .int
  · exact .number

theorem ne_nil_of_toModule {path : Path} {t : Tree} {name : Text}
    (h : t.toModule path = .ok name) : name ≠ [] := by
  obtain ⟨name', -, h⟩ := bind_eq_ok_iff.1 h
  split_ifs at h with hne
  cases h
  exact hne

mutual

/-- A node that is read has all its parts, and so have the nodes in it. -/
theorem complete_of_toNode {path : Path} {t : Tree} {n : Node} (h : toNode path t = .ok n) :
    n.Complete := by
  match t with
  | string value =>
    rw [toNode] at h
    cases h
    exact .str
  | number value =>
    rw [toNode] at h
    cases h
    exact complete_numberNode value
  | null | bool _ | list _ => simp [toNode] at h
  | mapping fields =>
    rw [toNode] at h
    obtain ⟨name, -, h⟩ := bind_eq_ok_iff.1 h
    obtain ⟨kind, -, h⟩ := bind_eq_ok_iff.1 h
    cases kind with
    | importOf =>
      obtain ⟨m, hm, h⟩ := bind_eq_ok_iff.1 h
      cases h
      exact .importOf (ne_nil_of_toModule hm)
    | assignment =>
      obtain ⟨lhs, hl, h⟩ := bind_eq_ok_iff.1 h
      obtain ⟨rhs, hr, h⟩ := bind_eq_ok_iff.1 h
      cases h
      exact .assignment (complete_of_toPart hl (.inl rfl)) (complete_of_toPart hr (.inl rfl))
    | assertion =>
      obtain ⟨lhs, hl, h⟩ := bind_eq_ok_iff.1 h
      obtain ⟨rhs, hr, h⟩ := bind_eq_ok_iff.1 h
      cases h
      exact .assertion (complete_of_toPart hl (.inl rfl)) (complete_of_toPart hr (.inl rfl))
    | call =>
      obtain ⟨receiver, hr, h⟩ := bind_eq_ok_iff.1 h
      obtain ⟨args, ha, h⟩ := bind_eq_ok_iff.1 h
      cases h
      exact .call (complete_of_toPart hr (.inl rfl)) (complete_of_toNodes ha)
    | member =>
      obtain ⟨owner, ho, h⟩ := bind_eq_ok_iff.1 h
      obtain ⟨name, hn, h⟩ := bind_eq_ok_iff.1 h
      cases h
      exact .member (complete_of_toPart ho (.inl rfl)) (complete_of_toPart hn (.inl rfl))
    | sequence =>
      obtain ⟨elements, he, h⟩ := bind_eq_ok_iff.1 h
      cases h
      exact .sequence (complete_of_toNodes he)
    | ifPyd =>
      obtain ⟨body, hb, h⟩ := bind_eq_ok_iff.1 h
      cases h
      exact .ifPyd (complete_of_toNodes hb)
    | ifPynih =>
      obtain ⟨body, hb, h⟩ := bind_eq_ok_iff.1 h
      cases h
      exact .ifPynih (complete_of_toNodes hb)
    | shouldThrow =>
      obtain ⟨exception, he, h⟩ := bind_eq_ok_iff.1 h
      obtain ⟨body, hb, h⟩ := bind_eq_ok_iff.1 h
      cases h
      exact .shouldThrow (fun hne => complete_of_toPart he (.inr hne)) (complete_of_toNodes hb)
    | number | string | bytes | int | str =>
      obtain ⟨value, -, h⟩ := bind_eq_ok_iff.1 h
      cases h
      constructor
termination_by (sizeOf t, 0)
decreasing_by all_goals exact Prod.Lex.left _ _ (sizeOf_get_lt fields _)

theorem complete_of_toPart {path : Path} {required : Bool} {t : Tree} {n : Node}
    (h : toPart path required t = .ok n) (hn : required = true ∨ n ≠ .absent) : n.Complete := by
  by_cases ht : t = null
  · subst ht
    rw [toPart] at h
    split_ifs at h with hr
    cases h
    rcases hn with hn | hn
    · exact absurd hn hr
    · exact absurd rfl hn
  · rw [toPart] at h
    · exact complete_of_toNode h
    · exact ht
termination_by (sizeOf t, 1)

theorem complete_of_toNodes {path : Path} {t : Tree} {ns : List Node}
    (h : toNodes path t = .ok ns) : ∀ n ∈ ns, n.Complete := by
  match t with
  | list items =>
    rw [toNodes] at h
    exact complete_of_toNodesFrom h
  | null =>
    rw [toNodes] at h
    cases h
    simp
  | bool _ | number _ | string _ | mapping _ => simp [toNodes] at h
termination_by (sizeOf t, 1)

theorem complete_of_toNodesFrom {path : Path} {i : Nat} {items : List Tree} {ns : List Node}
    (h : toNodesFrom path i items = .ok ns) : ∀ n ∈ ns, n.Complete := by
  match items with
  | [] =>
    rw [toNodesFrom] at h
    cases h
    simp
  | t :: rest =>
    rw [toNodesFrom] at h
    obtain ⟨n, hn, h⟩ := bind_eq_ok_iff.1 h
    obtain ⟨ns, hns, h⟩ := bind_eq_ok_iff.1 h
    cases h
    rw [List.forall_mem_cons]
    exact ⟨complete_of_toNode hn, complete_of_toNodesFrom hns⟩
termination_by (sizeOf items, 0)

end

theorem complete_of_toTestsFrom {path : Path} : ∀ {i : Nat} {items : List Tree} {suite : Suite},
    toTestsFrom path i items = .ok suite → ∀ test ∈ suite, ∀ n ∈ test.statements, n.Complete
  | _, [], _, h => by
    rw [toTestsFrom] at h
    cases h
    simp
  | i, t :: rest, _, h => by
    rw [toTestsFrom] at h
    obtain ⟨test, ht, h⟩ := bind_eq_ok_iff.1 h
    obtain ⟨tests, hts, h⟩ := bind_eq_ok_iff.1 h
    cases h
    rw [List.forall_mem_cons]
    refine ⟨?_, complete_of_toTestsFrom hts⟩
    unfold toTest at ht
    split at ht
    · obtain ⟨name, -, ht⟩ := bind_eq_ok_iff.1 ht
      obtain ⟨statements, hs, ht⟩ := bind_eq_ok_iff.1 ht
      cases ht
      exact complete_of_toNodes hs
    · cases ht

/-- The statements of a suite that is read have all their parts. -/
theorem complete_of_toSuite {t : Tree} {suite : Suite} (h : t.toSuite = .ok suite) :
    ∀ test ∈ suite, ∀ n ∈ test.statements, n.Complete := by
  unfold toSuite at h
  split at h
  · obtain ⟨tests, -, h⟩ := bind_eq_ok_iff.1 h
    exact complete_of_toTestsFrom h
  · cases h

end Tree

/-- A text in a node's line of code is not what it has to be, with that error. -/
inductive Node.TextDefect (n : Node) : NodeError → Prop
  | emptyNumber (h : Shown (.number []) n) :
    TextDefect n (.malformed Kind.number.name (.named (text "value")) .missing)
  | brokenNumber {value : Text} (h : Shown (.number value) n) (hb : value.hasLineBreak = true) :
    TextDefect n (.malformed Kind.number.name (.named (text "value")) (.lineBreak value))
  | brokenName {value : Text} (h : Shown (.str value) n) (hb : value.hasLineBreak = true) :
    TextDefect n (.malformed Kind.str.name (.named (text "value")) (.lineBreak value))

/-- A text in a suite is not what it has to be, with that error. -/
inductive Suite.TextDefect (suite : Suite) : SuiteError → Prop
  | emptyName {i : Nat} {test : Test} (ht : suite[i]? = some test) (h : test.name = []) :
    TextDefect suite (.inName i (.malformed (text "Test") (.named (text "name")) .missing))
  | badName {i : Nat} {test : Test} (ht : suite[i]? = some test) (hne : test.name ≠ [])
    (h : test.name.isIdentifier = false) :
    TextDefect suite
      (.inName i (.malformed (text "Test") (.named (text "name")) (.notIdentifier test.name)))
  | brokenModule {i j : Nat} {test : Test} {name : Text} (ht : suite[i]? = some test)
    (hn : test.statements[j]? = some (.importOf name)) (hb : name.hasLineBreak = true) :
    TextDefect suite (.inStatement test.name j
      (.malformed Kind.importOf.name (.named (text "module")) (.lineBreak name)))
  | inStatement {i j : Nat} {test : Test} {n : Node} {e : NodeError} (ht : suite[i]? = some test)
    (hn : test.statements[j]? = some n) (h : n.TextDefect e) :
    TextDefect suite (.inStatement test.name j e)

namespace Node

theorem Complete.of_mem_parts {n : Node} (h : n.Complete) {p : Field × Node} (hp : p ∈ n.parts) :
    p.2.Complete := by
  have hmem : p.2 ∈ n.parts.map Prod.snd := List.mem_map_of_mem hp
  by_cases hc : n.isComposite = true
  · rw [children_of_isComposite hc] at hmem
    cases h with
    | assignment hl hr | assertion hl hr | member hl hr =>
      rcases List.mem_pair.1 hmem with heq | heq <;> rw [heq] <;> assumption
    | call hr ha =>
      rcases List.mem_cons.1 hmem with heq | hmem
      · rw [heq]
        exact hr
      · exact ha _ hmem
    | sequence h => exact h _ hmem
    | _ => cases hc
  · rw [parts_of_not_isComposite (Bool.eq_false_iff.2 hc)] at hp
    cases hp

theorem TextDefect.of_part {n : Node} {p : Field × Node} (hp : p ∈ n.parts) {e : NodeError}
    (h : p.2.TextDefect e) : n.TextDefect e := by
  have hmem : p.2 ∈ n.parts.map Prod.snd := List.mem_map_of_mem hp
  cases h with
  | emptyNumber h => exact .emptyNumber (h.tail hmem)
  | brokenNumber h hb => exact .brokenNumber (h.tail hmem) hb
  | brokenName h hb => exact .brokenName (h.tail hmem) hb

theorem textDefect_of_defectAt {n : Node} {a : Address} {e : NodeError} (h : n.DefectAt a e) :
    n.Complete → n.TextDefect e := by
  induction h with
  | emptyNumber => exact fun _ => .emptyNumber .refl
  | brokenNumber hb => exact fun _ => .brokenNumber .refl hb
  | brokenName hb => exact fun _ => .brokenName .refl hb
  | unknownKind | foreignShape => exact fun hn => nomatch hn
  | missingPart h => exact fun hn => nomatch hn.of_mem_parts (List.mem_of_getElem? h)
  | inPart h _ ih =>
    intro hn
    have hp := List.mem_of_getElem? h
    exact .of_part hp (ih (hn.of_mem_parts hp))

end Node

namespace Suite

theorem textDefect_of_defectAt {suite : Suite} {a : Address} {e : SuiteError}
    (h : suite.DefectAt a e) (hs : ∀ test ∈ suite, ∀ n ∈ test.statements, n.Complete) :
    suite.TextDefect e := by
  have hcomplete : ∀ {i j : Nat} {test : Test} {n : Node}, suite[i]? = some test →
      test.statements[j]? = some n → n.Complete := fun ht hn =>
    hs _ (List.mem_of_getElem? ht) _ (List.mem_of_getElem? hn)
  cases h with
  | emptyModule ht hn =>
    cases hcomplete ht hn with
    | importOf hne => exact absurd rfl hne
  | brokenModule ht hn hb => exact .brokenModule ht hn hb
  | emptyName ht hne => exact .emptyName ht hne
  | badName ht hne hid => exact .badName ht hne hid
  | missingStatement ht hn => exact nomatch hcomplete ht hn
  | inStatement ht hn hd =>
    exact .inStatement ht hn (Node.textDefect_of_defectAt hd (hcomplete ht hn))

/-- What can be wrong with a text: a line break, a name that is none, or nothing where a name or a
number has to be. -/
theorem TextDefect.cause_cases {suite : Suite} {d : SuiteError} (h : suite.TextDefect d) :
    (∃ kind field value, d.cause = .malformed kind field (.lineBreak value))
      ∨ (∃ kind field name, d.cause = .malformed kind field (.notIdentifier name))
      ∨ d.cause = .malformed (text "Test") (.named (text "name")) .missing
      ∨ d.cause = .malformed Kind.number.name (.named (text "value")) .missing := by
  cases h with
  | emptyName => exact .inr (.inr (.inl rfl))
  | badName => exact .inr (.inl ⟨_, _, _, rfl⟩)
  | brokenModule => exact .inl ⟨_, _, _, rfl⟩
  | inStatement _ _ h =>
    cases h with
    | emptyNumber => exact .inr (.inr (.inr rfl))
    | brokenNumber | brokenName => exact .inl ⟨_, _, _, rfl⟩

end Suite

namespace Tree

/-- A suite that was read from a document fails to be generated only for a text in it: never for a
kind, a shape, or something missing other than the name of a test or the value of a number literal.
-/
theorem generate_decoded_error {t : Tree} {suite : Suite} {options : Options} {e : GenerateError}
    (h : t.toSuite = .ok suite) (he : TestClass.generate suite options = .error e) :
    ∃ d, e = .suite d ∧ suite.TextDefect d
      ∧ (∀ kind, d.cause ≠ .unknownKind kind)
      ∧ (∀ kind field typeName, d.cause ≠ .malformed kind field (.foreignShape typeName))
      ∧ ∀ kind field, d.cause = .malformed kind field .missing →
          kind = text "Test" ∧ field = .named (text "name")
            ∨ kind = Kind.number.name ∧ field = .named (text "value") := by
  obtain ⟨d, hd, rfl⟩ := TestClass.generate_eq_error_iff.1 he
  obtain ⟨a, ha, -⟩ := (Suite.reports_fault options.settings suite).eq_some_iff.1 hd
  have hdefect := Suite.textDefect_of_defectAt ha (complete_of_toSuite h)
  refine ⟨d, rfl, hdefect, ?_⟩
  rcases hdefect.cause_cases with ⟨_, _, _, hc⟩ | ⟨_, _, _, hc⟩ | hc | hc <;> rw [hc]
  · simp
  · simp
  · refine ⟨by simp, by simp, fun kind field heq => ?_⟩
    cases heq
    exact .inl ⟨rfl, rfl⟩
  · refine ⟨by simp, by simp, fun kind field heq => ?_⟩
    cases heq
    exact .inr ⟨rfl, rfl⟩

/-- A document with one test, whose statement calls with a `shouldThrow` that has no exception and a
number literal that has no text. -/
def emptyNumeral : Tree :=
  .mapping [(text "tests", .list [.mapping [(text "name", .string (text "t")),
    (text "statements", .list [.mapping [(text "kind", .string (text "FunctionCall")),
      (text "receiver", .string (text "f")),
      (text "args", .list [.mapping [(text "kind", .string (text "ShouldThrow"))],
        .mapping [(text "kind", .string (text "NumLiteral")), (text "value", .number [])]])]])]])]

theorem generate_emptyNumeral_error : ∃ suite d, emptyNumeral.toSuite = .ok suite
    ∧ TestClass.generate suite {} = .error (.suite d) ∧ suite.TextDefect d := by
  have hsuite : emptyNumeral.toSuite
      = .ok [⟨text "t", [.call (.str (text "f")) [.shouldThrow .absent [], .number []]]⟩] := by
    cbv
  have hfails : TestClass.generate
      [⟨text "t", [.call (.str (text "f")) [.shouldThrow .absent [], .number []]]⟩] {}
        = .error (.suite (.inStatement (text "t") 0
          (.malformed Kind.number.name (.named (text "value")) .missing))) := rfl
  obtain ⟨d, hd, hdefect, -⟩ := generate_decoded_error hsuite hfails
  cases hd
  exact ⟨_, _, hsuite, hfails, hdefect⟩

end Tree

end SuiteScribe
