import SuiteScribe.Proofs.Lists
import SuiteScribe.Proofs.TestClass.Defect
import SuiteScribe.Proofs.TestClass.Layout

/-!
# Lines that stay lines

A text is either quoted or checked before it goes into a line of code, with one exception: inside a
node that is kept as a marker the number literals and the foreign nodes are spelled as they are.  So
the line of a statement has a line break exactly if a marker holds one of these with a line break
(`hasLineBreak_statement_iff`), and unless that happens the file can be cut at its line breaks into
the lines that were written (`splitLines_iff_not_keepsBrokenText`).
-/

namespace SuiteScribe

namespace Node

/-- Whether a node is kept as a marker, with all that stands in it. -/
def isMarked : Node → Bool
  | ifPyd _ | ifPynih _ | shouldThrow _ _ => true
  | foreign kind _ _ => (Kind.ofName? kind).any Kind.isPlaceholder
  | _ => false

/-- The text that a node is spelled with as it is: that of a number literal, and all that a foreign
node shows. -/
def bare? : Node → Option Text
  | number value => some value
  | foreign _ _ shown => some shown
  | _ => none

/-- A bare text with a line break stands in a marker of the node's line. -/
def KeepsBrokenText (n : Node) : Prop :=
  ∃ marked leaf bare, Shown marked n ∧ marked.isMarked = true ∧ Occurs leaf marked
    ∧ leaf.bare? = some bare ∧ bare.hasLineBreak = true

section Spell

theorem spellAll_eq_map (ns : List Node) : spellAll ns = ns.map spell := by
  induction ns with
  | nil => rfl
  | cons n ns ih => rw [spellAll, ih, List.map_cons]

theorem hasLineBreak_bracket (ns : List Node) :
    (bracket (spellAll ns)).hasLineBreak = ns.any fun n => n.spell.hasLineBreak := by
  simp [bracket, Text.hasLineBreak_intercalate (show (text ", ").hasLineBreak = false by decide),
    spellAll_eq_map, endsLine, Function.comp_def]

theorem children_of_bare? {n : Node} {bare : Text} (h : n.bare? = some bare) :
    n.children = [] := by
  cases n with
  | number | foreign => rfl
  | _ => cases h

/-- A bare text breaks the spelling if it has a line break. -/
theorem hasLineBreak_spell_of_bare? {n : Node} {bare : Text} (h : n.bare? = some bare) :
    n.spell.hasLineBreak = bare.hasLineBreak := by
  cases n with
  | number value =>
    cases h
    simp [spell, endsLine]
  | foreign =>
    cases h
    rw [spell]
  | _ => cases h

/-- Apart from bare texts a spelling is broken by its children alone. -/
theorem hasLineBreak_spell {n : Node} (h : n.bare? = none) :
    n.spell.hasLineBreak = n.children.any fun c => c.spell.hasLineBreak := by
  cases n with
  | number | foreign => cases h
  | int value => simp [spell, children, Text.hasLineBreak_ofInt]
  | _ => simp [spell, children, hasLineBreak_bracket, endsLine]

/-- A spelling is broken exactly by a bare text in it, however deep it stands. -/
theorem hasLineBreak_spell_iff (n : Node) : n.spell.hasLineBreak = true
    ↔ ∃ leaf bare, Occurs leaf n ∧ leaf.bare? = some bare ∧ bare.hasLineBreak = true := by
  induction n using induction_children with
  | h n ih =>
    rcases hn : n.bare? with _ | bare
    · rw [hasLineBreak_spell hn, List.any_eq_true]
      constructor
      · rintro ⟨c, hc, h⟩
        obtain ⟨leaf, bare, hocc, hleaf⟩ := (ih c hc).1 h
        exact ⟨leaf, bare, occurs_iff.2 (.inr ⟨c, hc, hocc⟩), hleaf⟩
      · rintro ⟨leaf, bare, hocc, hbare, hbreak⟩
        rcases occurs_iff.1 hocc with rfl | ⟨c, hc, hocc⟩
        · cases hn.symm.trans hbare
        · exact ⟨c, hc, (ih c hc).2 ⟨leaf, bare, hocc, hbare, hbreak⟩⟩
    · rw [hasLineBreak_spell_of_bare? hn]
      refine ⟨fun h => ⟨n, bare, .refl, hn, h⟩, ?_⟩
      rintro ⟨leaf, bare', hocc, hbare, h⟩
      rcases occurs_iff.1 hocc with rfl | ⟨c, hc, -⟩
      · cases hn.symm.trans hbare
        exact h
      · rw [children_of_bare? hn] at hc
        cases hc

end Spell

section Render

variable (modules : List Text)

/-- The node's marker is broken if it is one, or that of a part is. -/
theorem keepsBrokenText_iff {n : Node} : n.KeepsBrokenText
    ↔ n.isMarked = true ∧ n.spell.hasLineBreak = true
      ∨ ∃ p ∈ n.parts, p.2.KeepsBrokenText := by
  constructor
  · rintro ⟨marked, leaf, bare, hshown, hm, hleaf⟩
    rcases (Relation.ReflTransGen.cases_tail_iff _ _ _).1 hshown with rfl | ⟨c, hc, hmem⟩
    · exact .inl ⟨hm, (hasLineBreak_spell_iff _).2 ⟨leaf, bare, hleaf⟩⟩
    · obtain ⟨p, hp, rfl⟩ := List.mem_map.1 hmem
      exact .inr ⟨p, hp, marked, leaf, bare, hc, hm, hleaf⟩
  · rintro (⟨hm, hs⟩ | ⟨p, hp, marked, leaf, bare, hshown, hm, hleaf⟩)
    · obtain ⟨leaf, bare, hleaf⟩ := (hasLineBreak_spell_iff n).1 hs
      exact ⟨n, leaf, bare, .refl, hm, hleaf⟩
    · exact ⟨marked, leaf, bare, hshown.tail (List.mem_map_of_mem hp), hm, hleaf⟩

theorem isMarked_of_isComposite {n : Node} (h : n.isComposite = true) : n.isMarked = false := by
  cases n with
  | assignment | assertion | call | member | sequence => rfl
  | _ => cases h

theorem hasLineBreak_ownerName (owner : Node) (t : Text) :
    (ownerName modules owner t).hasLineBreak = t.hasLineBreak := by
  unfold ownerName
  split
  · split_ifs
    · exact Text.hasLineBreak_capitalize t
    · rfl
  · rfl

/-- The code of a node with parts is broken exactly by that of a part. -/
theorem hasLineBreak_assemble {n : Node} (h : n.isComposite = true) {xs : List Text}
    (hl : n.parts.length = xs.length) :
    (assemble modules n xs).hasLineBreak = xs.any Text.hasLineBreak := by
  have hcomma : (text ", ").hasLineBreak = false := by decide
  cases n with
  | assignment | assertion | member =>
    obtain ⟨x, y, rfl⟩ := List.length_eq_two.1 hl.symm
    simp [assemble, hasLineBreak_ownerName, endsLine, Bool.or_comm]
  | call receiver args =>
    rcases xs with _ | ⟨x, xs⟩
    · cases hl
    · simp [assemble, Text.hasLineBreak_intercalate hcomma, endsLine]
  | sequence => simp [assemble, Text.hasLineBreak_intercalate hcomma, endsLine]
  | _ => cases h

theorem renderPart_ok {kind : Text} {p : Field × Node} {t : Text}
    (h : renderPart modules kind p = .ok t) : p.2.render modules = .ok t := by
  unfold renderPart at h
  split at h
  · cases h
  · exact h

theorem hasLineBreak_marker (k : Kind) (spelled : Text) :
    (marker k.name spelled).hasLineBreak = spelled.hasLineBreak := by
  have hk : k.name.hasLineBreak = false := by cases k <;> decide
  simp [marker, hk, endsLine]

theorem hasLineBreak_of_not_isComposite {n : Node} (hc : n.isComposite = false) {t : Text}
    (h : n.render modules = .ok t) :
    t.hasLineBreak = (n.isMarked && n.spell.hasLineBreak) := by
  cases n with
  | absent => simp [render] at h
  | importOf | string | bytes =>
    simp only [render, Except.ok.injEq] at h
    subst h
    simp [isMarked, endsLine]
  | int value =>
    simp only [render, Except.ok.injEq] at h
    subst h
    exact Text.hasLineBreak_ofInt value
  | ifPyd | ifPynih | shouldThrow =>
    simp only [render, Except.ok.injEq] at h
    subst h
    exact hasLineBreak_marker _ _
  | number value =>
    simp only [render] at h
    split_ifs at h
    obtain ⟨rfl, hv⟩ := requireOneLine_eq_ok_iff.1 h
    exact hv
  | str value =>
    obtain ⟨rfl, hv⟩ := requireOneLine_eq_ok_iff.1 h
    exact hv
  | foreign kind typeName shown =>
    simp only [render, renderForeign] at h
    rcases hk : Kind.ofName? kind with _ | k <;> rw [hk] at h
    · cases h
    · simp only at h
      split_ifs at h with hp
      cases h
      simp only [isMarked, hk, Option.any_some, hp, Bool.true_and, spell]
      rw [← Kind.ofName?_eq_some_iff.1 hk, hasLineBreak_marker]
  | assignment | assertion | call | member | sequence => cases hc

/-- A line of code has a line break exactly if a marker in it holds a bare text with one. -/
theorem hasLineBreak_render_iff (n : Node) : ∀ {t : Text}, n.render modules = .ok t →
    (t.hasLineBreak = true ↔ n.KeepsBrokenText) := by
  induction n using induction_parts with
  | h n ih =>
    intro t h
    rw [keepsBrokenText_iff]
    by_cases hc : n.isComposite = true
    · rw [render_of_isComposite modules hc] at h
      rcases hxs : n.parts.mapM (renderPart modules n.kindName) with e | xs <;> rw [hxs] at h <;>
        cases h
      have hall := mapM_ok_iff.1 hxs
      have hparts := exists_mem_congr_of_forall₂ hall fun p hp x hx => ih p hp (renderPart_ok _ hx)
      rw [hasLineBreak_assemble modules hc hall.length_eq, isMarked_of_isComposite hc,
        List.any_eq_true, hparts]
      simp only [Bool.false_eq_true, false_and, false_or]
    · have hc := Bool.eq_false_iff.2 hc
      rw [hasLineBreak_of_not_isComposite modules hc h, parts_of_not_isComposite hc]
      simp

theorem hasLineBreak_statement_iff {n : Node} {t : Text} (h : n.statement modules = .ok t) :
    t.hasLineBreak = true ↔ n.KeepsBrokenText := by
  obtain ⟨code, hcode⟩ := render_ok_of_statement_ok h
  rw [statement_of_render_ok hcode] at h
  cases h
  rw [← hasLineBreak_render_iff modules n hcode, comment?, hcode]
  simp only
  split_ifs with hnil
  · simp [hnil]
  · simp [endsLine]

end Render

end Node

/-- No text of the options has a line break. -/
structure Options.OneLine (o : Options) : Prop where
  spaceName : o.spaceName.hasLineBreak = false
  className : o.className.hasLineBreak = false
  framework : o.framework.hasLineBreak = false
  indent : o.indent.hasLineBreak = false

/-- No text that the generator puts around the tests has a line break. -/
structure Settings.OneLine (s : Settings) : Prop where
  spaceName : s.spaceName.hasLineBreak = false
  className : s.className.hasLineBreak = false
  framework : s.framework.hasLineBreak = false
  indent : s.indent.hasLineBreak = false

theorem Options.hasLineBreak_orElse {t default : Text} (ht : t.hasLineBreak = false)
    (hd : default.hasLineBreak = false) : (orElse t default).hasLineBreak = false := by
  unfold orElse
  split_ifs
  · exact hd
  · exact ht

theorem Options.OneLine.settings {o : Options} (h : o.OneLine) : o.settings.OneLine where
  spaceName := hasLineBreak_orElse h.spaceName (by decide)
  className := hasLineBreak_orElse h.className (by decide)
  framework := hasLineBreak_orElse h.framework (by decide)
  indent := hasLineBreak_orElse h.indent (by decide)

namespace Layout

variable {s : Settings}

theorem hasLineBreak_indented {unit : Text} (h : unit.hasLineBreak = false) (depth : Nat)
    (t : Text) : (indented unit depth t).hasLineBreak = t.hasLineBreak := by
  have hflat : Text.hasLineBreak (List.replicate depth unit).flatten = false := by
    induction depth with
    | zero => rfl
    | succ depth ih =>
      rw [List.replicate_succ, List.flatten_cons, Text.hasLineBreak_append, h, ih]
      rfl
  rw [indented, Text.hasLineBreak_append, hflat, Bool.false_or]

theorem forall_mem_method_iff (hs : s.OneLine) {m : Method} (hm : m.name.hasLineBreak = false) :
    (∀ l ∈ method s m, l.hasLineBreak = false) ↔ ∀ l ∈ m.body, l.hasLineBreak = false := by
  simp [method, hasLineBreak_indented hs.indent, hs.framework, hm, endsLine, or_imp, forall_and]

/-- Where settings and names are on one line each, only the bodies of methods can break a line. -/
theorem forall_mem_file_iff (hs : s.OneLine) {namespaces : List Text} {methods : List Method}
    (hn : ∀ n ∈ namespaces, n.hasLineBreak = false)
    (hm : ∀ m ∈ methods, m.name.hasLineBreak = false) :
    (∀ l ∈ file s namespaces methods, l.hasLineBreak = false)
      ↔ ∀ m ∈ methods, ∀ l ∈ m.body, l.hasLineBreak = false := by
  have hmethods : (∀ l ∈ methods.flatMap (method s), l.hasLineBreak = false)
      ↔ ∀ m ∈ methods, ∀ l ∈ m.body, l.hasLineBreak = false := by
    rw [List.forall_mem_flatMap]
    exact forall₂_congr fun m hmem => forall_mem_method_iff hs (hm m hmem)
  have hwarning : TestClass.warning.hasLineBreak = false := by decide
  simp only [file, List.forall_mem_append, hmethods]
  simpa [hasLineBreak_indented hs.indent, hs.spaceName, hs.className, hs.framework, hwarning,
    endsLine] using fun _ => hn

end Layout

namespace TestClass

theorem forall_mem_body_iff {modules : List Text} {test : Test} (h : Passes modules test) :
    (∀ l ∈ (Method.ofTest modules test).body, l.hasLineBreak = false)
      ↔ ∀ n ∈ test.statements, ¬ n.KeepsBrokenText := by
  have hline : ∀ n ∈ test.statements, (∀ l, n.comment? modules = some l → l.hasLineBreak = false)
      ↔ ¬ n.KeepsBrokenText := by
    intro n hn
    obtain ⟨code, hcode⟩ := h.2 n hn
    rw [← Node.hasLineBreak_statement_iff modules (Node.statement_of_render_ok hcode)]
    rcases n.comment? modules with _ | line <;> simp
  simp only [Method.ofTest, List.mem_filterMap, forall_exists_index, and_imp]
  rw [forall_comm]
  exact ⟨fun h n hn => (hline n hn).1 fun l => h n l hn, fun h n l hn => (hline n hn).2 (h n hn) l⟩

theorem splitLines_iff_not_keepsBrokenText {suite : Suite} {options : Options}
    {modules : List Text} (ho : options.OneLine) (hi : Using.imported suite = .ok modules)
    (hp : ∀ test ∈ suite, Passes (Using.kept modules options.settings.excluded) test) :
    (Text.ofLines (Layout.ofSuite options.settings modules suite)).splitLines
        = Layout.ofSuite options.settings modules suite ++ [[]]
      ↔ ∀ test ∈ suite, ∀ n ∈ test.statements, ¬ n.KeepsBrokenText := by
  have hs := ho.settings
  have hnames : ∀ m ∈ suite.map (Method.ofTest (Using.kept modules options.settings.excluded)),
      m.name.hasLineBreak = false := by
    rw [List.forall_mem_map]
    intro test ht
    exact Text.hasLineBreak_of_isIdentifier (hp test ht).1
  have hspaces : ∀ n ∈ Using.namespaces modules options.settings.excluded
      options.settings.framework, n.hasLineBreak = false := by
    intro n hn
    rcases Using.mem_namespaces.1 hn with rfl | ⟨m, hm, rfl⟩
    · exact hs.framework
    · rw [Text.hasLineBreak_capitalize]
      exact ((Using.imported_eq_ok_iff.1 hi).2 m (Using.mem_kept.1 hm).1).2
  rw [Text.splitLines_ofLines_iff, Layout.ofSuite, Layout.forall_mem_file_iff hs hspaces hnames,
    List.forall_mem_map]
  exact forall₂_congr fun test ht => forall_mem_body_iff (hp test ht)

/-- The line of a statement has a line break exactly if one of its markers holds a bare text with
one, be it a number literal or a foreign node.  A generated file, with options on one line each, can
be cut at its line breaks into the lines that were written, among which the lines of the methods are
comments, exactly if no statement has such a marker. -/
theorem line_break_iff_keepsBrokenText (modules : List Text) (n : Node) (suite : Suite)
    (options : Options) :
    (∀ t, n.statement modules = .ok t → (t.hasLineBreak = true ↔ n.KeepsBrokenText))
    ∧ ∀ out, options.OneLine → generate suite options = .ok out →
        ∃ imports lines, ∃ methods : List Method,
          Using.imported suite = .ok imports
          ∧ lines = Layout.file options.settings (Using.namespaces imports
              options.settings.excluded options.settings.framework) methods
          ∧ methods.map Method.name = suite.map Test.name
          ∧ (∀ m ∈ methods, ∀ l ∈ m.body, text "// " <+: l)
          ∧ (stream .endless suite options).1.accepted = lines.map (· ++ text "\n")
          ∧ (out.splitLines = lines ++ [[]]
              ↔ ∀ test ∈ suite, ∀ n ∈ test.statements, ¬ n.KeepsBrokenText) := by
  refine ⟨fun t h => Node.hasLineBreak_statement_iff modules h, ?_⟩
  intro out ho h
  obtain ⟨imports, hi, hp, rfl⟩ := (generate_eq_ok_iff suite options out).1 h
  refine ⟨imports, _, _, hi, rfl, ?_, ?_, ?_, splitLines_iff_not_keepsBrokenText ho hi hp⟩
  · simp [Method.ofTest]
  · rw [List.forall_mem_map]
    intro test _ l hl
    obtain ⟨n, -, hn⟩ := List.mem_filterMap.1 hl
    exact Node.comment?_prefix _ hn
  · rw [accepted_stream_endless, texts_of_passes hi hp]
    rfl

theorem marker_splits_line :
    (Node.ifPyd [.number (text "1\n2")]).statement []
        = .ok (text "// // TODO: IfPyd IfPyd(body=[NumLiteral(value=1\n2)]);")
      ∧ (text "// // TODO: IfPyd IfPyd(body=[NumLiteral(value=1\n2)]);").hasLineBreak = true :=
  ⟨rfl, by decide⟩

end TestClass

end SuiteScribe
