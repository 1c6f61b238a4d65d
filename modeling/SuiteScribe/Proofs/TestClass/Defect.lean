import SuiteScribe.Proofs.TestClass.FileScript
import SuiteScribe.Proofs.TestClass.Parts
import SuiteScribe.Proofs.TestClass.Using

/-!
# Defects of a suite

`Node.DefectAt` and `Suite.DefectAt` list what the generator refuses, each defect at the address
where it is met: the imports of all tests before the tests, in a test the name before the
statements, and in a node the parts in their order.  Nothing beneath a marker is a defect, nor is
an import that is a part of a statement.

Rendering a node and generating a suite report these defects (`reports_render`, `reports_fault`):
they fail exactly if there is one, and with the error of the one at the first address.
-/

namespace SuiteScribe

namespace Kind

theorem ofName?_name (k : Kind) : ofName? k.name = some k := by
  cases k <;> decide

/-- The kind of a name is the one that has the name. -/
theorem ofName?_eq_some_iff {t : Text} {k : Kind} : ofName? t = some k ↔ k.name = t := by
  constructor
  · intro h
    simpa using List.find?_some h
  · rintro rfl
    exact ofName?_name k

theorem ofName?_eq_none_iff {t : Text} : ofName? t = none ↔ ∀ k : Kind, k.name ≠ t := by
  constructor
  · rintro h k rfl
    rw [ofName?_name] at h
    cases h
  · intro h
    rcases hk : ofName? t with _ | k
    · rfl
    · exact absurd (ofName?_eq_some_iff.1 hk) (h k)

end Kind

/-- The node has a defect with that error at that address. -/
inductive Node.DefectAt : Node → Address → NodeError → Prop
  | emptyNumber :
    DefectAt (.number []) [] (.malformed Kind.number.name (.named (text "value")) .missing)
  | brokenNumber {value : Text} (h : value.hasLineBreak = true) :
    DefectAt (.number value) []
      (.malformed Kind.number.name (.named (text "value")) (.lineBreak value))
  | brokenName {value : Text} (h : value.hasLineBreak = true) :
    DefectAt (.str value) [] (.malformed Kind.str.name (.named (text "value")) (.lineBreak value))
  | unknownKind {kind typeName shown : Text} (h : ∀ k : Kind, k.name ≠ kind) :
    DefectAt (.foreign kind typeName shown) [] (.unknownKind kind)
  | foreignShape {k : Kind} {typeName shown : Text} (h : k.isPlaceholder = false) :
    DefectAt (.foreign k.name typeName shown) []
      (.malformed k.name .whole (.foreignShape typeName))
  | missingPart {n : Node} {i : Nat} {field : Field} (h : n.parts[i]? = some (field, .absent)) :
    DefectAt n [i] (.malformed n.kindName field .missing)
  | inPart {n m : Node} {i : Nat} {field : Field} {a : Address} {e : NodeError}
    (h : n.parts[i]? = some (field, m)) (hm : DefectAt m a e) : DefectAt n (i :: a) e

/-- The suite has a defect with that error at that address.  The imports are at 0 by test and
statement, the test with number `i` is at `i + 1`, and in a test the name is at 0 and the statement
with number `j` at `j + 1`. -/
inductive Suite.DefectAt (suite : Suite) : Address → SuiteError → Prop
  | emptyModule {i j : Nat} {test : Test} (ht : suite[i]? = some test)
    (hn : test.statements[j]? = some (.importOf [])) :
    DefectAt suite [0, i, j] (.inStatement test.name j
      (.malformed Kind.importOf.name (.named (text "module")) .missing))
  | brokenModule {i j : Nat} {test : Test} {name : Text} (ht : suite[i]? = some test)
    (hn : test.statements[j]? = some (.importOf name)) (h : name.hasLineBreak = true) :
    DefectAt suite [0, i, j] (.inStatement test.name j
      (.malformed Kind.importOf.name (.named (text "module")) (.lineBreak name)))
  | emptyName {i : Nat} {test : Test} (ht : suite[i]? = some test) (h : test.name = []) :
    DefectAt suite [i + 1, 0]
      (.inName i (.malformed (text "Test") (.named (text "name")) .missing))
  | badName {i : Nat} {test : Test} (ht : suite[i]? = some test) (hne : test.name ≠ [])
    (h : test.name.isIdentifier = false) :
    DefectAt suite [i + 1, 0]
      (.inName i (.malformed (text "Test") (.named (text "name")) (.notIdentifier test.name)))
  | missingStatement {i j : Nat} {test : Test} (ht : suite[i]? = some test)
    (hn : test.statements[j]? = some .absent) :
    DefectAt suite [i + 1, j + 1]
      (.inStatement test.name j (.malformed (text "statement") .whole .missing))
  | inStatement {i j : Nat} {test : Test} {n : Node} {a : Address} {e : NodeError}
    (ht : suite[i]? = some test) (hn : test.statements[j]? = some n) (hd : n.DefectAt a e) :
    DefectAt suite ((i + 1) :: (j + 1) :: a) (.inStatement test.name j e)

namespace Node

variable (modules : List Text)

theorem not_defectAt_absent {a : Address} {e : NodeError} : ¬ absent.DefectAt a e := by
  intro h
  cases h with
  | missingPart h => simp [parts] at h
  | inPart h => simp [parts] at h

/-- The defects of a part in its place. -/
def PartDefectAt (kind : Text) (p : Field × Node) (a : Address) (e : NodeError) : Prop :=
  (p.2 = absent ∧ a = [] ∧ e = .malformed kind p.1 .missing) ∨ p.2.DefectAt a e

/-- The defects of a node with parts are those of its parts, in their order. -/
theorem defectAt_iff_listed {n : Node} (h : n.isComposite = true) (a : Address) (e : NodeError) :
    n.DefectAt a e ↔ Listed (fun _ => PartDefectAt n.kindName) n.parts a e := by
  constructor
  · intro hd
    cases hd with
    | missingPart hp => exact ⟨_, hp, Or.inl ⟨rfl, rfl, rfl⟩⟩
    | inPart hp hm => exact ⟨_, hp, Or.inr hm⟩
    | _ => cases h
  · rcases a with _ | ⟨i, a⟩
    · exact fun hd => hd.elim
    · rintro ⟨⟨field, m⟩, hp, ⟨hm, rfl, rfl⟩ | hm⟩
      · simp only at hm
        subst hm
        exact .missingPart hp
      · exact .inPart hp hm

/-- A part is at fault if it is missing, or else as it is itself. -/
theorem reports_renderPart (kind : Text) (p : Field × Node)
    (h : p.2 ≠ absent → Reports (errorOf (p.2.render modules)) p.2.DefectAt) :
    Reports (errorOf (renderPart modules kind p)) (PartDefectAt kind p) := by
  obtain ⟨field, m⟩ := p
  by_cases hm : m = absent
  · subst hm
    refine ⟨[], Or.inl ⟨rfl, rfl, rfl⟩, ?_⟩
    rintro b d (⟨-, rfl, rfl⟩ | hd)
    · exact Or.inr ⟨rfl, rfl⟩
    · exact absurd hd not_defectAt_absent
  · have hr : renderPart modules kind (field, m) = m.render modules := by
      cases m <;> first | rfl | exact absurd rfl hm
    rw [hr]
    refine (h hm).congr fun a e => ?_
    simp [PartDefectAt, hm]

theorem defectAt_number (value : Text) (a : Address) (e : NodeError) :
    (number value).DefectAt a e
      ↔ a = [] ∧ errorOf ((number value).render modules) = some e := by
  rw [render]
  constructor
  · intro h
    cases h with
    | emptyNumber => exact ⟨rfl, rfl⟩
    | brokenNumber h =>
      have hne : value ≠ [] := by
        rintro rfl
        simp [Text.hasLineBreak] at h
      rw [if_neg hne, errorOf_requireOneLine]
      exact ⟨rfl, h, rfl⟩
    | missingPart h => simp [parts] at h
    | inPart h => simp [parts] at h
  · rintro ⟨rfl, h⟩
    split_ifs at h with hne
    · cases h
      subst hne
      exact .emptyNumber
    · obtain ⟨hb, rfl⟩ := errorOf_requireOneLine.1 h
      exact .brokenNumber hb

theorem defectAt_str (value : Text) (a : Address) (e : NodeError) :
    (str value).DefectAt a e ↔ a = [] ∧ errorOf ((str value).render modules) = some e := by
  rw [render, errorOf_requireOneLine]
  constructor
  · intro h
    cases h with
    | brokenName h => exact ⟨rfl, h, rfl⟩
    | missingPart h => simp [parts] at h
    | inPart h => simp [parts] at h
  · rintro ⟨rfl, h, rfl⟩
    exact .brokenName h

theorem defectAt_foreign (kind typeName shown : Text) (a : Address) (e : NodeError) :
    (foreign kind typeName shown).DefectAt a e
      ↔ a = [] ∧ errorOf ((foreign kind typeName shown).render modules) = some e := by
  rw [render, renderForeign]
  constructor
  · intro h
    cases h with
    | unknownKind h =>
      rw [Kind.ofName?_eq_none_iff.2 h]
      exact ⟨rfl, rfl⟩
    | foreignShape h =>
      refine ⟨rfl, ?_⟩
      simp only [Kind.ofName?_name, h]
      rfl
    | missingPart h => simp [parts] at h
    | inPart h => simp [parts] at h
  · rintro ⟨rfl, h⟩
    split at h
    · rename_i hk
      cases h
      exact .unknownKind (Kind.ofName?_eq_none_iff.1 hk)
    · rename_i k hk
      obtain rfl := Kind.ofName?_eq_some_iff.1 hk
      split_ifs at h with hp
      · cases h
      · cases h
        exact .foreignShape (Bool.eq_false_iff.2 hp)

theorem defectAt_of_not_isComposite {n : Node} (hn : n ≠ absent) (h : n.isComposite = false)
    (a : Address) (e : NodeError) :
    n.DefectAt a e ↔ a = [] ∧ errorOf (n.render modules) = some e := by
  cases n with
  | absent => exact absurd rfl hn
  | number value => exact defectAt_number modules value a e
  | str value => exact defectAt_str modules value a e
  | foreign kind typeName shown => exact defectAt_foreign modules kind typeName shown a e
  | assignment | assertion | call | member | sequence => cases h
  | _ =>
    constructor
    · intro hd
      cases hd with
      | missingPart h => simp [parts] at h
      | inPart h => simp [parts] at h
    · rintro ⟨-, hd⟩
      simp [render, errorOf] at hd

/-- Rendering a node reports its defects. -/
theorem reports_render (n : Node) (hn : n ≠ absent) :
    Reports (errorOf (n.render modules)) n.DefectAt := by
  induction n using induction_parts with
  | h n ih =>
    by_cases h : n.isComposite = true
    · rw [errorOf_render_of_isComposite modules h]
      refine (reports_firstFault 0 n.parts fun j p hp => ?_).congr (defectAt_iff_listed h)
      exact reports_renderPart modules n.kindName p (ih p (List.mem_of_getElem? hp))
    · exact (reports_whole _).congr
        (defectAt_of_not_isComposite modules hn (Bool.eq_false_iff.2 h))

/-- The defects of a statement, which has to be there. -/
def StatementDefectAt (n : Node) (a : Address) (e : NodeError) : Prop :=
  (n = absent ∧ a = [] ∧ e = .malformed (text "statement") .whole .missing) ∨ n.DefectAt a e

theorem reports_statement (n : Node) :
    Reports (errorOf (n.statement modules)) n.StatementDefectAt := by
  by_cases hn : n = absent
  · subst hn
    refine ⟨[], Or.inl ⟨rfl, rfl, rfl⟩, ?_⟩
    rintro b d (⟨-, rfl, rfl⟩ | hd)
    · exact Or.inr ⟨rfl, rfl⟩
    · exact absurd hd not_defectAt_absent
  · have hs : errorOf (n.statement modules) = errorOf (n.render modules) := by
      rw [statement_of_ne_absent modules hn]
      rcases n.render modules with e | line <;> rfl
    rw [hs]
    refine (reports_render modules n hn).congr fun a e => ?_
    simp [StatementDefectAt, hn]

end Node

namespace TestClass

/-- The defects of the name of the test with the number `i`. -/
def NameDefectAt (i : Nat) (name : Text) (a : Address) (e : SuiteError) : Prop :=
  a = [] ∧ ∃ reason, e = .inName i (.malformed (text "Test") (.named (text "name")) reason)
    ∧ ((name = [] ∧ reason = .missing)
      ∨ (name ≠ [] ∧ name.isIdentifier = false ∧ reason = .notIdentifier name))

theorem reports_checkName (i : Nat) (name : Text) :
    Reports (errorOf (checkName i name)) (NameDefectAt i name) := by
  refine (reports_whole _).congr fun a e => and_congr_right fun _ => ?_
  rw [errorOf_eq_some, checkName]
  constructor
  · rintro ⟨reason, rfl, ⟨hne, rfl⟩ | ⟨hne, hid, rfl⟩⟩
    · rw [if_pos hne]
    · rw [if_neg hne, if_neg (Bool.eq_false_iff.1 hid)]
  · intro h
    split_ifs at h with hne hid
    · cases h
      exact ⟨_, rfl, Or.inl ⟨hne, rfl⟩⟩
    · cases h
      exact ⟨_, rfl, Or.inr ⟨hne, Bool.eq_false_iff.2 hid, rfl⟩⟩

theorem reports_statements (modules : List Text) (test : Test) :
    Reports
      (firstFault
        (fun j n => (errorOf (n.statement modules)).map (SuiteError.inStatement test.name j))
        0 test.statements)
      (Listed
        (fun j n a e => ∃ d, n.StatementDefectAt a d ∧ e = SuiteError.inStatement test.name j d)
        test.statements) :=
  reports_firstFault 0 test.statements fun j n _ => by
    rw [Nat.zero_add]
    exact reports_map (n.reports_statement modules) _

end TestClass

namespace Suite

/-- The defects of the imports, by test and statement. -/
def ImportDefectAt : Suite → Address → SuiteError → Prop :=
  Listed fun _ test =>
    Listed (fun j n a e => a = [] ∧ Using.importFault test.name j n = some e) test.statements

/-- The defects of the tests, the imports apart. -/
def TestDefectAt : Suite → Address → SuiteError → Prop :=
  Listed fun i test => Headed (TestClass.NameDefectAt i test.name)
    (Listed
      (fun j n a e => ∃ d, n.StatementDefectAt a d ∧ e = SuiteError.inStatement test.name j d)
      test.statements)

theorem reports_imported (suite : Suite) :
    Reports (errorOf (Using.imported suite)) (ImportDefectAt suite) := by
  rw [Using.errorOf_imported, Using.importsFault]
  refine reports_firstFault 0 suite fun i test _ => ?_
  refine reports_firstFault 0 test.statements fun j n _ => ?_
  rw [Nat.zero_add]
  exact reports_whole _

theorem reports_tests (s : Settings) (modules : List Text) (suite : Suite) :
    Reports (firstFault (fun i test => (TestClass.methodScript s modules i test).fault) 0 suite)
      (TestDefectAt suite) := by
  refine reports_firstFault 0 suite fun i test _ => ?_
  rw [Nat.zero_add, TestClass.fault_methodScript]
  exact reports_or (TestClass.reports_checkName i test.name)
    (TestClass.reports_statements modules test) fun _ he => he

/-- A suite is at fault for its imports first, and then for its tests. -/
theorem defectAt_iff (suite : Suite) (a : Address) (e : SuiteError) :
    DefectAt suite a e ↔ Headed (ImportDefectAt suite) (TestDefectAt suite) a e := by
  constructor
  · intro h
    cases h with
    | emptyModule ht hn =>
      exact ⟨_, ht, _, hn, rfl, Using.importFault_eq_some_iff.2 ⟨[], rfl, Or.inl ⟨rfl, rfl⟩⟩⟩
    | brokenModule ht hn hb =>
      exact ⟨_, ht, _, hn, rfl, Using.importFault_eq_some_iff.2 ⟨_, rfl, Or.inr ⟨hb, rfl⟩⟩⟩
    | emptyName ht hne => exact ⟨_, ht, rfl, _, rfl, Or.inl ⟨hne, rfl⟩⟩
    | badName ht hne hid => exact ⟨_, ht, rfl, _, rfl, Or.inr ⟨hne, hid, rfl⟩⟩
    | missingStatement ht hn => exact ⟨_, ht, _, hn, _, Or.inl ⟨rfl, rfl, rfl⟩, rfl⟩
    | inStatement ht hn hd => exact ⟨_, ht, _, hn, _, Or.inr hd, rfl⟩
  · intro h
    rcases a with _ | ⟨_ | i, a⟩
    · exact h.elim
    · rcases a with _ | ⟨i, _ | ⟨j, a⟩⟩
      · exact h.elim
      · obtain ⟨test, -, h⟩ := h
        exact h.elim
      · obtain ⟨test, ht, n, hn, rfl, hf⟩ := h
        obtain ⟨name, rfl, ⟨rfl, rfl⟩ | ⟨hb, rfl⟩⟩ := Using.importFault_eq_some_iff.1 hf
        · exact .emptyModule ht hn
        · exact .brokenModule ht hn hb
    · obtain ⟨test, ht, h⟩ := h
      rcases a with _ | ⟨_ | j, a⟩
      · exact h.elim
      · obtain ⟨rfl, reason, rfl, ⟨hne, rfl⟩ | ⟨hne, hid, rfl⟩⟩ := h
        · exact .emptyName ht hne
        · exact .badName ht hne hid
      · obtain ⟨n, hn, d, ⟨rfl, rfl, rfl⟩ | hd, rfl⟩ := h
        · exact .missingStatement ht hn
        · exact .inStatement ht hn hd

theorem reports_fault (s : Settings) (suite : Suite) :
    Reports (TestClass.fileScript s suite).fault (DefectAt suite) := by
  have himports := reports_imported suite
  rw [TestClass.fault_fileScript]
  rcases hi : Using.imported suite with e | modules <;> rw [hi] at himports
  · exact (reports_or himports (reports_tests s [] suite) fun _ he => he).congr
      (defectAt_iff suite)
  · exact (reports_or himports (reports_tests s _ suite) fun _ he => he).congr
      (defectAt_iff suite)

end Suite

namespace TestClass

/-- Generating fails exactly if writing the file is stopped by a fault. -/
theorem generate_eq_error_iff {suite : Suite} {options : Options} {e : GenerateError} :
    generate suite options = .error e
      ↔ ∃ d, (fileScript options.settings suite).fault = some d ∧ e = .suite d := by
  rw [generate_eq]
  rcases (fileScript options.settings suite).fault with _ | d
  · simp
  · simp [eq_comm]

/-- A suite fails to be generated exactly if it has a defect, and it fails with the error of the
first. -/
theorem generate_error_iff_defect (suite : Suite) (options : Options) :
    ((∃ e, generate suite options = .error e) ↔ ∃ a d, Suite.DefectAt suite a d)
    ∧ ∀ e, generate suite options = .error e
        ↔ ∃ d, IsFirst (Suite.DefectAt suite) d ∧ e = .suite d := by
  have hreports := Suite.reports_fault options.settings suite
  refine ⟨?_, fun e => ?_⟩
  · simp only [generate_eq_error_iff]
    constructor
    · rintro ⟨-, d, hd, -⟩
      obtain ⟨a, ha, -⟩ := hreports.eq_some_iff.1 hd
      exact ⟨a, d, ha⟩
    · rintro ⟨a, d, ha⟩
      rcases hf : (fileScript options.settings suite).fault with _ | d'
      · exact absurd ha (hreports.eq_none_iff.1 hf a d)
      · exact ⟨_, d', rfl, rfl⟩
  · simp only [generate_eq_error_iff, hreports.eq_some_iff]

end TestClass

end SuiteScribe
