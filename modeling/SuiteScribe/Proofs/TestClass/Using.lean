import SuiteScribe.Proofs.FirstFault
import SuiteScribe.Proofs.Text.Ascending
import SuiteScribe.TestClass.Using

/-!
# Imports and namespaces

The imports of a suite are refused for the first of them that has no name on one line, and otherwise
they are the modules that the statements name (`imported_eq`).  The namespaces of a file are the
test framework and the modules that are kept, with their names capitalized (`mem_namespaces`).
-/

namespace SuiteScribe

theorem errorOf_requireOneLine {kind : Kind} {field value : Text} {e : NodeError} :
    errorOf (requireOneLine kind field value) = some e
      ↔ value.hasLineBreak = true ∧ e = .malformed kind.name (.named field) (.lineBreak value) := by
  unfold requireOneLine
  split_ifs with h
  · simp [errorOf, h, eq_comm]
  · simp [errorOf, h]

theorem requireOneLine_eq_ok_iff {kind : Kind} {field value t : Text} :
    requireOneLine kind field value = .ok t ↔ t = value ∧ value.hasLineBreak = false := by
  unfold requireOneLine
  split_ifs with h
  · simp [h]
  · simp [h, eq_comm]

/-- The module that a statement imports. -/
def Node.importName? : Node → Option Text
  | importOf name => some name
  | _ => none

/-- The modules that the statements of a suite name, as often as they do. -/
def Suite.importNames (suite : Suite) : List Text :=
  suite.flatMap fun test => test.statements.filterMap Node.importName?

namespace Using

/-- What is wrong with a statement as an import. -/
def importFault (test : Text) (i : Nat) : Node → Option SuiteError
  | .importOf name =>
    if name = [] then
      some (.inStatement test i (.malformed Kind.importOf.name (.named (text "module")) .missing))
    else (errorOf (requireOneLine .importOf (text "module") name)).map (.inStatement test i)
  | _ => none

/-- What is wrong with the imports of a suite. -/
def importsFault (suite : Suite) : Option SuiteError :=
  firstFault (fun _ test => firstFault (importFault test.name) 0 test.statements) 0 suite

/-- An import is at fault for an empty name or one with a line break. -/
theorem importFault_eq_some_iff {test : Text} {j : Nat} {n : Node} {e : SuiteError} :
    importFault test j n = some e ↔ ∃ name, n = .importOf name
      ∧ ((name = [] ∧ e = .inStatement test j
          (.malformed Kind.importOf.name (.named (text "module")) .missing))
        ∨ (name.hasLineBreak = true ∧ e = .inStatement test j
          (.malformed Kind.importOf.name (.named (text "module")) (.lineBreak name)))) := by
  cases n with
  | importOf name =>
    simp only [importFault, Node.importOf.injEq, exists_eq_left']
    split_ifs with hne
    · subst hne
      simp [Text.hasLineBreak, eq_comm]
    · simp only [Option.map_eq_some_iff, errorOf_requireOneLine, hne, false_and, false_or]
      constructor
      · rintro ⟨d, ⟨hb, rfl⟩, rfl⟩
        exact ⟨hb, rfl⟩
      · rintro ⟨hb, rfl⟩
        exact ⟨_, ⟨hb, rfl⟩, rfl⟩
  | _ => simp [importFault]

theorem importFault_eq_none_iff {test : Text} {j : Nat} {n : Node} :
    importFault test j n = none
      ↔ ∀ m, n.importName? = some m → m ≠ [] ∧ m.hasLineBreak = false := by
  cases n with
  | importOf name =>
    simp only [importFault, Node.importName?, Option.some.injEq, forall_eq', requireOneLine]
    split_ifs with hne hb
    · simp [hne]
    · simp [errorOf, hb]
    · simp [errorOf, hne, hb]
  | _ => simp [importFault, Node.importName?]

theorem importsFault_eq_none_iff {suite : Suite} :
    importsFault suite = none
      ↔ ∀ m ∈ suite.importNames, m ≠ [] ∧ m.hasLineBreak = false := by
  simp only [importsFault, firstFault_eq_none, importFault_eq_none_iff, Suite.importNames,
    List.mem_flatMap, List.mem_filterMap]
  constructor
  · rintro h m ⟨test, ht, n, hn, hm⟩
    obtain ⟨i, hi⟩ := List.mem_iff_getElem?.1 ht
    obtain ⟨j, hj⟩ := List.mem_iff_getElem?.1 hn
    exact h i test hi j n hj m hm
  · intro h i test hi j n hj m hm
    exact h m ⟨test, List.mem_of_getElem? hi, n, List.mem_of_getElem? hj, hm⟩

theorem ofStatements_eq (test : Text) (i : Nat) (ns : List Node) :
    ofStatements test i ns = match firstFault (importFault test) i ns with
      | some e => .error e
      | none => .ok (ns.filterMap Node.importName?) := by
  induction ns generalizing i with
  | nil => rfl
  | cons n ns ih =>
    rw [firstFault]
    cases n with
    | importOf name =>
      simp only [ofStatements, importFault, ih (i + 1), requireOneLine]
      split_ifs
      · rfl
      · rfl
      · rcases hf : firstFault (importFault test) (i + 1) ns <;> rfl
    | _ => exact ih (i + 1)

theorem ofTests_eq (i : Nat) (suite : Suite) :
    ofTests suite = match firstFault
        (fun _ test => firstFault (importFault test.name) 0 test.statements) i suite with
      | some e => .error e
      | none => .ok suite.importNames := by
  induction suite generalizing i with
  | nil => rfl
  | cons test suite ih =>
    rw [firstFault, ofTests, ofStatements_eq, ih (i + 1)]
    rcases firstFault (importFault test.name) 0 test.statements with _ | e
    · simp only
      rcases firstFault _ (i + 1) suite <;> rfl
    · rfl

theorem imported_eq (suite : Suite) : imported suite = match importsFault suite with
      | some e => .error e
      | none => .ok (Text.ascending suite.importNames) := by
  rw [imported, ofTests_eq 0, importsFault]
  rcases firstFault _ 0 suite <;> rfl

theorem errorOf_imported (suite : Suite) : errorOf (imported suite) = importsFault suite := by
  rw [imported_eq]
  rcases importsFault suite <;> rfl

/-- The modules of a suite are the names of its imports in order, if none is at fault. -/
theorem imported_eq_ok_iff {suite : Suite} {modules : List Text} :
    imported suite = .ok modules ↔ modules = Text.ascending suite.importNames
      ∧ ∀ m ∈ modules, m ≠ [] ∧ m.hasLineBreak = false := by
  have hmem : (∀ m ∈ Text.ascending suite.importNames, m ≠ [] ∧ m.hasLineBreak = false)
      ↔ importsFault suite = none := by
    simp only [Text.mem_ascending, importsFault_eq_none_iff]
  rw [imported_eq]
  constructor
  · intro h
    rcases hf : importsFault suite with _ | e <;> rw [hf] at h <;> cases h
    exact ⟨rfl, hmem.2 hf⟩
  · rintro ⟨rfl, h⟩
    rw [hmem.1 h]

theorem mem_kept {m : Text} {modules excluded : List Text} :
    m ∈ kept modules excluded ↔ m ∈ modules ∧ m ∉ excluded := by
  simp [kept]

/-- The namespaces are those of the modules that have not been seen before. -/
theorem mem_namespacesFrom {t : Text} : ∀ {seen ms : List Text},
    t ∈ namespacesFrom seen ms ↔ t ∉ seen ∧ ∃ m ∈ ms, t = m.capitalize
  | _, [] => by simp [namespacesFrom]
  | seen, m :: ms => by
    unfold namespacesFrom
    simp only [List.contains_iff_mem, List.mem_cons, exists_eq_or_imp]
    split_ifs with hseen
    · rw [mem_namespacesFrom]
      refine and_congr_right fun ht => (or_iff_right ?_).symm
      rintro rfl
      exact ht hseen
    · rw [List.mem_cons, mem_namespacesFrom, List.mem_cons, not_or]
      by_cases ht : t = m.capitalize
      · simp [ht, hseen]
      · simp [ht]

/-- The framework is always among the namespaces, so a module whose namespace is that of the
framework has a using directive too. -/
theorem mem_namespaces {t framework : Text} {modules excluded : List Text} :
    t ∈ namespaces modules excluded framework
      ↔ t = framework ∨ ∃ m ∈ kept modules excluded, t = m.capitalize := by
  rw [namespaces, List.mem_append, List.mem_singleton, mem_namespacesFrom, List.mem_singleton]
  simp only [Text.mem_ascending]
  by_cases ht : t = framework
  · simp [ht]
  · simp [ht]

end Using

end SuiteScribe
