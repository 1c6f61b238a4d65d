import SuiteScribe.Proofs.TestClass.Using

/-!
# The order of the using directives

Modules are sorted by their own names, but a namespace is written once for all modules that have it.
So it is written where the first of these stands.  `firstsFrom` lists the modules that have their
namespace written; they are the foremost of their namespace, in ascending order, and nothing else of
a set of modules matters (`namespaces_arranged`).
-/

namespace SuiteScribe.Using

/-- The module is not excluded, and of those with the same namespace it is the first by the bytes of
its name. -/
structure Foremost (modules excluded : List Text) (m : Text) : Prop where
  mem : m ∈ modules
  kept : m ∉ excluded
  first : ∀ m' ∈ modules, m' ∉ excluded → m'.capitalize = m.capitalize → ¬ m' < m

/-- The modules with a namespace that was not seen before. -/
def firstsFrom : (seen : List Text) → List Text → List Text
  | _, [] => []
  | seen, m :: rest =>
    if seen.contains m.capitalize then firstsFrom seen rest
    else m :: firstsFrom (m.capitalize :: seen) rest

theorem namespacesFrom_cons_of_mem {m : Text} {seen : List Text} (h : m.capitalize ∈ seen)
    (ms : List Text) : namespacesFrom seen (m :: ms) = namespacesFrom seen ms := by
  rw [namespacesFrom, if_pos (List.contains_iff_mem.2 h)]

theorem namespacesFrom_cons_of_not_mem {m : Text} {seen : List Text} (h : m.capitalize ∉ seen)
    (ms : List Text) : namespacesFrom seen (m :: ms)
      = m.capitalize :: namespacesFrom (m.capitalize :: seen) ms := by
  rw [namespacesFrom, if_neg (by rwa [List.contains_iff_mem])]

/-- The namespaces are those of the modules that are the first of theirs. -/
theorem namespacesFrom_eq_map (seen ms : List Text) :
    namespacesFrom seen ms = (firstsFrom seen ms).map Text.capitalize := by
  induction ms generalizing seen with
  | nil => rfl
  | cons m ms ih =>
    unfold namespacesFrom firstsFrom
    split_ifs
    · exact ih seen
    · rw [List.map_cons, ih]

theorem firstsFrom_sublist (seen ms : List Text) : (firstsFrom seen ms).Sublist ms := by
  induction ms generalizing seen with
  | nil => exact .slnil
  | cons m ms ih =>
    unfold firstsFrom
    split_ifs
    · exact (ih seen).cons m
    · exact (ih _).cons_cons m

/-- In an ascending list those before a module are exactly the smaller ones, so a module is the
first with its namespace if no smaller one has it. -/
theorem mem_firstsFrom {m : Text} {seen ms : List Text} (h : ms.Pairwise (· < ·)) :
    m ∈ firstsFrom seen ms ↔ m ∈ ms ∧ m.capitalize ∉ seen
      ∧ ∀ m' ∈ ms, m' < m → m'.capitalize ≠ m.capitalize := by
  induction ms generalizing seen with
  | nil => simp [firstsFrom]
  | cons a ms ih =>
    obtain ⟨ha, hms⟩ := List.pairwise_cons.1 h
    unfold firstsFrom
    simp only [List.contains_iff_mem, List.forall_mem_cons]
    split_ifs with hseen
    · rw [ih hms]
      constructor
      · rintro ⟨hm, hnew, hfirst⟩
        exact ⟨List.mem_cons_of_mem _ hm, hnew, fun _ heq => hnew (heq ▸ hseen), hfirst⟩
      · rintro ⟨hm, hnew, -, hfirst⟩
        rcases List.mem_cons.1 hm with rfl | hm
        · exact absurd hseen hnew
        · exact ⟨hm, hnew, hfirst⟩
    · rw [List.mem_cons, ih hms, List.mem_cons, not_or]
      constructor
      · rintro (rfl | ⟨hm, ⟨hne, hnew⟩, hfirst⟩)
        · refine ⟨List.mem_cons_self, hseen, fun hlt => absurd hlt (List.lt_irrefl _), ?_⟩
          exact fun m' hm' hlt => absurd (List.lt_trans (ha m' hm') hlt) (List.lt_irrefl _)
        · exact ⟨List.mem_cons_of_mem _ hm, hnew, fun _ heq => hne heq.symm, hfirst⟩
      · rintro ⟨hm, hnew, hhead, hfirst⟩
        rcases List.mem_cons.1 hm with rfl | hm
        · exact .inl rfl
        · exact .inr ⟨hm, ⟨fun heq => hhead (ha m hm) heq.symm, hnew⟩, hfirst⟩

theorem nodup_namespacesFrom (seen ms : List Text) : (namespacesFrom seen ms).Nodup := by
  induction ms generalizing seen with
  | nil => exact .nil
  | cons m ms ih =>
    by_cases hseen : m.capitalize ∈ seen
    · rw [namespacesFrom_cons_of_mem hseen]
      exact ih seen
    · rw [namespacesFrom_cons_of_not_mem hseen]
      refine List.nodup_cons.2 ⟨fun hmem => ?_, ih _⟩
      exact (mem_namespacesFrom.1 hmem).1 List.mem_cons_self

theorem namespaces_congr {modules modules' excluded : List Text}
    (h : ∀ m, m ∈ kept modules' excluded ↔ m ∈ kept modules excluded) (framework : Text) :
    namespaces modules' excluded framework = namespaces modules excluded framework := by
  rw [namespaces, Text.ascending_congr h, namespaces]

/-- The modules whose namespaces are written before that of the framework. -/
def firsts (modules excluded : List Text) (framework : Text) : List Text :=
  firstsFrom [framework] (Text.ascending (kept modules excluded))

theorem namespaces_eq_map (modules excluded : List Text) (framework : Text) :
    namespaces modules excluded framework
      = (firsts modules excluded framework).map Text.capitalize ++ [framework] := by
  rw [namespaces, namespacesFrom_eq_map, firsts]

/-- A module is the first of its namespace if it is the foremost that has it. -/
theorem mem_firsts {m framework : Text} {modules excluded : List Text} :
    m ∈ firsts modules excluded framework
      ↔ Foremost modules excluded m ∧ m.capitalize ≠ framework := by
  rw [firsts, mem_firstsFrom (Text.pairwise_ascending _), List.mem_singleton]
  simp only [Text.mem_ascending, mem_kept]
  constructor
  · rintro ⟨⟨hmem, hkept⟩, hne, hfirst⟩
    exact ⟨⟨hmem, hkept, fun m' hm' he heq hlt => hfirst m' ⟨hm', he⟩ hlt heq⟩, hne⟩
  · rintro ⟨hm, hne⟩
    exact ⟨⟨hm.mem, hm.kept⟩, hne, fun m' hm' hlt heq => hm.first m' hm'.1 hm'.2 heq hlt⟩

/-- The namespaces of a set of modules are all different, and that of the framework is the last.
The others are those of the modules that are not excluded, as far as they are not that of the
framework, in the order of the foremost modules.  Which order the set is given in does not matter.
-/
theorem namespaces_arranged (modules excluded : List Text) (framework : Text) :
    (namespaces modules excluded framework).Nodup
    ∧ (namespaces modules excluded framework).getLast? = some framework
    ∧ (∀ t, t ∈ (namespaces modules excluded framework).dropLast
        ↔ t ≠ framework ∧ ∃ m ∈ modules, m ∉ excluded ∧ t = m.capitalize)
    ∧ (∃ ms : List Text, namespaces modules excluded framework
          = ms.map Text.capitalize ++ [framework]
        ∧ ms.Pairwise (· < ·)
        ∧ ∀ m, m ∈ ms ↔ Foremost modules excluded m ∧ m.capitalize ≠ framework)
    ∧ ∀ modules' : List Text, (∀ m, m ∈ modules' ↔ m ∈ modules) →
        namespaces modules' excluded framework = namespaces modules excluded framework := by
  refine ⟨?_, ?_, fun t => ?_, ⟨firsts modules excluded framework, ?_, ?_, ?_⟩, ?_⟩
  · refine List.nodup_append.2 ⟨nodup_namespacesFrom _ _, List.nodup_singleton _, ?_⟩
    rintro t ht _ hf rfl
    exact (mem_namespacesFrom.1 ht).1 hf
  · rw [namespaces, List.getLast?_append, List.getLast?_singleton]
    rfl
  · rw [namespaces, List.dropLast_concat, mem_namespacesFrom, List.mem_singleton]
    simp only [Text.mem_ascending, mem_kept, and_assoc]
  · exact namespaces_eq_map modules excluded framework
  · exact (Text.pairwise_ascending _).sublist (firstsFrom_sublist _ _)
  · exact fun m => mem_firsts
  · exact fun modules' h => namespaces_congr (fun m => by rw [mem_kept, mem_kept, h m]) framework

-- The capitals of `MATH` come before `abc`, so their namespace does, although `math` does not.
example : namespaces [text "math", text "abc", text "MATH", text "datetime"] [text "datetime"]
    (text "Fx") = [text "Math", text "Abc", text "Fx"] := by decide

end SuiteScribe.Using
