import SuiteScribe.Proofs.TestClass.Imports
import SuiteScribe.Proofs.TestClass.Namespaces

/-!
# A file with one more import

One more import in a suite changes its file in one place at most.  The statements are rendered as
before, unless the bare name of the module stands before a member somewhere (`render_congr`).  Of
the using directives, only that of the module can change: it may be new, or it may move up, if the
new module comes before those that have the same namespace (`rearranged_namespaces`).
-/

namespace SuiteScribe

/-- The second list is the first one, or the first one with `t` put into it, or the first one with
`t` moved up. -/
inductive Rearranged (t : Text) : List Text → List Text → Prop
  | same (ts : List Text) : Rearranged t ts ts
  | added {as bs : List Text} (h : t ∉ as ++ bs) : Rearranged t (as ++ bs) (as ++ t :: bs)
  | moved (as bs cs : List Text) : Rearranged t (as ++ (bs ++ t :: cs)) (as ++ t :: (bs ++ cs))

theorem Rearranged.append {t : Text} {ts us : List Text} (h : Rearranged t ts us) {vs : List Text}
    (hvs : t ∈ us → t ∉ vs) : Rearranged t (ts ++ vs) (us ++ vs) := by
  cases h with
  | same => exact .same _
  | @added as bs hnot =>
    have hnot' : t ∉ as ++ (bs ++ vs) := by
      rw [← List.append_assoc, List.mem_append, not_or]
      exact ⟨hnot, hvs (by simp)⟩
    rw [List.append_assoc, List.append_assoc, List.cons_append]
    exact .added hnot'
  | moved as bs cs =>
    simp only [List.append_assoc, List.cons_append]
    exact .moved as bs (cs ++ vs)

theorem Text.exists_insertAscending_eq {t : Text} {us : List Text} (h : t ∉ us) :
    ∃ as bs, us = as ++ bs ∧ insertAscending t us = as ++ t :: bs := by
  induction us with
  | nil => exact ⟨[], [], rfl, rfl⟩
  | cons u us ih =>
    rw [List.mem_cons, not_or] at h
    obtain ⟨as, bs, heq, hins⟩ := ih h.2
    unfold insertAscending
    rw [if_neg h.1]
    split_ifs
    · exact ⟨[], u :: us, rfl, rfl⟩
    · exact ⟨u :: as, bs, by rw [heq, List.cons_append], by rw [hins, List.cons_append]⟩

namespace Using

/-- One more namespace that has been seen is left out, and the others stay where they are. -/
theorem namespacesFrom_eq_filter {seen seen' : List Text} {t : Text}
    (h : ∀ u, u ∈ seen' ↔ u = t ∨ u ∈ seen) (ms : List Text) :
    namespacesFrom seen' ms = (namespacesFrom seen ms).filter (· != t) := by
  induction ms generalizing seen seen' with
  | nil => rfl
  | cons m ms ih =>
    by_cases hseen : m.capitalize ∈ seen
    · rw [namespacesFrom_cons_of_mem ((h _).2 (.inr hseen)), namespacesFrom_cons_of_mem hseen, ih h]
    · rw [namespacesFrom_cons_of_not_mem hseen, List.filter_cons]
      by_cases ht : m.capitalize = t
      · rw [namespacesFrom_cons_of_mem ((h _).2 (.inl ht)), if_neg (by simp [ht]), ht]
        refine ih fun u => ?_
        rw [h, List.mem_cons, ← or_assoc, or_self]
      · have hseen' : m.capitalize ∉ seen' := fun hmem => ((h _).1 hmem).elim ht hseen
        rw [namespacesFrom_cons_of_not_mem hseen', if_pos (by simp [ht])]
        congr 1
        refine ih fun u => ?_
        rw [List.mem_cons, List.mem_cons, h]
        exact or_left_comm

/-- A list of modules is gone through from its front, and what has been seen by then are the
namespaces written for the front. -/
theorem exists_namespacesFrom_append (seen as : List Text) :
    ∃ seen', (∀ t, t ∈ seen' ↔ t ∈ namespacesFrom seen as ∨ t ∈ seen)
      ∧ ∀ bs, namespacesFrom seen (as ++ bs)
        = namespacesFrom seen as ++ namespacesFrom seen' bs := by
  induction as generalizing seen with
  | nil => exact ⟨seen, fun t => by simp [namespacesFrom], fun bs => rfl⟩
  | cons a as ih =>
    by_cases hseen : a.capitalize ∈ seen
    · simp only [List.cons_append, namespacesFrom_cons_of_mem hseen]
      exact ih seen
    · obtain ⟨seen', hmem, happend⟩ := ih (a.capitalize :: seen)
      simp only [List.cons_append, namespacesFrom_cons_of_not_mem hseen]
      refine ⟨seen', fun t => ?_, fun bs => by rw [happend]⟩
      rw [hmem, List.mem_cons, List.mem_cons, or_left_comm, or_assoc]

/-- One more module changes nothing, or adds its namespace, or moves it up. -/
theorem rearranged_namespacesFrom (seen as bs : List Text) (m : Text) :
    Rearranged m.capitalize (namespacesFrom seen (as ++ bs))
      (namespacesFrom seen (as ++ m :: bs)) := by
  obtain ⟨seen', hmem, happend⟩ := exists_namespacesFrom_append seen as
  rw [happend, happend]
  by_cases hseen : m.capitalize ∈ seen'
  · rw [namespacesFrom_cons_of_mem hseen]
    exact .same _
  · have herase : namespacesFrom (m.capitalize :: seen') bs
        = (namespacesFrom seen' bs).erase m.capitalize := by
      rw [(nodup_namespacesFrom seen' bs).erase_eq_filter]
      exact namespacesFrom_eq_filter (fun u => List.mem_cons) bs
    rw [namespacesFrom_cons_of_not_mem hseen, herase]
    by_cases hlater : m.capitalize ∈ namespacesFrom seen' bs
    · obtain ⟨us, vs, -, heq, herase⟩ := List.exists_erase_eq hlater
      rw [herase, heq]
      exact .moved _ us vs
    · rw [List.erase_of_not_mem hlater]
      refine .added fun hearlier => ?_
      rcases List.mem_append.1 hearlier with h | h
      · exact hseen ((hmem _).2 (.inl h))
      · exact hlater h

section Added

variable {modules modules' excluded : List Text} {m : Text}
  (h : ∀ m', m' ∈ modules' ↔ m' = m ∨ m' ∈ modules)

include h

theorem mem_kept_of_added {m' : Text} :
    m' ∈ kept modules' excluded ↔ (m' = m ∧ m ∉ excluded) ∨ m' ∈ kept modules excluded := by
  simp only [mem_kept, h]
  grind

theorem namespaces_of_known (hknown : m ∈ excluded ∨ m ∈ modules) (framework : Text) :
    namespaces modules' excluded framework = namespaces modules excluded framework := by
  refine namespaces_congr (fun m' => ?_) framework
  rw [mem_kept_of_added h, or_iff_right_iff_imp]
  rintro ⟨rfl, hkept⟩
  exact mem_kept.2 ⟨hknown.resolve_left hkept, hkept⟩

/-- One more module leaves the other namespaces as they are. -/
theorem rearranged_namespaces (framework : Text) :
    Rearranged m.capitalize (namespaces modules excluded framework)
      (namespaces modules' excluded framework) := by
  by_cases hknown : m ∈ excluded ∨ m ∈ modules
  · rw [namespaces_of_known h hknown]
    exact .same _
  · rw [not_or] at hknown
    have hnew : m ∉ Text.ascending (kept modules excluded) := by
      rw [Text.mem_ascending, mem_kept]
      exact fun hm => hknown.2 hm.1
    have hkept : ∀ m', m' ∈ kept modules' excluded ↔ m' ∈ m :: kept modules excluded := fun m' => by
      rw [mem_kept_of_added h, List.mem_cons, and_iff_left hknown.1]
    have hinsert : Text.ascending (kept modules' excluded)
        = Text.insertAscending m (Text.ascending (kept modules excluded)) :=
      Text.ascending_congr hkept
    obtain ⟨as, bs, heq, hins⟩ := Text.exists_insertAscending_eq hnew
    rw [namespaces, namespaces, hinsert, hins, heq]
    refine (rearranged_namespacesFrom [framework] as bs m).append fun hmem => ?_
    exact (mem_namespacesFrom.1 hmem).1

end Added

end Using

namespace Node

theorem renderPart_congr {modules modules' : List Text} {p : Field × Node}
    (h : p.2.render modules' = p.2.render modules) (kind : Text) :
    renderPart modules' kind p = renderPart modules kind p := by
  unfold renderPart
  split
  · rfl
  · exact h

theorem assemble_congr {modules modules' : List Text} {n : Node}
    (h : ∀ m name, n = .member (.str m) name → (m ∈ modules' ↔ m ∈ modules)) (xs : List Text) :
    assemble modules' n xs = assemble modules n xs := by
  unfold assemble
  split
  case h_4 owner name o m =>
    have howner : ownerName modules' owner o = ownerName modules owner o := by
      unfold ownerName
      split
      · simp only [List.contains_iff_mem, h _ name rfl]
      · rfl
    rw [howner]
  all_goals rfl

/-- Modules reach the code of a node only through the bare names that stand before members in it. -/
theorem render_congr {modules modules' : List Text} {n : Node}
    (h : ∀ m name, Shown (.member (.str m) name) n → (m ∈ modules' ↔ m ∈ modules)) :
    n.render modules' = n.render modules := by
  induction n using induction_parts with
  | h n ih =>
    by_cases hn : n.isComposite = true
    · have hparts : n.parts.mapM (renderPart modules' n.kindName)
          = n.parts.mapM (renderPart modules n.kindName) := by
        refine mapM_congr fun p hp => renderPart_congr (ih p hp fun m name hshown => ?_) _
        exact h m name (hshown.tail (List.mem_map_of_mem hp))
      have hassemble := assemble_congr fun m name hmember => h m name (hmember ▸ .refl)
      simp only [render_of_isComposite _ hn, hparts, hassemble]
    · cases n with
      | assignment | assertion | call | member | sequence => exact absurd rfl hn
      | _ => simp only [render]

end Node

namespace Suite

/-- Somewhere in the suite a member is rendered that has the bare name of the module before it. -/
def Mentions (suite : Suite) (m : Text) : Prop :=
  ∃ test ∈ suite, ∃ n ∈ test.statements, ∃ name, Node.Shown (.member (.str m) name) n

/-- The second suite is the first with one more statement somewhere, an import of the module. -/
inductive AddsImport (m : Text) : Suite → Suite → Prop
  | intro (before after : Suite) (name : Text) (head tail : List Node) :
    AddsImport m (before ++ ⟨name, head ++ tail⟩ :: after)
      (before ++ ⟨name, head ++ .importOf m :: tail⟩ :: after)

/-- The namespaces that the file of a suite uses. -/
def namespaces (suite : Suite) (s : Settings) : List Text :=
  Using.namespaces suite.importNames s.excluded s.framework

theorem namespaces_eq_of_imported {suite : Suite} {modules : List Text}
    (h : Using.imported suite = .ok modules) (s : Settings) :
    Using.namespaces modules s.excluded s.framework = suite.namespaces s := by
  obtain ⟨rfl, -⟩ := Using.imported_eq_ok_iff.1 h
  refine Using.namespaces_congr (fun m => ?_) s.framework
  rw [Using.mem_kept, Using.mem_kept, Text.mem_ascending]

namespace AddsImport

variable {suite suite' : Suite} {m : Text}

theorem mem_importNames (h : AddsImport m suite suite') (m' : Text) :
    m' ∈ suite'.importNames ↔ m' = m ∨ m' ∈ suite.importNames := by
  obtain ⟨before, after, name, head, tail⟩ := h
  simp only [importNames, List.flatMap_append, List.flatMap_cons, List.filterMap_append,
    List.filterMap_cons, Node.importName?, List.mem_append, List.mem_cons]
  grind

theorem withoutImports_eq (h : AddsImport m suite suite') :
    suite'.map Test.withoutImports = suite.map Test.withoutImports := by
  obtain ⟨before, after, name, head, tail⟩ := h
  simp [Test.withoutImports, Node.importName?]

theorem imported (h : AddsImport m suite suite') (hm : m ≠ []) (hline : m.hasLineBreak = false)
    {modules : List Text} (hi : Using.imported suite = .ok modules) :
    ∃ modules', Using.imported suite' = .ok modules'
      ∧ ∀ m', m' ∈ modules' ↔ m' = m ∨ m' ∈ modules := by
  obtain ⟨rfl, hok⟩ := Using.imported_eq_ok_iff.1 hi
  have hmem : ∀ m', m' ∈ Text.ascending suite'.importNames
      ↔ m' = m ∨ m' ∈ Text.ascending suite.importNames := fun m' => by
    rw [Text.mem_ascending, Text.mem_ascending, h.mem_importNames]
  refine ⟨_, Using.imported_eq_ok_iff.2 ⟨rfl, fun m' hm' => ?_⟩, hmem⟩
  rcases (hmem m').1 hm' with rfl | hm'
  · exact ⟨hm, hline⟩
  · exact hok m' hm'

end AddsImport

/-- A node that does not mention the module is rendered as before. -/
theorem render_eq_of_not_mentions {suite : Suite} {m : Text} (h : ¬ suite.Mentions m)
    {modules modules' : List Text} (hmodules : ∀ m', m' ∈ modules' ↔ m' = m ∨ m' ∈ modules)
    (excluded : List Text) : ∀ test ∈ suite, ∀ n ∈ test.statements,
      n.render (Using.kept modules' excluded) = n.render (Using.kept modules excluded) := by
  intro test ht n hn
  refine Node.render_congr fun m' name hshown => ?_
  rw [Using.mem_kept_of_added hmodules, or_iff_right_iff_imp]
  rintro ⟨rfl, -⟩
  exact absurd ⟨test, ht, n, hn, name, hshown⟩ h

end Suite

namespace TestClass

theorem passes_congr {modules modules' : List Text} {test : Test}
    (h : ∀ n ∈ test.statements, n.render modules' = n.render modules) :
    Passes modules' test ↔ Passes modules test := by
  refine and_congr_right fun _ => forall₂_congr fun n hn => ?_
  rw [h n hn]

theorem ofTest_congr {modules modules' : List Text} {test : Test}
    (h : ∀ n ∈ test.statements, n.render modules' = n.render modules) :
    Method.ofTest modules' test = Method.ofTest modules test := by
  unfold Method.ofTest
  congr 1
  refine List.filterMap_congr fun n hn => ?_
  rw [Node.comment?, h n hn, Node.comment?]

/-- An import of a module whose bare name stands before no member can be put anywhere in a suite.
The suite is generated still, and its file keeps all lines but one, in their order: the using
directive of the module may be added or moved up, and not even that if the module is excluded or was
imported before. -/
theorem generate_added_import {suite suite' : Suite} {options : Options} {out m : Text}
    (hout : generate suite options = .ok out) (hadds : Suite.AddsImport m suite suite')
    (hm : m ≠ []) (hline : m.hasLineBreak = false) (hmentions : ¬ suite.Mentions m) :
    ∃ methods,
      out = Text.ofLines
        (Layout.file options.settings (suite.namespaces options.settings) methods)
      ∧ generate suite' options = .ok (Text.ofLines
        (Layout.file options.settings (suite'.namespaces options.settings) methods))
      ∧ Rearranged m.capitalize (suite.namespaces options.settings)
        (suite'.namespaces options.settings)
      ∧ (m ∈ options.settings.excluded ∨ suite.Imports m →
        suite'.namespaces options.settings = suite.namespaces options.settings) := by
  obtain ⟨modules, hi, hp, rfl⟩ := (generate_eq_ok_iff _ _ _).1 hout
  obtain ⟨modules', hi', hmodules⟩ := hadds.imported hm hline hi
  have hrender := Suite.render_eq_of_not_mentions hmentions hmodules options.settings.excluded
  rw [← Suite.namespaces_eq_of_imported hi, ← Suite.namespaces_eq_of_imported hi']
  refine ⟨_, rfl, ?_, Using.rearranged_namespaces hmodules _, fun h => ?_⟩
  · refine (generate_eq_ok_iff _ _ _).2 ⟨modules', hi', ?_, ?_⟩
    · rw [← forall_passes_withoutImports, hadds.withoutImports_eq, forall_passes_withoutImports]
      exact fun test ht => (passes_congr (hrender test ht)).2 (hp test ht)
    · rw [← ofSuite_withoutImports, hadds.withoutImports_eq, ofSuite_withoutImports, Layout.ofSuite]
      congr 2
      exact List.map_congr_left fun test ht => (ofTest_congr (hrender test ht)).symm
  · refine Using.namespaces_of_known hmodules (h.imp_right fun himports => ?_) _
    exact (Using.mem_of_imported hi m).2 himports

/-- A suite that imports `math`, and a module that comes before it. -/
def importsTwo : Suite :=
  [⟨text "one", [.importOf (text "json"), .importOf (text "math"),
    .member (.str (text "math")) (.str (text "pi"))]⟩]

/-- The same suite with another spelling of `math`, which comes before both. -/
def importsThree : Suite :=
  [⟨text "one", [.importOf (text "json"), .importOf (text "math"), .importOf (text "MATH"),
    .member (.str (text "math")) (.str (text "pi"))]⟩]

theorem generate_added_import_importsThree :
    importsTwo.namespaces (Options.settings {})
      = [text "Json", text "Math", Options.defaultFramework]
    ∧ ∃ methods, generate importsThree {} = .ok (Text.ofLines (Layout.file (Options.settings {})
        [text "Math", text "Json", Options.defaultFramework] methods)) := by
  have hout : generate importsTwo {}
      = .ok (Text.ofLines (Layout.ofSuite (Options.settings {}) [text "json", text "math"]
          importsTwo)) := rfl
  have hadds : Suite.AddsImport (text "MATH") importsTwo importsThree :=
    .intro [] [] (text "one") [.importOf (text "json"), .importOf (text "math")]
      [.member (.str (text "math")) (.str (text "pi"))]
  have hmentions : ¬ importsTwo.Mentions (text "MATH") := by
    rintro ⟨test, ht, n, hn, name, hshown⟩
    rw [importsTwo, List.mem_singleton] at ht
    subst ht
    have hleaf : ∀ leaf : Node, leaf.parts = [] →
        Node.Shown (.member (.str (text "MATH")) name) leaf →
        leaf = .member (.str (text "MATH")) name := fun leaf hparts hshown =>
      (Node.shown_iff.1 hshown).resolve_right (by simp [hparts])
    simp only [List.mem_cons, List.not_mem_nil, or_false] at hn
    rcases hn with rfl | rfl | rfl
    · cases hleaf _ rfl hshown
    · cases hleaf _ rfl hshown
    · rcases Node.shown_iff.1 hshown with heq | ⟨p, hp, hshown⟩
      · exact absurd (Node.str.inj (Node.member.inj heq).1) (by decide)
      · simp only [Node.parts, List.mem_cons, List.not_mem_nil, or_false] at hp
        rcases hp with rfl | rfl <;> cases hleaf _ rfl hshown
  obtain ⟨methods, -, hgenerate, -⟩ :=
    generate_added_import hout hadds (by decide) (by decide) hmentions
  have hnamespaces : importsThree.namespaces (Options.settings {})
      = [text "Math", text "Json", Options.defaultFramework] := by decide
  rw [hnamespaces] at hgenerate
  exact ⟨by decide, methods, hgenerate⟩

end TestClass

end SuiteScribe
