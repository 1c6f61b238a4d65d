import SuiteScribe.Proofs.TestClass.Layout
import SuiteScribe.Proofs.TestClass.Using

/-!
# What imports do to a file

An import reaches a generated file in two places: the file has a using directive for the module, and
the bare name of the module before a member is written as the namespace of that directive.  Each
place leaves the excluded modules out on its own, and the directives are besides sorted and written
once for all spellings of a namespace; still the two agree (`call_sites_agree`).

Nothing else of an import reaches the file.  Its statement has no line, so a suite without its
imports has the same methods, and what is imported is a set.  Two suites with the same other
statements and the same set of modules have the same file (`generate_ok_congr_of_imports`).
-/

namespace SuiteScribe

/-- Some test of the suite imports the module by one of its statements. -/
def Suite.Imports (suite : Suite) (m : Text) : Prop :=
  ∃ test ∈ suite, Node.importOf m ∈ test.statements

/-- The test without the statements that are imports. -/
def Test.withoutImports (test : Test) : Test :=
  ⟨test.name, test.statements.filter fun n => n.importName?.isNone⟩

theorem Node.importName?_eq_some_iff {n : Node} {m : Text} :
    n.importName? = some m ↔ n = .importOf m := by
  cases n <;> simp [importName?]

theorem Suite.mem_importNames {suite : Suite} {m : Text} :
    m ∈ suite.importNames ↔ suite.Imports m := by
  simp [importNames, Imports, Node.importName?_eq_some_iff]

namespace Using

/-- The modules are those that the suite imports. -/
theorem mem_of_imported {suite : Suite} {modules : List Text} (h : imported suite = .ok modules)
    (m : Text) : m ∈ modules ↔ suite.Imports m := by
  obtain ⟨rfl, -⟩ := imported_eq_ok_iff.1 h
  rw [Text.mem_ascending, Suite.mem_importNames]

theorem imported_congr {suite suite' : Suite} (h : ∀ m, suite.Imports m ↔ suite'.Imports m)
    {modules : List Text} (hi : imported suite = .ok modules) :
    imported suite' = .ok modules := by
  obtain ⟨rfl, hok⟩ := imported_eq_ok_iff.1 hi
  refine imported_eq_ok_iff.2 ⟨Text.ascending_congr fun m => ?_, hok⟩
  rw [Suite.mem_importNames, Suite.mem_importNames, h m]

/-- A module in front of a dot is capitalized if it is imported. -/
theorem render_member_str {modules : List Text} {m code : Text} {name : Node}
    (h : (Node.member (.str m) name).render modules = .ok code) :
    (if m ∈ modules then m.capitalize else m) ++ text "." <+: code := by
  rw [Node.render] at h
  obtain ⟨owner, howner, h⟩ := bind_eq_ok_iff.1 h
  obtain ⟨member, -, h⟩ := bind_eq_ok_iff.1 h
  cases h
  have hm : owner = m := by
    rw [Node.required, Node.render, requireOneLine_eq_ok_iff] at howner
    · exact howner.1
    · simp
  rw [hm, Node.ownerName]
  simp only [List.contains_iff_mem]
  exact List.prefix_append _ _

/-- The bare name of a module before a member is written as a namespace exactly if the module is
imported and not excluded, and then that namespace has a using directive; and every using directive
is that of the framework or of such a module. -/
theorem call_sites_agree {suite : Suite} {modules : List Text} (h : imported suite = .ok modules)
    (excluded : List Text) (framework : Text) :
    (∀ m name code, (Node.member (.str m) name).render (kept modules excluded) = .ok code →
      (suite.Imports m ∧ m ∉ excluded →
        m.capitalize ++ text "." <+: code
          ∧ m.capitalize ∈ namespaces modules excluded framework)
      ∧ (¬ (suite.Imports m ∧ m ∉ excluded) → m ++ text "." <+: code))
    ∧ ∀ t ∈ namespaces modules excluded framework,
        t = framework ∨ ∃ m, suite.Imports m ∧ m ∉ excluded ∧ t = m.capitalize := by
  have hkept : ∀ m, m ∈ kept modules excluded ↔ suite.Imports m ∧ m ∉ excluded := by
    intro m
    rw [mem_kept, mem_of_imported h]
  constructor
  · intro m name code hcode
    have hstart := render_member_str hcode
    refine ⟨fun hm => ?_, fun hm => ?_⟩ <;> rw [← hkept] at hm
    · rw [if_pos hm] at hstart
      exact ⟨hstart, mem_namespaces.2 (.inr ⟨m, hm, rfl⟩)⟩
    · rwa [if_neg hm] at hstart
  · intro t ht
    rcases mem_namespaces.1 ht with rfl | ⟨m, hm, rfl⟩
    · exact .inl rfl
    · obtain ⟨himports, hexcluded⟩ := (hkept m).1 hm
      exact .inr ⟨m, himports, hexcluded, rfl⟩

/-- A suite that imports two spellings of one namespace. -/
def twoSpellings : Suite :=
  [⟨text "one", [.importOf (text "math")]⟩, ⟨text "two", [.importOf (text "MATH")]⟩]

theorem call_sites_agree_twoSpellings :
    imported twoSpellings = .ok [text "MATH", text "math"]
      ∧ (text "Math" ++ text "." <+: text "Math.Pi"
        ∧ text "Math" ∈ namespaces [text "MATH", text "math"] [text "MATH"] (text "Fx"))
      ∧ text "MATH" ++ text "." <+: text "MATH.Pi" := by
  have h : imported twoSpellings = .ok [text "MATH", text "math"] := rfl
  have hmath : twoSpellings.Imports (text "math") := ⟨_, List.mem_cons_self, List.mem_cons_self⟩
  have hagree := (call_sites_agree h [text "MATH"] (text "Fx")).1
  refine ⟨h, ?_, ?_⟩
  · exact (hagree (text "math") (.str (text "pi")) (text "Math.Pi") rfl).1 ⟨hmath, by decide⟩
  · refine (hagree (text "MATH") (.str (text "pi")) (text "MATH.Pi") rfl).2 ?_
    rintro ⟨-, hexcluded⟩
    exact hexcluded List.mem_cons_self

end Using

namespace TestClass

variable (modules : List Text)

theorem comment?_of_importName? {n : Node} {m : Text} (h : n.importName? = some m) :
    n.comment? modules = none := by
  rw [Node.importName?_eq_some_iff.1 h]
  rfl

theorem passes_withoutImports (test : Test) :
    Passes modules test.withoutImports ↔ Passes modules test := by
  refine and_congr_right fun _ => ⟨fun h n hn => ?_, fun h n hn => ?_⟩
  · rcases hm : n.importName? with _ | m
    · exact h n (List.mem_filter.2 ⟨hn, by simp [hm]⟩)
    · rw [Node.importName?_eq_some_iff.1 hm]
      exact ⟨[], rfl⟩
  · exact h n (List.mem_of_mem_filter hn)

theorem ofTest_withoutImports (test : Test) :
    Method.ofTest modules test.withoutImports = Method.ofTest modules test := by
  simp only [Method.ofTest, Test.withoutImports, List.filterMap_filter]
  congr 1
  refine List.filterMap_congr fun n _ => ?_
  rcases hm : n.importName? with _ | m
  · simp
  · simp [comment?_of_importName? modules hm]

/-- Import statements add nothing to the methods. -/
theorem ofSuite_withoutImports (s : Settings) (suite : Suite) :
    Layout.ofSuite s modules (suite.map Test.withoutImports) = Layout.ofSuite s modules suite := by
  rw [Layout.ofSuite, List.map_map, Layout.ofSuite]
  congr 1
  exact List.map_congr_left fun test _ => ofTest_withoutImports _ test

theorem forall_passes_withoutImports (suite : Suite) :
    (∀ test ∈ suite.map Test.withoutImports, Passes modules test)
      ↔ ∀ test ∈ suite, Passes modules test := by
  simp only [List.forall_mem_map, passes_withoutImports]

/-- The imports of a suite may be put in any order, repeated, and moved between its statements and
its tests: as long as the same modules are imported, the suite still is or is not generated, and the
file is the same. -/
theorem generate_ok_congr_of_imports {suite suite' : Suite}
    (htests : suite.map Test.withoutImports = suite'.map Test.withoutImports)
    (himports : ∀ m, suite.Imports m ↔ suite'.Imports m) (options : Options) (out : Text) :
    generate suite options = .ok out ↔ generate suite' options = .ok out := by
  simp only [generate_eq_ok_iff]
  refine exists_congr fun modules => ?_
  rw [← forall_passes_withoutImports _ suite, ← forall_passes_withoutImports _ suite',
    ← ofSuite_withoutImports modules _ suite, ← ofSuite_withoutImports modules _ suite', htests]
  refine and_congr_left' ⟨fun h => ?_, fun h => ?_⟩
  · exact Using.imported_congr himports h
  · exact Using.imported_congr (fun m => (himports m).symm) h

def importsFirst : Suite :=
  [⟨text "one", [.importOf (text "math"), .importOf (text "json"),
      .member (.str (text "math")) (.str (text "pi"))]⟩,
    ⟨text "two", [.int 1]⟩]

/-- The imports of `importsFirst`, one of them repeated, at other places. -/
def importsSpread : Suite :=
  [⟨text "one", [.member (.str (text "math")) (.str (text "pi")), .importOf (text "json")]⟩,
    ⟨text "two", [.importOf (text "math"), .int 1, .importOf (text "math")]⟩]

theorem generate_importsSpread :
    ∃ out, generate importsFirst {} = .ok out ∧ generate importsSpread {} = .ok out := by
  have hout : generate importsFirst {}
      = .ok (Text.ofLines (Layout.ofSuite (Options.settings {}) [text "json", text "math"]
          importsFirst)) := rfl
  have himports : ∀ m, importsFirst.Imports m ↔ importsSpread.Imports m := by
    intro m
    simp [Suite.Imports, importsFirst, importsSpread, or_comm]
  have htests : importsFirst.map Test.withoutImports
      = importsSpread.map Test.withoutImports := rfl
  exact ⟨_, hout, (generate_ok_congr_of_imports htests himports {} _).1 hout⟩

end TestClass

end SuiteScribe
