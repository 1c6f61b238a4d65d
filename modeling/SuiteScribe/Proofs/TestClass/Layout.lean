import SuiteScribe.Proofs.TestClass.FileScript
import SuiteScribe.Proofs.TestClass.Parts
import SuiteScribe.Proofs.Text.LineBreak

/-!
# The layout of a generated file

`Layout.file` lists the lines of a generated file with their indentation written out, without any
writer: the warning, the namespace with the using directives and an empty line, and in it the class
with a method for every test.  A suite is generated exactly if its imports, the names of its tests
and its statements pass, and then the file is this list of lines (`generate_eq_ok_iff`).
-/

namespace SuiteScribe

/-- A method of the generated class. -/
structure Method where
  name : Text
  body : List Text

/-- The comment that a statement leaves in a method: none if its line of code is empty. -/
def Node.comment? (modules : List Text) (n : Node) : Option Text :=
  match n.render modules with
  | .ok line => if line = [] then none else some (text "// " ++ line ++ text ";")
  | .error _ => none

/-- The method of a test. -/
def Method.ofTest (modules : List Text) (test : Test) : Method :=
  ⟨test.name, test.statements.filterMap (Node.comment? modules)⟩

namespace Layout

/-- A line with the unit before it `depth` times. -/
def indented (unit : Text) (depth : Nat) (t : Text) : Text :=
  (List.replicate depth unit).flatten ++ t

/-- The lines of a method. -/
def method (s : Settings) (m : Method) : List Text :=
  [indented s.indent 2 (text "[" ++ s.framework ++ text ".TestMethod]"),
    indented s.indent 2 (text "public void " ++ m.name ++ text "()"),
    indented s.indent 2 (text "\x7b")]
  ++ m.body.map (indented s.indent 3)
  ++ [indented s.indent 2 (text "\x7d")]

/-- The lines of a file. -/
def file (s : Settings) (namespaces : List Text) (methods : List Method) : List Text :=
  [TestClass.warning, text "namespace " ++ s.spaceName, text "\x7b"]
  ++ namespaces.map (fun n => indented s.indent 1 (text "using " ++ n ++ text ";"))
  ++ [[],
    indented s.indent 1 (text "[" ++ s.framework ++ text ".TestClass]"),
    indented s.indent 1 (text "public class " ++ s.className),
    indented s.indent 1 (text "\x7b")]
  ++ methods.flatMap (method s)
  ++ [indented s.indent 1 (text "\x7d"), text "\x7d"]

/-- The lines of the file for a suite that imports the modules. -/
def ofSuite (s : Settings) (modules : List Text) (suite : Suite) : List Text :=
  file s (Using.namespaces modules s.excluded s.framework)
    (suite.map (Method.ofTest (Using.kept modules s.excluded)))

end Layout

/-- The second options are the first with defaults written out for some of what these leave open. -/
structure Options.SpelledOut (o o' : Options) : Prop where
  spaceName : o'.spaceName = o.spaceName ∨ o.spaceName = [] ∧ o'.spaceName = defaultSpaceName
  className : o'.className = o.className ∨ o.className = [] ∧ o'.className = defaultClassName
  framework : o'.framework = o.framework ∨ o.framework = [] ∧ o'.framework = defaultFramework
  excluded : o'.excluded = o.excluded ∨ o.excluded = none ∧ o'.excluded = some defaultExcluded
  indent : o'.indent = o.indent ∨ o.indent = [] ∧ o'.indent = Writer.defaultUnit

theorem Options.orElse_spelledOut {t t' default : Text} (hd : default ≠ [])
    (h : t' = t ∨ t = [] ∧ t' = default) : orElse t' default = orElse t default := by
  rcases h with rfl | ⟨rfl, rfl⟩
  · rfl
  · simp only [orElse, hd, if_true, if_false]

theorem Options.SpelledOut.settings_eq {o o' : Options} (h : o.SpelledOut o') :
    o'.settings = o.settings := by
  have hexcluded : o'.excluded.getD defaultExcluded = o.excluded.getD defaultExcluded := by
    rcases h.excluded with he | ⟨he, he'⟩
    · rw [he]
    · rw [he, he']
      rfl
  unfold settings
  rw [orElse_spelledOut (by decide) h.spaceName, orElse_spelledOut (by decide) h.className,
    orElse_spelledOut (by decide) h.framework, orElse_spelledOut (by decide) h.indent, hexcluded]

namespace Node

/-- The line of a statement that can be rendered is its comment, or empty. -/
theorem statement_of_render_ok {modules : List Text} {n : Node} {code : Text}
    (h : n.render modules = .ok code) :
    n.statement modules = .ok ((n.comment? modules).getD []) := by
  have hn : n ≠ absent := by
    rintro rfl
    simp [render] at h
  rw [statement_of_ne_absent modules hn, comment?, h]
  simp only [bind, Except.bind, pure, Except.pure]
  split_ifs <;> rfl

theorem render_ok_of_statement_ok {modules : List Text} {n : Node} {line : Text}
    (h : n.statement modules = .ok line) : ∃ code, n.render modules = .ok code := by
  by_cases hn : n = absent
  · subst hn
    simp [statement] at h
  · rw [statement_of_ne_absent modules hn] at h
    rcases hr : n.render modules with e | code
    · rw [hr] at h
      cases h
    · exact ⟨code, rfl⟩

theorem comment?_prefix (modules : List Text) {n : Node} {line : Text}
    (h : n.comment? modules = some line) : text "// " <+: line := by
  unfold comment? at h
  split at h
  · split_ifs at h
    cases h
    rw [List.append_assoc]
    exact List.prefix_append _ _
  · cases h

theorem comment?_ne_nil {modules : List Text} {n : Node} {line : Text}
    (h : n.comment? modules = some line) : line ≠ [] := by
  rintro rfl
  have hnil := comment?_prefix modules h
  exact absurd (List.prefix_nil.1 hnil) (by decide)

end Node

namespace TestClass

variable (s : Settings) (modules : List Text)

theorem bytes_of_ne_nil {t : Text} (h : t ≠ []) (unit : Text) (depth level : Nat) :
    (Line.mk level t).bytes unit depth
      = Layout.indented unit (depth + level) t ++ text "\n" := by
  simp only [Line.bytes, Layout.indented, h, if_false]

theorem map_bytes_of_ne_nil {ts : List Text} (h : ∀ t ∈ ts, t ≠ []) (unit : Text)
    (depth level : Nat) : (ts.map (Line.mk level)).map (Line.bytes unit depth)
      = (ts.map (Layout.indented unit (depth + level))).map (· ++ text "\n") := by
  rw [List.map_map, List.map_map]
  exact List.map_congr_left fun t ht => bytes_of_ne_nil (h t ht) unit depth level

/-- The lines of a block, each indented as deep as it stands. -/
theorem lines_block {headers : List Text} (h : ∀ t ∈ headers, t ≠ [])
    (body : Script SuiteError) (unit : Text) (depth : Nat) :
    (Script.block headers body).lines.map (Line.bytes unit depth)
      = ((headers ++ [text "\x7b"]).map (Layout.indented unit depth)).map (· ++ text "\n")
        ++ body.lines.map (Line.bytes unit (depth + 1))
        ++ [Layout.indented unit depth (text "\x7d") ++ text "\n"] := by
  have hfilter : headers.filter (· ≠ []) = headers :=
    List.filter_eq_self.2 fun t ht => by simp [h t ht]
  have hopen : ∀ t ∈ headers ++ [text "\x7b"], t ≠ [] := by
    intro t ht
    rcases List.mem_append.1 ht with ht | ht
    · exact h t ht
    · rw [List.mem_singleton.1 ht]
      decide
  rw [Script.block, hfilter, List.map_append, List.map_append, Line.map_bytes_deeper,
    map_bytes_of_ne_nil hopen, List.map_singleton, bytes_of_ne_nil (by decide), Nat.add_zero]

theorem statementScript_of_render_ok {n : Node} {code : Text} (h : n.render modules = .ok code)
    (test : Text) (i : Nat) : statementScript modules test i n
      = ⟨((n.comment? modules).toList).map (Line.mk 0), none⟩ := by
  rw [statementScript, Node.statement_of_render_ok h]
  rcases hc : n.comment? modules with _ | line
  · rfl
  · simp only [Option.getD_some, Node.comment?_ne_nil hc, if_false]
    rfl

theorem bodyScript_of_render_ok {ns : List Node}
    (h : ∀ n ∈ ns, ∃ code, n.render modules = .ok code) (test : Text) :
    Script.forEach (statementScript modules test) 0 ns
      = ⟨(ns.filterMap (Node.comment? modules)).map (Line.mk 0), none⟩ := by
  rw [Script.forEach_of_none (g := fun n => ((n.comment? modules).toList).map (Line.mk 0)) 0 ns]
  · rw [List.filterMap_eq_flatMap_toList, List.map_flatMap]
  · intro j n hn
    obtain ⟨code, hcode⟩ := h n hn
    exact statementScript_of_render_ok modules hcode test j

/-- What lets a method be written: its name is one, and its statements have lines of code. -/
def Passes (test : Test) : Prop :=
  test.name.isIdentifier = true ∧ ∀ n ∈ test.statements, ∃ code, n.render modules = .ok code

/-- The name of a test passes if it is an identifier. -/
theorem checkName_eq_ok_iff (i : Nat) (name : Text) :
    checkName i name = .ok () ↔ name.isIdentifier = true := by
  unfold checkName
  simp only
  split_ifs with h1 h2
  · subst h1
    simp [Text.isIdentifier, Text.runes, Text.runesFrom]
  · simp [h2]
  · simp [h2]

/-- The script of the method of a test that passes. -/
def methodBlock (test : Test) : Script SuiteError :=
  .block
    [text "[" ++ s.framework ++ text ".TestMethod]",
      text "public void " ++ test.name ++ text "()"]
    ⟨(Method.ofTest modules test).body.map (Line.mk 0), none⟩

/-- A test that passes is written as a whole. -/
theorem methodScript_of_passes {test : Test} (h : Passes modules test) (i : Nat) :
    methodScript s modules i test = methodBlock s modules test := by
  have hname := (checkName_eq_ok_iff i test.name).2 h.1
  unfold methodScript
  simp only [hname, bodyScript_of_render_ok modules h.2]
  rfl

theorem lines_methodBlock (test : Test) :
    (methodBlock s modules test).lines.map (Line.bytes s.indent 2)
      = (Layout.method s (Method.ofTest modules test)).map (· ++ text "\n") := by
  have hbody : ∀ t ∈ (Method.ofTest modules test).body, t ≠ [] := by
    intro t ht
    obtain ⟨n, -, hn⟩ := List.mem_filterMap.1 ht
    exact Node.comment?_ne_nil hn
  unfold methodBlock
  rw [lines_block (by simp [text])]
  simp only [map_bytes_of_ne_nil hbody]
  simp [Layout.method, Method.ofTest]

theorem methodsScript_of_passes {suite : Suite} (h : ∀ test ∈ suite, Passes modules test) :
    Script.forEach (methodScript s modules) 0 suite
      = ⟨suite.flatMap fun test => (methodBlock s modules test).lines, none⟩ :=
  Script.forEach_of_none 0 suite fun j test ht => methodScript_of_passes s modules (h test ht) j

theorem lines_methods (suite : Suite) :
    (suite.flatMap fun test => (methodBlock s modules test).lines).map (Line.bytes s.indent 2)
      = ((suite.map (Method.ofTest modules)).flatMap (Layout.method s)).map (· ++ text "\n") := by
  rw [List.map_flatMap, List.flatMap_map, List.map_flatMap]
  exact List.flatMap_congr fun test _ => lines_methodBlock s modules test

/-- If the methods that are written are those of `written`, so is the class. -/
theorem lines_classScript {suite written : Suite}
    (h : (Script.forEach (methodScript s modules) 0 suite).lines
      = written.flatMap fun test => (methodBlock s modules test).lines) :
    (classScript s modules suite).lines.map (Line.bytes s.indent 1)
      = ([Layout.indented s.indent 1 (text "[" ++ s.framework ++ text ".TestClass]"),
          Layout.indented s.indent 1 (text "public class " ++ s.className),
          Layout.indented s.indent 1 (text "\x7b")]
        ++ (written.map (Method.ofTest modules)).flatMap (Layout.method s)
        ++ [Layout.indented s.indent 1 (text "\x7d")]).map (· ++ text "\n") := by
  unfold classScript
  rw [lines_block (by simp [text]), h]
  simp only [Nat.reduceAdd, lines_methods, List.map_append]
  rfl

theorem lines_usingScript (namespaces : List Text) :
    (usingScript namespaces).lines.map (Line.bytes s.indent 1)
      = (namespaces.map (fun n => Layout.indented s.indent 1 (text "using " ++ n ++ text ";"))
          ++ [[]]).map (· ++ text "\n") := by
  unfold usingScript
  simp only [List.map_append]
  rw [map_bytes_of_ne_nil (by simp [text])]
  simp only [List.map_map]
  rfl

theorem lines_spaceScript {suite written : Suite}
    (h : (Script.forEach (methodScript s (Using.kept modules s.excluded)) 0 suite).lines
      = written.flatMap fun test => (methodBlock s (Using.kept modules s.excluded) test).lines) :
    (spaceScript s modules suite).lines.map (Line.bytes s.indent 0)
      = (Layout.ofSuite s modules written).map (· ++ text "\n") := by
  unfold spaceScript
  rw [Script.andThen_of_none rfl, Script.andThen_of_none rfl, List.map_append,
    lines_block (by simp [text])]
  simp only [Nat.reduceAdd, List.map_append, lines_usingScript, lines_classScript s _ h,
    Script.line, List.map_cons, bytes_of_ne_nil (show warning ≠ [] by decide)]
  simp [Layout.ofSuite, Layout.file, Layout.indented]

theorem fault_methodScript_eq_none_iff (i : Nat) (test : Test) :
    (methodScript s modules i test).fault = none ↔ Passes modules test := by
  constructor
  · intro h
    rw [fault_methodScript, Option.or_eq_none_iff, errorOf_eq_none, firstFault_eq_none] at h
    obtain ⟨⟨⟨⟩, hname⟩, hbody⟩ := h
    refine ⟨(checkName_eq_ok_iff i test.name).1 hname, fun n hn => ?_⟩
    obtain ⟨j, hj⟩ := List.mem_iff_getElem?.1 hn
    have hfault := hbody j n hj
    rw [Option.map_eq_none_iff, errorOf_eq_none] at hfault
    obtain ⟨line, hline⟩ := hfault
    exact Node.render_ok_of_statement_ok hline
  · intro h
    rw [methodScript_of_passes s modules h]
    rfl

theorem firstFault_methodScript_eq_none_iff (suite : Suite) :
    firstFault (fun i test => (methodScript s modules i test).fault) 0 suite = none
      ↔ ∀ test ∈ suite, Passes modules test := by
  simp only [firstFault_eq_none, fault_methodScript_eq_none_iff, List.mem_iff_getElem?,
    forall_exists_index]
  exact ⟨fun h test j => h j test, fun h j test => h test j⟩

/-- A file is written as a whole exactly if its imports can be told and all its tests pass. -/
theorem fault_fileScript_eq_none_iff (suite : Suite) :
    (fileScript s suite).fault = none ↔ ∃ modules, Using.imported suite = .ok modules
      ∧ ∀ test ∈ suite, Passes (Using.kept modules s.excluded) test := by
  rw [fault_fileScript]
  rcases Using.imported suite with e | modules
  · simp
  · simp only [Except.ok.injEq, exists_eq_left', firstFault_methodScript_eq_none_iff]

/-- The texts of a file are the lines of its layout. -/
theorem texts_of_passes {options : Options} {suite : Suite} {modules : List Text}
    (hi : Using.imported suite = .ok modules)
    (hp : ∀ test ∈ suite, Passes (Using.kept modules options.settings.excluded) test) :
    texts options suite = (Layout.ofSuite options.settings modules suite).map (· ++ text "\n") := by
  unfold texts fileScript
  rw [hi]
  refine lines_spaceScript options.settings modules ?_
  rw [methodsScript_of_passes options.settings _ hp]

/-- Generating gives the lines of the layout, if the imports can be told and all tests pass. -/
theorem generate_eq_ok_iff (suite : Suite) (options : Options) (out : Text) :
    generate suite options = .ok out ↔ ∃ modules, Using.imported suite = .ok modules
      ∧ (∀ test ∈ suite, Passes (Using.kept modules options.settings.excluded) test)
      ∧ out = Text.ofLines (Layout.ofSuite options.settings modules suite) := by
  rw [generate_eq]
  rcases hf : (fileScript options.settings suite).fault with _ | e
  · obtain ⟨modules, hi, hp⟩ := (fault_fileScript_eq_none_iff options.settings suite).1 hf
    simp only [Except.ok.injEq, hi, exists_eq_left', texts_of_passes hi hp]
    rw [Text.ofLines, List.flatMap_def]
    exact ⟨fun h => ⟨hp, h.symm⟩, fun h => h.2.symm⟩
  · simp only [reduceCtorEq, false_iff]
    rintro ⟨modules, hi, hp, -⟩
    rw [(fault_fileScript_eq_none_iff options.settings suite).2 ⟨modules, hi, hp⟩] at hf
    cases hf

theorem generate_congr {options options' : Options} (h : options'.settings = options.settings)
    (suite : Suite) : generate suite options' = generate suite options := by
  unfold generate stream
  rw [h]

/-- A suite is generated exactly if its imports, the names of its tests and its statements pass; the
file then has the lines of the layout and nothing else, and defaults that are left open give the
same file as defaults that are written out. -/
theorem generate_layout (suite : Suite) (options : Options) :
    (∀ out, generate suite options = .ok out ↔ ∃ modules, Using.imported suite = .ok modules
      ∧ (∀ test ∈ suite, Passes (Using.kept modules options.settings.excluded) test)
      ∧ out = Text.ofLines (Layout.ofSuite options.settings modules suite))
    ∧ ∀ options', options.SpelledOut options' →
        generate suite options' = generate suite options :=
  ⟨generate_eq_ok_iff suite options, fun _ h => generate_congr h.settings_eq suite⟩

end TestClass

end SuiteScribe
