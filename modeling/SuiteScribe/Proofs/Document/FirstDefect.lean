import SuiteScribe.Proofs.Document.Reason
import SuiteScribe.Proofs.TestClass.Defect

/-!
# The first defect of a document

Reading a document goes through it in the order of the schema: a value that its role refuses is the
error, and otherwise its parts are read in turn (`errorAt_of_refuses`, `errorAt_of_not_refuses`).
So reading reports the defects of the document (`reports_errorAt`): it fails exactly if there is
one, and with the first, whose reason is true of the value there but for the two that `Tree.Belies`
lists (`toSuite_error_iff_defect`).
-/

namespace SuiteScribe

namespace Role

/-- The error that comes of reading a value in a role. -/
def errorAt (path : Path) : Role → Tree → Option DecodeError
  | suite, t => errorOf t.toSuite
  | tests, t => errorOf (do Tree.toTestsFrom path 0 (← t.toList path true))
  | test, t => errorOf (t.toTest path)
  | text, t => errorOf (t.toText path)
  | kind, t => errorOf (do Tree.toKind path (← t.toText path))
  | moduleName, t => errorOf (t.toModule path)
  | numeral, t => errorOf (t.toNumeral path)
  | integer, t => errorOf (t.toInteger path)
  | nodes, t => errorOf (t.toNodes path)
  | node, t => errorOf (t.toNode path)
  | part required, t => errorOf (t.toPart path required)

end Role

/-- The error that comes of reading a part of what is at the path. -/
def Part.errorAt (path : Path) (p : Part) : Option DecodeError :=
  p.role.errorAt (path ++ [p.step]) p.value

namespace Role

variable (path : Path)

theorem errorAt_null_of_isRequired {r : Role} (h : r.isRequired = true) :
    r.errorAt path .null = some ⟨path, .missing⟩ := by
  cases r with
  | part required =>
    cases required with
    | true => simp [errorAt, Tree.toPart, errorOf]
    | false => cases h
  | tests | text | kind | moduleName => rfl
  | _ => cases h

/-- A value of another form than its role wants is refused for that. -/
theorem errorAt_of_not_admits {r : Role} {t : Tree} (h : r.shape.admits t = false)
    (hnull : t = .null → r.isRequired = false ∧ r.isOptional = false)
    (hpath : r = suite → path = []) : r.errorAt path t = some ⟨path, .wanted r.shape t⟩ := by
  cases r with
  | suite =>
    rw [hpath rfl]
    cases t with
    | mapping => cases h
    | _ => rfl
  | tests =>
    cases t with
    | list => cases h
    | null => cases (hnull rfl).1
    | _ => rfl
  | test =>
    cases t with
    | mapping => cases h
    | _ => rfl
  | text | kind | moduleName =>
    cases t with
    | string => cases h
    | null => cases (hnull rfl).1
    | _ => rfl
  | numeral =>
    cases t with
    | number | string => cases h
    | _ => rfl
  | integer =>
    cases t with
    | number => cases h
    | _ => rfl
  | nodes =>
    cases t with
    | list => cases h
    | null => cases (hnull rfl).2
    | _ => simp [errorAt, Tree.toNodes, errorOf, shape]
  | node =>
    cases t with
    | string | number | mapping => cases h
    | _ => simp [errorAt, Tree.toNode, errorOf, shape]
  | part required =>
    cases t with
    | string | number | mapping => cases h
    | null => cases required <;> simp [isRequired, isOptional] at hnull
    | _ => simp [errorAt, Tree.toPart, Tree.toNode, errorOf, shape]

/-- A value that its role refuses is the error, with its own path. -/
theorem errorAt_of_refuses {r : Role} {t : Tree} {f : Fault} (h : r.Refuses t f)
    (hpath : r = suite → path = []) : r.errorAt path t = some ⟨path, f⟩ := by
  cases h with
  | missing h => exact errorAt_null_of_isRequired path h
  | wanted h hnull => exact errorAt_of_not_admits path h hnull hpath
  | @unknownKind name h =>
    simp only [errorAt, Tree.toText, Tree.toKind]
    simp [bind, Except.bind, Kind.ofName?_eq_none_iff.2 h, errorOf]
  | emptyModule => rfl
  | notNumber h => simp [errorAt, Tree.toNumeral, Real.accepts_iff, h, errorOf]
  | notInteger h hstart =>
    simp [errorAt, Tree.toInteger, Integer.read_eq_malformed_iff.2 ⟨h, hstart⟩, errorOf]
  | outOfRange h => simp [errorAt, Tree.toInteger, Integer.read_eq_outOfRange_iff.2 h, errorOf]

/-- Reading a list item by item finds the fault of the first item that has one. -/
theorem errorOf_items {α : Type} (role : Role) (read : Path → Tree → Decoded α)
    {readAll : Nat → List Tree → Decoded (List α)}
    (hnil : ∀ i, readAll i [] = .ok [])
    (hcons : ∀ i t rest, readAll i (t :: rest) = do
      let x ← read (path.item i) t
      let xs ← readAll (i + 1) rest
      return x :: xs)
    (hread : ∀ i t, errorOf (read (path.item i) t) = role.errorAt (path.item i) t) :
    ∀ (i j : Nat) (items : List Tree), errorOf (readAll i items)
      = firstFault (fun _ p => p.errorAt path) j (Part.ofItems role i items)
  | i, j, [] => by
    rw [hnil]
    rfl
  | i, j, t :: rest => by
    rw [hcons, errorOf_bind_bind_pure, hread,
      errorOf_items role read hnil hcons hread (i + 1) (j + 1) rest]
    simp only [Part.ofItems, List.zipIdx_cons, List.map_cons, firstFault_cons]
    rfl

theorem toKind_of_ofName? {name : Text} {k : Kind} (h : Kind.ofName? name = some k) :
    Tree.toKind path name = .ok k := by
  rw [Tree.toKind, h]

theorem kind_errorAt_of_kindOf? {fields : List (Text × Tree)} {k : Kind}
    (h : Tree.kindOf? fields = some k) :
    kind.errorAt (path.field "kind") (Tree.get fields (SuiteScribe.text "kind")) = none := by
  unfold Tree.kindOf? at h
  split at h
  · rename_i name hname
    rw [hname, errorAt, Tree.toText, ok_bind, toKind_of_ofName? _ h]
    rfl
  · cases h

/-- A node of a known kind is read field by field. -/
theorem errorOf_toNode_of_kindOf? {fields : List (Text × Tree)} {k : Kind}
    (h : Tree.kindOf? fields = some k) (i : Nat) :
    errorOf (Tree.toNode path (.mapping fields))
      = firstFault (fun _ p => p.errorAt path) i (Part.ofFields fields k.fields) := by
  unfold Tree.kindOf? at h
  split at h
  · rename_i name hname
    rw [Tree.toNode, hname, Tree.toText, ok_bind, toKind_of_ofName? _ h, ok_bind]
    cases k <;>
      simp only [errorOf_bind_pure, errorOf_bind_bind_pure, Kind.fields, Part.ofFields,
        List.map_cons, List.map_nil, firstFault_cons, firstFault_nil, Part.errorAt, errorAt,
        Option.or_none, Path.field]
  · cases h

/-- A mapping that names no kind is refused for that. -/
theorem errorOf_toNode_of_kindOf?_eq_none {fields : List (Text × Tree)}
    (h : Tree.kindOf? fields = none) :
    ∃ e, errorOf (Tree.toNode path (.mapping fields)) = some e
      ∧ kind.errorAt (path.field "kind") (Tree.get fields (SuiteScribe.text "kind")) = some e := by
  unfold Tree.kindOf? at h
  rw [Tree.toNode, errorAt]
  split at h
  · rename_i name hname
    rw [hname, Tree.toText, ok_bind, ok_bind, Tree.toKind, h]
    exact ⟨_, rfl, rfl⟩
  · rename_i t ht
    rcases hkind : Tree.get fields (SuiteScribe.text "kind") with _ | _ | _ | name | _ | _
    case string => exact absurd hkind (ht name)
    all_goals exact ⟨_, rfl, rfl⟩

theorem errorOf_toNode_mapping (fields : List (Text × Tree)) :
    errorOf (Tree.toNode path (.mapping fields))
      = firstFault (fun _ p => p.errorAt path) 0 (node.parts (.mapping fields)) := by
  rw [parts, Part.ofFields, List.map_cons, firstFault_cons, Part.errorAt]
  rcases hk : Tree.kindOf? fields with _ | k
  · obtain ⟨e, hnode, hkind⟩ := errorOf_toNode_of_kindOf?_eq_none path hk
    rw [Path.field] at hkind
    rw [hnode, hkind]
    rfl
  · have hkind := kind_errorAt_of_kindOf? path hk
    rw [Path.field] at hkind
    rw [hkind, errorOf_toNode_of_kindOf? path hk 1]
    rfl

theorem admits_of_not_refuses {r : Role} {t : Tree} (h : ∀ f, ¬ r.Refuses t f) :
    (t = .null ∧ r.isOptional = true) ∨ r.shape.admits t = true := by
  by_cases ht : r.shape.admits t = true
  · exact .inr ht
  · have hnull : t = .null := by
      by_contra hne
      exact h _ (.wanted (Bool.eq_false_iff.2 ht) fun heq => absurd heq hne)
    subst hnull
    refine .inl ⟨rfl, ?_⟩
    by_contra hopt
    by_cases hreq : r.isRequired = true
    · exact h _ (.missing hreq)
    · exact h _ (.wanted (Bool.eq_false_iff.2 ht) fun _ =>
        ⟨Bool.eq_false_iff.2 hreq, Bool.eq_false_iff.2 hopt⟩)

section Leaves

theorem errorAt_kind_of_not_refuses {name : Text} (h : ∀ f, ¬ kind.Refuses (.string name) f) :
    kind.errorAt path (.string name) = none := by
  rcases hk : Kind.ofName? name with _ | k
  · exact absurd (.unknownKind (Kind.ofName?_eq_none_iff.1 hk)) (h _)
  · rw [errorAt, Tree.toText, ok_bind, toKind_of_ofName? path hk]
    rfl

theorem errorAt_moduleName_of_not_refuses {name : Text}
    (h : ∀ f, ¬ moduleName.Refuses (.string name) f) :
    moduleName.errorAt path (.string name) = none := by
  have hne : name ≠ [] := by
    rintro rfl
    exact h _ .emptyModule
  rw [errorAt, Tree.toModule, Tree.toText, ok_bind, if_neg hne]
  rfl

theorem errorAt_numeral_of_not_refuses {value : Text}
    (h : ∀ f, ¬ numeral.Refuses (.string value) f) :
    numeral.errorAt path (.string value) = none := by
  have haccepts : Real.accepts value = true := by
    by_contra hnot
    exact h _ (.notNumber fun hn => hnot (Real.accepts_iff.2 hn))
  rw [errorAt, Tree.toNumeral, if_pos haccepts]
  rfl

theorem errorAt_integer_of_not_refuses {value : Text}
    (h : ∀ f, ¬ integer.Refuses (.number value) f) :
    integer.errorAt path (.number value) = none := by
  rcases hr : Integer.read value with (_ | _) | i
  · obtain ⟨hspells, hstart⟩ := Integer.read_eq_malformed_iff.1 hr
    exact absurd (.notInteger hspells hstart) (h _)
  · exact absurd (.outOfRange (Integer.read_eq_outOfRange_iff.1 hr)) (h _)
  · simp [errorAt, Tree.toInteger, hr, errorOf]

end Leaves

/-- A value that its role does not refuse is read part by part. -/
theorem errorAt_of_not_refuses {r : Role} {t : Tree} (h : ∀ f, ¬ r.Refuses t f)
    (hpath : r = suite → path = []) :
    r.errorAt path t = firstFault (fun _ p => p.errorAt path) 0 (r.parts t) := by
  rcases admits_of_not_refuses h with ⟨rfl, hopt⟩ | hadmits
  · cases r with
    | nodes => simp [errorAt, Tree.toNodes, errorOf, parts, firstFault_nil]
    | part required =>
      cases required with
      | true => cases hopt
      | false => simp [errorAt, Tree.toPart, errorOf, parts, firstFault_nil]
    | _ => cases hopt
  · cases r with
    | suite =>
      cases t with
      | mapping fields =>
        rw [hpath rfl, parts, Part.ofFields, List.map_singleton, firstFault_cons, firstFault_nil,
          Option.or_none]
        rfl
      | _ => cases hadmits
    | tests =>
      cases t with
      | list items =>
        exact errorOf_items path test Tree.toTest (fun _ => rfl) (fun _ _ _ => rfl)
          (fun _ _ => rfl) 0 0 items
      | _ => cases hadmits
    | test =>
      cases t with
      | mapping fields =>
        simp only [errorAt, Tree.toTest, errorOf_bind_bind_pure, parts, Part.ofFields,
          List.map_cons, List.map_nil, firstFault_cons, firstFault_nil, Option.or_none,
          Part.errorAt, Path.field]
      | _ => cases hadmits
    | text =>
      cases t with
      | string value => rfl
      | _ => cases hadmits
    | kind =>
      cases t with
      | string name => exact errorAt_kind_of_not_refuses path h
      | _ => cases hadmits
    | moduleName =>
      cases t with
      | string name => exact errorAt_moduleName_of_not_refuses path h
      | _ => cases hadmits
    | numeral =>
      cases t with
      | number value => rfl
      | string value => exact errorAt_numeral_of_not_refuses path h
      | _ => cases hadmits
    | integer =>
      cases t with
      | number value => exact errorAt_integer_of_not_refuses path h
      | _ => cases hadmits
    | nodes =>
      cases t with
      | list items =>
        rw [errorAt, Tree.toNodes]
        exact errorOf_items path node Tree.toNode (fun _ => by rw [Tree.toNodesFrom])
          (fun _ _ _ => by rw [Tree.toNodesFrom]) (fun _ _ => rfl) 0 0 items
      | _ => cases hadmits
    | node =>
      cases t with
      | string value | number value => simp [errorAt, Tree.toNode, errorOf, parts, firstFault_nil]
      | mapping fields => exact errorOf_toNode_mapping path fields
      | _ => cases hadmits
    | part required =>
      cases t with
      | string value | number value =>
        simp [errorAt, Tree.toPart, Tree.toNode, errorOf, parts, firstFault_nil]
      | mapping fields =>
        rw [errorAt, Tree.toPart]
        · exact errorOf_toNode_mapping path fields
        · simp
      | _ => cases hadmits

/-- The defects of a value in a role, which is at the path. -/
def DefectUnder (r : Role) (t : Tree) (a : Address) (e : DecodeError) : Prop :=
  ∃ p r' v, Leads r t a p r' v ∧ e.path = path ++ p ∧ r'.Refuses v e.fault

theorem defectUnder_iff {r : Role} {t : Tree} {a : Address} {e : DecodeError} :
    DefectUnder path r t a e ↔ (a = [] ∧ e.path = path ∧ r.Refuses t e.fault)
      ∨ Listed (fun _ p => DefectUnder (path ++ [p.step]) p.role p.value) (r.parts t) a e := by
  constructor
  · rintro ⟨steps, r', v, hleads, he, hrefuses⟩
    cases hleads with
    | here => exact .inl ⟨rfl, by rw [he, List.append_nil], hrefuses⟩
    | inPart hp hleads =>
      refine .inr ⟨_, hp, _, r', v, hleads, ?_, hrefuses⟩
      rw [he, List.append_assoc, List.singleton_append]
  · rintro (⟨rfl, he, hrefuses⟩ | hlisted)
    · exact ⟨[], r, t, .here, by rw [he, List.append_nil], hrefuses⟩
    · rcases a with _ | ⟨i, a⟩
      · exact hlisted.elim
      · obtain ⟨p, hp, steps, r', v, hleads, he, hrefuses⟩ := hlisted
        refine ⟨p.step :: steps, r', v, .inPart hp hleads, ?_, hrefuses⟩
        rw [he, List.append_assoc, List.singleton_append]

/-- Reading a value reports its defects: the parts are smaller, and read in their order. -/
theorem reports_errorAt (path : Path) (r : Role) (t : Tree) (hpath : r = suite → path = []) :
    Reports (r.errorAt path t) (DefectUnder path r t) := by
  have ih : ∀ p ∈ r.parts t,
      Reports (p.errorAt path) (DefectUnder (path ++ [p.step]) p.role p.value) := fun p hp =>
    reports_errorAt (path ++ [p.step]) p.role p.value fun hsuite =>
      absurd hsuite (ne_suite_and_isPlain_of_mem_parts hp).1
  by_cases h : ∃ f, r.Refuses t f
  · obtain ⟨f, hf⟩ := h
    rw [errorAt_of_refuses path hf hpath]
    refine ⟨[], (defectUnder_iff path).2 (.inl ⟨rfl, rfl, hf⟩), ?_⟩
    rintro (_ | ⟨i, b⟩) ⟨path', f'⟩ hd
    · rcases (defectUnder_iff path).1 hd with ⟨-, rfl, hf'⟩ | hlisted
      · have heq := (errorAt_of_refuses path' hf hpath).symm.trans
          (errorAt_of_refuses path' hf' hpath)
        exact .inr ⟨rfl, (Option.some.inj heq).symm⟩
      · exact hlisted.elim
    · exact .inl .nil
  · rw [not_exists] at h
    rw [errorAt_of_not_refuses path h hpath]
    refine (reports_firstFault 0 (r.parts t) fun j p hp => ih p (List.mem_of_getElem? hp)).congr
      fun a e => ?_
    rw [defectUnder_iff]
    exact or_iff_right fun hown => h _ hown.2.2
termination_by sizeOf t
decreasing_by exact sizeOf_lt_of_mem_parts hp

end Role

namespace Tree

/-- Reading a suite reports the defects of the document. -/
theorem reports_toSuite (t : Tree) : Reports (errorOf t.toSuite) t.DefectAt := by
  refine (Role.reports_errorAt [] .suite t fun _ => rfl).congr fun a e => ?_
  constructor
  · rintro ⟨r, v, hleads, hrefuses⟩
    exact ⟨e.path, r, v, hleads, rfl, hrefuses⟩
  · rintro ⟨p, r, v, hleads, he, hrefuses⟩
    rw [List.nil_append] at he
    exact ⟨r, v, he ▸ hleads, hrefuses⟩

/-- A document is refused exactly if it has a defect, and it is refused for the first.  The path of
that defect leads through mappings and lists to a value that bears out the reason or is one of those
that belie it, and the words of the path name no other. -/
theorem toSuite_error_iff_defect (t : Tree) :
    ((∃ e, t.toSuite = .error e) ↔ ∃ a e, t.DefectAt a e)
    ∧ (∀ e, t.toSuite = .error e ↔ IsFirst t.DefectAt e)
    ∧ ∀ e, t.toSuite = .error e →
        (∀ q, q <+: e.path → q ≠ e.path → ∃ u, t.at? q = some u ∧ u.isContainer = true)
        ∧ (∃ a r v reason, Role.Leads .suite t a e.path r v ∧ t.at? e.path = some v
          ∧ e.message = text "path=" ++ e.path.label ++ text ": " ++ reason
          ∧ (v.BearsOut r reason ↔ ¬ v.Belies r reason))
        ∧ ∀ q : Path, (∀ s ∈ q, s.IsPlain) → q.label = e.path.label → q = e.path := by
  have hreports := reports_toSuite t
  have hfirst : ∀ e, t.toSuite = .error e ↔ IsFirst t.DefectAt e := fun e => by
    rw [← errorOf_eq_some, hreports.eq_some_iff]
  refine ⟨⟨?_, ?_⟩, hfirst, ?_⟩
  · rintro ⟨e, he⟩
    obtain ⟨a, ha, -⟩ := (hfirst e).1 he
    exact ⟨a, e, ha⟩
  · rintro ⟨a, e, ha⟩
    rcases hs : t.toSuite with d | suite
    · exact ⟨d, rfl⟩
    · rw [hs] at hreports
      exact absurd ha (hreports a e)
  · intro e he
    obtain ⟨a, ⟨r, v, hleads, hrefuses⟩, -⟩ := (hfirst e).1 he
    have hat := Role.at?_of_leads hleads
    refine ⟨fun q => exists_container_of_at? hat,
      ⟨a, r, v, _, hleads, hat, rfl, bearsOut_iff_of_refuses hrefuses⟩, fun q hq hlabel => ?_⟩
    exact Path.label_injective hq (Role.isPlain_of_leads hleads) hlabel

/-- A whole number, written with more digits than 64 bits hold and an exponent that takes them away
again. -/
def overlong : Tree :=
  .mapping [(text "kind", .string (text "int")),
    (text "value", .number (text "100000000000000000000e-20"))]

/-- A document with no other statement than that number. -/
def overlongOne : Tree :=
  .mapping [(text "tests", .list [.mapping [(text "name", .string (text "t")),
    (text "statements", .list [overlong])]])]

theorem toSuite_overlongOne : overlongOne.toSuite = .error ⟨[.field (text "tests"), .item 0,
    .field (text "statements"), .item 0, .field (text "value")],
    .notInteger (text "100000000000000000000e-20") .outOfRange⟩ := by
  have hnodes : ∀ path, toNodes path (.list [overlong]) = .error ⟨(path.item 0).field "value",
      .notInteger (text "100000000000000000000e-20") .outOfRange⟩ := by
    intro path
    rw [toNodes, toNodesFrom, overlong, toNode]
    rfl
  have htest : ∀ path, toTest path (.mapping [(text "name", .string (text "t")),
      (text "statements", .list [overlong])])
        = toNodes (path.field "statements") (.list [overlong]) >>= fun ns => .ok ⟨text "t", ns⟩ :=
    fun _ => rfl
  rw [overlongOne, toSuite]
  show toTestsFrom _ 0 _ = _
  rw [toTestsFrom, htest, hnodes]
  rfl

/-- The text of the number is called out of range, but it spells no whole number at all. -/
theorem overlongOne_belies : ∃ e value, overlongOne.toSuite = .error e
    ∧ e.message = text "path=tests[0].statements[0].value: "
      ++ text "strconv.ParseInt: parsing \"100000000000000000000e-20\": value out of range"
    ∧ overlongOne.at? e.path = some (.number value) ∧ ∀ i, ¬ Integer.Spells value i := by
  refine ⟨_, _, toSuite_overlongOne, by decide, rfl, fun i hi => ?_⟩
  obtain ⟨-, hdigits⟩ := (Integer.spells_iff_splitSign.1 hi).1
  exact absurd (hdigits (Text.byte 'e') (by decide)) (by decide)

/-- A document with a call whose second argument is an assertion without its right side, and behind
the call a kind that there is not. -/
def missingSide : Tree :=
  .mapping [(text "tests", .list [.mapping [(text "name", .string (text "t")),
    (text "statements", .list [
      .mapping [(text "kind", .string (text "FunctionCall")), (text "receiver", .string (text "f")),
        (text "args", .list [.string (text "1"),
          .mapping [(text "kind", .string (text "Assertion")), (text "lhs", .string (text "x"))]])],
      .mapping [(text "kind", .string (text "Loop"))]])]])]

theorem toSuite_error_missingSide : ∃ e, missingSide.toSuite = .error e
    ∧ e.message = text "path=tests[0].statements[0].args[1].rhs: missing"
    ∧ ∃ u, missingSide.at? e.path.dropLast = some u ∧ u.isContainer = true := by
  have he : missingSide.toSuite = .error ⟨[.field (text "tests"), .item 0,
      .field (text "statements"), .item 0, .field (text "args"), .item 1, .field (text "rhs")],
      .missing⟩ := by
    cbv
  obtain ⟨-, -, hfirst⟩ := toSuite_error_iff_defect missingSide
  obtain ⟨hcontainer, -, -⟩ := hfirst _ he
  exact ⟨_, he, by decide, hcontainer _ (List.dropLast_prefix _) (by simp)⟩

end Tree

end SuiteScribe
