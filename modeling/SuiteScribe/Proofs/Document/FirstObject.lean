import SuiteScribe.Proofs.Document.JsonText

/-!
# The first object of a document

A JSON document is read up to the end of its first value.  White space may stand before that value,
with a comma or a colon in it (`Lead`), and what stands behind it is not looked at
(`read?_eq_mapping_iff`).  So the documents that say a suite are those that start with an object
that does, and such a document is one value between white space only where nothing but white space
stands around the object (`exists_padded_iff`).
-/

namespace SuiteScribe.Json

open Text (byte)

section Lead

/-- What may stand before the value of a document. -/
inductive Lead : Text → Prop
  | blank {pre : Text} (hpre : Blank pre) : Lead pre
  | marked {pre post : Text} {mark : UInt8} (hpre : Blank pre) (hpost : Blank post)
    (hmark : mark = byte ',' ∨ mark = byte ':') : Lead (pre ++ mark :: post)

theorem Lead.append_blank {lead post : Text} (h : Lead lead) (hpost : Blank post) :
    Lead (lead ++ post) := by
  cases h with
  | blank hpre => exact .blank (hpre.append hpost)
  | marked hpre hpost' hmark =>
    rw [List.append_assoc]
    exact .marked hpre (hpost'.append hpost) hmark

theorem exists_lead (t : Text) : ∃ lead, Lead lead ∧ t = lead ++ skipMark t := by
  obtain ⟨pre, hpre, ht⟩ := exists_blank_append t
  rw [skipMark]
  rcases hskip : skipBlanks t with _ | ⟨b, rest⟩ <;> rw [hskip] at ht
  · exact ⟨pre, .blank hpre, ht⟩
  · simp only
    split_ifs with hmark
    · exact ⟨pre ++ [b], .marked hpre blank_nil hmark, by simpa using ht⟩
    · exact ⟨pre, .blank hpre, ht⟩

theorem Lead.value?_skipMark {lead : Text} (h : Lead lead) (fuel depth : Nat) (u : Text) :
    value? fuel depth (skipMark (lead ++ byte '\x7b' :: u))
      = value? fuel depth (byte '\x7b' :: u) := by
  cases h with
  | blank hpre =>
    rw [skipMark, skipBlanks_append hpre, skipBlanks_cons rfl]
    rfl
  | @marked pre post mark hpre hpost hmark =>
    have hblank : isBlank mark = false := by rcases hmark with rfl | rfl <;> rfl
    rw [skipMark, List.append_assoc, skipBlanks_append hpre, List.cons_append,
      skipBlanks_cons hblank]
    simp only [if_pos hmark]
    exact value?_blank_append hpost fuel depth _

theorem value?_mark {mark : UInt8} (hmark : mark = byte ',' ∨ mark = byte ':') (fuel depth : Nat)
    (t : Text) : value? fuel depth (mark :: t) = none := by
  cases fuel with
  | zero => rfl
  | succ fuel => rcases hmark with rfl | rfl <;> rfl

end Lead

section FirstObject

variable {lead u rest t : Text} {fields : List (Text × Value)}

theorem Written.exists_brace {depth : Nat} (h : Written depth (.value (.mapping fields)) u) :
    ∃ us, u = byte '\x7b' :: us := by
  cases h with
  | emptyMapping | mapping => exact ⟨_, rfl⟩

/-- A document is read as an object if it starts with a text of the object. -/
theorem read?_eq_mapping_iff : read? t = some (.mapping fields) ↔ ∃ lead u rest, Lead lead
    ∧ Written 0 (.value (.mapping fields)) u ∧ t = lead ++ (u ++ rest) := by
  constructor
  · intro h
    obtain ⟨⟨v, rest⟩, hvalue, rfl⟩ := Option.map_eq_some_iff.1 h
    obtain ⟨pre, u, hpre, hskip, hu⟩ := exists_value_text _ 0 _ hvalue
    obtain ⟨lead, hlead, ht⟩ := exists_lead t
    refine ⟨lead ++ pre, u, rest, hlead.append_blank hpre, hu, ?_⟩
    rw [List.append_assoc, ← hskip, ← ht]
  · rintro ⟨lead, u, rest, hlead, hu, rfl⟩
    have hfuel : u.length ≤ 2 * (lead ++ (u ++ rest)).length + 2 := by
      simp only [List.length_append]
      omega
    have hvalue : value? (2 * (lead ++ (u ++ rest)).length + 2) 0 (u ++ rest)
        = some (.mapping fields, rest) := hu.value?_eq hfuel fun _ h => by cases h
    obtain ⟨us, rfl⟩ := hu.exists_brace
    rw [List.cons_append] at hvalue ⊢
    rw [read?, hlead.value?_skipMark, hvalue]
    rfl

theorem isBlank_of_written (hu : Written 0 (.value (.mapping fields)) u) :
    (lead ++ (u ++ rest)).isBlank = false := by
  obtain ⟨us, rfl⟩ := hu.exists_brace
  have hbrace : (Rune.char (Char.ofNat (byte '\x7b').toNat)).isCharWith isSpace = false := rfl
  rw [List.cons_append, Text.isBlank, Text.runes_append_cons (by decide), List.all_append,
    List.all_cons, hbrace, Bool.false_and, Bool.and_false]

theorem suite_read_of_written (hlead : Lead lead) (hu : Written 0 (.value (.mapping fields)) u) :
    Suite.read .json (lead ++ (u ++ rest)) = Suite.ofTree (Value.mapping fields).toTree := by
  have hread : read? (lead ++ (u ++ rest)) = some (.mapping fields) :=
    read?_eq_mapping_iff.2 ⟨lead, u, rest, hlead, hu, rfl⟩
  rw [Suite.read, Format.readTree, isBlank_of_written hu, hread]
  rfl

/-- Only an object says a suite. -/
theorem exists_of_suite_read {suite : Suite} (h : Suite.read .json t = .ok suite) :
    ∃ fields, read? t = some (.mapping fields)
      ∧ (Value.mapping fields).toTree.toSuite = .ok suite := by
  obtain ⟨tree, htree, hsuite⟩ := bind_eq_ok_iff.1 h
  have hok : tree.toSuite = .ok suite := by
    rw [Suite.ofTree] at hsuite
    rcases hs : tree.toSuite with e | s <;> rw [hs] at hsuite <;> cases hsuite
    rfl
  simp only [Format.readTree] at htree
  split_ifs at htree
  rcases hread : read? t with _ | v <;> rw [hread] at htree <;> cases htree
  cases v with
  | mapping fields => exact ⟨fields, rfl, hok⟩
  | null | bool | number | string | list => cases hok

/-- The text is a document as a whole only if it has blanks and nothing else around the object. -/
theorem exists_padded_iff (hlead : Lead lead) (hu : Written 0 (.value (.mapping fields)) u) :
    (∃ v, Written 0 (.padded v) (lead ++ (u ++ rest))) ↔ Blank lead ∧ Blank rest := by
  constructor
  · rintro ⟨v, h⟩
    generalize hdoc : lead ++ (u ++ rest) = doc at h
    cases h with
    | @padded _ _ pre t post hpre hpost ht =>
      have hvalue : value? (u.length + t.length) 0 (lead ++ (u ++ rest)) = some (v, post) := by
        rw [hdoc, value?_blank_append hpre]
        exact ht.value?_eq (by omega) fun _ _ b hb =>
          hpost.not_continuesNumber b (List.mem_of_mem_head? hb)
      cases hlead with
      | blank hlead =>
        rw [value?_blank_append hlead, hu.value?_eq (by omega) fun _ h => by cases h] at hvalue
        obtain ⟨-, rfl⟩ := Prod.mk.inj (Option.some.inj hvalue)
        exact ⟨hlead, hpost⟩
      | marked hlead _ hmark =>
        rw [List.append_assoc, value?_blank_append hlead, List.cons_append,
          value?_mark hmark] at hvalue
        cases hvalue
  · rintro ⟨hlead, hrest⟩
    exact ⟨_, .padded hlead hrest hu⟩

/-- A document says a suite exactly if an object that says it stands at its front; whatever stands
behind the object, the answer is that of the object.  The document is one value between white space
only where nothing else stands around the object. -/
theorem suite_read_first_object (t : Text) :
    (∀ suite, Suite.read .json t = .ok suite ↔ ∃ lead u rest fields, Lead lead
      ∧ Written 0 (.value (.mapping fields)) u ∧ t = lead ++ (u ++ rest)
      ∧ (Value.mapping fields).toTree.toSuite = .ok suite)
    ∧ (∀ lead u rest fields, Lead lead → Written 0 (.value (.mapping fields)) u →
      t = lead ++ (u ++ rest) →
        Suite.read .json t = Suite.ofTree (Value.mapping fields).toTree
        ∧ ((∃ v, Written 0 (.padded v) t) ↔ Blank lead ∧ Blank rest)) := by
  constructor
  · intro suite
    constructor
    · intro h
      obtain ⟨fields, hread, hsuite⟩ := exists_of_suite_read h
      obtain ⟨lead, u, rest, hlead, hu, ht⟩ := read?_eq_mapping_iff.1 hread
      exact ⟨lead, u, rest, fields, hlead, hu, ht, hsuite⟩
    · rintro ⟨lead, u, rest, fields, hlead, hu, rfl, hsuite⟩
      rw [suite_read_of_written hlead hu, Suite.ofTree, hsuite]
  · rintro lead u rest fields hlead hu rfl
    exact ⟨suite_read_of_written hlead hu, exists_padded_iff hlead hu⟩

theorem written_emptySuite :
    Written 0 (.value (.mapping [(text "tests", .list [])])) (text "\x7b\"tests\":[]\x7d") := by
  have hkey : StringText (text "tests") (text "tests\"") :=
    .plain rfl (.plain rfl (.plain rfl (.plain rfl (.plain rfl .close))))
  have hlist : Written 1 (.value (.list [])) (text "[]") := .emptyList (by decide) blank_nil
  exact .mapping (by decide)
    (.lastField (.string blank_nil blank_nil hkey) (.padded blank_nil blank_nil hlist))

/-- An object and a letter: the document is read as the suite of the object, though it is more than
one value. -/
theorem emptySuite_followed_read :
    Suite.read .json (text "\x7b\"tests\":[]\x7d x") = .ok []
    ∧ ¬ ∃ v, Written 0 (.padded v) (text "\x7b\"tests\":[]\x7d x") := by
  have hdoc : text "\x7b\"tests\":[]\x7d x" = [] ++ (text "\x7b\"tests\":[]\x7d" ++ text " x") := by
    decide
  rw [hdoc]
  refine ⟨suite_read_of_written (.blank blank_nil) written_emptySuite, fun h => ?_⟩
  have hrest : Blank (text " x") :=
    ((exists_padded_iff (.blank blank_nil) written_emptySuite).1 h).2
  cases hrest (byte 'x') (by decide)

end FirstObject

end SuiteScribe.Json
