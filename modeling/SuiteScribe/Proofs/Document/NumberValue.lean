import SuiteScribe.Proofs.Document.Numeral

/-!
# The two spellings of a number's value

The value of a number node may be written as a number or as a string.  A number is taken as it
stands; a string is asked whether it is a numeral, and the answer is no also for a numeral whose
number no 64-bit float can hold.  So the two spellings are read as the same node, the numeral
itself, exactly if the number is below the limit of the floats (`suite_read_string`); beyond it the
string is refused, and the number is refused with the document it stands in (`suite_read_number`).
-/

namespace SuiteScribe.Json

open Text (byte)

/-- The text between double quotes, as it is. -/
def inQuotes (t : Text) : Text :=
  byte '"' :: (t ++ [byte '"'])

/-- A number node with its value as it is written. -/
def numberLiteral (value : Text) : Text :=
  text "\x7b\"kind\":\"NumLiteral\",\"value\":" ++ (value ++ text "\x7d")

/-- What a number node holds. -/
def numberLiteralValue (v : Value) : Value :=
  .mapping [(text "kind", .string Kind.number.name), (text "value", v)]

/-- The node is read if its value is. -/
theorem value?_numberLiteral {k depth : Nat} {value rest : Text} {r : Option Value}
    (hdepth : depth < maxDepth)
    (h : value? k (depth + 1) (value ++ byte '\x7d' :: rest) = r.map (·, byte '\x7d' :: rest)) :
    value? (k + 3) depth (numberLiteral value ++ rest)
      = (r.map numberLiteralValue).map (·, rest) := by
  have hkind : value? (k + 1) (depth + 1)
        (text "\"NumLiteral\",\"value\":" ++ (value ++ byte '\x7d' :: rest))
      = some (.string Kind.number.name,
          text ",\"value\":" ++ (value ++ byte '\x7d' :: rest)) := rfl
  have hnode := (value?_mapping hdepth).trans ((fields?_next (s := text "kind") rfl [] hkind).trans
    (fields?_last (s := text "value") rfl _ h))
  have htext : numberLiteral value ++ rest = text "\x7b\"kind\":\"NumLiteral\",\"value\":"
      ++ (value ++ byte '\x7d' :: rest) := by
    simp [numberLiteral, show text "\x7d" = [byte '\x7d'] from rfl]
  rw [htext]
  cases r <;> exact hnode

/-- Where a value is due, a quoted text without marks is read as the text. -/
theorem value?_inQuotes {t : Text} (h : t.all isPlain = true) (fuel depth : Nat) (rest : Text) :
    value? (fuel + 1) depth (inQuotes t ++ rest) = some (.string t, rest) := by
  have hstring := string?_of_isPlain h rest
  have htext : inQuotes t ++ rest = byte '"' :: (t ++ byte '"' :: rest) := by simp [inQuotes]
  rw [htext, value?, skipBlanks_cons rfl]
  simp only [if_neg (show byte '"' ≠ byte '\x7b' by decide),
    if_neg (show byte '"' ≠ byte '[' by decide), if_true, hstring]
  rfl

/-- A document with the node in a statement's place is read if the value of the node is. -/
theorem read?_numberLiteral {value : Text} {r : Option Value}
    (h : ∀ fuel depth rest, value? (fuel + 1) depth (value ++ byte '\x7d' :: rest)
      = r.map (·, byte '\x7d' :: rest)) :
    read? (oneStatement (numberLiteral value))
      = r.map fun v => oneStatementValue (numberLiteralValue v) := by
  have hmark : skipMark (oneStatement (numberLiteral value))
      = oneStatement (numberLiteral value) := rfl
  have hlength : 12 ≤ (oneStatement (numberLiteral value)).length := by
    have hopen : (text "\x7b\"kind\":\"NumLiteral\",\"value\":").length = 29 := rfl
    simp only [oneStatement, numberLiteral, List.length_append]
    omega
  obtain ⟨k, hk⟩ : ∃ k, 2 * (oneStatement (numberLiteral value)).length + 2 = k + 13 :=
    Nat.exists_eq_add_of_le' (by omega)
  have hvalue := value?_oneStatement (b := byte '\x7b')
    (t := text "\"kind\":\"NumLiteral\",\"value\":" ++ (value ++ text "\x7d")) rfl (by decide)
    (value?_numberLiteral (by decide) (h k 5 (text "]\x7d]\x7d")))
  rw [read?, hmark, hk]
  refine (congrArg (Option.map Prod.fst) hvalue).trans ?_
  cases r <;> rfl

theorem toNode_tagged_number (path : Path) (v : Tree) :
    Tree.toNode path (.tagged .number [(text "value", v)])
      = (v.toNumeral (path.field "value")).map Node.number := by
  simp only [Tree.tagged, Tree.toNode, Tree.get_cons, Tree.toText, Tree.toKind_name, ok_bind,
    text_inj, String.reduceEq, if_true, if_false]
  rcases v.toNumeral (path.field "value") with e | t <;> rfl

section Read

variable {value : Text}

theorem suite_read_numberLiteral_of_none
    (h : ∀ fuel depth rest, value? (fuel + 1) depth (value ++ byte '\x7d' :: rest) = none) :
    Suite.read .json (oneStatement (numberLiteral value)) = .error .malformed := by
  rw [Suite.read, Format.readTree, isBlank_oneStatement, read?_numberLiteral (r := none) h]
  rfl

/-- The value of the node in a document is what the value's tree is read as. -/
theorem suite_read_numberLiteral {v : Value}
    (h : ∀ fuel depth rest, value? (fuel + 1) depth (value ++ byte '\x7d' :: rest)
      = some (v, byte '\x7d' :: rest)) :
    Suite.read .json (oneStatement (numberLiteral value))
      = ((v.toTree.toNumeral (oneStatementPath.field "value")).map
          fun t => [⟨text "t", [.number t]⟩]).mapError .noSuite := by
  have hnode : Tree.toNode oneStatementPath (numberLiteralValue v).toTree
      = (v.toTree.toNumeral (oneStatementPath.field "value")).map Node.number :=
    toNode_tagged_number oneStatementPath v.toTree
  rw [Suite.read, Format.readTree, isBlank_oneStatement, read?_numberLiteral (r := some v) h]
  show Suite.ofTree (oneStatementValue (numberLiteralValue v)).toTree = _
  rw [Suite.ofTree, toSuite_oneStatementValue, hnode]
  rcases v.toTree.toNumeral (oneStatementPath.field "value") with e | t <;> rfl

end Read

namespace Numeral

variable (n : Numeral)

theorem all_isPlain_toText : n.toText.all isPlain = true := by
  rw [List.all_eq_true]
  intro b hb
  have hcontinues := n.continuesNumber_of_mem_toText b hb
  simp only [isPlain, Bool.and_eq_true, bne_iff_ne, ne_eq]
  refine ⟨⟨?_, ?_⟩, ?_⟩ <;> rintro rfl <;> cases hcontinues

theorem suite_read_number :
    Suite.read .json (oneStatement (numberLiteral n.toText))
      = if Real.accepts n.toText then .ok [⟨text "t", [.number n.toText]⟩]
        else .error .malformed := by
  have hvalue : ∀ fuel depth rest, value? (fuel + 1) depth (n.toText ++ byte '\x7d' :: rest)
      = if Real.accepts n.toText then some (.number n.toText, byte '\x7d' :: rest) else none :=
    fun fuel depth rest => n.value?_toText fuel depth fun c hc => by cases hc; rfl
  split_ifs at hvalue ⊢
  · exact suite_read_numberLiteral hvalue
  · exact suite_read_numberLiteral_of_none hvalue

theorem suite_read_string :
    Suite.read .json (oneStatement (numberLiteral (inQuotes n.toText)))
      = if Real.accepts n.toText then .ok [⟨text "t", [.number n.toText]⟩]
        else .error (.noSuite ⟨oneStatementPath.field "value", .notNumber n.toText⟩) := by
  rw [suite_read_numberLiteral fun fuel depth rest =>
    value?_inQuotes n.all_isPlain_toText fuel depth (byte '\x7d' :: rest)]
  rw [Value.toTree, Tree.toNumeral]
  split_ifs <;> rfl

/-- The value of a number node may be written as a number or as a string, and both are read as the
numeral itself, as long as a 64-bit float can hold its number.  A number that is too large for that
is no value in the form of a string, though it is still one as a number; and no document holds it
as a number. -/
theorem value_spellings :
    (∀ path, Tree.toNode path (.tagged .number [(text "value", .number n.toText)])
      = .ok (.number n.toText))
    ∧ (n.magnitude < Real.limit →
        (∀ path, Tree.toNode path (.tagged .number [(text "value", .string n.toText)])
          = .ok (.number n.toText))
        ∧ Suite.read .json (oneStatement (numberLiteral n.toText))
          = .ok [⟨text "t", [.number n.toText]⟩]
        ∧ Suite.read .json (oneStatement (numberLiteral (inQuotes n.toText)))
          = .ok [⟨text "t", [.number n.toText]⟩])
    ∧ (Real.limit ≤ n.magnitude →
        (∀ path, Tree.toNode path (.tagged .number [(text "value", .string n.toText)])
          = .error ⟨path.field "value", .notNumber n.toText⟩)
        ∧ Suite.read .json (oneStatement (numberLiteral n.toText)) = .error .malformed
        ∧ Suite.read .json (oneStatement (numberLiteral (inQuotes n.toText)))
          = .error (.noSuite ⟨oneStatementPath.field "value", .notNumber n.toText⟩)) := by
  refine ⟨fun path => toNode_tagged_number path _, fun hlt => ?_, fun hle => ?_⟩
  · have haccepts := n.accepts_toText_iff.2 hlt
    refine ⟨fun path => ?_, ?_, ?_⟩
    · rw [toNode_tagged_number, Tree.toNumeral, if_pos haccepts]
      rfl
    · rw [suite_read_number, if_pos haccepts]
    · rw [suite_read_string, if_pos haccepts]
  · have hrefuses : ¬ Real.accepts n.toText = true := fun h =>
      absurd (n.accepts_toText_iff.1 h) (not_lt.2 hle)
    refine ⟨fun path => ?_, ?_, ?_⟩
    · rw [toNode_tagged_number, Tree.toNumeral, if_neg hrefuses]
      rfl
    · rw [suite_read_number, if_neg hrefuses]
    · rw [suite_read_string, if_neg hrefuses]

/-- A number of the grammar that is a value as a number and is said to be no number as a string. -/
theorem beyondFloats_not_a_number :
    beyondFloats.toText = text "1e999"
    ∧ Tree.toNode [] (.tagged .number [(text "value", .number (text "1e999"))])
      = .ok (.number (text "1e999"))
    ∧ Suite.read .json (text "\x7b\"tests\":[\x7b\"name\":\"t\",\"statements\":["
        ++ text "\x7b\"kind\":\"NumLiteral\",\"value\":\"1e999\"\x7d" ++ text "]\x7d]\x7d")
      = .error (.noSuite ⟨oneStatementPath.field "value", .notNumber (text "1e999")⟩) := by
  refine ⟨rfl, toNode_tagged_number [] _, ?_⟩
  have hrefused : Real.accepts beyondFloats.toText = false := by decide +kernel
  have hread := beyondFloats.suite_read_string
  rw [hrefused] at hread
  exact hread

end Numeral

end SuiteScribe.Json
