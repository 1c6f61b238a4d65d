import SuiteScribe.Proofs.Text.Encoding
import SuiteScribe.Proofs.TestClass.Layout
import SuiteScribe.Text.Blank

/-!
# Names of tests

A name is taken exactly if it is the encoding of a letter or an underscore followed by letters,
digits and underscores (`isIdentifier_iff`).  A stray byte is none of them, so the name is UTF-8.
White space, braces and parentheses are none of them either (`not_isSpace_of_continuesIdentifier`,
`notMem_brackets_of_continuesIdentifier`), and that is why a name can stand in the head of a method
and cannot end it.
-/

namespace SuiteScribe

/-- Whether no code point is in both sets. -/
def CodeSet.apart (s u : CodeSet) : Bool :=
  s.all fun r => u.all fun q => r.2 < q.1 || q.2 < r.1

/-- Sets of code points whose ranges lie apart share none. -/
theorem CodeSet.not_holds_of_apart {s u : CodeSet} (h : s.apart u = true) {n : Nat}
    (hs : s.holds n = true) : u.holds n = false := by
  rw [Bool.eq_false_iff]
  intro hu
  simp only [holds, List.any_eq_true, Bool.and_eq_true, decide_eq_true_eq] at hs hu
  obtain ⟨r, hr, hrn⟩ := hs
  obtain ⟨q, hq, hqn⟩ := hu
  simp only [apart, List.all_eq_true, Bool.or_eq_true, decide_eq_true_eq] at h
  have := h r hr q hq
  omega

section Characters

variable {c : Char}

theorem startsIdentifier_iff : startsIdentifier c = true ↔ c = '_' ∨ isLetter c = true := by
  simp [startsIdentifier]

theorem continuesIdentifier_iff :
    continuesIdentifier c = true ↔ c = '_' ∨ isLetter c = true ∨ isDigit c = true := by
  simp [continuesIdentifier, startsIdentifier, or_assoc]

theorem not_isSpace_of_continuesIdentifier (h : continuesIdentifier c = true) :
    isSpace c = false := by
  rw [Bool.eq_false_iff]
  intro hspace
  rcases continuesIdentifier_iff.1 h with rfl | hletter | hdigit
  · exact absurd hspace (by decide)
  · have hnot := CodeSet.not_holds_of_apart (s := spaces) (u := letters) (by decide +kernel) hspace
    rw [isLetter, hnot] at hletter
    cases hletter
  · have hnot := CodeSet.not_holds_of_apart (s := spaces) (u := digits) (by decide +kernel) hspace
    rw [isDigit, hnot] at hdigit
    cases hdigit

/-- What opens or closes a block or a list of parameters. -/
def brackets : List Char := ['\x7b', '\x7d', '(', ')']

theorem notMem_brackets_of_continuesIdentifier (h : continuesIdentifier c = true) :
    c ∉ brackets := by
  intro hmem
  simp only [brackets, List.mem_cons, List.not_mem_nil, or_false] at hmem
  rcases hmem with rfl | rfl | rfl | rfl <;> exact absurd h (by decide +kernel)

end Characters

namespace Text

/-- The text is a letter or an underscore with letters, digits and underscores behind it. -/
def IsName (t : Text) : Prop :=
  ∃ c cs, t = ofChars (c :: cs) ∧ (c = '_' ∨ isLetter c = true)
    ∧ ∀ d ∈ cs, d = '_' ∨ isLetter d = true ∨ isDigit d = true

/-- The check of names finds out whether a text is one. -/
theorem isIdentifier_iff {t : Text} : t.isIdentifier = true ↔ t.IsName := by
  constructor
  · intro h
    unfold isIdentifier at h
    rcases hrunes : t.runes with _ | ⟨r, rest⟩ <;> rw [hrunes] at h
    · cases h
    · rw [Bool.and_eq_true] at h
      obtain ⟨cs, rfl, hcs⟩ := exists_map_char_of_all h.2
      cases r with
      | char c =>
        exact ⟨c, cs, eq_ofChars_iff.2 hrunes, startsIdentifier_iff.1 h.1, fun d hd =>
          continuesIdentifier_iff.1 (hcs d hd)⟩
      | stray b => exact absurd h.1 Bool.false_ne_true
  · rintro ⟨c, cs, rfl, hc, hcs⟩
    rw [isIdentifier, runes_ofChars]
    simp only [List.map_cons, Bool.and_eq_true]
    exact ⟨startsIdentifier_iff.2 hc, all_map_char fun d hd => continuesIdentifier_iff.2 (hcs d hd)⟩

theorem IsName.exists_continues {t : Text} (h : t.IsName) :
    ∃ cs, t = ofChars cs ∧ ∀ c ∈ cs, continuesIdentifier c = true := by
  obtain ⟨c, cs, ht, hc, hcs⟩ := h
  refine ⟨c :: cs, ht, List.forall_mem_cons.2 ⟨?_, fun d hd => ?_⟩⟩
  · exact continuesIdentifier_iff.2 (hc.imp_right .inl)
  · exact continuesIdentifier_iff.2 (hcs d hd)

/-- Nothing in the text can end the line or the head of a method that it stands in. -/
structure Harmless (t : Text) : Prop where
  isUtf8 : t.isUtf8 = true
  not_isSpace : ∀ c, .char c ∈ t.runes → isSpace c = false
  not_hasLineBreak : t.hasLineBreak = false
  not_bracket : ∀ c ∈ brackets, byte c ∉ t

theorem IsName.harmless {t : Text} (h : t.IsName) : t.Harmless := by
  obtain ⟨cs, rfl, hcs⟩ := h.exists_continues
  refine ⟨isUtf8_iff.2 ⟨cs, rfl⟩, fun c hc => ?_, ?_, fun c hc hmem => ?_⟩
  · rw [runes_ofChars, List.mem_map_of_injective fun _ _ => Rune.char.inj] at hc
    exact not_isSpace_of_continuesIdentifier (hcs c hc)
  · exact hasLineBreak_of_isIdentifier (isIdentifier_iff.2 h)
  · have hascii : ∀ d ∈ brackets, (byte d).toNat = d.toNat ∧ (byte d).toNat < 0x80 := by
      simp [brackets, byte]
    obtain ⟨hbyte, hlt⟩ := hascii c hc
    rw [ofChars, List.mem_flatMap] at hmem
    obtain ⟨d, hd, hmem⟩ := hmem
    rw [mem_encode_iff hlt, hbyte, Char.toNat_inj] at hmem
    exact notMem_brackets_of_continuesIdentifier (hcs d hd) (hmem ▸ hc)

end Text

namespace TestClass

/-- A text is an identifier exactly if it encodes a letter or an underscore followed by letters,
digits and underscores, and these are the names of tests that are accepted; none of them holds a
stray byte, white space, a line break, a brace or a parenthesis. -/
theorem accepted_names (t : Text) :
    (t.isIdentifier = true ↔ ∃ c cs, t = Text.ofChars (c :: cs)
        ∧ (c = '_' ∨ isLetter c = true)
        ∧ ∀ d ∈ cs, d = '_' ∨ isLetter d = true ∨ isDigit d = true)
      ∧ (∀ i, checkName i t = .ok () ↔ t.isIdentifier = true)
      ∧ ∀ i, checkName i t = .ok () → t.Harmless :=
  ⟨Text.isIdentifier_iff, fun i => checkName_eq_ok_iff i t, fun i hname =>
    (Text.isIdentifier_iff.1 ((checkName_eq_ok_iff i t).1 hname)).harmless⟩

end TestClass

end SuiteScribe
