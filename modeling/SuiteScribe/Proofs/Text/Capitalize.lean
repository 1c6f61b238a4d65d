import SuiteScribe.Proofs.Text.Case
import SuiteScribe.Proofs.Text.Encoding

/-!
# Capitalized texts

A capitalized text is the encoding of characters that a case map gives, as many as the text has
runes (`runes_capitalize`), so it is UTF-8, whatever the text was, and to capitalize it again
changes nothing.  A byte in front of the letters, a line break among them, is in the capitalized
text exactly if it is in the text (`mem_capitalize_iff`).
-/

namespace SuiteScribe

namespace Text

theorem mem_ofChars_iff {b : UInt8} (hb : b.toNat < 0x80) {cs : List Char} :
    b ∈ ofChars cs ↔ ∃ c ∈ cs, c.toNat = b.toNat := by
  simp only [ofChars, List.mem_flatMap, mem_encode_iff hb]

theorem mem_bytes_iff {t : Text} {r : Rune} (hr : r ∈ t.runes) {b : UInt8} (hb : b.toNat < 0x80) :
    b ∈ r.bytes ↔ r.shown.toNat = b.toNat := by
  cases r with
  | char c => exact mem_encode_iff hb
  | stray a =>
    have ha : 0x80 ≤ a.toNat := le_of_stray_mem_runesFrom hr
    have hshown : (Rune.stray a).shown.toNat = 0xfffd := rfl
    refine iff_of_false (fun hmem => ?_) (by omega)
    obtain rfl := List.mem_singleton.1 hmem
    omega

/-- An ASCII byte of a text is one of the characters shown for it. -/
theorem mem_iff_exists_shown {b : UInt8} (hb : b.toNat < 0x80) {t : Text} :
    b ∈ t ↔ ∃ r ∈ t.runes, r.shown.toNat = b.toNat := by
  conv_lhs => rw [← flatMap_bytes_runes t, List.mem_flatMap]
  exact exists_congr fun r => and_congr_right fun hr => mem_bytes_iff hr hb

/-- The characters of a capitalized text. -/
def capitalizedChars : List Rune → List Char
  | [] => []
  | r :: rest => upper r.shown :: rest.map fun r => lower r.shown

theorem capitalize_eq (t : Text) : t.capitalize = ofChars (capitalizedChars t.runes) := by
  unfold capitalize
  rcases t.runes with _ | ⟨r, rest⟩ <;> rfl

/-- Capitalizing a text changes it character by character. -/
theorem runes_capitalize (t : Text) :
    t.capitalize.runes = (capitalizedChars t.runes).map .char := by
  rw [capitalize_eq, runes_ofChars]

theorem capitalizedChars_map_char (rs : List Rune) :
    capitalizedChars ((capitalizedChars rs).map .char) = capitalizedChars rs := by
  cases rs with
  | nil => rfl
  | cons r rest =>
    simp only [capitalizedChars, List.map_cons, List.map_map, Function.comp_def, Rune.shown,
      upper_upper, lower_lower]

/-- A byte in front of the letters is in the capitalized text exactly if it is in the text. -/
theorem mem_capitalize_iff {b : UInt8} (hb : b.toNat ≤ 64) {t : Text} :
    b ∈ t.capitalize ↔ b ∈ t := by
  have hascii : b.toNat < 0x80 := by omega
  rw [capitalize_eq, mem_ofChars_iff hascii, mem_iff_exists_shown hascii]
  rcases t.runes with _ | ⟨r, rest⟩
  · simp [capitalizedChars]
  · simp only [capitalizedChars, List.mem_cons, List.mem_map, exists_eq_or_imp,
      exists_exists_and_eq_and, keepsFront_upper.toNat_eq_iff hb, keepsFront_lower.toNat_eq_iff hb]

theorem runes_eq_nil_iff {t : Text} : t.runes = [] ↔ t = [] := by
  constructor
  · intro h
    rw [← flatMap_bytes_runes t, h, List.flatMap_nil]
  · rintro rfl
    rfl

theorem capitalize_eq_nil_iff {t : Text} : t.capitalize = [] ↔ t = [] := by
  rw [← runes_eq_nil_iff, runes_capitalize, List.map_eq_nil_iff, ← runes_eq_nil_iff]
  rcases t.runes with _ | ⟨r, rest⟩ <;> simp [capitalizedChars]

/-- Whatever the bytes of a text, capitalized it is UTF-8, it is empty or has a line break only if
the text is or has, and to capitalize it again changes nothing. -/
theorem capitalize_normalized (t : Text) :
    t.capitalize.isUtf8 = true
      ∧ (t.capitalize = [] ↔ t = [])
      ∧ (byte '\r' ∈ t.capitalize ↔ byte '\r' ∈ t)
      ∧ (byte '\n' ∈ t.capitalize ↔ byte '\n' ∈ t)
      ∧ t.capitalize.capitalize = t.capitalize := by
  refine ⟨isUtf8_iff.2 ⟨_, capitalize_eq t⟩, capitalize_eq_nil_iff,
    mem_capitalize_iff (by decide), mem_capitalize_iff (by decide), ?_⟩
  rw [capitalize_eq t.capitalize, runes_capitalize, capitalizedChars_map_char, ← capitalize_eq]

end Text

end SuiteScribe
