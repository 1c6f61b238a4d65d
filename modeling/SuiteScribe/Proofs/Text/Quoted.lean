import Mathlib.Algebra.Group.Nat.Defs
import SuiteScribe.Proofs.Text.Utf8
import SuiteScribe.Text.Quoted

/-!
# Quoted texts can be told apart

A rune between quotes is either its own bytes or a backslash, a letter that says how many digits
follow, and the digits.  Neither form starts the other, and neither starts with a quote, so a quoted
text ends at the first quote that is no part of an escape: from a text that starts with a quoted one
the quoted text and what follows can be read off (`quote_append_inj`).

An escape of two digits stands for an ASCII character or for a stray byte.  The two never meet,
since the stray bytes of a text are not ASCII.
-/

namespace SuiteScribe

/-- No character's bytes start with those of another. -/
theorem encode_append_inj {c d : Char} {s s' : Text}
    (h : String.utf8EncodeChar c ++ s = String.utf8EncodeChar d ++ s') : c = d ∧ s = s' := by
  have hbytes := congrArg List.toByteArray h
  rw [List.toByteArray_append, List.toByteArray_append] at hbytes
  have hread := ByteArray.utf8DecodeChar?_utf8EncodeChar_append (b := s.toByteArray) (c := c)
  rw [hbytes, ByteArray.utf8DecodeChar?_utf8EncodeChar_append, Option.some.injEq] at hread
  subst hread
  exact ⟨rfl, List.append_cancel_left h⟩

theorem head_encode_ne {c d : Char} (hd : d.toNat < 0x80) (hcd : c ≠ d) (s s' : Text) :
    String.utf8EncodeChar c ++ s ≠ Text.byte d :: s' := by
  intro heq
  have hbyte : (Text.byte d).toNat = d.toNat := Nat.mod_eq_of_lt (by omega)
  obtain ⟨b, t, hc⟩ := List.exists_cons_of_ne_nil (String.utf8EncodeChar_ne_nil (c := c))
  rw [hc, List.cons_append, List.cons.injEq] at heq
  have hmem : Text.byte d ∈ String.utf8EncodeChar c := by simp [hc, heq.1]
  rw [Text.mem_encode_iff (by omega), hbyte] at hmem
  exact hcd (Char.toNat_inj.1 hmem)

namespace Text

theorem byte_digitChar_inj : ∀ m < 16, ∀ n < 16, byte m.digitChar = byte n.digitChar → m = n := by
  decide

theorem length_hex (width n : Nat) : (hex width n).length = width := by
  simp [hex]

theorem mod_pow_eq_of_hex_eq {width m n : Nat} (h : hex width m = hex width n) :
    m % 16 ^ width = n % 16 ^ width := by
  have hdigits : ∀ i < width, m / 16 ^ i % 16 = n / 16 ^ i % 16 := by
    intro i hi
    have hi' : i ∈ (List.range width).reverse := by simpa using hi
    exact byte_digitChar_inj _ (Nat.mod_lt _ (by decide)) _ (Nat.mod_lt _ (by decide))
      (List.map_inj_left.1 h i hi')
  clear h
  induction width with
  | zero => simp [Nat.mod_one]
  | succ width ih =>
    rw [Nat.mod_pow_succ, Nat.mod_pow_succ, hdigits width (Nat.lt_succ_self _),
      ih fun i hi => hdigits i (Nat.lt_succ_of_lt hi)]

/-- Numbers of as many hexadecimal digits are written alike only if they are the same. -/
theorem hex_inj {width m n : Nat} (hm : m < 16 ^ width) (hn : n < 16 ^ width)
    (h : hex width m = hex width n) : m = n := by
  rw [← Nat.mod_eq_of_lt hm, ← Nat.mod_eq_of_lt hn, mod_pow_eq_of_hex_eq h]

end Text

namespace Rune

open Text (byte)

/-- Whether a rune stands between quotes with its own bytes. -/
def isVerbatim : Rune → Bool
  | char c => c ≠ '"' && c ≠ '\\' && isPrintable c
  | stray _ => false

/-- How many digits follow the mark of an escape, which is the byte behind its backslash. -/
def digitsAfter (mark : UInt8) : Nat :=
  if mark = byte 'x' then 2 else if mark = byte 'u' then 4 else if mark = byte 'U' then 8 else 0

/-- The number that the digits of an escape write. -/
def code : Rune → Nat
  | char c => c.toNat
  | stray b => b.toNat

/-- The character whose escape is the mark alone. -/
def ofMark (mark : UInt8) : Char :=
  match mark.toNat with
  | 97 => Char.ofNat 7
  | 98 => Char.ofNat 8
  | 116 => Char.ofNat 9
  | 110 => Char.ofNat 10
  | 118 => Char.ofNat 11
  | 102 => Char.ofNat 12
  | 114 => Char.ofNat 13
  | n => Char.ofNat n

/-- The rune of an escape. -/
def unescape (mark : UInt8) (code : Nat) : Rune :=
  if digitsAfter mark = 0 then char (ofMark mark)
  else if mark = byte 'x' ∧ 0x80 ≤ code then stray (UInt8.ofNat code)
  else char (Char.ofNat code)

/-- The rune is escaped with that mark. -/
inductive Escaped : Rune → UInt8 → Prop
  | alone {c : Char} {mark : UInt8} (hdigits : digitsAfter mark = 0) (hmark : ofMark mark = c) :
    Escaped (char c) mark
  | ascii {c : Char} (h : c.toNat < 0x80) : Escaped (char c) (byte 'x')
  | stray (b : UInt8) : Escaped (.stray b) (byte 'x')
  | short {c : Char} (h : c.toNat < 0x10000) : Escaped (char c) (byte 'u')
  | long (c : Char) : Escaped (char c) (byte 'U')

/-- A rune as texts have them: a stray byte is not ASCII. -/
def InText (r : Rune) : Prop :=
  ∀ b, r = stray b → 0x80 ≤ b.toNat

theorem escaped_of_escapeLetter? {c letter : Char} (h : escapeLetter? c = some letter) :
    digitsAfter (byte letter) = 0 ∧ ofMark (byte letter) = c := by
  unfold escapeLetter? at h
  split at h <;> cases h
  all_goals
    rename_i hc
    refine ⟨rfl, ?_⟩
    rw [← Char.ofNat_toNat c, hc]
    rfl

theorem exists_verbatim {r : Rune} (h : r.isVerbatim = true) :
    ∃ c, r = char c ∧ c ≠ '"' ∧ c ≠ '\\' ∧ r.quoted = String.utf8EncodeChar c := by
  cases r with
  | stray b => cases h
  | char c =>
    simp only [isVerbatim, Bool.and_eq_true, decide_eq_true_eq] at h
    refine ⟨c, rfl, h.1.1, h.1.2, ?_⟩
    simp only [quoted, h.1.1, h.1.2, h.2, or_self, if_true, if_false]

/-- A rune that is not written verbatim is written with a mark that tells how many digits follow. -/
theorem exists_escaped {r : Rune} (h : r.isVerbatim = false) :
    ∃ mark, r.Escaped mark
      ∧ r.quoted = byte '\\' :: mark :: Text.hex (digitsAfter mark) r.code := by
  cases r with
  | stray b => exact ⟨_, .stray b, rfl⟩
  | char c =>
    by_cases hc : c = '"' ∨ c = '\\'
    · rcases hc with rfl | rfl
      · exact ⟨byte '"', .alone rfl rfl, rfl⟩
      · exact ⟨byte '\\', .alone rfl rfl, rfl⟩
    · have hprint : isPrintable c = false := by
        simpa [isVerbatim, not_or.1 hc] using h
      simp only [quoted, hc, hprint, if_false, Bool.false_eq_true, escape]
      rcases hl : escapeLetter? c with _ | letter
      · simp only
        split_ifs with hascii hshort
        · exact ⟨_, .ascii hascii, rfl⟩
        · exact ⟨_, .short hshort, rfl⟩
        · exact ⟨_, .long c, rfl⟩
      · obtain ⟨hdigits, hmark⟩ := escaped_of_escapeLetter? hl
        refine ⟨byte letter, .alone hdigits hmark, ?_⟩
        rw [hdigits]
        rfl

namespace Escaped

variable {r : Rune} {mark : UInt8}

theorem code_lt (h : r.Escaped mark) (hdigits : digitsAfter mark ≠ 0) :
    r.code < 16 ^ digitsAfter mark := by
  cases h with
  | alone hzero _ => exact absurd hzero hdigits
  | ascii h => exact Nat.lt_trans h (by decide)
  | stray b => exact b.toNat_lt
  | short h => exact h
  | long c =>
    have hlt : c.toNat < 0x110000 := by
      rcases c.valid with hv | hv <;> simp only [Char.toNat_val] at hv <;> omega
    exact Nat.lt_trans hlt (by decide)

/-- An escape tells its rune. -/
theorem unescape_eq (h : r.Escaped mark) (hr : r.InText) : unescape mark r.code = r := by
  cases h with
  | alone hdigits hmark => rw [unescape, if_pos hdigits, hmark]
  | ascii h =>
    rw [unescape, if_neg (by decide), if_neg (fun hx => Nat.not_le.2 h hx.2), code,
      Char.ofNat_toNat]
  | stray b =>
    rw [unescape, if_neg (by decide), if_pos ⟨rfl, hr b rfl⟩, code, UInt8.ofNat_toNat]
  | short | long =>
    rw [unescape, if_neg (by decide), if_neg (fun hx => absurd hx.1 (by decide)), code,
      Char.ofNat_toNat]

end Escaped

/-- No rune between quotes starts with another. -/
theorem quoted_append_inj {p q : Rune} (hp : p.InText) (hq : q.InText) {s s' : Text}
    (h : p.quoted ++ s = q.quoted ++ s') : p = q ∧ s = s' := by
  rcases hvp : p.isVerbatim with _ | _ <;> rcases hvq : q.isVerbatim with _ | _
  · obtain ⟨mark, hpm, hpq⟩ := exists_escaped hvp
    obtain ⟨mark', hqm, hqq⟩ := exists_escaped hvq
    simp only [hpq, hqq, List.cons_append, List.cons.injEq, true_and] at h
    obtain ⟨rfl, htail⟩ := h
    obtain ⟨hhex, hs⟩ := List.append_inj htail (by rw [Text.length_hex, Text.length_hex])
    refine ⟨?_, hs⟩
    by_cases hdigits : digitsAfter mark = 0
    · rw [← hpm.unescape_eq hp, ← hqm.unescape_eq hq, unescape, unescape, if_pos hdigits,
        if_pos hdigits]
    · rw [← hpm.unescape_eq hp, ← hqm.unescape_eq hq,
        Text.hex_inj (hpm.code_lt hdigits) (hqm.code_lt hdigits) hhex]
  · obtain ⟨mark, -, hpq⟩ := exists_escaped hvp
    obtain ⟨c, rfl, -, hc, hcq⟩ := exists_verbatim hvq
    rw [hpq, hcq] at h
    exact absurd h.symm (head_encode_ne (by decide) hc _ _)
  · obtain ⟨c, rfl, -, hc, hcq⟩ := exists_verbatim hvp
    obtain ⟨mark, -, hqq⟩ := exists_escaped hvq
    rw [hcq, hqq] at h
    exact absurd h (head_encode_ne (by decide) hc _ _)
  · obtain ⟨c, rfl, -, -, hcq⟩ := exists_verbatim hvp
    obtain ⟨d, rfl, -, -, hdq⟩ := exists_verbatim hvq
    rw [hcq, hdq] at h
    obtain ⟨rfl, hs⟩ := encode_append_inj h
    exact ⟨rfl, hs⟩

/-- No rune between quotes starts with a quote. -/
theorem quoted_append_ne_quote (r : Rune) (s s' : Text) : r.quoted ++ s ≠ byte '"' :: s' := by
  rcases hv : r.isVerbatim with _ | _
  · obtain ⟨mark, -, hq⟩ := exists_escaped hv
    rw [hq]
    exact fun h => absurd (List.cons.inj h).1 (by decide)
  · obtain ⟨c, rfl, hc, -, hq⟩ := exists_verbatim hv
    rw [hq]
    exact head_encode_ne (by decide) hc s s'

theorem flatMap_quoted_append_inj {s s' : Text} : ∀ {ps qs : List Rune},
    (∀ p ∈ ps, p.InText) → (∀ q ∈ qs, q.InText) →
    ps.flatMap quoted ++ byte '"' :: s = qs.flatMap quoted ++ byte '"' :: s' → ps = qs ∧ s = s'
  | [], [], _, _, h => ⟨rfl, (List.cons.inj h).2⟩
  | [], q :: qs, _, _, h => by
    rw [List.flatMap_cons, List.append_assoc] at h
    exact absurd h.symm (quoted_append_ne_quote q _ _)
  | p :: ps, [], _, _, h => by
    rw [List.flatMap_cons, List.append_assoc] at h
    exact absurd h (quoted_append_ne_quote p _ _)
  | p :: ps, q :: qs, hpps, hqqs, h => by
    obtain ⟨hp, hps⟩ := List.forall_mem_cons.1 hpps
    obtain ⟨hq, hqs⟩ := List.forall_mem_cons.1 hqqs
    rw [List.flatMap_cons, List.flatMap_cons, List.append_assoc, List.append_assoc] at h
    obtain ⟨rfl, htail⟩ := quoted_append_inj hp hq h
    obtain ⟨rfl, hs⟩ := flatMap_quoted_append_inj hps hqs htail
    exact ⟨rfl, hs⟩

end Rune

/-- A text is the only one that its quoted form starts a text with. -/
theorem Text.quote_append_inj {t u s s' : Text} (h : t.quote ++ s = u.quote ++ s') :
    t = u ∧ s = s' := by
  have hinText : ∀ t : Text, ∀ r ∈ t.runes, r.InText := by
    rintro t r hr b rfl
    exact le_of_stray_mem_runesFrom hr
  have hquote : ∀ t s : Text,
      t.quote ++ s = byte '"' :: (t.runes.flatMap Rune.quoted ++ byte '"' :: s) := by
    intro t s
    simp [quote, show text "\"" = [byte '"'] from rfl]
  rw [hquote, hquote, List.cons.injEq] at h
  obtain ⟨hrunes, hs⟩ := Rune.flatMap_quoted_append_inj (hinText t) (hinText u) h.2
  rw [← flatMap_bytes_runes t, hrunes, flatMap_bytes_runes]
  exact ⟨rfl, hs⟩

end SuiteScribe
