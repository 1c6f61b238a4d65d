import Mathlib.Data.List.Infix
import SuiteScribe.Proofs.Text.LineBreak

/-!
# What a change of case does to a part of a text

An ASCII byte is a character of its own wherever it stands, so a text can be cut before it and read
piece by piece (`runes_append_cons`).  A part of a text that starts and ends with ASCII bytes in
front of the letters is therefore in lower case once the text is, and also once the text is
capitalized, since its first byte has no case (`lowercase_infix_capitalize`).
-/

namespace SuiteScribe.Text

section Runes

variable {c : UInt8}

theorem trail?_of_ascii (hc : c.toNat < 0x80) : trail? c = none := by
  rw [trail?, if_neg (by omega)]

/-- An ASCII byte does not go on with a character that is begun before it. -/
theorem leading?_append_cons (hc : c.toNat < 0x80) (b : UInt8) (t u : Text) :
    leading? (b :: (t ++ c :: u)) = leading? (b :: t) := by
  have htrail := trail?_of_ascii hc
  rcases t with _ | ⟨b1, _ | ⟨b2, _ | ⟨b3, t⟩⟩⟩ <;> rcases u with _ | ⟨u1, _ | ⟨u2, u⟩⟩ <;>
    simp [leading?, htrail]

theorem le_of_leading? {b : UInt8} {t : Text} {d : Char} {more : Nat}
    (h : leading? (b :: t) = some (d, more)) : more ≤ t.length := by
  unfold leading? at h
  simp only [] at h
  split_ifs at h
  · simp only [Option.some.injEq, Prod.mk.injEq] at h
    omega
  · rcases t with _ | ⟨b1, t⟩ <;>
      simp only [reduceCtorEq, Option.bind_eq_bind, Option.bind_eq_some_iff, Option.pure_def,
        Option.some.injEq, Prod.mk.injEq] at h
    obtain ⟨-, -, -, -, -, rfl⟩ := h
    simp
  · rcases t with _ | ⟨b1, _ | ⟨b2, t⟩⟩ <;>
      simp only [reduceCtorEq, Option.bind_eq_bind, Option.bind_eq_some_iff, Option.pure_def,
        Option.some.injEq, Prod.mk.injEq] at h
    obtain ⟨-, -, -, -, -, -, -, rfl⟩ := h
    simp
  · rcases t with _ | ⟨b1, _ | ⟨b2, _ | ⟨b3, t⟩⟩⟩ <;>
      simp only [reduceCtorEq, Option.bind_eq_bind, Option.bind_eq_some_iff, Option.pure_def,
        Option.some.injEq, Prod.mk.injEq] at h
    obtain ⟨-, -, -, -, -, -, -, -, -, rfl⟩ := h
    simp

theorem runesFrom_append_cons (hc : c.toNat < 0x80) (u : Text) : ∀ (skip : Nat) (t : Text),
    skip ≤ t.length → runesFrom skip (t ++ c :: u) = runesFrom skip t ++ runesFrom 0 (c :: u)
  | skip, [], h => by
    obtain rfl : skip = 0 := by simpa using h
    rfl
  | skip + 1, _ :: t, h => runesFrom_append_cons hc u skip t (by simpa using h)
  | 0, b :: t, _ => by
    rw [List.cons_append, runesFrom, runesFrom, leading?_append_cons hc]
    rcases hb : leading? (b :: t) with _ | ⟨d, more⟩
    · simp [runesFrom_append_cons hc u 0 t (Nat.zero_le _)]
    · simp [runesFrom_append_cons hc u more t (le_of_leading? hb)]

theorem runes_cons_of_ascii (hc : c.toNat < 0x80) (u : Text) :
    runes (c :: u) = .char (Char.ofNat c.toNat) :: runes u := by
  have hlead : leading? (c :: u) = some (Char.ofNat c.toNat, 0) := by simp [leading?, hc]
  rw [runes, runesFrom, hlead]
  rfl

/-- No character reaches across an ASCII byte. -/
theorem runes_append_cons (hc : c.toNat < 0x80) (t u : Text) :
    runes (t ++ c :: u) = runes t ++ .char (Char.ofNat c.toNat) :: runes u := by
  rw [← runes_cons_of_ascii hc]
  exact runesFrom_append_cons hc u 0 t (Nat.zero_le _)

end Runes

section Enclosed

/-- The text starts and ends with an ASCII byte in front of the letters. -/
def Enclosed (t : Text) : Prop :=
  ∃ c mid d, t = c :: (mid ++ [d]) ∧ c.toNat ≤ 64 ∧ d.toNat ≤ 64

theorem toNat_ofNat_toNat {b : UInt8} (h : b.toNat < 0x80) : (Char.ofNat b.toNat).toNat = b.toNat :=
  toNat_ofNat_of_isValidChar (.inl (by omega))

/-- A text can be cut at a byte in front of the letters, and each piece put in lower case. -/
theorem lowercase_append_cons {c : UInt8} (hc : c.toNat ≤ 64) (t u : Text) :
    lowercase (t ++ c :: u) = t.lowercase ++ c :: u.lowercase := by
  have hascii : c.toNat < 0x80 := by omega
  have hlower : lower (Char.ofNat c.toNat) = Char.ofNat c.toNat :=
    keepsFront_lower.eq_of_le (by rwa [toNat_ofNat_toNat hascii])
  simp [lowercase, runes_append_cons hascii, ofChars, Rune.shown, hlower, encode_one hascii]

theorem lowercase_nil : lowercase [] = [] := rfl

theorem lowercase_enclosed {c d : UInt8} (hc : c.toNat ≤ 64) (hd : d.toNat ≤ 64) (mid : Text) :
    lowercase (c :: (mid ++ [d])) = c :: (mid.lowercase ++ [d]) := by
  have hfirst := lowercase_append_cons hc [] (mid ++ [d])
  rwa [List.nil_append, lowercase_nil, List.nil_append, lowercase_append_cons hd,
    lowercase_nil] at hfirst

/-- An enclosed text in lower case is enclosed by the same bytes. -/
theorem Enclosed.lowercase {t : Text} (h : t.Enclosed) : t.lowercase.Enclosed := by
  obtain ⟨c, mid, d, rfl, hc, hd⟩ := h
  exact ⟨c, Text.lowercase mid, d, lowercase_enclosed hc hd mid, hc, hd⟩

theorem Enclosed.iterate_lowercase {t : Text} (h : t.Enclosed) (k : Nat) :
    (Text.lowercase^[k] t).Enclosed := by
  induction k with
  | zero => exact h
  | succ k ih =>
    rw [Function.iterate_succ_apply']
    exact ih.lowercase

theorem ofChars_append (cs ds : List Char) : ofChars (cs ++ ds) = ofChars cs ++ ofChars ds :=
  List.flatMap_append

theorem exists_capitalize_append_cons {c : UInt8} (hc : c.toNat ≤ 64) (t u : Text) :
    ∃ t', capitalize (t ++ c :: u) = t' ++ c :: u.lowercase := by
  have hascii : c.toNat < 0x80 := by omega
  have hle : (Char.ofNat c.toNat).toNat ≤ 64 := by rwa [toNat_ofNat_toNat hascii]
  have hrest : ofChars ((.char (Char.ofNat c.toNat) :: u.runes).map fun r => lower r.shown)
      = c :: u.lowercase := by
    have h := lowercase_append_cons hc [] u
    rwa [List.nil_append, lowercase, runes_cons_of_ascii hascii] at h
  rw [capitalize, runes_append_cons hascii]
  rcases t.runes with _ | ⟨r, rs⟩
  · refine ⟨[], ?_⟩
    rw [← hrest]
    simp [Rune.shown, keepsFront_upper.eq_of_le hle, keepsFront_lower.eq_of_le hle]
  · refine ⟨ofChars (upper r.shown :: rs.map fun r => lower r.shown), ?_⟩
    rw [← hrest, ← ofChars_append]
    simp

/-- Only the first character of a text goes to upper case, and the first of an enclosed part has no
case. -/
theorem lowercase_infix_capitalize {t u : Text} (ht : t.Enclosed) (h : t <:+: u) :
    t.lowercase <:+: u.capitalize := by
  obtain ⟨c, mid, d, rfl, hc, hd⟩ := ht
  obtain ⟨before, after, rfl⟩ := h
  have hcut : before ++ c :: (mid ++ [d]) ++ after = before ++ c :: (mid ++ d :: after) := by simp
  obtain ⟨before', heq⟩ := exists_capitalize_append_cons hc before (mid ++ d :: after)
  rw [hcut, heq, lowercase_enclosed hc hd, lowercase_append_cons hd]
  exact ⟨before', lowercase after, by simp⟩

end Enclosed

end SuiteScribe.Text
