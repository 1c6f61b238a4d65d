import Mathlib.Data.List.Basic
import SuiteScribe.Text.Utf8

/-!
# Runes keep every byte

The character that `leading?` finds encodes to the bytes it was read from, so the bytes of the
runes of a text, one after another, are the text.  An ASCII byte always stands for its own
character: it is neither stray nor part of the encoding of another one.
-/

namespace SuiteScribe

/-- The bytes of a literal tell which it is. -/
@[simp] theorem text_inj {s t : String} : text s = text t ↔ s = t := by
  refine ⟨fun h => ?_, fun h => by rw [h]⟩
  have hencode : s.toList.utf8Encode = t.toList.utf8Encode := congrArg List.toByteArray h
  rw [String.utf8Encode_toList, String.utf8Encode_toList] at hencode
  exact String.toByteArray_inj.1 hencode

theorem toNat_ofNat_of_isValidChar {n : Nat} (h : n.isValidChar) : (Char.ofNat n).toNat = n := by
  rw [Char.ofNat, dif_pos h]
  exact UInt32.toNat_ofNatLT

namespace Text

theorem eq_of_trail?_eq_some {b : UInt8} {x : Nat} (h : trail? b = some x) :
    b = UInt8.ofNat (x + 0x80) ∧ x < 64 := by
  unfold trail? at h
  split_ifs at h with hb
  simp only [Option.some.injEq] at h
  subst h
  refine ⟨?_, by omega⟩
  rw [Nat.sub_add_cancel hb.1, UInt8.ofNat_toNat]

theorem toNat_of_scalar?_eq_some {least n : Nat} {c : Char} (h : scalar? least n = some c) :
    c.toNat = n ∧ least ≤ n := by
  unfold scalar? at h
  split_ifs at h with hn
  simp only [Option.some.injEq] at h
  subst h
  exact ⟨toNat_ofNat_of_isValidChar hn.2, hn.1⟩

theorem encode_one {b : UInt8} (hb : b.toNat < 0x80) :
    String.utf8EncodeChar (Char.ofNat b.toNat) = [b] := by
  have hc : (Char.ofNat b.toNat).val.toNat = b.toNat :=
    toNat_ofNat_of_isValidChar (Or.inl (by omega))
  unfold String.utf8EncodeChar
  simp only [hc]
  rw [if_pos (by omega), UInt8.ofNat_toNat]

theorem encode_two {b : UInt8} {c : Char} {x : Nat} (hb : 0xc0 ≤ b.toNat ∧ b.toNat < 0xe0)
    (hx : x < 64) (hc : c.toNat = (b.toNat - 0xc0) * 64 + x) (least : 0x80 ≤ c.toNat) :
    String.utf8EncodeChar c = [b, UInt8.ofNat (x + 0x80)] := by
  have h0 : c.toNat / 64 % 0x20 + 0xc0 = b.toNat := by omega
  have h1 : c.toNat % 0x40 = x := by omega
  unfold String.utf8EncodeChar
  simp only [Char.toNat_val]
  rw [if_neg (by omega), if_pos (by omega), h0, h1, UInt8.ofNat_toNat]

theorem encode_three {b : UInt8} {c : Char} {x y : Nat} (hb : 0xe0 ≤ b.toNat ∧ b.toNat < 0xf0)
    (hx : x < 64) (hy : y < 64) (hc : c.toNat = ((b.toNat - 0xe0) * 64 + x) * 64 + y)
    (least : 0x800 ≤ c.toNat) :
    String.utf8EncodeChar c = [b, UInt8.ofNat (x + 0x80), UInt8.ofNat (y + 0x80)] := by
  have h0 : c.toNat / 4096 % 0x10 + 0xe0 = b.toNat := by omega
  have h1 : c.toNat / 64 % 0x40 = x := by omega
  have h2 : c.toNat % 0x40 = y := by omega
  unfold String.utf8EncodeChar
  simp only [Char.toNat_val]
  rw [if_neg (by omega), if_neg (by omega), if_pos (by omega), h0, h1, h2, UInt8.ofNat_toNat]

theorem encode_four {b : UInt8} {c : Char} {x y z : Nat}
    (hb : 0xf0 ≤ b.toNat ∧ b.toNat < 0xf8) (hx : x < 64) (hy : y < 64) (hz : z < 64)
    (hc : c.toNat = (((b.toNat - 0xf0) * 64 + x) * 64 + y) * 64 + z) (least : 0x10000 ≤ c.toNat) :
    String.utf8EncodeChar c
      = [b, UInt8.ofNat (x + 0x80), UInt8.ofNat (y + 0x80), UInt8.ofNat (z + 0x80)] := by
  have h0 : c.toNat / 262144 % 0x08 + 0xf0 = b.toNat := by omega
  have h1 : c.toNat / 4096 % 0x40 = x := by omega
  have h2 : c.toNat / 64 % 0x40 = y := by omega
  have h3 : c.toNat % 0x40 = z := by omega
  unfold String.utf8EncodeChar
  simp only [Char.toNat_val]
  rw [if_neg (by omega), if_neg (by omega), if_neg (by omega), h0, h1, h2, h3, UInt8.ofNat_toNat]

/-- A character that a text starts with is encoded by the bytes that it is read from. -/
theorem encode_of_leading? {b : UInt8} {rest : Text} {c : Char} {more : Nat}
    (h : leading? (b :: rest) = some (c, more)) :
    String.utf8EncodeChar c = b :: rest.take more := by
  unfold leading? at h
  simp only [] at h
  split_ifs at h with h1 h2 h3 h4 h5
  · simp only [Option.some.injEq, Prod.mk.injEq] at h
    obtain ⟨rfl, rfl⟩ := h
    simpa using encode_one h1
  · rcases rest with _ | ⟨b1, rest⟩ <;>
      simp only [reduceCtorEq, Option.bind_eq_bind, Option.bind_eq_some_iff, Option.pure_def,
        Option.some.injEq, Prod.mk.injEq] at h
    obtain ⟨x, hx, d, hd, rfl, rfl⟩ := h
    obtain ⟨rfl, lx⟩ := eq_of_trail?_eq_some hx
    obtain ⟨hd, least⟩ := toNat_of_scalar?_eq_some hd
    exact encode_two ⟨by omega, h3⟩ lx hd (by omega)
  · rcases rest with _ | ⟨b1, _ | ⟨b2, rest⟩⟩ <;>
      simp only [reduceCtorEq, Option.bind_eq_bind, Option.bind_eq_some_iff, Option.pure_def,
        Option.some.injEq, Prod.mk.injEq] at h
    obtain ⟨x, hx, y, hy, d, hd, rfl, rfl⟩ := h
    obtain ⟨rfl, lx⟩ := eq_of_trail?_eq_some hx
    obtain ⟨rfl, ly⟩ := eq_of_trail?_eq_some hy
    obtain ⟨hd, least⟩ := toNat_of_scalar?_eq_some hd
    exact encode_three ⟨by omega, h4⟩ lx ly hd (by omega)
  · rcases rest with _ | ⟨b1, _ | ⟨b2, _ | ⟨b3, rest⟩⟩⟩ <;>
      simp only [reduceCtorEq, Option.bind_eq_bind, Option.bind_eq_some_iff, Option.pure_def,
        Option.some.injEq, Prod.mk.injEq] at h
    obtain ⟨x, hx, y, hy, z, hz, d, hd, rfl, rfl⟩ := h
    obtain ⟨rfl, lx⟩ := eq_of_trail?_eq_some hx
    obtain ⟨rfl, ly⟩ := eq_of_trail?_eq_some hy
    obtain ⟨rfl, lz⟩ := eq_of_trail?_eq_some hz
    obtain ⟨hd, least⟩ := toNat_of_scalar?_eq_some hd
    exact encode_four ⟨by omega, h5⟩ lx ly lz hd (by omega)

theorem flatMap_bytes_runesFrom : ∀ (skip : Nat) (t : Text),
    (runesFrom skip t).flatMap Rune.bytes = t.drop skip
  | _, [] => by simp [runesFrom]
  | skip + 1, _ :: rest => flatMap_bytes_runesFrom skip rest
  | 0, b :: rest => by
    unfold runesFrom
    rcases h : leading? (b :: rest) with _ | ⟨c, more⟩
    · simp [Rune.bytes, flatMap_bytes_runesFrom 0 rest]
    · simp [Rune.bytes, flatMap_bytes_runesFrom more rest, encode_of_leading? h]

/-- The bytes of its runes make up the text again. -/
theorem flatMap_bytes_runes (t : Text) : t.runes.flatMap Rune.bytes = t :=
  flatMap_bytes_runesFrom 0 t

theorem le_of_leading?_eq_none {b : UInt8} {rest : Text} (h : leading? (b :: rest) = none) :
    0x80 ≤ b.toNat := by
  by_contra hb
  simp [leading?, Nat.lt_of_not_le hb] at h

/-- An ASCII byte is never stray. -/
theorem le_of_stray_mem_runesFrom {b : UInt8} : ∀ {skip : Nat} {t : Text},
    .stray b ∈ runesFrom skip t → 0x80 ≤ b.toNat
  | _, [], h => by simp [runesFrom] at h
  | skip + 1, _ :: rest, h => le_of_stray_mem_runesFrom (t := rest) h
  | 0, a :: rest, h => by
    unfold runesFrom at h
    rcases ha : leading? (a :: rest) with _ | ⟨c, more⟩ <;> rw [ha] at h <;>
      simp only [List.mem_cons, Rune.stray.injEq, reduceCtorEq, false_or] at h
    · rcases h with rfl | h
      · exact le_of_leading?_eq_none ha
      · exact le_of_stray_mem_runesFrom h
    · exact le_of_stray_mem_runesFrom h

theorem mem_encode_iff {b : UInt8} {c : Char} (hb : b.toNat < 0x80) :
    b ∈ String.utf8EncodeChar c ↔ c.toNat = b.toNat := by
  have high : ∀ {n : Nat}, 0x80 ≤ n → n < 0x100 → b ≠ UInt8.ofNat n := by
    rintro n h h' rfl
    rw [UInt8.toNat_ofNat'] at hb
    omega
  unfold String.utf8EncodeChar
  simp only [Char.toNat_val]
  split_ifs with h1 h2 h3
  · rw [List.mem_singleton, ← UInt8.toNat_inj, UInt8.toNat_ofNat', Nat.mod_eq_of_lt (by omega)]
    exact eq_comm
  all_goals
    refine iff_of_false ?_ (by omega)
    simp only [List.mem_cons, List.not_mem_nil, or_false, not_or]
  · exact ⟨high (by omega) (by omega), high (by omega) (by omega)⟩
  · exact ⟨high (by omega) (by omega), high (by omega) (by omega), high (by omega) (by omega)⟩
  · exact ⟨high (by omega) (by omega), high (by omega) (by omega), high (by omega) (by omega),
      high (by omega) (by omega)⟩

end Text

end SuiteScribe
