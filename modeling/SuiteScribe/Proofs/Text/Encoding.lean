import SuiteScribe.Proofs.Text.Utf8

/-!
# Reading characters back

The bytes of a character are read as that character, whatever follows them (`leading?_encode`).  So
the runes of an encoded list of characters are these characters (`runes_ofChars`), and a text is
UTF-8 exactly if it encodes a list of characters, which is then told by its runes
(`eq_ofChars_iff`, `isUtf8_iff`).
-/

namespace SuiteScribe.Text

section Leading

theorem trail?_ofNat {x : Nat} (hx : x < 64) : trail? (UInt8.ofNat (x + 0x80)) = some x := by
  have hb : (UInt8.ofNat (x + 0x80)).toNat = x + 0x80 := by
    rw [UInt8.toNat_ofNat']
    omega
  rw [trail?, if_pos (by omega), hb, Nat.add_sub_cancel]

theorem scalar?_toNat {c : Char} {least : Nat} (h : least ≤ c.toNat) :
    scalar? least c.toNat = some c := by
  rw [scalar?, if_pos ⟨h, c.valid⟩, Char.ofNat_toNat]

variable {c : Char}

theorem leading?_encode_one (h : c.toNat ≤ 0x7f) (rest : Text) :
    leading? (UInt8.ofNat c.toNat :: rest) = some (c, 0) := by
  have hb : (UInt8.ofNat c.toNat).toNat = c.toNat := by
    rw [UInt8.toNat_ofNat']
    omega
  simp only [leading?, hb]
  rw [if_pos (by omega), Char.ofNat_toNat]

theorem leading?_encode_two (least : 0x80 ≤ c.toNat) (h : c.toNat ≤ 0x7ff) (rest : Text) :
    leading? (UInt8.ofNat (c.toNat / 64 % 0x20 + 0xc0) :: UInt8.ofNat (c.toNat % 0x40 + 0x80)
      :: rest) = some (c, 1) := by
  have hb : (UInt8.ofNat (c.toNat / 64 % 0x20 + 0xc0)).toNat = c.toNat / 64 + 0xc0 := by
    rw [UInt8.toNat_ofNat']
    omega
  have hsum : (c.toNat / 64 + 0xc0 - 0xc0) * 64 + c.toNat % 0x40 = c.toNat := by omega
  simp only [leading?, hb, trail?_ofNat (Nat.mod_lt _ (by decide : 0 < 0x40))]
  rw [if_neg (by omega), if_neg (by omega), if_pos (by omega)]
  simp only [Option.bind_eq_bind, Option.bind_some, hsum, scalar?_toNat least, Option.pure_def]

theorem leading?_encode_three (least : 0x800 ≤ c.toNat) (h : c.toNat ≤ 0xffff) (rest : Text) :
    leading? (UInt8.ofNat (c.toNat / 4096 % 0x10 + 0xe0)
      :: UInt8.ofNat (c.toNat / 64 % 0x40 + 0x80) :: UInt8.ofNat (c.toNat % 0x40 + 0x80)
      :: rest) = some (c, 2) := by
  have hb : (UInt8.ofNat (c.toNat / 4096 % 0x10 + 0xe0)).toNat = c.toNat / 4096 + 0xe0 := by
    rw [UInt8.toNat_ofNat']
    omega
  have hsum : ((c.toNat / 4096 + 0xe0 - 0xe0) * 64 + c.toNat / 64 % 0x40) * 64 + c.toNat % 0x40
      = c.toNat := by
    omega
  simp only [leading?, hb, trail?_ofNat (Nat.mod_lt _ (by decide : 0 < 0x40))]
  rw [if_neg (by omega), if_neg (by omega), if_neg (by omega), if_pos (by omega)]
  simp only [Option.bind_eq_bind, Option.bind_some, hsum, scalar?_toNat least, Option.pure_def]

theorem leading?_encode_four (least : 0x10000 ≤ c.toNat) (rest : Text) :
    leading? (UInt8.ofNat (c.toNat / 262144 % 0x08 + 0xf0)
      :: UInt8.ofNat (c.toNat / 4096 % 0x40 + 0x80) :: UInt8.ofNat (c.toNat / 64 % 0x40 + 0x80)
      :: UInt8.ofNat (c.toNat % 0x40 + 0x80) :: rest) = some (c, 3) := by
  have hc : c.toNat < 0xd800 ∨ 0xdfff < c.toNat ∧ c.toNat < 0x110000 := c.valid
  have hb : (UInt8.ofNat (c.toNat / 262144 % 0x08 + 0xf0)).toNat = c.toNat / 262144 + 0xf0 := by
    rw [UInt8.toNat_ofNat']
    omega
  have hsum : (((c.toNat / 262144 + 0xf0 - 0xf0) * 64 + c.toNat / 4096 % 0x40) * 64
      + c.toNat / 64 % 0x40) * 64 + c.toNat % 0x40 = c.toNat := by
    omega
  simp only [leading?, hb, trail?_ofNat (Nat.mod_lt _ (by decide : 0 < 0x40))]
  rw [if_neg (by omega), if_neg (by omega), if_neg (by omega), if_neg (by omega),
    if_pos (by omega)]
  simp only [Option.bind_eq_bind, Option.bind_some, hsum, scalar?_toNat least, Option.pure_def]

/-- A character is read from its bytes, whatever follows them. -/
theorem leading?_encode (c : Char) (rest : Text) :
    leading? (String.utf8EncodeChar c ++ rest)
      = some (c, (String.utf8EncodeChar c).length - 1) := by
  unfold String.utf8EncodeChar
  simp only [Char.toNat_val]
  split_ifs with h1 h2 h3
  · exact leading?_encode_one h1 rest
  · exact leading?_encode_two (by omega) h2 rest
  · exact leading?_encode_three (by omega) h3 rest
  · exact leading?_encode_four (by omega) rest

end Leading

theorem runesFrom_append_length (s t : Text) : runesFrom s.length (s ++ t) = runesFrom 0 t := by
  induction s with
  | nil => rfl
  | cons b s ih => exact ih

/-- The bytes of a character are read as that character, whatever follows them. -/
theorem runes_encode_append (c : Char) (t : Text) :
    runes (String.utf8EncodeChar c ++ t) = .char c :: runes t := by
  obtain ⟨b, bs, hc⟩ := List.exists_cons_of_ne_nil (String.utf8EncodeChar_ne_nil (c := c))
  have hlead := leading?_encode c t
  rw [hc] at hlead ⊢
  rw [List.cons_append] at hlead ⊢
  rw [runes, runesFrom, hlead]
  exact congrArg _ (runesFrom_append_length bs t)

/-- The runes of encoded characters are these characters. -/
theorem runes_ofChars (cs : List Char) : (ofChars cs).runes = cs.map .char := by
  induction cs with
  | nil => rfl
  | cons c cs ih =>
    rw [List.map_cons, ← ih]
    exact runes_encode_append c (ofChars cs)

theorem flatMap_bytes_char (cs : List Char) :
    (cs.map Rune.char).flatMap Rune.bytes = ofChars cs := by
  rw [List.flatMap_map]
  rfl

/-- A text encodes characters exactly if they are its runes. -/
theorem eq_ofChars_iff {t : Text} {cs : List Char} : t = ofChars cs ↔ t.runes = cs.map .char := by
  constructor
  · rintro rfl
    exact runes_ofChars cs
  · intro h
    rw [← flatMap_bytes_runes t, h, flatMap_bytes_char]

theorem exists_map_char_of_all {rs : List Rune} {p : Char → Bool}
    (h : rs.all (·.isCharWith p) = true) :
    ∃ cs : List Char, rs = cs.map .char ∧ ∀ c ∈ cs, p c = true := by
  induction rs with
  | nil => exact ⟨[], rfl, List.forall_mem_nil _⟩
  | cons r rs ih =>
    rw [List.all_cons, Bool.and_eq_true] at h
    obtain ⟨cs, rfl, hcs⟩ := ih h.2
    cases r with
    | char c => exact ⟨c :: cs, rfl, List.forall_mem_cons.2 ⟨h.1, hcs⟩⟩
    | stray b => exact absurd h.1 Bool.false_ne_true

theorem all_map_char {cs : List Char} {p : Char → Bool} (h : ∀ c ∈ cs, p c = true) :
    (cs.map Rune.char).all (·.isCharWith p) = true := by
  rw [List.all_map, List.all_eq_true]
  exact h

/-- A text is UTF-8 exactly if it encodes characters. -/
theorem isUtf8_iff {t : Text} : t.isUtf8 = true ↔ ∃ cs, t = ofChars cs := by
  constructor
  · intro h
    obtain ⟨cs, hcs, -⟩ := exists_map_char_of_all h
    exact ⟨cs, eq_ofChars_iff.2 hcs⟩
  · rintro ⟨cs, rfl⟩
    rw [isUtf8, runes_ofChars]
    exact all_map_char fun _ _ => rfl

end SuiteScribe.Text
