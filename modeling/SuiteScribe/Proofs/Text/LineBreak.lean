import SuiteScribe.Proofs.Text.CaseMap
import SuiteScribe.Text.Identifier
import SuiteScribe.Text.Quoted

/-!
# Line breaks

What is put together from texts has a line break exactly if one of them has.  A change of case
neither makes nor loses one, and a quoted text, a number in digits and an identifier have none.
Lines without one can be read back from the text they make up (`splitLines_ofLines`).
-/

namespace SuiteScribe

/-- Whether the character is a carriage return or a line feed. -/
def endsLine (c : Char) : Bool :=
  c == '\r' || c == '\n'

namespace Text

/-- Whether the byte is a carriage return or a line feed. -/
def breaks (b : UInt8) : Bool :=
  b == byte '\r' || b == byte '\n'

/-- Lines, each with a line feed behind it. -/
def ofLines (ls : List Text) : Text :=
  ls.flatMap (· ++ text "\n")

/-- The text cut at every carriage return and every line feed. -/
def splitLines (t : Text) : List Text :=
  t.splitOnP breaks

section Pieces

@[simp] theorem hasLineBreak_nil : hasLineBreak [] = false := rfl

@[simp] theorem hasLineBreak_cons (b : UInt8) (t : Text) :
    hasLineBreak (b :: t) = (breaks b || t.hasLineBreak) := rfl

@[simp] theorem hasLineBreak_append (t u : Text) :
    hasLineBreak (t ++ u) = (t.hasLineBreak || u.hasLineBreak) :=
  List.any_append

theorem hasLineBreak_flatMap {α : Type} (f : α → Text) (xs : List α) :
    hasLineBreak (xs.flatMap f) = xs.any fun x => (f x).hasLineBreak :=
  List.any_flatMap

/-- Joined texts have a line break if one of them has, unless the separator has one. -/
theorem hasLineBreak_intercalate {sep : Text} (h : sep.hasLineBreak = false) (ts : List Text) :
    hasLineBreak (sep.intercalate ts) = ts.any hasLineBreak := by
  induction ts with
  | nil => rfl
  | cons t ts ih =>
    cases ts with
    | nil => simp
    | cons u ts => simp [List.intercalate_cons_cons, ih, h]

end Pieces

section Characters

/-- The bytes of a character are a line break only if the character is one. -/
theorem hasLineBreak_encode (c : Char) : hasLineBreak (String.utf8EncodeChar c) = endsLine c := by
  rw [Bool.eq_iff_iff]
  simp only [hasLineBreak, endsLine, List.any_eq_true, Bool.or_eq_true, beq_iff_eq]
  constructor
  · rintro ⟨b, hb, rfl | rfl⟩
    · exact .inl (Char.toNat_inj.1 ((mem_encode_iff (by decide)).1 hb))
    · exact .inr (Char.toNat_inj.1 ((mem_encode_iff (by decide)).1 hb))
  · rintro (rfl | rfl)
    · exact ⟨byte '\r', by decide, .inl rfl⟩
    · exact ⟨byte '\n', by decide, .inr rfl⟩

theorem hasLineBreak_ofChars (cs : List Char) : hasLineBreak (ofChars cs) = cs.any endsLine := by
  simp only [ofChars, hasLineBreak_flatMap, hasLineBreak_encode]

@[simp] theorem hasLineBreak_text (s : String) :
    hasLineBreak (text s) = s.toList.any endsLine :=
  hasLineBreak_ofChars s.toList

theorem breaks_of_lt {b : UInt8} (h : 13 < b.toNat) : breaks b = false := by
  simp only [breaks, Bool.or_eq_false_iff, beq_eq_false_iff_ne]
  constructor <;> rintro rfl <;> exact absurd h (by decide)

theorem hasLineBreak_bytes {t : Text} {r : Rune} (h : r ∈ t.runes) :
    hasLineBreak r.bytes = endsLine r.shown := by
  cases r with
  | char c => exact hasLineBreak_encode c
  | stray b =>
    have hb : 0x80 ≤ b.toNat := le_of_stray_mem_runesFrom h
    simp only [Rune.bytes, Rune.shown, hasLineBreak_cons, hasLineBreak_nil,
      breaks_of_lt (show 13 < b.toNat by omega)]
    decide

/-- A text has a line break exactly if one of its characters is one. -/
theorem hasLineBreak_eq_any_runes (t : Text) :
    hasLineBreak t = t.runes.any fun r => endsLine r.shown := by
  conv_lhs => rw [← flatMap_bytes_runes t, hasLineBreak_flatMap]
  rw [Bool.eq_iff_iff, List.any_eq_true, List.any_eq_true]
  exact exists_congr fun r => and_congr_right fun hr => by rw [hasLineBreak_bytes hr]

end Characters

section Digits

theorem breaks_digitChar : ∀ k < 16, breaks (byte k.digitChar) = false := by
  decide

theorem hasLineBreak_hex (width n : Nat) : hasLineBreak (hex width n) = false := by
  simp only [hasLineBreak, hex, List.any_map, List.any_eq_false]
  intro i _
  exact Bool.eq_false_iff.1 (breaks_digitChar _ (Nat.mod_lt _ (by decide)))

theorem breaks_of_isDigit {c : Char} (h : c.isDigit = true) : breaks (byte c) = false := by
  have hc : 48 ≤ c.toNat ∧ c.toNat ≤ 57 := by
    simpa [Char.isDigit, UInt32.le_iff_toNat_le] using h
  have hb : (byte c).toNat = c.toNat % 256 := UInt8.toNat_ofNat'
  exact breaks_of_lt (by omega)

theorem hasLineBreak_ofNat (n : Nat) : hasLineBreak (ofNat n) = false := by
  simp only [hasLineBreak, ofNat, List.any_map, List.any_eq_false]
  intro c hc
  exact Bool.eq_false_iff.1
    (breaks_of_isDigit (Nat.isDigit_of_mem_toDigits (by decide) (by decide) hc))

theorem hasLineBreak_ofInt : ∀ i : Int, hasLineBreak (ofInt i) = false
  | .ofNat n => hasLineBreak_ofNat n
  | .negSucc n => hasLineBreak_ofNat (n + 1)

end Digits

section Quoted

theorem hasLineBreak_escape (c : Char) : hasLineBreak (Rune.escape c) = false := by
  unfold Rune.escape Rune.escapeLetter?
  split
  · rename_i letter h
    split at h <;> cases h <;> decide
  · split_ifs <;> simp [hasLineBreak_hex, endsLine]

theorem endsLine_of_isPrintable {c : Char} (h : isPrintable c = true) : endsLine c = false := by
  simp only [endsLine, Bool.or_eq_false_iff, beq_eq_false_iff_ne]
  constructor <;> rintro rfl <;> exact absurd h (by decide +kernel)

/-- A rune that would break the line is escaped. -/
theorem hasLineBreak_quoted (r : Rune) : hasLineBreak r.quoted = false := by
  cases r with
  | stray b => simp [Rune.quoted, hasLineBreak_hex, endsLine]
  | char c =>
    simp only [Rune.quoted]
    split_ifs with hq hp
    · rcases hq with rfl | rfl <;> decide
    · rw [hasLineBreak_encode, endsLine_of_isPrintable hp]
    · exact hasLineBreak_escape c

@[simp] theorem hasLineBreak_quote (t : Text) : hasLineBreak t.quote = false := by
  simp [quote, hasLineBreak_flatMap, hasLineBreak_quoted, endsLine]

end Quoted

section Case

theorem endsLine_iff {c : Char} : endsLine c = true ↔ c.toNat = 13 ∨ c.toNat = 10 := by
  simp only [endsLine, Bool.or_eq_true, beq_iff_eq, ← Char.toNat_inj]
  rfl

/-- A change of case neither makes a line break nor loses one. -/
theorem endsLine_of_keepsFront {f : Char → Char} (h : KeepsFront f) (c : Char) :
    endsLine (f c) = endsLine c := by
  rw [Bool.eq_iff_iff, endsLine_iff, endsLine_iff, h.toNat_eq_iff (by decide),
    h.toNat_eq_iff (by decide)]

@[simp] theorem hasLineBreak_capitalize (t : Text) :
    hasLineBreak t.capitalize = t.hasLineBreak := by
  rw [hasLineBreak_eq_any_runes t]
  unfold capitalize
  rcases t.runes with _ | ⟨r, rest⟩
  · rfl
  · simp only [hasLineBreak_ofChars, List.any_cons, List.any_map, Function.comp_def,
      endsLine_of_keepsFront keepsFront_upper, endsLine_of_keepsFront keepsFront_lower]

end Case

section Identifier

theorem endsLine_of_continuesIdentifier {c : Char} (h : continuesIdentifier c = true) :
    endsLine c = false := by
  simp only [endsLine, Bool.or_eq_false_iff, beq_eq_false_iff_ne]
  constructor <;> rintro rfl <;> exact absurd h (by decide +kernel)

theorem endsLine_of_isCharWith {p : Char → Bool} (hp : ∀ c, p c = true → endsLine c = false)
    {r : Rune} (h : r.isCharWith p = true) : endsLine r.shown = false := by
  cases r with
  | char c => exact hp c h
  | stray b => cases h

/-- No line break continues an identifier. -/
theorem hasLineBreak_of_isIdentifier {t : Text} (h : t.isIdentifier = true) :
    t.hasLineBreak = false := by
  rw [hasLineBreak_eq_any_runes]
  unfold isIdentifier at h
  rcases hr : t.runes with _ | ⟨r, rest⟩
  · rfl
  · rw [hr] at h
    simp only [Bool.and_eq_true, List.all_eq_true] at h
    have hstart : ∀ c, startsIdentifier c = true → endsLine c = false := fun c hc =>
      endsLine_of_continuesIdentifier (by rw [continuesIdentifier, hc, Bool.true_or])
    rw [List.any_cons, endsLine_of_isCharWith hstart h.1, Bool.false_or, List.any_eq_false]
    intro q hq
    rw [endsLine_of_isCharWith (fun c => endsLine_of_continuesIdentifier) (h.2 q hq)]
    decide

end Identifier

section Lines

/-- The lines of a text have no line break in them. -/
theorem hasLineBreak_of_mem_splitLines : ∀ {t l : Text}, l ∈ t.splitLines →
    l.hasLineBreak = false
  | [], l, h => by
    rw [splitLines, List.splitOnP_nil, List.mem_singleton] at h
    rw [h, hasLineBreak_nil]
  | b :: t, l, h => by
    rw [splitLines, List.splitOnP_cons_eq_if_modifyHead] at h
    split_ifs at h with hb
    · rcases List.mem_cons.1 h with rfl | h
      · exact hasLineBreak_nil
      · exact hasLineBreak_of_mem_splitLines (t := t) h
    · rcases hs : t.splitOnP breaks with _ | ⟨u, us⟩
      · exact absurd hs (List.splitOnP_ne_nil _ _)
      · rw [hs, List.modifyHead_cons] at h
        rcases List.mem_cons.1 h with rfl | h
        · have hu : u ∈ splitLines t := by rw [splitLines, hs]; exact List.mem_cons_self
          rw [hasLineBreak_cons, Bool.eq_false_iff.2 hb, hasLineBreak_of_mem_splitLines hu]
          rfl
        · have hl : l ∈ splitLines t := by rw [splitLines, hs]; exact List.mem_cons_of_mem _ h
          exact hasLineBreak_of_mem_splitLines hl

/-- Lines are read back from the text they make up exactly if none of them has a line break. -/
theorem splitLines_ofLines_iff (ls : List Text) :
    (ofLines ls).splitLines = ls ++ [[]] ↔ ∀ l ∈ ls, l.hasLineBreak = false := by
  constructor
  · intro h l hl
    exact hasLineBreak_of_mem_splitLines (h ▸ List.mem_append_left _ hl)
  · intro h
    induction ls with
    | nil => rfl
    | cons l ls ih =>
      have hl : ∀ b ∈ l, breaks b = false := by
        simpa [hasLineBreak, breaks] using h l List.mem_cons_self
      have hls := ih fun l hl => h l (List.mem_cons_of_mem _ hl)
      have hcons : ofLines (l :: ls) = l ++ byte '\n' :: ofLines ls := by
        simp [ofLines, show text "\n" = [byte '\n'] from rfl]
      rw [hcons, splitLines, List.splitOnP_append_cons_of_forall_mem hl _ (by decide)]
      exact congrArg (l :: ·) hls

end Lines

end Text

end SuiteScribe
