import SuiteScribe.Proofs.Document.Numeral

/-!
# Texts of strings

`StringText` says which text writes which string, its closing quote included.  Reading a string
finds such a text at the front, and every such text is read, whatever follows it
(`string?_eq_some_iff`).

The one place where reading looks ahead is an escape that is half of a pair, and the bytes looked at
belong to the string in every text that is read (`StringText.lowUnit?_append`).
-/

namespace SuiteScribe.Json

open Text (byte)

section Blanks

/-- The text is white space between the parts of a document. -/
def Blank (t : Text) : Prop :=
  ∀ b ∈ t, isBlank b = true

theorem blank_nil : Blank [] :=
  List.forall_mem_nil _

theorem Blank.append {t u : Text} (ht : Blank t) (hu : Blank u) : Blank (t ++ u) :=
  List.forall_mem_append.2 ⟨ht, hu⟩

/-- Blanks in front of a text are skipped. -/
theorem skipBlanks_append {pre : Text} (h : Blank pre) (t : Text) :
    skipBlanks (pre ++ t) = skipBlanks t :=
  List.dropWhile_append_of_pos h

theorem exists_blank_append (t : Text) : ∃ pre, Blank pre ∧ t = pre ++ skipBlanks t :=
  ⟨t.takeWhile isBlank, fun _ hb => List.mem_takeWhile_imp hb,
    List.takeWhile_append_dropWhile.symm⟩

theorem exists_blank_of_skipBlanks {t after : Text} {c : UInt8} (h : skipBlanks t = c :: after) :
    ∃ pre, Blank pre ∧ t = pre ++ c :: after :=
  h ▸ exists_blank_append t

end Blanks

section Strings

/-- The code that the second half of a pair spells, if an escape stands there and is not the end. -/
def lowUnit? : Text → Option Nat
  | e :: u :: a :: b :: c :: d :: _ :: _ =>
    if e = byte '\\' ∧ u = byte 'u' then some (codeUnit a b c d) else none
  | _ => none

theorem escapedChar?_cons (a b c d e : UInt8) (rest : Text) :
    escapedChar? (a :: b :: c :: d :: e :: rest)
      = if isSurrogate (codeUnit a b c d) then
          match (lowUnit? (e :: rest)).bind (pair? (codeUnit a b c d)) with
          | some c => some (c, 10)
          | none => some ('�', 4)
        else some (Char.ofNat (codeUnit a b c d), 4) := by
  rcases rest with _ | ⟨u, _ | ⟨a2, _ | ⟨b2, _ | ⟨c2, _ | ⟨d2, _ | ⟨f, rest⟩⟩⟩⟩⟩⟩
  iterate 6 · rfl
  simp only [escapedChar?, lowUnit?]
  by_cases hmark : e = byte '\\' ∧ u = byte 'u'
  · rcases hpair : pair? (codeUnit a b c d) (codeUnit a2 b2 c2 d2) with _ | ch <;>
      simp only [if_pos hmark, Option.bind_some, hpair]
  · simp only [if_neg hmark, Option.bind_none]

theorem lowUnit?_append {v : Text} (h : 7 ≤ v.length) (rest : Text) :
    lowUnit? (v ++ rest) = lowUnit? v := by
  rcases v with _ | ⟨e, _ | ⟨u, _ | ⟨a, _ | ⟨b, _ | ⟨c, _ | ⟨d, _ | ⟨f, v⟩⟩⟩⟩⟩⟩⟩
  all_goals first | rfl | simp at h

theorem lowUnit?_of_ne {e : UInt8} (he : e ≠ byte '\\') (rest : Text) :
    lowUnit? (e :: rest) = none := by
  unfold lowUnit?
  split
  · rename_i heq
    obtain ⟨rfl, -⟩ := List.cons.inj heq
    rw [if_neg fun hand => he hand.1]
  · rfl

theorem lowUnit?_of_second_ne {e u : UInt8} (hu : u ≠ byte 'u') (rest : Text) :
    lowUnit? (e :: u :: rest) = none := by
  unfold lowUnit?
  split
  · rename_i heq
    simp only [List.cons.injEq] at heq
    obtain ⟨-, rfl, -⟩ := heq
    rw [if_neg fun hand => hu hand.2]
  · rfl

/-- An escape takes the four bytes of a code, or those of two codes and the mark between them, and
at least one byte stands behind it. -/
theorem length_of_escapedChar? {t : Text} {c : Char} {n : Nat}
    (h : escapedChar? t = some (c, n)) : (n = 4 ∨ n = 10) ∧ n < t.length := by
  rcases t with _ | ⟨a, _ | ⟨b, _ | ⟨c, _ | ⟨d, _ | ⟨e, rest⟩⟩⟩⟩⟩
  iterate 5 · cases h
  rw [escapedChar?_cons] at h
  split_ifs at h
  · split at h
    · rename_i hpair
      obtain ⟨low, hlow, -⟩ := Option.bind_eq_some_iff.1 hpair
      obtain ⟨-, rfl⟩ := Prod.mk.inj (Option.some.inj h)
      refine ⟨.inr rfl, ?_⟩
      by_contra hshort
      rcases rest with _ | ⟨u, _ | ⟨a2, _ | ⟨b2, _ | ⟨c2, _ | ⟨d2, _ | ⟨f, rest⟩⟩⟩⟩⟩⟩
      iterate 6 · cases hlow
      simp at hshort
    · obtain ⟨-, rfl⟩ := Prod.mk.inj (Option.some.inj h)
      simp
  · obtain ⟨-, rfl⟩ := Prod.mk.inj (Option.some.inj h)
    simp

/-- The text writes the string, from behind its opening quote to its closing quote. -/
inductive StringText : Text → Text → Prop
  | close : StringText [] [byte '"']
  | plain {b : UInt8} {s t : Text} (hb : isPlain b = true) (ht : StringText s t) :
    StringText (b :: s) (b :: t)
  | letter {e c : UInt8} {s t : Text} (he : escapedByte? e = some c) (ht : StringText s t) :
    StringText (c :: s) (byte '\\' :: e :: t)
  | code {digits s t : Text} {c : Char} (hc : escapedChar? (digits ++ t) = some (c, digits.length))
    (ht : StringText s t) :
    StringText (String.utf8EncodeChar c ++ s) (byte '\\' :: byte 'u' :: (digits ++ t))

theorem StringText.length_pos {s u : Text} (h : StringText s u) : 0 < u.length := by
  cases h <;> simp

theorem ne_u_of_escapedByte? {e c : UInt8} (h : escapedByte? e = some c) : e ≠ byte 'u' := by
  rintro rfl
  cases h

/-- Whether a string goes on with the second half of a pair is told by its own text. -/
theorem StringText.lowUnit?_append {s u : Text} (h : StringText s u) (rest : Text) :
    lowUnit? (u ++ rest) = lowUnit? u := by
  cases h with
  | close => rw [List.cons_append, lowUnit?_of_ne (by decide), lowUnit?_of_ne (by decide)]
  | plain hb ht =>
    simp only [isPlain, Bool.and_eq_true, bne_iff_ne, ne_eq] at hb
    rw [List.cons_append, lowUnit?_of_ne hb.2, lowUnit?_of_ne hb.2]
  | letter he ht =>
    have hu := ne_u_of_escapedByte? he
    rw [List.cons_append, List.cons_append, lowUnit?_of_second_ne hu, lowUnit?_of_second_ne hu]
  | code hc ht =>
    have hlength := (length_of_escapedChar? hc).1
    have hpos := ht.length_pos
    refine Json.lowUnit?_append ?_ rest
    simp only [List.length_cons, List.length_append]
    omega

theorem StringText.escapedChar?_append {s u digits : Text} (h : StringText s u)
    (hdigits : digits.length = 4 ∨ digits.length = 10) (rest : Text) :
    escapedChar? (digits ++ (u ++ rest)) = escapedChar? (digits ++ u) := by
  have hpos := h.length_pos
  rcases digits with _ | ⟨a, _ | ⟨b, _ | ⟨c, _ | ⟨d, digits⟩⟩⟩⟩
  iterate 4 · simp at hdigits
  rcases digits with _ | ⟨e, digits⟩
  · obtain ⟨e, u, rfl⟩ := List.exists_cons_of_length_pos hpos
    simp only [List.cons_append, List.nil_append]
    rw [escapedChar?_cons, escapedChar?_cons, ← List.cons_append, h.lowUnit?_append]
  · have hlength : 7 ≤ (e :: (digits ++ u)).length := by
      simp only [List.length_cons, List.length_append] at hdigits ⊢
      omega
    have hlow := Json.lowUnit?_append hlength rest
    rw [List.cons_append, List.append_assoc] at hlow
    simp only [List.cons_append]
    rw [escapedChar?_cons, escapedChar?_cons, hlow]

theorem stringFrom?_eq_drop : ∀ (skip : Nat) (read t : Text),
    stringFrom? skip read t = stringFrom? 0 read (t.drop skip)
  | 0, _, _ => rfl
  | _ + 1, _, [] => rfl
  | skip + 1, read, _ :: t => stringFrom?_eq_drop skip read t

/-- A string is read from its text whatever follows. -/
theorem StringText.stringFrom?_eq {s u : Text} (h : StringText s u) (read rest : Text) :
    stringFrom? 0 read (u ++ rest) = some (read.reverse ++ s, rest) := by
  induction h generalizing read with
  | close => simp [stringFrom?]
  | @plain b s t hb ht ih =>
    simp only [isPlain, Bool.and_eq_true, bne_iff_ne, ne_eq] at hb
    obtain ⟨⟨hquote, hzero⟩, hescape⟩ := hb
    rw [List.cons_append, stringFrom?.eq_def]
    simp only [if_neg hquote, if_neg hzero, if_neg hescape, ih]
    simp
  | @letter e c s t he ht ih =>
    have hnext : stringFrom? 1 (c :: read) (e :: (t ++ rest))
        = stringFrom? 0 (c :: read) (t ++ rest) := rfl
    rw [List.cons_append, List.cons_append, stringFrom?.eq_def]
    simp only [if_neg (ne_u_of_escapedByte? he), he, hnext, ih]
    simp
  | @code digits s t c hc ht ih =>
    have hread : escapedChar? (digits ++ (t ++ rest)) = some (c, digits.length) :=
      (ht.escapedChar?_append (length_of_escapedChar? hc).1 rest).trans hc
    have hnext (r : Text) : stringFrom? (digits.length + 1) r (byte 'u' :: (digits ++ (t ++ rest)))
        = stringFrom? 0 r (t ++ rest) := by
      rw [stringFrom?_eq_drop, List.drop_succ_cons, List.drop_left]
    rw [List.cons_append, List.cons_append, List.append_assoc, stringFrom?.eq_def]
    simp only [if_true, hread, hnext, ih]
    simp

/-- What is read as a string is the text of one. -/
theorem exists_stringText : ∀ (skip : Nat) (read t : Text) {s rest : Text},
    stringFrom? skip read t = some (s, rest) →
      ∃ s' u, s = read.reverse ++ s' ∧ t.drop skip = u ++ rest ∧ StringText s' u
  | 0, _, [], _, _, h => by cases h
  | _ + 1, _, [], _, _, h => by cases h
  | skip + 1, read, _ :: t, _, _, h => exists_stringText skip read t h
  | 0, read, b :: t, s, rest, h => by
    rw [stringFrom?.eq_def] at h
    simp only at h
    split_ifs at h with hquote hzero hescape
    · obtain ⟨rfl, rfl⟩ := Prod.mk.inj (Option.some.inj h)
      exact ⟨[], [b], (List.append_nil _).symm, rfl, hquote ▸ .close⟩
    · rcases t with _ | ⟨e, after⟩
      · cases h
      · simp only at h
        split_ifs at h with hu
        · rcases hc : escapedChar? after with _ | ⟨c, size⟩ <;> rw [hc] at h
          · cases h
          · obtain ⟨s', u, rfl, hdrop, htext⟩ := exists_stringText (size + 1) _ (e :: after) h
            obtain ⟨hsize, hlt⟩ := length_of_escapedChar? hc
            rw [List.drop_succ_cons] at hdrop
            have hafter : after = after.take size ++ (u ++ rest) := by
              rw [← hdrop, List.take_append_drop]
            have hlength : (after.take size).length = size := by
              rw [List.length_take]
              omega
            have hchar : escapedChar? (after.take size ++ u)
                = some (c, (after.take size).length) := by
              rw [← htext.escapedChar?_append (by omega) rest, ← hafter, hc, hlength]
            refine ⟨_, _, ?_, ?_, .code hchar htext⟩
            · simp
            · rw [hescape, hu, List.drop_zero, List.cons_append, List.cons_append,
                List.append_assoc, ← hafter]
        · rcases hc : escapedByte? e with _ | c <;> rw [hc] at h
          · cases h
          · obtain ⟨s', u, rfl, hdrop, htext⟩ := exists_stringText 1 _ (e :: after) h
            rw [List.drop_succ_cons, List.drop_zero] at hdrop
            refine ⟨c :: s', _, by simp, ?_, .letter hc htext⟩
            rw [hescape, hdrop]
            rfl
    · obtain ⟨s', u, rfl, hdrop, htext⟩ := exists_stringText 0 _ t h
      have hb : isPlain b = true := by
        simp only [isPlain, Bool.and_eq_true, bne_iff_ne, ne_eq]
        exact ⟨⟨hquote, hzero⟩, hescape⟩
      refine ⟨b :: s', b :: u, by simp, ?_, .plain hb htext⟩
      rw [List.drop_zero] at hdrop ⊢
      rw [hdrop]
      rfl

/-- The rest of a string is read exactly if it is written as the grammar says. -/
theorem string?_eq_some_iff {t s rest : Text} :
    string? t = some (s, rest) ↔ ∃ u, t = u ++ rest ∧ StringText s u := by
  constructor
  · intro h
    obtain ⟨s', u, rfl, rfl, htext⟩ := exists_stringText 0 [] t h
    exact ⟨u, rfl, htext⟩
  · rintro ⟨u, rfl, htext⟩
    exact htext.stringFrom?_eq [] rest

end Strings

end SuiteScribe.Json
