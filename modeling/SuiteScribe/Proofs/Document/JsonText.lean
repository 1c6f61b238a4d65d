import SuiteScribe.Proofs.Document.JsonString

/-!
# Texts of values

`Written` is the grammar of JSON as it is read here: which text writes which value.  What is read as
a value is a text of that value behind white space (`exists_value_text`), and a text of a value is
read as that value whatever follows it (`Written.value?_eq`); only a number has to come to an end.
-/

namespace SuiteScribe.Json

open Text (byte)

section Grammar

/-- What a text can write: a value, a value between white space, the items of a list, or the fields
of a mapping. -/
inductive Phrase where
  | value (v : Value)
  | padded (v : Value)
  | items (vs : List Value)
  | fields (fs : List (Text × Value))

/-- The text writes the key, between white space; null stands for the empty key. -/
inductive KeyText : Text → Text → Prop
  | string {pre post s t : Text} (hpre : Blank pre) (hpost : Blank post) (ht : StringText s t) :
    KeyText s (pre ++ (byte '"' :: t ++ post))
  | null {pre post : Text} (hpre : Blank pre) (hpost : Blank post) :
    KeyText [] (pre ++ (text "null" ++ post))

/-- The text writes the phrase, `depth` lists and mappings deep. -/
inductive Written : (depth : Nat) → Phrase → Text → Prop
  | nullWord {depth : Nat} : Written depth (.value .null) (text "null")
  | trueWord {depth : Nat} : Written depth (.value (.bool true)) (text "true")
  | falseWord {depth : Nat} : Written depth (.value (.bool false)) (text "false")
  | number {depth : Nat} {b : UInt8} {ds : Text}
    (hb : b = byte '-' ∨ 48 ≤ b.toNat ∧ b.toNat ≤ 57) (hds : ∀ d ∈ ds, continuesNumber d = true)
    (hnumber : Real.accepts (b :: ds) = true) : Written depth (.value (.number (b :: ds))) (b :: ds)
  | string {depth : Nat} {s t : Text} (ht : StringText s t) :
    Written depth (.value (.string s)) (byte '"' :: t)
  | emptyList {depth : Nat} {blank : Text} (hdepth : depth < maxDepth) (hblank : Blank blank) :
    Written depth (.value (.list [])) (byte '[' :: (blank ++ [byte ']']))
  | list {depth : Nat} {vs : List Value} {t : Text} (hdepth : depth < maxDepth)
    (ht : Written (depth + 1) (.items vs) t) :
    Written depth (.value (.list vs)) (byte '[' :: (t ++ [byte ']']))
  | emptyMapping {depth : Nat} {blank : Text} (hdepth : depth < maxDepth) (hblank : Blank blank) :
    Written depth (.value (.mapping [])) (byte '\x7b' :: (blank ++ [byte '\x7d']))
  | mapping {depth : Nat} {fs : List (Text × Value)} {t : Text} (hdepth : depth < maxDepth)
    (ht : Written (depth + 1) (.fields fs) t) :
    Written depth (.value (.mapping fs)) (byte '\x7b' :: (t ++ [byte '\x7d']))
  | padded {depth : Nat} {v : Value} {pre t post : Text} (hpre : Blank pre) (hpost : Blank post)
    (ht : Written depth (.value v) t) : Written depth (.padded v) (pre ++ (t ++ post))
  | lastItem {depth : Nat} {v : Value} {t : Text} (ht : Written depth (.padded v) t) :
    Written depth (.items [v]) t
  | nextItem {depth : Nat} {v : Value} {vs : List Value} {t ts : Text}
    (ht : Written depth (.padded v) t) (hts : Written depth (.items vs) ts) :
    Written depth (.items (v :: vs)) (t ++ byte ',' :: ts)
  | lastField {depth : Nat} {key : Text} {v : Value} {k t : Text} (hk : KeyText key k)
    (ht : Written depth (.padded v) t) : Written depth (.fields [(key, v)]) (k ++ byte ':' :: t)
  | nextField {depth : Nat} {key : Text} {v : Value} {fs : List (Text × Value)} {k t ts : Text}
    (hk : KeyText key k) (ht : Written depth (.padded v) t) (hts : Written depth (.fields fs) ts) :
    Written depth (.fields ((key, v) :: fs)) (k ++ byte ':' :: (t ++ byte ',' :: ts))

end Grammar

section Words

theorem afterWord?_eq_some_iff : ∀ {word t rest : Text},
    afterWord? word t = some rest ↔ t = word ++ rest
  | [], t, rest => by simp [afterWord?]
  | b :: word, [], rest => by simp [afterWord?]
  | b :: word, c :: t, rest => by
    rw [afterWord?, List.cons_append, List.cons.injEq, ← afterWord?_eq_some_iff]
    by_cases hbc : b = c
    · simp [hbc]
    · simp [hbc, Ne.symm hbc]

theorem eq_of_map_afterWord? {α : Type} {word t rest : Text} {a a' : α}
    (h : (afterWord? word t).map (fun rest => (a, rest)) = some (a', rest)) :
    a' = a ∧ t = word ++ rest := by
  obtain ⟨r, hword, hr⟩ := Option.map_eq_some_iff.1 h
  obtain ⟨rfl, rfl⟩ := Prod.mk.inj hr
  exact ⟨rfl, afterWord?_eq_some_iff.1 hword⟩

end Words

section Sound

/-- A number is read to the last byte that can belong to it, and has to be a numeral. -/
theorem exists_of_number? {b : UInt8} {t s rest : Text} (h : number? b t = some (s, rest)) :
    ∃ ds, s = b :: ds ∧ t = ds ++ rest ∧ (∀ d ∈ ds, continuesNumber d = true)
      ∧ Real.accepts (b :: ds) = true := by
  simp only [number?] at h
  split_ifs at h with haccepts
  obtain ⟨rfl, rfl⟩ := Prod.mk.inj (Option.some.inj h)
  exact ⟨_, rfl, List.takeWhile_append_dropWhile.symm, fun _ hd => List.mem_takeWhile_imp hd,
    haccepts⟩

/-- A key that is read stands there as the grammar says, up to its colon. -/
theorem exists_keyText {t key rest after : Text} {c : UInt8} (h : key? t = some (key, rest))
    (hafter : skipBlanks rest = c :: after) : ∃ k, t = k ++ c :: after ∧ KeyText key k := by
  obtain ⟨pre, hpre, ht⟩ := exists_blank_append t
  obtain ⟨post, hpost, hrest⟩ := exists_blank_of_skipBlanks hafter
  unfold key? at h
  rcases hskip : skipBlanks t with _ | ⟨b, u⟩ <;> rw [hskip] at h ht
  · cases h
  · simp only at h
    split_ifs at h with hb
    · obtain ⟨s, rfl, hs⟩ := string?_eq_some_iff.1 h
      refine ⟨_, ?_, .string hpre hpost hs⟩
      rw [ht, hb, hrest]
      simp
    · obtain ⟨rfl, hword⟩ := eq_of_map_afterWord? h
      refine ⟨_, ?_, .null hpre hpost⟩
      rw [ht, hword, hrest]
      simp

/-- A value that is read stands there with blanks around it, up to the byte behind it. -/
theorem exists_padded {depth : Nat} {v : Value} {t pre u rest after : Text} {c : UInt8}
    (hpre : Blank pre) (ht : t = pre ++ (u ++ rest)) (hu : Written depth (.value v) u)
    (hafter : skipBlanks rest = c :: after) :
    ∃ p, t = p ++ c :: after ∧ Written depth (.padded v) p := by
  obtain ⟨post, hpost, rfl⟩ := exists_blank_of_skipBlanks hafter
  refine ⟨_, ?_, .padded hpre hpost hu⟩
  rw [ht]
  simp

mutual

/-- What is read as a value is a text of the value behind white space. -/
theorem exists_value_text : ∀ (fuel depth : Nat) (t : Text) {v : Value} {rest : Text},
    value? fuel depth t = some (v, rest) →
      ∃ pre u, Blank pre ∧ t = pre ++ (u ++ rest) ∧ Written depth (.value v) u
  | 0, _, _, _, _, h => by cases h
  | fuel + 1, depth, t, v, rest, h => by
    obtain ⟨pre, hpre, ht⟩ := exists_blank_append t
    rw [value?] at h
    rcases hskip : skipBlanks t with _ | ⟨b, u⟩ <;> rw [hskip] at h ht
    · cases h
    · refine ⟨pre, ?_⟩
      simp only [hpre, ht, true_and, List.append_cancel_left_eq]
      simp only at h
      split_ifs at h with hbrace hdepth hbracket hdepth hquote hnumber htrue hfalse hnull
      · rcases hinner : skipBlanks u with _ | ⟨c, after⟩ <;> rw [hinner] at h
        · cases h
        · simp only at h
          split_ifs at h with hclose
          · obtain ⟨rfl, rfl⟩ := Prod.mk.inj (Option.some.inj h)
            obtain ⟨blank, hblank, rfl⟩ := exists_blank_of_skipBlanks hinner
            exact ⟨_, by simp [hbrace, hclose], .emptyMapping hdepth hblank⟩
          · obtain ⟨fs, ts, rfl, rfl, hts⟩ := exists_fields_text fuel (depth + 1) [] u h
            exact ⟨_, by simp [hbrace], .mapping hdepth hts⟩
      · rcases hinner : skipBlanks u with _ | ⟨c, after⟩ <;> rw [hinner] at h
        · cases h
        · simp only at h
          split_ifs at h with hclose
          · obtain ⟨rfl, rfl⟩ := Prod.mk.inj (Option.some.inj h)
            obtain ⟨blank, hblank, rfl⟩ := exists_blank_of_skipBlanks hinner
            exact ⟨_, by simp [hbracket, hclose], .emptyList hdepth hblank⟩
          · obtain ⟨vs, ts, rfl, rfl, hts⟩ := exists_items_text fuel (depth + 1) [] u h
            exact ⟨_, by simp [hbracket], .list hdepth hts⟩
      · obtain ⟨⟨s, r⟩, hs, hr⟩ := Option.map_eq_some_iff.1 h
        obtain ⟨rfl, rfl⟩ := Prod.mk.inj hr
        obtain ⟨w, rfl, hw⟩ := string?_eq_some_iff.1 hs
        exact ⟨_, by simp [hquote], .string hw⟩
      · obtain ⟨⟨s, r⟩, hs, hr⟩ := Option.map_eq_some_iff.1 h
        obtain ⟨rfl, rfl⟩ := Prod.mk.inj hr
        obtain ⟨ds, rfl, rfl, hds, haccepts⟩ := exists_of_number? hs
        exact ⟨_, rfl, .number hnumber hds haccepts⟩
      · obtain ⟨rfl, hword⟩ := eq_of_map_afterWord? h
        exact ⟨_, by rw [htrue, hword]; rfl, .trueWord⟩
      · obtain ⟨rfl, hword⟩ := eq_of_map_afterWord? h
        exact ⟨_, by rw [hfalse, hword]; rfl, .falseWord⟩
      · obtain ⟨rfl, hword⟩ := eq_of_map_afterWord? h
        exact ⟨_, by rw [hnull, hword]; rfl, .nullWord⟩

theorem exists_fields_text : ∀ (fuel depth : Nat) (acc : List (Text × Value)) (t : Text)
    {v : Value} {rest : Text}, fields? fuel depth acc t = some (v, rest) →
      ∃ fs u, v = .mapping (acc.reverse ++ fs) ∧ t = u ++ byte '\x7d' :: rest
        ∧ Written depth (.fields fs) u
  | 0, _, _, _, _, _, h => by cases h
  | fuel + 1, depth, acc, t, v, rest, h => by
    rw [fields?] at h
    obtain ⟨⟨key, r⟩, hkey, h⟩ := Option.bind_eq_some_iff.1 h
    rcases hskip : skipBlanks r with _ | ⟨colon, after⟩ <;> simp only [hskip] at h
    · cases h
    · obtain ⟨k, ht, hk⟩ := exists_keyText hkey hskip
      split_ifs at h with hcolon
      obtain ⟨⟨value, r'⟩, hvalue, h⟩ := Option.bind_eq_some_iff.1 h
      obtain ⟨pre, u, hpre, hafter, hu⟩ := exists_value_text fuel depth after hvalue
      rcases hskip' : skipBlanks r' with _ | ⟨b, after'⟩ <;> simp only [hskip'] at h
      · cases h
      · obtain ⟨p, hafter, hp⟩ := exists_padded hpre hafter hu hskip'
        split_ifs at h with hclose hcomma
        · obtain ⟨rfl, rfl⟩ := Prod.mk.inj (Option.some.inj h)
          exact ⟨[(key, value)], _, by simp, by simp [ht, hcolon, hafter, hclose], .lastField hk hp⟩
        · obtain ⟨fs, ts, rfl, rfl, hts⟩ := exists_fields_text fuel depth _ after' h
          exact ⟨(key, value) :: fs, _, by simp, by simp [ht, hcolon, hafter, hcomma],
            .nextField hk hp hts⟩

theorem exists_items_text : ∀ (fuel depth : Nat) (acc : List Value) (t : Text) {v : Value}
    {rest : Text}, items? fuel depth acc t = some (v, rest) →
      ∃ vs u, v = .list (acc.reverse ++ vs) ∧ t = u ++ byte ']' :: rest
        ∧ Written depth (.items vs) u
  | 0, _, _, _, _, _, h => by cases h
  | fuel + 1, depth, acc, t, v, rest, h => by
    rw [items?] at h
    obtain ⟨⟨item, r⟩, hitem, h⟩ := Option.bind_eq_some_iff.1 h
    obtain ⟨pre, u, hpre, ht, hu⟩ := exists_value_text fuel depth t hitem
    rcases hskip : skipBlanks r with _ | ⟨b, after⟩ <;> simp only [hskip] at h
    · cases h
    · obtain ⟨p, ht, hp⟩ := exists_padded hpre ht hu hskip
      split_ifs at h with hclose hcomma
      · obtain ⟨rfl, rfl⟩ := Prod.mk.inj (Option.some.inj h)
        exact ⟨[item], p, by simp, by rw [ht, hclose], .lastItem hp⟩
      · obtain ⟨vs, ts, rfl, rfl, hts⟩ := exists_items_text fuel depth _ after h
        refine ⟨item :: vs, _, by simp, ?_, .nextItem hp hts⟩
        rw [ht, hcomma]
        simp

end

end Sound

section Complete

/-- Whether a byte is none of those that stand before or behind what is in brackets. -/
def opens (b : UInt8) : Bool :=
  !isBlank b && b != byte ']' && b != byte '\x7d'

/-- Behind its white space the text starts with a byte that opens. -/
def Starts (t : Text) : Prop :=
  ∃ pre b u, Blank pre ∧ opens b = true ∧ t = pre ++ b :: u

theorem Starts.append {t : Text} (h : Starts t) (rest : Text) : Starts (t ++ rest) := by
  obtain ⟨pre, b, u, hpre, hb, rfl⟩ := h
  exact ⟨pre, b, u ++ rest, hpre, hb, List.append_assoc _ _ _⟩

theorem Starts.blank_append {pre t : Text} (hpre : Blank pre) (h : Starts t) :
    Starts (pre ++ t) := by
  obtain ⟨pre', b, u, hpre', hb, rfl⟩ := h
  exact ⟨pre ++ pre', b, u, hpre.append hpre', hb, (List.append_assoc _ _ _).symm⟩

theorem Starts.skipBlanks_eq {t : Text} (h : Starts t) :
    ∃ b u, skipBlanks t = b :: u ∧ b ≠ byte ']' ∧ b ≠ byte '\x7d' := by
  obtain ⟨pre, b, u, hpre, hb, rfl⟩ := h
  simp only [opens, Bool.and_eq_true, Bool.not_eq_true', bne_iff_ne] at hb
  exact ⟨b, u, by rw [skipBlanks_append hpre, skipBlanks_cons hb.1.1], hb.1.2, hb.2⟩

theorem starts_cons {b : UInt8} (hb : opens b = true) (u : Text) : Starts (b :: u) :=
  ⟨[], b, u, blank_nil, hb, rfl⟩

theorem KeyText.starts {key k : Text} (h : KeyText key k) : Starts k := by
  cases h with
  | string hpre => exact (starts_cons rfl _).blank_append hpre
  | null hpre => exact (starts_cons rfl _).blank_append hpre

theorem opens_of_continuesNumber {b : UInt8} (hb : continuesNumber b = true) :
    opens b = true := by
  simp only [opens, Bool.and_eq_true, Bool.not_eq_true', bne_iff_ne]
  exact ⟨⟨isBlank_of_continuesNumber hb, ne_of_continuesNumber hb rfl⟩,
    ne_of_continuesNumber hb rfl⟩

/-- No phrase of the grammar starts as a list or an object ends. -/
theorem Written.starts {depth : Nat} {p : Phrase} {t : Text} (h : Written depth p t) :
    Starts t := by
  induction h with
  | nullWord | trueWord | falseWord | string | emptyList | list | emptyMapping | mapping =>
    exact starts_cons rfl _
  | number hb => exact starts_cons (opens_of_continuesNumber (continuesNumber_of_start hb)) _
  | padded hpre _ _ ih => exact (ih.append _).blank_append hpre
  | lastItem _ ih => exact ih
  | nextItem _ _ ih _ => exact ih.append _
  | lastField hk | nextField hk => exact hk.starts.append _

theorem KeyText.key?_eq {key k : Text} (h : KeyText key k) (c : UInt8) (rest : Text) :
    ∃ post, Blank post ∧ key? (k ++ c :: rest) = some (key, post ++ c :: rest) := by
  cases h with
  | @string pre post _ t hpre hpost ht =>
    have hstring : string? (t ++ (post ++ c :: rest)) = some (key, post ++ c :: rest) :=
      string?_eq_some_iff.2 ⟨t, rfl, ht⟩
    refine ⟨post, hpost, ?_⟩
    rw [key?, List.append_assoc, skipBlanks_append hpre, List.cons_append, List.cons_append,
      List.append_assoc, skipBlanks_cons rfl]
    simp only [if_true, hstring]
  | @null pre post hpre hpost =>
    refine ⟨post, hpost, ?_⟩
    rw [key?, List.append_assoc, skipBlanks_append hpre, List.append_assoc]
    exact congrArg (Option.map fun rest => ([], rest))
      (afterWord?_eq_some_iff.2 (rfl : text "null" ++ (post ++ c :: rest) = _))

/-- The bytes that end a value in a list or a mapping. -/
def closers : Text :=
  [byte ',', byte ']', byte '\x7d']

/-- Whatever follows it, the text is read as the phrase with enough fuel.  A number has to come to
an end, and what is in brackets is followed by the closing one. -/
def Phrase.ReadFrom (depth : Nat) (t : Text) : Phrase → Prop
  | .value v => ∀ fuel rest, t.length ≤ fuel →
    (∀ s, v = .number s → ∀ b ∈ rest.head?, continuesNumber b = false) →
      value? fuel depth (t ++ rest) = some (v, rest)
  | .padded v => ∀ fuel c rest, t.length ≤ fuel → c ∈ closers →
    ∃ post, Blank post ∧ value? fuel depth (t ++ c :: rest) = some (v, post ++ c :: rest)
  | .items vs => ∀ fuel acc rest, t.length < fuel →
    items? fuel depth acc (t ++ byte ']' :: rest) = some (.list (acc.reverse ++ vs), rest)
  | .fields fs => ∀ fuel acc rest, t.length < fuel →
    fields? fuel depth acc (t ++ byte '\x7d' :: rest) = some (.mapping (acc.reverse ++ fs), rest)

theorem not_isBlank_of_closers {c : UInt8} (h : c ∈ closers) : isBlank c = false := by
  simp only [closers, List.mem_cons, List.not_mem_nil, or_false] at h
  rcases h with rfl | rfl | rfl <;> rfl

theorem Blank.not_continuesNumber {t : Text} (h : Blank t) :
    ∀ b ∈ t, continuesNumber b = false := by
  intro b hb
  rw [Bool.eq_false_iff]
  intro hcontinues
  have hblank := h b hb
  rw [isBlank_of_continuesNumber hcontinues] at hblank
  cases hblank

theorem not_continuesNumber_of_closers {c : UInt8} (h : c ∈ closers) :
    continuesNumber c = false := by
  simp only [closers, List.mem_cons, List.not_mem_nil, or_false] at h
  rcases h with rfl | rfl | rfl <;> rfl

/-- What stands behind a value in a list or an object does not go on with a number. -/
theorem not_continuesNumber_of_head {post : Text} {c : UInt8} (hpost : Blank post)
    (hc : c ∈ closers) (rest : Text) :
    ∀ b ∈ (post ++ c :: rest).head?, continuesNumber b = false := by
  intro b hb
  rcases post with _ | ⟨d, post⟩ <;> cases hb
  · exact not_continuesNumber_of_closers hc
  · exact hpost.not_continuesNumber b List.mem_cons_self

theorem value?_blank_append {pre : Text} (hpre : Blank pre) (fuel depth : Nat) (t : Text) :
    value? fuel depth (pre ++ t) = value? fuel depth t := by
  cases fuel with
  | zero => rfl
  | succ fuel => rw [value?, value?, skipBlanks_append hpre]

/-- An opening brace is followed by its closing brace or by fields. -/
theorem value?_brace {depth : Nat} {t after : Text} {c : UInt8} (hdepth : depth < maxDepth)
    (hskip : skipBlanks t = c :: after) (fuel : Nat) :
    value? (fuel + 1) depth (byte '\x7b' :: t)
      = if c = byte '\x7d' then some (.mapping [], after)
        else fields? fuel (depth + 1) [] t := by
  rw [value?, skipBlanks_cons rfl]
  simp only [if_true, if_pos hdepth, hskip]

theorem value?_bracket {depth : Nat} {t after : Text} {c : UInt8} (hdepth : depth < maxDepth)
    (hskip : skipBlanks t = c :: after) (fuel : Nat) :
    value? (fuel + 1) depth (byte '[' :: t)
      = if c = byte ']' then some (.list [], after) else items? fuel (depth + 1) [] t := by
  rw [value?, skipBlanks_cons rfl]
  simp only [if_neg (by decide : byte '[' ≠ byte '\x7b'), if_true, if_pos hdepth, hskip]

/-- An item is read, and behind a comma the next. -/
theorem items?_succ {fuel depth : Nat} {v : Value} {t post rest : Text} {c : UInt8}
    (hvalue : value? fuel depth t = some (v, post ++ c :: rest)) (hpost : Blank post)
    (hc : c ∈ closers) (acc : List Value) :
    items? (fuel + 1) depth acc t
      = if c = byte ']' then some (.list (v :: acc).reverse, rest)
        else if c = byte ',' then items? fuel depth (v :: acc) rest else none := by
  rw [items?, hvalue]
  simp only [Option.bind_eq_bind, Option.bind_some, skipBlanks_append hpost,
    skipBlanks_cons (not_isBlank_of_closers hc)]

theorem fields?_succ {fuel depth : Nat} {key k : Text} {v : Value} {t post rest : Text} {c : UInt8}
    (hk : KeyText key k) (hvalue : value? fuel depth t = some (v, post ++ c :: rest))
    (hpost : Blank post) (hc : c ∈ closers) (acc : List (Text × Value)) :
    fields? (fuel + 1) depth acc (k ++ byte ':' :: t)
      = if c = byte '\x7d' then some (.mapping ((key, v) :: acc).reverse, rest)
        else if c = byte ',' then fields? fuel depth ((key, v) :: acc) rest else none := by
  obtain ⟨pre, hpre, hkey⟩ := hk.key?_eq (byte ':') t
  rw [fields?, hkey]
  simp only [Option.bind_eq_bind, Option.bind_some, skipBlanks_append hpre,
    skipBlanks_cons (rfl : isBlank (byte ':') = false), if_true, hvalue, skipBlanks_append hpost,
    skipBlanks_cons (not_isBlank_of_closers hc)]

/-- What is written as the grammar says is read, with as much fuel as it is long. -/
theorem Written.readFrom {depth : Nat} {p : Phrase} {t : Text} (h : Written depth p t) :
    p.ReadFrom depth t := by
  -- A step takes one of the fuel and at least one byte, so fuel for every byte is enough; the
  -- items and the fields need one more, and have it from their closing bracket.
  induction h with
  | nullWord | trueWord | falseWord =>
    rintro (_ | fuel) rest hfuel -
    · cases hfuel
    · rfl
  | number hb hds hnumber =>
    rintro (_ | fuel) rest hfuel hrest
    · cases hfuel
    · rw [List.cons_append, value?_of_start hb, number?_append hds (hrest _ rfl), if_pos hnumber]
      rfl
  | @string depth s t ht =>
    rintro (_ | fuel) rest hfuel -
    · cases hfuel
    · have hstring : string? (t ++ rest) = some (s, rest) := string?_eq_some_iff.2 ⟨t, rfl, ht⟩
      rw [List.cons_append, value?, skipBlanks_cons rfl]
      simp [hstring]
  | emptyList hdepth hblank =>
    rintro (_ | fuel) rest hfuel -
    · cases hfuel
    · have hskip := skipBlanks_append hblank (byte ']' :: rest)
      rw [skipBlanks_cons rfl] at hskip
      rw [List.cons_append, List.append_assoc, List.singleton_append, value?_bracket hdepth hskip,
        if_pos rfl]
  | @list depth vs t hdepth ht ih =>
    rintro (_ | fuel) rest hfuel -
    · cases hfuel
    · simp only [List.length_cons, List.length_append, List.length_nil] at hfuel
      obtain ⟨c, after, hskip, hne, -⟩ := (ht.starts.append (byte ']' :: rest)).skipBlanks_eq
      rw [List.cons_append, List.append_assoc, List.singleton_append, value?_bracket hdepth hskip,
        if_neg hne]
      exact ih fuel [] rest (by omega)
  | emptyMapping hdepth hblank =>
    rintro (_ | fuel) rest hfuel -
    · cases hfuel
    · have hskip := skipBlanks_append hblank (byte '\x7d' :: rest)
      rw [skipBlanks_cons rfl] at hskip
      rw [List.cons_append, List.append_assoc, List.singleton_append, value?_brace hdepth hskip,
        if_pos rfl]
  | @mapping depth fs t hdepth ht ih =>
    rintro (_ | fuel) rest hfuel -
    · cases hfuel
    · simp only [List.length_cons, List.length_append, List.length_nil] at hfuel
      obtain ⟨c, after, hskip, -, hne⟩ := (ht.starts.append (byte '\x7d' :: rest)).skipBlanks_eq
      rw [List.cons_append, List.append_assoc, List.singleton_append, value?_brace hdepth hskip,
        if_neg hne]
      exact ih fuel [] rest (by omega)
  | padded hpre hpost ht ih =>
    intro fuel c rest hfuel hc
    refine ⟨_, hpost, ?_⟩
    rw [List.append_assoc, List.append_assoc, value?_blank_append hpre]
    refine ih fuel _ ?_ fun _ _ => not_continuesNumber_of_head hpost hc rest
    simp only [List.length_append] at hfuel
    omega
  | lastItem ht ih =>
    rintro (_ | fuel) acc rest hfuel
    · cases hfuel
    · obtain ⟨post, hpost, hvalue⟩ := ih fuel (byte ']') rest (by omega) (by decide)
      rw [items?_succ hvalue hpost (by decide), if_pos rfl, List.reverse_cons]
  | @nextItem depth v vs t ts ht hts ih ihs =>
    rintro (_ | fuel) acc rest hfuel
    · cases hfuel
    · simp only [List.length_append, List.length_cons] at hfuel
      obtain ⟨post, hpost, hvalue⟩ :=
        ih fuel (byte ',') (ts ++ byte ']' :: rest) (by omega) (by decide)
      rw [List.append_assoc, List.cons_append, items?_succ hvalue hpost (by decide),
        if_neg (by decide), if_pos rfl, ihs fuel _ rest (by omega)]
      simp
  | lastField hk ht ih =>
    rintro (_ | fuel) acc rest hfuel
    · cases hfuel
    · simp only [List.length_append, List.length_cons] at hfuel
      obtain ⟨post, hpost, hvalue⟩ := ih fuel (byte '\x7d') rest (by omega) (by decide)
      rw [List.append_assoc, List.cons_append, fields?_succ hk hvalue hpost (by decide),
        if_pos rfl, List.reverse_cons]
  | @nextField depth key v fs k t ts hk ht hts ih ihs =>
    rintro (_ | fuel) acc rest hfuel
    · cases hfuel
    · simp only [List.length_append, List.length_cons] at hfuel
      obtain ⟨post, hpost, hvalue⟩ :=
        ih fuel (byte ',') (ts ++ byte '\x7d' :: rest) (by omega) (by decide)
      rw [List.append_assoc, List.cons_append, List.append_assoc, List.cons_append,
        fields?_succ hk hvalue hpost (by decide), if_neg (by decide), if_pos rfl,
        ihs fuel _ rest (by omega)]
      simp

theorem Written.value?_eq {depth : Nat} {v : Value} {t : Text} (h : Written depth (.value v) t)
    {fuel : Nat} (hfuel : t.length ≤ fuel) {rest : Text}
    (hrest : ∀ s, v = .number s → ∀ b ∈ rest.head?, continuesNumber b = false) :
    value? fuel depth (t ++ rest) = some (v, rest) :=
  h.readFrom fuel rest hfuel hrest

end Complete

end SuiteScribe.Json
