import Mathlib.Data.Nat.Digits.Defs
import SuiteScribe.Number.Integer

/-!
# What a whole number is read from

A text `Spells` a whole number if it is a sign, which may be left out, and decimal digits.
`Integer.read` gives exactly the numbers of 64 bits that a text spells (`read_eq_ok_iff`), so it
reads a number back from its own decimal text (`read_ofInt`).

Digits are counted as they come, so the excess of a long number is told before anything wrong behind
it.  A text is refused as out of range if it spells such a number, but also if it only starts with
one that is too large even without a sign (`read_eq_outOfRange_iff`); any other text that spells
nothing is refused as malformed (`read_eq_malformed_iff`).
-/

namespace SuiteScribe.Integer

/-- At least one decimal digit, and nothing else. -/
def IsDigits (ds : Text) : Prop :=
  ds ≠ [] ∧ ∀ b ∈ ds, 48 ≤ b.toNat ∧ b.toNat ≤ 57

/-- The number whose decimal digits are those of `n` and after them `ds`. -/
def valueFrom (n : Nat) (ds : Text) : Nat :=
  ds.foldl (fun v b => v * 10 + (b.toNat - 48)) n

/-- The text is a sign, which may be left out, and the decimal digits of the number. -/
inductive Spells : Text → Int → Prop
  | plain {ds : Text} (h : IsDigits ds) : Spells ds (valueFrom 0 ds)
  | plus {ds : Text} (h : IsDigits ds) : Spells (Text.byte '+' :: ds) (valueFrom 0 ds)
  | minus {ds : Text} (h : IsDigits ds) : Spells (Text.byte '-' :: ds) (-(valueFrom 0 ds : Int))

/-- Whether 64 bits hold the number. -/
def InRange (i : Int) : Prop :=
  -2 ^ 63 ≤ i ∧ i < 2 ^ 63

instance (i : Int) : Decidable (InRange i) :=
  inferInstanceAs (Decidable (_ ∧ _))

/-- The text starts with a whole number that 64 bits do not even hold without its sign. -/
def StartsHuge (t : Text) : Prop :=
  ∃ u rest i, t = u ++ rest ∧ Spells u i ∧ 2 ^ 64 ≤ i.natAbs

/-- The number of that sign and size. -/
def ofSign (negative : Bool) (n : Nat) : Int :=
  if negative then -(n : Int) else n

section Digits

theorem valueFrom_cons (n : Nat) (b : UInt8) (ds : Text) :
    valueFrom n (b :: ds) = valueFrom (n * 10 + (b.toNat - 48)) ds := by
  rw [valueFrom, List.foldl_cons, valueFrom]

/-- Digits behind a number do not make it smaller. -/
theorem le_valueFrom (n : Nat) (ds : Text) : n ≤ valueFrom n ds := by
  induction ds generalizing n with
  | nil => exact Nat.le_refl n
  | cons b ds ih =>
    have := ih (n * 10 + (b.toNat - 48))
    rw [valueFrom_cons]
    omega

theorem digit?_of_decimal {b : UInt8} (h : 48 ≤ b.toNat ∧ b.toNat ≤ 57) :
    digit? b = some (b.toNat - 48) := by
  rw [digit?]
  exact if_pos h

theorem decimal_of_digit? {b : UInt8} {d : Nat} (h : digit? b = some d) (hd : d < 10) :
    48 ≤ b.toNat ∧ b.toNat ≤ 57 := by
  simp only [digit?] at h
  split_ifs at h with h1 h2 h3
  · exact h1
  · cases h
    omega
  · cases h
    omega

/-- One digit read: it goes to the end of the value, or the value gets too large. -/
theorem readDigits_cons {b : UInt8} (hb : 48 ≤ b.toNat ∧ b.toNat ≤ 57) (n : Nat) (ds : Text) :
    readDigits 10 n (b :: ds)
      = if n * 10 + (b.toNat - 48) < 2 ^ 64 then readDigits 10 (n * 10 + (b.toNat - 48)) ds
        else .error .outOfRange := by
  have hlt : b.toNat - 48 < 10 := by omega
  rw [readDigits, digit?_of_decimal hb]
  simp only [hlt, if_true]
  rfl

theorem readDigits_cons_of_not {b : UInt8} (hb : ¬ (48 ≤ b.toNat ∧ b.toNat ≤ 57)) (n : Nat)
    (ds : Text) : readDigits 10 n (b :: ds) = .error .malformed := by
  rw [readDigits]
  split
  · rfl
  · rename_i d hd
    rw [if_neg fun hlt => hb (decimal_of_digit? hd hlt)]

/-- Digits are read exactly if nothing else is there and the number stays below 2 ^ 64. -/
theorem readDigits_eq_ok_iff {ds : Text} {n m : Nat} (hn : n < 2 ^ 64) :
    readDigits 10 n ds = .ok m
      ↔ (∀ b ∈ ds, 48 ≤ b.toNat ∧ b.toNat ≤ 57) ∧ m = valueFrom n ds ∧ m < 2 ^ 64 := by
  induction ds generalizing n with
  | nil =>
    simp only [readDigits, valueFrom, List.foldl_nil, Except.ok.injEq, List.not_mem_nil,
      false_imp_iff, implies_true, true_and]
    omega
  | cons b ds ih =>
    by_cases hb : 48 ≤ b.toNat ∧ b.toNat ≤ 57
    · rw [readDigits_cons hb, valueFrom_cons]
      split_ifs with hlt
      · rw [ih hlt]
        simp [hb]
      · have := le_valueFrom (n * 10 + (b.toNat - 48)) ds
        refine ⟨False.elim, ?_⟩
        rintro ⟨-, rfl, hm⟩
        omega
    · rw [readDigits_cons_of_not hb]
      refine ⟨fun h => (nomatch h), ?_⟩
      rintro ⟨h, -⟩
      exact absurd (h b List.mem_cons_self) hb

/-- Reading stops at the digit that makes the number too large, whatever stands behind it. -/
theorem readDigits_eq_outOfRange_iff {ds : Text} {n : Nat} (hn : n < 2 ^ 64) :
    readDigits 10 n ds = .error .outOfRange
      ↔ ∃ us rest, ds = us ++ rest ∧ IsDigits us ∧ 2 ^ 64 ≤ valueFrom n us := by
  induction ds generalizing n with
  | nil =>
    refine ⟨fun h => by simp [readDigits] at h, ?_⟩
    rintro ⟨us, rest, hnil, hus, -⟩
    exact absurd (List.append_eq_nil_iff.1 hnil.symm).1 hus.1
  | cons b ds ih =>
    by_cases hb : 48 ≤ b.toNat ∧ b.toNat ≤ 57
    · rw [readDigits_cons hb]
      split_ifs with hlt
      · rw [ih hlt]
        constructor
        · rintro ⟨us, rest, rfl, hus, hlarge⟩
          exact ⟨b :: us, rest, rfl,
            ⟨List.cons_ne_nil b us, List.forall_mem_cons.2 ⟨hb, hus.2⟩⟩, hlarge⟩
        · rintro ⟨_ | ⟨c, us⟩, rest, hds, hus, hlarge⟩
          · exact absurd rfl hus.1
          · obtain ⟨rfl, rfl⟩ := List.cons.inj hds
            refine ⟨us, rest, rfl, ⟨?_, (List.forall_mem_cons.1 hus.2).2⟩, hlarge⟩
            rintro rfl
            exact absurd hlarge (Nat.not_le.2 hlt)
      · refine iff_of_true rfl ⟨[b], ds, rfl, ⟨List.cons_ne_nil b [], by simpa using hb⟩, ?_⟩
        exact Nat.not_lt.1 hlt
    · rw [readDigits_cons_of_not hb]
      refine ⟨fun h => by simp at h, ?_⟩
      rintro ⟨_ | ⟨c, us⟩, rest, hds, hus, -⟩
      · exact absurd rfl hus.1
      · obtain ⟨rfl, -⟩ := List.cons.inj hds
        exact absurd (hus.2 b List.mem_cons_self) hb

theorem readUnsigned_eq_ok_iff {ds : Text} {n : Nat} :
    readUnsigned 10 ds = .ok n ↔ IsDigits ds ∧ n = valueFrom 0 ds ∧ n < 2 ^ 64 := by
  unfold readUnsigned
  split_ifs with hds
  · simp [IsDigits, hds]
  · rw [readDigits_eq_ok_iff (by decide), IsDigits]
    simp [hds]

theorem readUnsigned_eq_outOfRange_iff {ds : Text} :
    readUnsigned 10 ds = .error .outOfRange
      ↔ ∃ us rest, ds = us ++ rest ∧ IsDigits us ∧ 2 ^ 64 ≤ valueFrom 0 us := by
  unfold readUnsigned
  split_ifs with hds
  · refine ⟨fun h => by simp at h, ?_⟩
    rintro ⟨us, rest, happend, hus, -⟩
    exact absurd (List.append_eq_nil_iff.1 (happend.symm.trans hds)).1 hus.1
  · exact readDigits_eq_outOfRange_iff (by decide)

end Digits

section Sign

theorem splitSign_append {ds : Text} (h : IsDigits ds) (rest : Text) :
    splitSign (ds ++ rest) = (false, ds ++ rest) := by
  rcases ds with _ | ⟨b, ds⟩
  · exact absurd rfl h.1
  · have hb := h.2 b List.mem_cons_self
    have hminus : b ≠ Text.byte '-' := by
      rintro rfl
      exact absurd hb (by decide)
    have hplus : b ≠ Text.byte '+' := by
      rintro rfl
      exact absurd hb (by decide)
    rw [List.cons_append, splitSign, if_neg hminus, if_neg hplus]

theorem splitSign_of_isDigits {ds : Text} (h : IsDigits ds) : splitSign ds = (false, ds) := by
  simpa using splitSign_append h []

/-- The digits behind the sign spell a number together with it, as far as they go. -/
theorem exists_spells_of_splitSign {t us rest : Text} {negative : Bool}
    (h : splitSign t = (negative, us ++ rest)) (hus : IsDigits us) :
    ∃ u, t = u ++ rest ∧ Spells u (ofSign negative (valueFrom 0 us)) := by
  rcases t with _ | ⟨b, t⟩
  · have hnil : us ++ rest = [] := (Prod.mk.inj h).2.symm
    exact absurd (List.append_eq_nil_iff.1 hnil).1 hus.1
  · rw [splitSign] at h
    split_ifs at h with hminus hplus <;> obtain ⟨rfl, ht⟩ := Prod.mk.inj h
    · exact ⟨b :: us, by rw [ht, List.cons_append], hminus ▸ .minus hus⟩
    · exact ⟨b :: us, by rw [ht, List.cons_append], hplus ▸ .plus hus⟩
    · exact ⟨us, ht, .plain hus⟩

/-- A text spells a number if digits, and nothing else, stand behind its sign. -/
theorem spells_iff_splitSign {t : Text} {i : Int} :
    Spells t i
      ↔ IsDigits (splitSign t).2 ∧ i = ofSign (splitSign t).1 (valueFrom 0 (splitSign t).2) := by
  constructor
  · intro h
    cases h with
    | plain h => simp [splitSign_of_isDigits h, h, ofSign]
    | plus h => exact ⟨h, rfl⟩
    | minus h => exact ⟨h, rfl⟩
  · rintro ⟨hds, rfl⟩
    have hsplit : splitSign t = ((splitSign t).1, (splitSign t).2 ++ []) := by
      rw [List.append_nil]
    obtain ⟨u, hu, hspells⟩ := exists_spells_of_splitSign hsplit hds
    rw [List.append_nil] at hu
    rwa [← hu] at hspells

theorem splitSign_append_of_spells {u : Text} {i : Int} (h : Spells u i) (rest : Text) :
    (splitSign (u ++ rest)).2 = (splitSign u).2 ++ rest := by
  cases h with
  | plain h => rw [splitSign_append h, splitSign_of_isDigits h]
  | plus h => rfl
  | minus h => rfl

theorem natAbs_ofSign (negative : Bool) (n : Nat) : (ofSign negative n).natAbs = n := by
  unfold ofSign
  split_ifs <;> omega

/-- A text starts with a huge number if its digits do, whatever its sign is. -/
theorem startsHuge_iff_splitSign {t : Text} :
    StartsHuge t
      ↔ ∃ us rest, (splitSign t).2 = us ++ rest ∧ IsDigits us ∧ 2 ^ 64 ≤ valueFrom 0 us := by
  constructor
  · rintro ⟨u, rest, i, rfl, hu, hlarge⟩
    obtain ⟨hds, rfl⟩ := spells_iff_splitSign.1 hu
    rw [natAbs_ofSign] at hlarge
    exact ⟨_, rest, splitSign_append_of_spells hu rest, hds, hlarge⟩
  · rintro ⟨us, rest, hsplit, hus, hlarge⟩
    obtain ⟨u, ht, hu⟩ := exists_spells_of_splitSign (Prod.ext rfl hsplit) hus
    exact ⟨u, rest, _, ht, hu, by rwa [natAbs_ofSign]⟩

theorem ofMagnitude_eq_ok_iff {negative : Bool} {n : Nat} {i : Int} :
    ofMagnitude negative n = .ok i ↔ i = ofSign negative n ∧ InRange i := by
  have h63 : Nat.pow 2 63 = 2 ^ 63 := rfl
  unfold ofMagnitude ofSign InRange
  rw [h63]
  split_ifs <;> simp only [Except.ok.injEq, false_iff] <;> omega

theorem ofMagnitude_eq_error_iff {negative : Bool} {n : Nat} {f : Fault} :
    ofMagnitude negative n = .error f ↔ f = .outOfRange ∧ ¬ InRange (ofSign negative n) := by
  have h63 : Nat.pow 2 63 = 2 ^ 63 := rfl
  unfold ofMagnitude ofSign InRange
  rw [h63]
  split_ifs <;> simp only [Except.error.injEq, false_iff, eq_comm (a := f)]
  · omega
  · exact ⟨fun hf => ⟨hf, by omega⟩, fun hf => hf.1⟩
  · omega
  · exact ⟨fun hf => ⟨hf, by omega⟩, fun hf => hf.1⟩

end Sign

theorem read_eq (t : Text) :
    read t = match readUnsigned 10 (splitSign t).2 with
      | .ok n => ofMagnitude (splitSign t).1 n
      | .error e => .error e := rfl

/-- Reading gives the numbers of 64 bits that a text spells. -/
theorem read_eq_ok_iff {t : Text} {i : Int} : read t = .ok i ↔ Spells t i ∧ InRange i := by
  rw [read_eq, spells_iff_splitSign]
  constructor
  · intro h
    split at h
    · rename_i n hn
      obtain ⟨hds, rfl, -⟩ := readUnsigned_eq_ok_iff.1 hn
      obtain ⟨rfl, hi⟩ := ofMagnitude_eq_ok_iff.1 h
      exact ⟨⟨hds, rfl⟩, hi⟩
    · cases h
  · rintro ⟨⟨hds, rfl⟩, hi⟩
    have hlt : valueFrom 0 (splitSign t).2 < 2 ^ 64 := by
      unfold InRange ofSign at hi
      split_ifs at hi <;> omega
    rw [readUnsigned_eq_ok_iff.2 ⟨hds, rfl, hlt⟩]
    exact ofMagnitude_eq_ok_iff.2 ⟨rfl, hi⟩

/-- The excess is told of a text that spells a number which is too large, and of one that starts
with a number which is too large by far. -/
theorem read_eq_outOfRange_iff {t : Text} :
    read t = .error .outOfRange ↔ (∃ i, Spells t i ∧ ¬ InRange i) ∨ StartsHuge t := by
  constructor
  · intro h
    rw [read_eq] at h
    split at h
    · rename_i n hn
      obtain ⟨hds, rfl, -⟩ := readUnsigned_eq_ok_iff.1 hn
      exact .inl ⟨_, spells_iff_splitSign.2 ⟨hds, rfl⟩, (ofMagnitude_eq_error_iff.1 h).2⟩
    · rename_i e he
      cases h
      exact .inr (startsHuge_iff_splitSign.2 (readUnsigned_eq_outOfRange_iff.1 he))
  · intro h
    by_cases huge : StartsHuge t
    · rw [read_eq, readUnsigned_eq_outOfRange_iff.2 (startsHuge_iff_splitSign.1 huge)]
    · obtain ⟨i, hs, hi⟩ := h.resolve_right huge
      obtain ⟨hds, rfl⟩ := spells_iff_splitSign.1 hs
      have hlt : valueFrom 0 (splitSign t).2 < 2 ^ 64 := by
        by_contra hge
        refine huge ⟨t, [], _, (List.append_nil t).symm, hs, ?_⟩
        rw [natAbs_ofSign]
        exact Nat.not_lt.1 hge
      rw [read_eq, readUnsigned_eq_ok_iff.2 ⟨hds, rfl, hlt⟩]
      exact ofMagnitude_eq_error_iff.2 ⟨rfl, hi⟩

/-- Any other text that spells no number is called malformed. -/
theorem read_eq_malformed_iff {t : Text} :
    read t = .error .malformed ↔ (∀ i, ¬ Spells t i) ∧ ¬ StartsHuge t := by
  rcases hread : read t with (_ | _) | i
  · refine iff_of_true rfl ⟨fun i hi => ?_, fun huge => ?_⟩
    · by_cases hrange : InRange i
      · cases hread.symm.trans (read_eq_ok_iff.2 ⟨hi, hrange⟩)
      · cases hread.symm.trans (read_eq_outOfRange_iff.2 (.inl ⟨i, hi, hrange⟩))
    · cases hread.symm.trans (read_eq_outOfRange_iff.2 (.inr huge))
  · refine iff_of_false (by simp) ?_
    rintro ⟨hnot, hhuge⟩
    rcases read_eq_outOfRange_iff.1 hread with ⟨i, hi, -⟩ | huge
    · exact hnot i hi
    · exact hhuge huge
  · exact iff_of_false (by simp) fun h => h.1 i (read_eq_ok_iff.1 hread).1

section Decimal

theorem toNat_byte_of_isDigit {c : Char} (h : c.isDigit = true) :
    (Text.byte c).toNat = c.toNat ∧ 48 ≤ c.toNat ∧ c.toNat ≤ 57 := by
  have hc : 48 ≤ c.toNat ∧ c.toNat ≤ 57 := by
    simpa [Char.isDigit, UInt32.le_iff_toNat_le] using h
  refine ⟨?_, hc⟩
  show c.toNat % 256 = c.toNat
  omega

theorem valueFrom_map_byte {cs : List Char} (h : ∀ c ∈ cs, c.isDigit = true) (n : Nat) :
    valueFrom n (cs.map Text.byte) = Nat.ofDigitChars 10 cs n := by
  induction cs generalizing n with
  | nil => rfl
  | cons c cs ih =>
    obtain ⟨hc, hcs⟩ := List.forall_mem_cons.1 h
    rw [List.map_cons, valueFrom_cons, Nat.ofDigitChars_cons, ih hcs,
      (toNat_byte_of_isDigit hc).1, Nat.mul_comm]
    rfl

theorem isDigits_ofNat (n : Nat) : IsDigits (Text.ofNat n) := by
  refine ⟨by simp [Text.ofNat], ?_⟩
  rw [Text.ofNat, List.forall_mem_map]
  intro c hc
  have hdigit := Nat.isDigit_of_mem_toDigits (by decide) (by decide) hc
  obtain ⟨heq, hle⟩ := toNat_byte_of_isDigit hdigit
  rwa [heq]

/-- The decimal digits of a number have its value. -/
theorem valueFrom_ofNat (n : Nat) : valueFrom 0 (Text.ofNat n) = n := by
  rw [Text.ofNat, valueFrom_map_byte, Nat.ofDigitChars_ten_toDigits]
  exact fun c hc => Nat.isDigit_of_mem_toDigits (by decide) (by decide) hc

theorem ofNat_digit {b : UInt8} (hb : 48 ≤ b.toNat ∧ b.toNat ≤ 57) :
    Text.ofNat (b.toNat - 48) = [b] := by
  have hd : b.toNat - 48 < 10 := by omega
  have hbyte : Text.byte (b.toNat - 48).digitChar = b := by
    rw [Text.byte, Nat.toNat_digitChar_of_lt_ten hd, Nat.add_sub_cancel' hb.1]
    simp
  rw [Text.ofNat, Nat.toDigits_of_lt_base hd, List.map_singleton, hbyte]

/-- A digit behind a number that is not zero becomes its last digit. -/
theorem ofNat_append_digit {n : Nat} (hn : 0 < n) {b : UInt8} (hb : 48 ≤ b.toNat ∧ b.toNat ≤ 57) :
    Text.ofNat n ++ [b] = Text.ofNat (n * 10 + (b.toNat - 48)) := by
  have hd : b.toNat - 48 < 10 := by omega
  rw [← ofNat_digit hb, Text.ofNat, Text.ofNat, Text.ofNat, ← List.map_append,
    Nat.toDigits_append_toDigits (by decide) hn hd, Nat.mul_comm]

theorem ofNat_append {n : Nat} (hn : 0 < n) {ds : Text}
    (h : ∀ b ∈ ds, 48 ≤ b.toNat ∧ b.toNat ≤ 57) :
    Text.ofNat n ++ ds = Text.ofNat (valueFrom n ds) := by
  induction ds generalizing n with
  | nil => simp [valueFrom]
  | cons b ds ih =>
    obtain ⟨hb, hds⟩ := List.forall_mem_cons.1 h
    rw [valueFrom_cons, ← ih (by omega) hds, ← ofNat_append_digit hn hb, List.append_assoc,
      List.singleton_append]

/-- Digits that do not start with a needless zero are the decimal text of their number. -/
theorem ofNat_valueFrom {ds : Text} (h : IsDigits ds)
    (hzero : ds.head? = some (Text.byte '0') → ds = [Text.byte '0']) :
    Text.ofNat (valueFrom 0 ds) = ds := by
  obtain ⟨b, ds, rfl⟩ := List.exists_cons_of_ne_nil h.1
  obtain ⟨hb, hds⟩ := List.forall_mem_cons.1 h.2
  by_cases hb0 : b = Text.byte '0'
  · rw [hzero (by rw [hb0, List.head?_cons])]
    rfl
  · have hne : b.toNat ≠ 48 := fun heq => hb0 (UInt8.toNat_inj.1 heq)
    rw [valueFrom_cons, Nat.zero_mul, Nat.zero_add, ← ofNat_append (by omega) hds, ofNat_digit hb,
      List.singleton_append]

theorem ofInt_neg {n : Nat} (hn : 0 < n) :
    Text.ofInt (-(n : Int)) = Text.byte '-' :: Text.ofNat n := by
  obtain ⟨k, rfl⟩ := Nat.exists_eq_succ_of_ne_zero (Nat.ne_of_gt hn)
  rfl

/-- The decimal text of a number spells it. -/
theorem spells_ofInt (i : Int) : Spells (Text.ofInt i) i := by
  cases i with
  | ofNat n =>
    have h := Spells.plain (isDigits_ofNat n)
    rwa [valueFrom_ofNat] at h
  | negSucc n =>
    have h := Spells.minus (isDigits_ofNat (n + 1))
    rwa [valueFrom_ofNat] at h

theorem read_ofInt {i : Int} (h : InRange i) : read (Text.ofInt i) = .ok i :=
  read_eq_ok_iff.2 ⟨spells_ofInt i, h⟩

end Decimal

end SuiteScribe.Integer
