import Mathlib.Algebra.Order.Field.Power
import Mathlib.Data.List.Chain
import Mathlib.Data.List.TakeWhile
import Mathlib.Data.Rat.Cast.Order
import Mathlib.Tactic.Ring
import Mathlib.Tactic.Tauto
import SuiteScribe.Number.Real
import SuiteScribe.Proofs.Number.Integer

/-!
# What a numeral is

A text `Spells` a number if it is a numeral of it: digits around at most one point, and an exponent
behind its letter, with underscores only between digits.  Behind a sign, or none, it `Denotes` a
number of that size.  `Real.accepts` takes exactly the names of numbers and the numerals of the
numbers that a 64-bit float can hold (`accepts_iff`).

The mantissa is read up to the first byte that cannot belong to it (`Mantissa.read_start_eq_iff`),
and the exponent is cut before it is raised, where it decides nothing any more (`fits_iff`).
-/

namespace SuiteScribe.Real

/-- Whether a byte is a digit of the base. -/
def isDigit (base : Nat) (b : UInt8) : Bool :=
  (Integer.digit? b).any (· < base)

/-- The number whose digits in the base are those of `n` and after them `ds`. -/
def valueFrom (base n : Nat) (ds : Text) : Nat :=
  ds.foldl (fun v b => v * base + (Integer.digit? b).getD 0) n

/-- The text without its underscores. -/
def plain (t : Text) : Text :=
  t.filter (· ≠ Text.byte '_')

/-- Of two neighbours, an underscore has a digit beside it. -/
def Beside (base : Nat) (a b : UInt8) : Prop :=
  (a = Text.byte '_' → isDigit base b = true) ∧ (b = Text.byte '_' → isDigit base a = true)

/-- Every underscore stands between two digits. -/
def Separated (base : Nat) (t : Text) : Prop :=
  t.head? ≠ some (Text.byte '_') ∧ t.getLast? ≠ some (Text.byte '_') ∧ t.IsChain (Beside base)

/-- Digits of the base around at most one point, and what they come to. -/
inductive Mantissa.Spelled (base : Nat) : Text → Mantissa → Prop
  | whole {ds : Text} (h : ∀ b ∈ ds, isDigit base b = true) :
    Spelled base ds ⟨valueFrom base 0 ds, 0, !ds.isEmpty, false⟩
  | pointed {ds fs : Text} (hd : ∀ b ∈ ds, isDigit base b = true)
    (hf : ∀ b ∈ fs, isDigit base b = true) :
    Spelled base (ds ++ Text.byte '.' :: fs)
      ⟨valueFrom base 0 (ds ++ fs), fs.length, !(ds ++ fs).isEmpty, true⟩

/-- A mantissa, the letter of the exponent, and the exponent. -/
inductive Scientific (base : Nat) (letter : UInt8) : Text → Mantissa → ℤ → Prop
  | mk {t ex : Text} {mark : UInt8} {m : Mantissa} {e : ℤ} (h : m.Spelled base (plain t))
    (hdigits : m.digits = true) (hmark : fold mark = letter) (he : Integer.Spells (plain ex) e) :
    Scientific base letter (t ++ mark :: ex) m e

/-- The text is the numeral of the number, without a sign. -/
inductive Spells : Text → ℚ → Prop
  | fixed {t : Text} {m : Mantissa} (h : m.Spelled 10 (plain t)) (hdigits : m.digits = true)
    (hs : Separated 10 t) : Spells t (m.value * 10 ^ (-m.places : ℤ))
  | decimal {t : Text} {m : Mantissa} {e : ℤ} (h : Scientific 10 (Text.byte 'e') t m e)
    (hs : Separated 10 t) : Spells t (m.value * 10 ^ (e - m.places))
  -- Before an underscore the mark of the base counts as a digit, as its zero would.
  | hexadecimal {t : Text} {x : UInt8} {m : Mantissa} {e : ℤ} (hx : fold x = Text.byte 'x')
    (h : Scientific 16 (Text.byte 'p') t m e) (hs : Separated 16 (Text.byte '0' :: t)) :
    Spells (Text.byte '0' :: x :: t) (m.value * 2 ^ (e - 4 * m.places))

/-- A sign, or none. -/
inductive IsSign : Text → Prop
  | none : IsSign []
  | plus : IsSign [Text.byte '+']
  | minus : IsSign [Text.byte '-']

/-- The text is the numeral of a number of that size, behind a sign or none. -/
def Denotes (t : Text) (q : ℚ) : Prop :=
  ∃ sign u, IsSign sign ∧ t = sign ++ u ∧ Spells u q

/-- The text names a number that has no digits, in either case; only infinity takes a sign. -/
def IsName (t : Text) : Prop :=
  t.map fold = text "nan" ∨ ∃ sign u, IsSign sign ∧ t = sign ++ u
    ∧ (u.map fold = text "inf" ∨ u.map fold = text "infinity")

/-- The text names a number, or is the numeral of one that a 64-bit float can hold. -/
def IsNumber (t : Text) : Prop :=
  IsName t ∨ ∃ q, Denotes t q ∧ q < limit

section Digits

variable {base : Nat}

theorem isDigit_eq_true_iff {b : UInt8} :
    isDigit base b = true ↔ ∃ d, Integer.digit? b = some d ∧ d < base := by
  simp [isDigit, Option.any_eq_true]

theorem ne_underscore_of_isDigit {b : UInt8} (h : isDigit base b = true) : b ≠ Text.byte '_' := by
  rintro rfl
  cases h

theorem valueFrom_append (n : Nat) (ds fs : Text) :
    valueFrom base n (ds ++ fs) = valueFrom base (valueFrom base n ds) fs :=
  List.foldl_append

/-- Digits come to less than a one with as many zeros behind it. -/
theorem valueFrom_lt {ds : Text} (h : ∀ b ∈ ds, isDigit base b = true) (n : Nat) :
    valueFrom base n ds < (n + 1) * base ^ ds.length := by
  induction ds generalizing n with
  | nil => simp [valueFrom]
  | cons b ds ih =>
    obtain ⟨hb, hds⟩ := List.forall_mem_cons.1 h
    obtain ⟨d, hd, hlt⟩ := isDigit_eq_true_iff.1 hb
    have hstep : n * base + d + 1 ≤ (n + 1) * base := by
      rw [Nat.succ_mul]
      omega
    calc valueFrom base n (b :: ds)
        = valueFrom base (n * base + d) ds := by rw [valueFrom, List.foldl_cons, hd]; rfl
      _ < (n * base + d + 1) * base ^ ds.length := ih hds _
      _ ≤ (n + 1) * base * base ^ ds.length := Nat.mul_le_mul_right _ hstep
      _ = (n + 1) * base ^ (b :: ds).length := by rw [List.length_cons, pow_succ']; ring

theorem isDigit_ten_iff {b : UInt8} : isDigit 10 b = true ↔ 48 ≤ b.toNat ∧ b.toNat ≤ 57 := by
  rw [isDigit_eq_true_iff]
  constructor
  · rintro ⟨d, hd, hlt⟩
    exact Integer.decimal_of_digit? hd hlt
  · intro hb
    exact ⟨_, Integer.digit?_of_decimal hb, by omega⟩

/-- In base ten digits have the value that they have in a whole number. -/
theorem valueFrom_ten {ds : Text} (h : ∀ b ∈ ds, 48 ≤ b.toNat ∧ b.toNat ≤ 57) (n : Nat) :
    valueFrom 10 n ds = Integer.valueFrom n ds := by
  induction ds generalizing n with
  | nil => rfl
  | cons b ds ih =>
    obtain ⟨hb, hds⟩ := List.forall_mem_cons.1 h
    rw [Integer.valueFrom_cons, ← ih hds, valueFrom, List.foldl_cons,
      Integer.digit?_of_decimal hb]
    rfl

end Digits

section Underscores

variable {base : Nat}

@[simp] theorem plain_nil : plain [] = [] := rfl

theorem plain_append (t u : Text) : plain (t ++ u) = plain t ++ plain u :=
  List.filter_append t u

theorem plain_cons_of_ne {b : UInt8} (h : b ≠ Text.byte '_') (t : Text) :
    plain (b :: t) = b :: plain t :=
  List.filter_cons_of_pos (by simpa using h)

theorem plain_cons_underscore (t : Text) : plain (Text.byte '_' :: t) = plain t :=
  List.filter_cons_of_neg (by simp)

theorem plain_of_notMem {t : Text} (h : Text.byte '_' ∉ t) : plain t = t :=
  List.filter_eq_self.2 fun b hb => by
    rw [decide_eq_true_eq]
    rintro rfl
    exact h hb

theorem separated_of_notMem {t : Text} (h : Text.byte '_' ∉ t) : Separated base t := by
  have hbeside : ∀ a ∈ t, ∀ b ∈ t, Beside base a b := fun a ha b hb =>
    ⟨fun heq => absurd (heq ▸ ha) h, fun heq => absurd (heq ▸ hb) h⟩
  exact ⟨fun hhead => h (List.mem_of_head? hhead), fun hlast => h (List.mem_of_getLast? hlast),
    (List.pairwise_of_forall_mem_list hbeside).isChain⟩

theorem length_plain_le (t : Text) : (plain t).length ≤ t.length :=
  List.length_filter_le _ t

theorem forall_mem_plain_iff {t : Text} :
    (∀ b ∈ plain t, isDigit base b = true)
      ↔ ∀ b ∈ t, isDigit base b = true ∨ b = Text.byte '_' := by
  simp only [plain, List.mem_filter, decide_eq_true_eq, and_imp, or_iff_not_imp_right, ne_eq]

/-- A text can be cut where it can be cut without its underscores. -/
theorem exists_of_plain_eq {t ds fs : Text} {c : UInt8} (h : plain t = ds ++ c :: fs) :
    ∃ us vs, t = us ++ c :: vs ∧ plain us = ds ∧ plain vs = fs := by
  obtain ⟨us, rest, rfl, hus, hrest⟩ := List.filter_eq_append_iff.1 h
  obtain ⟨ws, vs, rfl, hws, -, hvs⟩ := List.filter_eq_cons_iff.1 hrest
  have hplain : plain ws = [] := List.filter_eq_nil_iff.2 hws
  refine ⟨us ++ ws, vs, (List.append_assoc us ws _).symm, ?_, hvs⟩
  rw [plain_append, hplain, List.append_nil]
  exact hus

/-- The longest start of a text that has digits and underscores only. -/
theorem exists_digits (base : Nat) (t : Text) :
    ∃ us rest, t = us ++ rest ∧ (∀ b ∈ plain us, isDigit base b = true)
      ∧ ∀ b ∈ rest.head?, isDigit base b = false ∧ b ≠ Text.byte '_' := by
  let p : UInt8 → Bool := fun b => isDigit base b || b == Text.byte '_'
  refine ⟨t.takeWhile p, t.dropWhile p, List.takeWhile_append_dropWhile.symm,
    forall_mem_plain_iff.2 fun b hb => by simpa [p] using List.mem_takeWhile_imp hb, fun b hb => ?_⟩
  have hnot := List.head?_dropWhile_not p t
  rw [Option.mem_def.1 hb] at hnot
  simpa [p] using hnot

/-- What a byte is to the one behind it. -/
def Before.of (base : Nat) (b : UInt8) : Before :=
  if isDigit base b then .digit else if b = Text.byte '_' then .underscore else .other

theorem Before.of_eq_digit {b : UInt8} : Before.of base b = .digit ↔ isDigit base b = true := by
  unfold Before.of
  split_ifs with h1 h2 <;> simp [h1]

theorem Before.of_eq_underscore {b : UInt8} :
    Before.of base b = .underscore ↔ b = Text.byte '_' := by
  unfold Before.of
  split_ifs with h1 h2
  · exact iff_of_false (by simp) (ne_underscore_of_isDigit h1)
  · exact iff_of_true rfl h2
  · exact iff_of_false (by simp) h2

theorem underscoresFit_cons (before : Before) (b : UInt8) (t : Text) :
    underscoresFit base before (b :: t) = true
      ↔ ((before = .underscore → isDigit base b = true)
          ∧ (b = Text.byte '_' → before = .digit))
        ∧ underscoresFit base (.of base b) t = true := by
  rw [underscoresFit, Before.of]
  change (if isDigit base b = true then _ else _) = true ↔ _
  split_ifs with h1 h2
  · have hne := ne_underscore_of_isDigit h1
    tauto
  · rw [Bool.and_eq_true, beq_iff_eq]
    cases before <;> simp_all
  · rw [Bool.and_eq_true, bne_iff_ne]
    tauto

/-- The check of the underscores goes from neighbour to neighbour. -/
theorem underscoresFit_of_iff {b : UInt8} {t : Text} :
    underscoresFit base (.of base b) t = true
      ↔ (b :: t).getLast? ≠ some (Text.byte '_') ∧ (b :: t).IsChain (Beside base) := by
  induction t generalizing b with
  | nil =>
    rw [underscoresFit]
    simp [Before.of_eq_underscore]
  | cons c t ih =>
    rw [underscoresFit_cons, ih, List.isChain_cons_cons, List.getLast?_cons_cons,
      Before.of_eq_underscore, Before.of_eq_digit, Beside]
    tauto

/-- The check of underscores, byte by byte, finds out whether each stands between digits. -/
theorem underscoresFit_iff {t : Text} : underscoresFit base .other t = true ↔ Separated base t := by
  rcases t with _ | ⟨b, t⟩
  · simp [underscoresFit, Separated]
  · rw [underscoresFit_cons, underscoresFit_of_iff, Separated]
    simp

end Underscores

namespace Mantissa

variable {base : Nat}

/-- The digits of a text, one after the other. -/
def pushAll (base : Nat) (m : Mantissa) (ds : Text) : Mantissa :=
  ds.foldl (fun m b => m.push base ((Integer.digit? b).getD 0)) m

/-- What the mantissa comes to, if digits are pushed one after the other. -/
theorem pushAll_eq (m : Mantissa) (ds : Text) :
    m.pushAll base ds
      = ⟨valueFrom base m.value ds, if m.point then m.places + ds.length else m.places,
          m.digits || !ds.isEmpty, m.point⟩ := by
  induction ds generalizing m with
  | nil => simp [pushAll, valueFrom]
  | cons b ds ih =>
    have hcons : m.pushAll base (b :: ds)
        = (m.push base ((Integer.digit? b).getD 0)).pushAll base ds := rfl
    rw [hcons, ih, push]
    cases m.point <;> simp [valueFrom, Nat.add_comm, Nat.add_left_comm]

/-- The text does not go on with a digit, an underscore or the first point. -/
def Stops (base : Nat) (m : Mantissa) (rest : Text) : Prop :=
  ∀ b ∈ rest.head?,
    isDigit base b = false ∧ b ≠ Text.byte '_' ∧ (b = Text.byte '.' → m.point = true)

/-- A byte that ends a mantissa wherever it stands. -/
def Ends (base : Nat) (b : UInt8) : Prop :=
  isDigit base b = false ∧ b ≠ Text.byte '_' ∧ b ≠ Text.byte '.'

instance (base : Nat) (b : UInt8) : Decidable (Ends base b) :=
  inferInstanceAs (Decidable (_ ∧ _ ∧ _))

theorem Ends.stops {b : UInt8} (h : Ends base b) (m : Mantissa) (rest : Text) :
    m.Stops base (b :: rest) := by
  intro c hc
  cases hc
  exact ⟨h.1, h.2.1, fun heq => absurd heq h.2.2⟩

/-- Nothing is read where the mantissa stops. -/
theorem read_of_stops {m : Mantissa} {rest : Text} (h : m.Stops base rest) :
    read base m rest = (m, rest) := by
  rcases rest with _ | ⟨b, rest⟩
  · rfl
  · obtain ⟨hdigit, hunderscore, hpoint⟩ := h b rfl
    rw [read, if_neg hunderscore]
    split_ifs with hb hp
    · rfl
    · exact absurd (hpoint hb) hp
    · split
      · rename_i d hd
        rw [if_neg fun hlt => ?_]
        rw [isDigit_eq_true_iff.2 ⟨d, hd, hlt⟩] at hdigit
        cases hdigit
      · rfl

theorem read_cons_of_isDigit {b : UInt8} (h : isDigit base b = true) (m : Mantissa) (rest : Text) :
    read base m (b :: rest) = read base (m.push base ((Integer.digit? b).getD 0)) rest := by
  obtain ⟨d, hd, hlt⟩ := isDigit_eq_true_iff.1 h
  have hpoint : b ≠ Text.byte '.' := by
    rintro rfl
    cases h
  rw [read, if_neg (ne_underscore_of_isDigit h), if_neg hpoint, hd]
  exact if_pos hlt

/-- Digits and underscores are read to their end. -/
theorem read_append {us : Text} (h : ∀ b ∈ us, isDigit base b = true ∨ b = Text.byte '_')
    (m : Mantissa) (rest : Text) :
    read base m (us ++ rest) = read base (m.pushAll base (plain us)) rest := by
  induction us generalizing m with
  | nil => rfl
  | cons b us ih =>
    obtain ⟨hb, hus⟩ := List.forall_mem_cons.1 h
    rw [List.cons_append]
    rcases hb with hb | rfl
    · rw [read_cons_of_isDigit hb, ih hus, plain_cons_of_ne (ne_underscore_of_isDigit hb)]
      rfl
    · rw [read, if_pos rfl, ih hus, plain_cons_underscore]

theorem read_point {m : Mantissa} (h : m.point = false) (rest : Text) :
    read base m (Text.byte '.' :: rest) = read base { m with point := true } rest := by
  rw [read, if_neg (by decide), if_pos rfl, h]
  rfl

theorem pushAll_start (ds : Text) :
    start.pushAll base ds = ⟨valueFrom base 0 ds, 0, !ds.isEmpty, false⟩ := by
  rw [pushAll_eq]
  rfl

theorem pushAll_pointed (ds fs : Text) :
    pushAll base { start.pushAll base ds with point := true } fs
      = ⟨valueFrom base 0 (ds ++ fs), fs.length, !(ds ++ fs).isEmpty, true⟩ := by
  have hempty : (!ds.isEmpty || !fs.isEmpty) = !(ds ++ fs).isEmpty := by
    cases ds <;> rfl
  rw [pushAll_start, pushAll_eq, valueFrom_append, ← hempty]
  simp

/-- The mantissa at the start of a text is read up to where it stops. -/
theorem read_of_spelled {used rest : Text} {m : Mantissa} (h : m.Spelled base (plain used))
    (hstops : m.Stops base rest) : read base .start (used ++ rest) = (m, rest) := by
  generalize hp : plain used = p at h
  cases h with
  | whole hd =>
    subst hp
    rw [read_append (forall_mem_plain_iff.1 hd), pushAll_start]
    exact read_of_stops hstops
  | pointed hd hf =>
    obtain ⟨us, vs, rfl, rfl, rfl⟩ := exists_of_plain_eq hp
    rw [List.append_assoc, List.cons_append, read_append (forall_mem_plain_iff.1 hd), read_point,
      read_append (forall_mem_plain_iff.1 hf), pushAll_pointed]
    · exact read_of_stops hstops
    · rw [pushAll_start]

/-- Every text starts with a mantissa, be it without digits, and goes on with what stops it. -/
theorem exists_spelled (base : Nat) (t : Text) :
    ∃ used rest m, t = used ++ rest ∧ Spelled base (plain used) m ∧ m.Stops base rest := by
  obtain ⟨us, rest, rfl, hus, hrest⟩ := exists_digits base t
  by_cases hpoint : rest.head? = some (Text.byte '.')
  · obtain ⟨rest, rfl⟩ := List.head?_eq_some_iff.1 hpoint
    obtain ⟨vs, rest, rfl, hvs, hrest⟩ := exists_digits base rest
    have hspelled := Spelled.pointed hus hvs
    rw [← plain_cons_of_ne (by decide), ← plain_append] at hspelled
    exact ⟨_, rest, _, by simp, hspelled,
      fun b hb => ⟨(hrest b hb).1, (hrest b hb).2, fun _ => rfl⟩⟩
  · refine ⟨us, rest, _, rfl, .whole hus, fun b hb => ⟨(hrest b hb).1, (hrest b hb).2, ?_⟩⟩
    rintro rfl
    exact absurd hb hpoint

/-- The mantissa is read up to the first byte that cannot belong to it. -/
theorem read_start_eq_iff {t rest : Text} {m : Mantissa} :
    read base .start t = (m, rest)
      ↔ ∃ used, t = used ++ rest ∧ Spelled base (plain used) m ∧ m.Stops base rest := by
  constructor
  · intro h
    obtain ⟨used, rest', m', rfl, hm, hstops⟩ := exists_spelled base t
    rw [read_of_spelled hm hstops] at h
    cases h
    exact ⟨used, rfl, hm, hstops⟩
  · rintro ⟨used, rfl, hm, hstops⟩
    exact read_of_spelled hm hstops

theorem Spelled.value_lt {t : Text} {m : Mantissa} (h : m.Spelled base t) (hb : 0 < base) :
    m.value < base ^ t.length := by
  cases h with
  | whole hd => simpa using valueFrom_lt hd 0
  | pointed hd hf =>
    have hlt := valueFrom_lt (List.forall_mem_append.2 ⟨hd, hf⟩) 0
    rw [Nat.zero_add, Nat.one_mul] at hlt
    refine hlt.trans_le (Nat.pow_le_pow_right hb ?_)
    simp

end Mantissa

section Exponent

/-- The digits of an exponent are read, past underscores, if there is nothing else. -/
theorem exponentDigits?_eq_some_iff {t : Text} {v n : Nat} :
    exponentDigits? v t = some n
      ↔ (∀ b ∈ plain t, 48 ≤ b.toNat ∧ b.toNat ≤ 57) ∧ n = Integer.valueFrom v (plain t) := by
  induction t generalizing v with
  | nil => simp [exponentDigits?, Integer.valueFrom, eq_comm]
  | cons b t ih =>
    by_cases hu : b = Text.byte '_'
    · rw [exponentDigits?, if_pos hu, ih, hu, plain_cons_underscore]
    · rw [exponentDigits?, if_neg hu, plain_cons_of_ne hu, List.forall_mem_cons,
        Integer.valueFrom_cons]
      by_cases hb : 48 ≤ b.toNat ∧ b.toNat ≤ 57
      · rw [Integer.digit?_of_decimal hb]
        simp only [if_pos (show b.toNat - 48 < 10 by omega), ih, hb, true_and]
      · split
        · rename_i d hd
          rw [if_neg fun hlt => hb (Integer.decimal_of_digit? hd hlt)]
          simp [hb]
        · simp [hb]

theorem splitSign_plain {t : Text} (h : t.head? ≠ some (Text.byte '_')) :
    Integer.splitSign (plain t)
      = ((Integer.splitSign t).1, plain (Integer.splitSign t).2) := by
  rcases t with _ | ⟨b, t⟩
  · rfl
  · have hb : b ≠ Text.byte '_' := by simpa using h
    rw [plain_cons_of_ne hb, Integer.splitSign, Integer.splitSign]
    split_ifs
    · rfl
    · rfl
    · rw [plain_cons_of_ne hb]

theorem exponent?_of_splitSign {t ds : Text} {negative : Bool} {e : Int}
    (h : Integer.splitSign t = (negative, ds)) :
    exponent? t = some e
      ↔ ds.head? ≠ some (Text.byte '_') ∧ Integer.IsDigits (plain ds)
        ∧ e = Integer.ofSign negative (Integer.valueFrom 0 (plain ds)) := by
  unfold exponent?
  rw [h]
  rcases ds with _ | ⟨b, ds⟩
  · simp [Integer.IsDigits]
  · by_cases hb : b = Text.byte '_'
    · simp [hb]
    · have hne : plain (b :: ds) ≠ [] := by simp [plain_cons_of_ne hb]
      have hhead : (b :: ds).head? ≠ some (Text.byte '_') := by simpa using hb
      have hmap : ((do let n ← exponentDigits? 0 (b :: ds); pure (n : Int)) : Option Int).map
            (fun n => if negative then -n else n)
          = (exponentDigits? 0 (b :: ds)).map (Integer.ofSign negative) := by
        cases exponentDigits? 0 (b :: ds) <;> rfl
      simp only [if_neg hb]
      rw [hmap, Option.map_eq_some_iff]
      simp only [exponentDigits?_eq_some_iff]
      constructor
      · rintro ⟨n, ⟨hds, rfl⟩, rfl⟩
        exact ⟨hhead, ⟨hne, hds⟩, rfl⟩
      · rintro ⟨-, ⟨-, hds⟩, rfl⟩
        exact ⟨_, ⟨hds, rfl⟩, rfl⟩

/-- An exponent is a sign, which may be left out, and digits; the first of them is no underscore. -/
theorem exponent?_eq_some_iff {t : Text} {e : Int} :
    exponent? t = some e
      ↔ (Integer.splitSign t).2.head? ≠ some (Text.byte '_') ∧ Integer.Spells (plain t) e := by
  have hsplit : Integer.splitSign t = ((Integer.splitSign t).1, (Integer.splitSign t).2) := rfl
  rw [exponent?_of_splitSign hsplit, Integer.spells_iff_splitSign]
  refine and_congr_right fun hne => ?_
  rw [splitSign_plain]
  rcases t with _ | ⟨b, t⟩
  · exact hne
  · rintro heq
    obtain rfl : b = Text.byte '_' := by simpa using heq
    exact hne rfl

end Exponent

section Limit

theorem limit_pos : 0 < limit := by decide +kernel

theorem limit_le : limit ≤ 2 ^ 1100 := by decide +kernel

/-- An exponent that is cut at `k` decides the same, since the limit is passed by then. -/
theorem mul_pow_min_lt_limit_iff {base value k : Nat} (hb : 2 ≤ base) (hv : value ≠ 0)
    (hk : limit ≤ 2 ^ k) (n : Nat) :
    value * base ^ min n k < limit ↔ value * base ^ n < limit := by
  rcases le_total n k with h | h
  · rw [min_eq_left h]
  · have hlarge : limit ≤ base ^ k := hk.trans (Nat.pow_le_pow_left hb k)
    have hpow : base ^ k ≤ base ^ n := Nat.pow_le_pow_right (by omega) h
    rw [min_eq_right h]
    refine iff_of_false ?_ ?_ <;> rw [Nat.not_lt]
    · exact hlarge.trans (Nat.le_mul_of_pos_left _ (by omega))
    · exact (hlarge.trans hpow).trans (Nat.le_mul_of_pos_left _ (by omega))

/-- An exponent below zero decides nothing beyond the number of digits. -/
theorem lt_limit_mul_pow_min_iff {base value length : Nat} (hb : 2 ≤ base)
    (hv : value < base ^ length) (n : Nat) :
    value < limit * base ^ min n length ↔ value < limit * base ^ n := by
  rcases le_total n length with h | h
  · rw [min_eq_left h]
  · have hpow : base ^ length ≤ base ^ n := Nat.pow_le_pow_right (by omega) h
    rw [min_eq_right h]
    refine iff_of_true ?_ ?_
    · exact hv.trans_le (Nat.le_mul_of_pos_left _ limit_pos)
    · exact (hv.trans_le hpow).trans_le (Nat.le_mul_of_pos_left _ limit_pos)

/-- The exponent is cut where it decides nothing any more. -/
theorem fits_iff {base value length : Nat} {e : Int} {r : ℚ} (hr : (base : ℚ) = r) (hb : 2 ≤ base)
    (hv : value < base ^ length) :
    fits base value e length = true ↔ (value : ℚ) * r ^ e < limit := by
  subst hr
  have hbase : (0 : ℚ) < base := by exact_mod_cast (by omega : 0 < base)
  unfold fits
  split_ifs with h0 he
  · have hlimit : (0 : ℚ) < limit := by exact_mod_cast limit_pos
    rw [h0, Nat.cast_zero, zero_mul]
    exact iff_of_true rfl hlimit
  · lift e to ℕ using he
    rw [decide_eq_true_iff, Int.toNat_natCast, Nat.pow_eq, mul_pow_min_lt_limit_iff hb h0 limit_le,
      zpow_natCast]
    norm_cast
  · obtain ⟨n, rfl⟩ : ∃ n : ℕ, e = -n := ⟨(-e).toNat, by omega⟩
    rw [decide_eq_true_iff, neg_neg, Int.toNat_natCast, Nat.pow_eq, lt_limit_mul_pow_min_iff hb hv,
      zpow_neg, zpow_natCast, ← div_eq_mul_inv, div_lt_iff₀ (pow_pos hbase n)]
    norm_cast

end Limit

section Numeral

variable {base : Nat}

theorem eq_or_eq_of_fold {b c : UInt8} (h : fold b = c) : b = c ∨ b = c - 32 := by
  unfold fold at h
  split_ifs at h
  · exact .inr (by rw [← h, UInt8.add_sub_cancel])
  · exact .inl h

theorem ends_of_fold {b letter : UInt8} (h : fold b = letter) (hlower : Mantissa.Ends base letter)
    (hupper : Mantissa.Ends base (letter - 32)) : Mantissa.Ends base b := by
  rcases eq_or_eq_of_fold h with rfl | rfl
  · exact hlower
  · exact hupper

theorem head?_ne_underscore_of_isChain {b : UInt8} {t : Text} (hb : isDigit base b = false)
    (h : (b :: t).IsChain (Beside base)) : t.head? ≠ some (Text.byte '_') := by
  intro heq
  have hdigit := (h.rel_head? heq).2 rfl
  rw [hb] at hdigit
  cases hdigit

/-- The first digit of an exponent is no underscore, because its letter or a sign stands before
it. -/
theorem head?_splitSign_of_isChain {mark : UInt8} {ex : Text} (hmark : isDigit base mark = false)
    (h : (mark :: ex).IsChain (Beside base)) :
    (Integer.splitSign ex).2.head? ≠ some (Text.byte '_') := by
  rcases ex with _ | ⟨c, ex⟩
  · simp [Integer.splitSign]
  · have hex := (List.isChain_cons_cons.1 h).2
    rw [Integer.splitSign]
    split_ifs with hminus hplus
    · exact head?_ne_underscore_of_isChain (hminus ▸ rfl) hex
    · exact head?_ne_underscore_of_isChain (hplus ▸ rfl) hex
    · exact head?_ne_underscore_of_isChain hmark h

/-- The mantissa of a numeral with an exponent is what is read of it, and its exponent what is
behind the letter. -/
theorem scientific_iff {letter : UInt8} {t : Text} {m : Mantissa} {e : ℤ}
    (hlower : Mantissa.Ends base letter) (hupper : Mantissa.Ends base (letter - 32))
    (hs : t.IsChain (Beside base)) :
    Scientific base letter t m e
      ↔ m.digits = true ∧ ∃ mark ex, Mantissa.read base .start t = (m, mark :: ex)
        ∧ fold mark = letter ∧ exponent? ex = some e := by
  simp only [Mantissa.read_start_eq_iff, exponent?_eq_some_iff]
  constructor
  · rintro ⟨h, hdigits, hmark, he⟩
    have hends := ends_of_fold hmark hlower hupper
    exact ⟨hdigits, _, _, ⟨_, rfl, h, hends.stops _ _⟩, hmark,
      head?_splitSign_of_isChain hends.1 hs.right_of_append, he⟩
  · rintro ⟨hdigits, mark, ex, ⟨used, rfl, h, -⟩, hmark, -, he⟩
    exact ⟨h, hdigits, hmark, he⟩

theorem value_lt_of_spelled_plain {t : Text} {m : Mantissa} (h : m.Spelled base (plain t))
    (hb : 0 < base) {n : Nat} (hn : t.length ≤ n) : m.value < base ^ n :=
  (h.value_lt hb).trans_le (Nat.pow_le_pow_right hb ((length_plain_le t).trans hn))

theorem Scientific.value_lt {letter : UInt8} {t : Text} {m : Mantissa} {e : ℤ}
    (h : Scientific base letter t m e) (hb : 0 < base) : m.value < base ^ t.length := by
  obtain ⟨h, -, -, -⟩ := h
  exact value_lt_of_spelled_plain h hb (by simp)

theorem Scientific.ne_nil {letter : UInt8} {t : Text} {m : Mantissa} {e : ℤ}
    (h : Scientific base letter t m e) : t ≠ [] := by
  obtain ⟨-, -, -, -⟩ := h
  simp

theorem acceptsDecimal_of_read {t rest : Text} {m : Mantissa}
    (h : Mantissa.read 10 .start t = (m, rest)) :
    acceptsDecimal t = true ↔ m.digits = true ∧ Separated 10 t
      ∧ (rest = [] ∧ fits 10 m.value (-m.places) t.length = true
        ∨ ∃ mark ex e, rest = mark :: ex ∧ fold mark = Text.byte 'e' ∧ exponent? ex = some e
          ∧ fits 10 m.value (e - m.places) t.length = true) := by
  unfold acceptsDecimal
  rw [h, ← underscoresFit_iff]
  rcases rest with _ | ⟨mark, ex⟩
  · simp [and_assoc]
  · rcases hex : exponent? ex with _ | e <;> simp [hex, and_assoc]

theorem fits_ten_iff {value length : Nat} {e : Int} (hv : value < 10 ^ length) :
    fits 10 value e length = true ↔ (value : ℚ) * 10 ^ e < limit :=
  fits_iff (by norm_num) (by decide) hv

/-- Decimal numerals, with an exponent or without. -/
theorem acceptsDecimal_iff {t : Text} :
    acceptsDecimal t = true
      ↔ Separated 10 t ∧ ((∃ m : Mantissa, m.Spelled 10 (plain t) ∧ m.digits = true
            ∧ (m.value : ℚ) * 10 ^ (-m.places : ℤ) < limit)
          ∨ ∃ m e, Scientific 10 (Text.byte 'e') t m e
            ∧ (m.value : ℚ) * 10 ^ (e - m.places) < limit) := by
  constructor
  · intro h
    rcases hread : Mantissa.read 10 .start t with ⟨m, rest⟩
    obtain ⟨hdigits, hs, ⟨rfl, hfits⟩ | ⟨mark, ex, e, rfl, hmark, he, hfits⟩⟩ :=
      (acceptsDecimal_of_read hread).1 h
    · obtain ⟨used, rfl, hm, -⟩ := Mantissa.read_start_eq_iff.1 hread
      rw [List.append_nil] at *
      have hlt := value_lt_of_spelled_plain hm (by decide) le_rfl
      exact ⟨hs, .inl ⟨m, hm, hdigits, (fits_ten_iff hlt).1 hfits⟩⟩
    · have hm := (scientific_iff (by decide) (by decide) hs.2.2).2
        ⟨hdigits, mark, ex, hread, hmark, he⟩
      exact ⟨hs, .inr ⟨m, e, hm, (fits_ten_iff (hm.value_lt (by decide))).1 hfits⟩⟩
  · rintro ⟨hs, ⟨m, hm, hdigits, hlimit⟩ | ⟨m, e, hm, hlimit⟩⟩
    · have hread := Mantissa.read_start_eq_iff.2
        ⟨t, (List.append_nil t).symm, hm, (fun b hb => nomatch hb : m.Stops 10 [])⟩
      have hlt := value_lt_of_spelled_plain hm (by decide) le_rfl
      exact (acceptsDecimal_of_read hread).2
        ⟨hdigits, hs, .inl ⟨rfl, (fits_ten_iff hlt).2 hlimit⟩⟩
    · obtain ⟨hdigits, mark, ex, hread, hmark, he⟩ :=
        (scientific_iff (by decide) (by decide) hs.2.2).1 hm
      exact (acceptsDecimal_of_read hread).2 ⟨hdigits, hs,
        .inr ⟨mark, ex, e, rfl, hmark, he, (fits_ten_iff (hm.value_lt (by decide))).2 hlimit⟩⟩

theorem separated_zero_cons_iff {t : Text} :
    Separated 16 (Text.byte '0' :: t) ↔ underscoresFit 16 .digit t = true := by
  rw [← underscoresFit_iff, underscoresFit, if_pos (by decide)]

theorem acceptsHexadecimal_of_read {t rest : Text} {m : Mantissa}
    (h : Mantissa.read 16 .start t = (m, rest)) :
    acceptsHexadecimal t = true ↔ m.digits = true ∧ Separated 16 (Text.byte '0' :: t)
      ∧ ∃ mark ex e, rest = mark :: ex ∧ fold mark = Text.byte 'p' ∧ exponent? ex = some e
        ∧ fits 2 m.value (e - 4 * m.places) (4 * t.length) = true := by
  unfold acceptsHexadecimal
  rw [h, separated_zero_cons_iff]
  rcases rest with _ | ⟨mark, ex⟩
  · simp
  · rcases hex : exponent? ex with _ | e <;> simp [hex, and_assoc]

/-- Hexadecimal numerals, which have an exponent. -/
theorem acceptsHexadecimal_iff {t : Text} :
    acceptsHexadecimal t = true
      ↔ Separated 16 (Text.byte '0' :: t) ∧ ∃ m e, Scientific 16 (Text.byte 'p') t m e
          ∧ (m.value : ℚ) * 2 ^ (e - 4 * m.places) < limit := by
  have hfits : ∀ {m : Mantissa} {e : ℤ}, Scientific 16 (Text.byte 'p') t m e →
      (fits 2 m.value (e - 4 * m.places) (4 * t.length) = true
        ↔ (m.value : ℚ) * 2 ^ (e - 4 * m.places) < limit) := fun hm => by
    refine fits_iff (by norm_num) le_rfl ?_
    rw [pow_mul]
    exact hm.value_lt (by decide)
  constructor
  · intro h
    rcases hread : Mantissa.read 16 .start t with ⟨m, rest⟩
    obtain ⟨hdigits, hs, mark, ex, e, rfl, hmark, he, hlimit⟩ :=
      (acceptsHexadecimal_of_read hread).1 h
    have hm := (scientific_iff (by decide) (by decide) hs.2.2.tail).2
      ⟨hdigits, mark, ex, hread, hmark, he⟩
    exact ⟨hs, m, e, hm, (hfits hm).1 hlimit⟩
  · rintro ⟨hs, m, e, hm, hlimit⟩
    obtain ⟨hdigits, mark, ex, hread, hmark, he⟩ :=
      (scientific_iff (by decide) (by decide) hs.2.2.tail).1 hm
    exact (acceptsHexadecimal_of_read hread).2
      ⟨hdigits, hs, mark, ex, e, rfl, hmark, he, (hfits hm).2 hlimit⟩

/-- Read as a decimal, a hexadecimal numeral ends after its zero. -/
theorem acceptsDecimal_zero_x {x : UInt8} (hx : fold x = Text.byte 'x') (t : Text) :
    acceptsDecimal (Text.byte '0' :: x :: t) = false := by
  have hends : Mantissa.Ends 10 x := ends_of_fold hx (by decide) (by decide)
  have hread : Mantissa.read 10 .start ([Text.byte '0'] ++ x :: t) = (_, x :: t) :=
    Mantissa.read_of_spelled (.whole (List.forall_mem_singleton.2 rfl)) (hends.stops _ _)
  rw [Bool.eq_false_iff, ne_eq, ← List.singleton_append, acceptsDecimal_of_read hread]
  rintro ⟨-, -, ⟨hnil, -⟩ | ⟨mark, ex, e, heq, hmark, -⟩⟩
  · cases hnil
  · cases heq
    rw [hx] at hmark
    exact absurd hmark (by decide)

theorem acceptsDecimal_iff_spells {t : Text}
    (h : ∀ x u, fold x = Text.byte 'x' → t = Text.byte '0' :: x :: u → u = []) :
    acceptsDecimal t = true ↔ ∃ q, Spells t q ∧ q < limit := by
  rw [acceptsDecimal_iff]
  constructor
  · rintro ⟨hs, ⟨m, hm, hdigits, hlimit⟩ | ⟨m, e, hm, hlimit⟩⟩
    · exact ⟨_, .fixed hm hdigits hs, hlimit⟩
    · exact ⟨_, .decimal hm hs, hlimit⟩
  · rintro ⟨q, hq, hlimit⟩
    cases hq with
    | fixed hm hdigits hs => exact ⟨hs, .inl ⟨_, hm, hdigits, hlimit⟩⟩
    | decimal hm hs => exact ⟨hs, .inr ⟨_, _, hm, hlimit⟩⟩
    | hexadecimal hx hm _ => exact absurd (h _ _ hx rfl) hm.ne_nil

theorem acceptsHexadecimal_iff_spells {x : UInt8} (hx : fold x = Text.byte 'x') (t : Text) :
    acceptsHexadecimal t = true ↔ ∃ q, Spells (Text.byte '0' :: x :: t) q ∧ q < limit := by
  rw [acceptsHexadecimal_iff]
  constructor
  · rintro ⟨hs, m, e, hm, hlimit⟩
    exact ⟨_, .hexadecimal hx hm hs, hlimit⟩
  · rintro ⟨q, hq, hlimit⟩
    have hnot := acceptsDecimal_zero_x hx t
    rw [Bool.eq_false_iff, ne_eq, acceptsDecimal_iff] at hnot
    cases hq with
    | fixed hm hdigits hs => exact absurd ⟨hs, .inl ⟨_, hm, hdigits, hlimit⟩⟩ hnot
    | decimal hm hs => exact absurd ⟨hs, .inr ⟨_, _, hm, hlimit⟩⟩ hnot
    | hexadecimal _ hm hs => exact ⟨hs, _, _, hm, hlimit⟩

/-- What is accepted behind a sign is a numeral of a number below the limit. -/
theorem acceptsDigits_iff {t : Text} :
    acceptsDigits t = true ↔ ∃ q, Spells (Integer.splitSign t).2 q ∧ q < limit := by
  unfold acceptsDigits
  rcases Integer.splitSign t with ⟨negative, ds⟩
  dsimp only
  split
  · rename_i b0 b1 b2 rest
    split_ifs with hx
    · rw [hx.1, acceptsHexadecimal_iff_spells hx.2]
    · refine acceptsDecimal_iff_spells fun x u hfold heq => ?_
      cases heq
      exact absurd ⟨rfl, hfold⟩ hx
  · rename_i hshort
    refine acceptsDecimal_iff_spells fun x u hfold heq => ?_
    rcases u with _ | ⟨b, u⟩
    · rfl
    · exact absurd heq (hshort _ _ _ _)

end Numeral

section Sign

theorem exists_isSign (t : Text) : ∃ sign, IsSign sign ∧ t = sign ++ (Integer.splitSign t).2 := by
  rcases t with _ | ⟨b, t⟩
  · exact ⟨[], .none, rfl⟩
  · rw [Integer.splitSign]
    split_ifs with hminus hplus
    · exact ⟨[b], hminus ▸ .minus, rfl⟩
    · exact ⟨[b], hplus ▸ .plus, rfl⟩
    · exact ⟨[], .none, rfl⟩

/-- What starts with no sign is what a sign before it is split from. -/
theorem splitSign_append_of_isSign {sign u : Text} (hsign : IsSign sign)
    (hu : ∀ b, IsSign [b] → u.head? ≠ some b) : (Integer.splitSign (sign ++ u)).2 = u := by
  cases hsign with
  | plus | minus => rfl
  | none =>
    rcases u with _ | ⟨b, u⟩
    · rfl
    · have hminus : b ≠ Text.byte '-' := fun h => hu _ .minus (congrArg some h)
      have hplus : b ≠ Text.byte '+' := fun h => hu _ .plus (congrArg some h)
      rw [List.nil_append, Integer.splitSign, if_neg hminus, if_neg hplus]

theorem Mantissa.Spelled.head?_ne_sign {base : Nat} {t : Text} {m : Mantissa}
    (h : m.Spelled base (plain t)) {b : UInt8} (hb : IsSign [b]) : t.head? ≠ some b := by
  have hdigit : isDigit base b = false := by cases hb <;> rfl
  have hpoint : b ≠ Text.byte '.' := by cases hb <;> decide
  have hunderscore : b ≠ Text.byte '_' := by cases hb <;> decide
  rcases t with _ | ⟨c, t⟩
  · simp
  · rintro heq
    obtain rfl : c = b := Option.some.inj heq
    rw [plain_cons_of_ne hunderscore] at h
    generalize hds : c :: plain t = ds at h
    cases h with
    | whole h =>
      subst hds
      exact absurd (h c List.mem_cons_self) (by simp [hdigit])
    | @pointed ds fs hd hf =>
      rcases ds with _ | ⟨d, ds⟩
      · exact hpoint (List.cons.inj hds).1
      · obtain ⟨rfl, -⟩ := List.cons.inj hds
        exact absurd (hd c List.mem_cons_self) (by simp [hdigit])

theorem Scientific.head?_ne_sign {base : Nat} {letter : UInt8} {t : Text} {m : Mantissa} {e : ℤ}
    (h : Scientific base letter t m e) {b : UInt8} (hb : IsSign [b]) : t.head? ≠ some b := by
  obtain ⟨hm, hdigits, -, -⟩ := h
  rename_i u ex mark
  rcases u with _ | ⟨c, u⟩
  · generalize hnil : plain [] = ds at hm
    cases hm with
    | whole => simp [← hnil] at hdigits
    | pointed => simp at hnil
  · exact hm.head?_ne_sign hb

/-- A numeral has no sign of its own, so a sign in front of it can be told. -/
theorem Spells.head?_ne_sign {t : Text} {q : ℚ} (h : Spells t q) {b : UInt8} (hb : IsSign [b]) :
    t.head? ≠ some b := by
  cases h with
  | fixed h => exact h.head?_ne_sign hb
  | decimal h => exact h.head?_ne_sign hb
  | hexadecimal => cases hb <;> simp [Text.byte]

/-- The sign of a numeral is the one that the reader splits off. -/
theorem denotes_iff_splitSign {t : Text} {q : ℚ} :
    Denotes t q ↔ Spells (Integer.splitSign t).2 q := by
  constructor
  · rintro ⟨sign, u, hsign, rfl, hu⟩
    rwa [splitSign_append_of_isSign hsign fun b hb => hu.head?_ne_sign hb]
  · intro h
    obtain ⟨sign, hsign, ht⟩ := exists_isSign t
    exact ⟨sign, _, hsign, ht, h⟩

theorem head?_ne_sign_of_map_fold {u name : Text} (h : u.map fold = name)
    (hname : name.head? = some (Text.byte 'i')) {b : UInt8} (hb : IsSign [b]) :
    u.head? ≠ some b := by
  intro hu
  have hfold : some (fold b) = some (Text.byte 'i') := by
    rw [← hname, ← h, List.head?_map, hu, Option.map_some]
  cases hb <;> exact absurd hfold (by decide)

theorem acceptsName_iff {t : Text} : acceptsName t = true ↔ IsName t := by
  simp only [acceptsName, Bool.or_eq_true, decide_eq_true_eq]
  rw [or_comm, IsName]
  refine or_congr_right ⟨fun h => ?_, ?_⟩
  · obtain ⟨sign, hsign, ht⟩ := exists_isSign t
    exact ⟨sign, _, hsign, ht, h⟩
  · rintro ⟨sign, u, hsign, rfl, h⟩
    have hhead : ∀ b, IsSign [b] → u.head? ≠ some b := by
      intro b hb
      rcases h with h | h <;> exact head?_ne_sign_of_map_fold h rfl hb
    rwa [splitSign_append_of_isSign hsign hhead]

theorem accepts_iff {t : Text} : accepts t = true ↔ IsNumber t := by
  simp only [accepts, Bool.or_eq_true, acceptsName_iff, acceptsDigits_iff, IsNumber,
    denotes_iff_splitSign]

end Sign

end SuiteScribe.Real
