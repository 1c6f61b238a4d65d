import SuiteScribe.Document.Read
import SuiteScribe.Proofs.Number.Real
import SuiteScribe.Proofs.Document.RoundTrip
import SuiteScribe.Proofs.TestClass.OneLine
import SuiteScribe.Proofs.Text.Case

/-!
# Bare numbers

A `Json.Numeral` is a number as JSON's grammar writes it.  Read as a node it is a whole number if
it is written as one and 64 bits hold it, and otherwise the numeral itself (`numberNode_toText`);
either way it is written as it was read, but for `-0` (`render_node`).  The reader of documents is
stricter than the grammar: a numeral is passed over as it stands, but only if a 64-bit float can
hold its number (`accepts_toText_iff`, `value?_toText`).
-/

namespace SuiteScribe.Json

open Text (byte)

/-- The exponent of a numeral: its letter, and a whole number, the sign of which may be left out. -/
structure Exponent where
  letter : UInt8
  spelling : Text
  value : Int
  letter_eq : letter = byte 'e' ∨ letter = byte 'E'
  spells : Integer.Spells spelling value

/-- A number of JSON's grammar.  There is a point only if there are digits behind it. -/
structure Numeral where
  negative : Bool
  whole : Text
  fraction : Text
  exponent : Option Exponent
  isDigits_whole : Integer.IsDigits whole
  whole_of_zero : whole.head? = some (byte '0') → whole = [byte '0']
  fraction_digits : ∀ b ∈ fraction, 48 ≤ b.toNat ∧ b.toNat ≤ 57

namespace Numeral

/-- The digits, and the point between them. -/
def digits (n : Numeral) : Text :=
  n.whole ++ if n.fraction = [] then [] else byte '.' :: n.fraction

/-- The exponent behind its letter. -/
def scale (n : Numeral) : Text :=
  match n.exponent with
  | none => []
  | some e => e.letter :: e.spelling

/-- The numeral without its sign. -/
def unsigned (n : Numeral) : Text :=
  n.digits ++ n.scale

def toText (n : Numeral) : Text :=
  if n.negative then byte '-' :: n.unsigned else n.unsigned

/-- Whether there is neither a fraction nor an exponent. -/
def IsWhole (n : Numeral) : Prop :=
  n.fraction = [] ∧ n.exponent.isNone = true

instance (n : Numeral) : Decidable n.IsWhole :=
  inferInstanceAs (Decidable (_ ∧ _))

/-- The number before the point. -/
def integer (n : Numeral) : Int :=
  Integer.ofSign n.negative (Integer.valueFrom 0 n.whole)

/-- The number without its sign. -/
def magnitude (n : Numeral) : ℚ :=
  (Integer.valueFrom 0 (n.whole ++ n.fraction) : ℚ)
    * 10 ^ ((n.exponent.map (·.value)).getD 0 - n.fraction.length : ℤ)

/-- What the numeral is read as. -/
def node (n : Numeral) : Node :=
  if n.IsWhole ∧ Integer.InRange n.integer then .int n.integer else .number n.toText

end Numeral

section Bytes

theorem continuesNumber_of_digit {b : UInt8} (h : 48 ≤ b.toNat ∧ b.toNat ≤ 57) :
    continuesNumber b = true := by
  simp [continuesNumber, h]

theorem continuesNumber_of_spells {t : Text} {i : Int} (h : Integer.Spells t i) :
    ∀ b ∈ t, continuesNumber b = true := by
  cases h with
  | plain h => exact fun b hb => continuesNumber_of_digit (h.2 b hb)
  | plus h => exact List.forall_mem_cons.2 ⟨rfl, fun b hb => continuesNumber_of_digit (h.2 b hb)⟩
  | minus h => exact List.forall_mem_cons.2 ⟨rfl, fun b hb => continuesNumber_of_digit (h.2 b hb)⟩

namespace Numeral

variable (n : Numeral)

theorem continuesNumber_of_mem_digits : ∀ b ∈ n.digits, continuesNumber b = true := by
  rw [digits, List.forall_mem_append]
  refine ⟨fun b hb => continuesNumber_of_digit (n.isDigits_whole.2 b hb), ?_⟩
  split_ifs
  · exact List.forall_mem_nil _
  · exact List.forall_mem_cons.2
      ⟨rfl, fun b hb => continuesNumber_of_digit (n.fraction_digits b hb)⟩

theorem continuesNumber_of_mem_scale : ∀ b ∈ n.scale, continuesNumber b = true := by
  unfold scale
  split
  · exact List.forall_mem_nil _
  · rename_i e _
    refine List.forall_mem_cons.2 ⟨?_, continuesNumber_of_spells e.spells⟩
    rcases e.letter_eq with h | h <;> rw [h] <;> rfl

theorem continuesNumber_of_mem_unsigned : ∀ b ∈ n.unsigned, continuesNumber b = true :=
  List.forall_mem_append.2 ⟨n.continuesNumber_of_mem_digits, n.continuesNumber_of_mem_scale⟩

/-- Whatever stands in a numeral, a number goes on with. -/
theorem continuesNumber_of_mem_toText : ∀ b ∈ n.toText, continuesNumber b = true := by
  unfold toText
  split_ifs
  · exact List.forall_mem_cons.2 ⟨rfl, n.continuesNumber_of_mem_unsigned⟩
  · exact n.continuesNumber_of_mem_unsigned

theorem notMem_unsigned {b : UInt8} (h : continuesNumber b = false) : b ∉ n.unsigned := by
  intro hb
  rw [n.continuesNumber_of_mem_unsigned b hb] at h
  cases h

/-- The sign of a numeral is the one that the reader splits off. -/
theorem splitSign_toText : Integer.splitSign n.toText = (n.negative, n.unsigned) := by
  unfold toText
  split_ifs with h
  · rw [h]
    rfl
  · rw [Bool.not_eq_true] at h
    rw [h, unsigned, digits, List.append_assoc, Integer.splitSign_append n.isDigits_whole]

end Numeral

end Bytes

section Node

namespace Numeral

variable (n : Numeral)

theorem unsigned_of_isWhole {n : Numeral} (h : n.IsWhole) : n.unsigned = n.whole := by
  have hnone : n.exponent = none := Option.isNone_iff_eq_none.1 h.2
  simp [unsigned, digits, scale, h.1, hnone]

theorem isDigits_unsigned_iff : Integer.IsDigits n.unsigned ↔ n.IsWhole := by
  constructor
  · intro h
    refine ⟨?_, ?_⟩
    · by_contra hne
      have hpoint : byte '.' ∈ n.unsigned := by simp [unsigned, digits, hne]
      exact absurd (h.2 _ hpoint) (by decide)
    · rcases he : n.exponent with _ | e
      · rfl
      · have hletter : e.letter ∈ n.unsigned := by simp [unsigned, scale, he]
        have hdigit := h.2 _ hletter
        rcases e.letter_eq with heq | heq <;> rw [heq] at hdigit <;> exact absurd hdigit (by decide)
  · intro h
    rw [unsigned_of_isWhole h]
    exact n.isDigits_whole

/-- A numeral spells a whole number exactly if it has no fraction and no exponent. -/
theorem spells_toText_iff {i : Int} :
    Integer.Spells n.toText i ↔ n.IsWhole ∧ i = n.integer := by
  rw [Integer.spells_iff_splitSign, splitSign_toText, isDigits_unsigned_iff]
  refine and_congr_right fun h => ?_
  rw [unsigned_of_isWhole h, integer]

/-- The node of a bare number is the one that the numeral stands for. -/
theorem numberNode_toText : Tree.numberNode n.toText = n.node := by
  unfold Tree.numberNode node
  split
  · rename_i i hi
    rw [Integer.read_eq_ok_iff, spells_toText_iff] at hi
    obtain ⟨⟨hwhole, rfl⟩, hrange⟩ := hi
    rw [if_pos ⟨hwhole, hrange⟩]
  · rename_i e he
    rw [if_neg]
    rintro ⟨hwhole, hrange⟩
    rw [Integer.read_eq_ok_iff.2 ⟨n.spells_toText_iff.2 ⟨hwhole, rfl⟩, hrange⟩] at he
    cases he

theorem toText_ne_nil : n.toText ≠ [] := by
  unfold toText unsigned digits
  split_ifs <;> simp [n.isDigits_whole.1]

theorem hasLineBreak_toText : n.toText.hasLineBreak = false := by
  rw [Text.hasLineBreak, List.any_eq_false]
  intro b hb hbreak
  have hcontinues := n.continuesNumber_of_mem_toText b hb
  rw [Bool.or_eq_true, beq_iff_eq, beq_iff_eq] at hbreak
  rcases hbreak with rfl | rfl <;> cases hcontinues

/-- A whole number is written with the digits it is read from, and without a minus sign before
zero. -/
theorem ofInt_integer {n : Numeral} (h : n.IsWhole) :
    Text.ofInt n.integer = if n.toText = text "-0" then text "0" else n.toText := by
  have hofNat := Integer.ofNat_valueFrom n.isDigits_whole n.whole_of_zero
  unfold integer Integer.ofSign toText
  rw [unsigned_of_isWhole h]
  rcases hneg : n.negative with _ | _
  · have hne : n.whole ≠ text "-0" := fun heq =>
      absurd (n.isDigits_whole.2 (byte '-') (by rw [heq]; decide)) (by decide)
    simp only [Bool.false_eq_true, if_false, if_neg hne]
    exact hofNat
  · simp only [if_true]
    rcases Nat.eq_zero_or_pos (Integer.valueFrom 0 n.whole) with hv | hv
    · rw [hv] at hofNat ⊢
      rw [← hofNat]
      rfl
    · have hne : byte '-' :: n.whole ≠ text "-0" := fun heq => by
        rw [(List.cons.inj heq).2] at hv
        exact absurd hv (by decide)
      rw [if_neg hne, Integer.ofInt_neg hv, hofNat]

/-- A numeral that is read as a node is written as it stands, and `-0` as zero. -/
theorem render_node (modules : List Text) :
    n.node.render modules = .ok (if n.toText = text "-0" then text "0" else n.toText) := by
  unfold node
  split_ifs with h hzero hzero
  · rw [Node.render, ofInt_integer h.1, if_pos hzero]
  · rw [Node.render, ofInt_integer h.1, if_neg hzero]
  · -- `-0` is one of the numbers that 64 bits hold.
    obtain ⟨hspells, hrange⟩ :=
      Integer.read_eq_ok_iff.1 (rfl : Integer.read (text "-0") = .ok 0)
    rw [← hzero, spells_toText_iff] at hspells
    exact absurd ⟨hspells.1, hspells.2 ▸ hrange⟩ h
  · rw [Node.render, if_neg n.toText_ne_nil, requireOneLine_eq_ok_iff]
    exact ⟨rfl, n.hasLineBreak_toText⟩

end Numeral

end Node

section Reader

theorem n_notMem_map_fold {t : Text} (h : ∀ b ∈ t, continuesNumber b = true) :
    byte 'n' ∉ t.map Real.fold := by
  intro hmem
  obtain ⟨b, hb, hfold⟩ := List.mem_map.1 hmem
  have hcontinues := h b hb
  rcases Real.eq_or_eq_of_fold hfold with rfl | rfl <;> cases hcontinues

theorem exponent?_spelling (e : Exponent) : Real.exponent? e.spelling = some e.value := by
  have hplain : Real.plain e.spelling = e.spelling :=
    Real.plain_of_notMem fun hmem => nomatch continuesNumber_of_spells e.spells _ hmem
  rw [Real.exponent?_eq_some_iff, hplain]
  refine ⟨fun hhead => ?_, e.spells⟩
  have hdigits := (Integer.spells_iff_splitSign.1 e.spells).1
  exact absurd (hdigits.2 _ (List.mem_of_head? hhead)) (by decide)

namespace Numeral

variable (n : Numeral)

/-- The digits of the numeral, as they are read. -/
def mantissa : Real.Mantissa :=
  ⟨Integer.valueFrom 0 (n.whole ++ n.fraction), n.fraction.length, true, !n.fraction.isEmpty⟩

theorem spelled_mantissa : n.mantissa.Spelled 10 n.digits := by
  have hwhole : ∀ b ∈ n.whole, Real.isDigit 10 b = true := fun b hb =>
    Real.isDigit_ten_iff.2 (n.isDigits_whole.2 b hb)
  have hfraction : ∀ b ∈ n.fraction, Real.isDigit 10 b = true := fun b hb =>
    Real.isDigit_ten_iff.2 (n.fraction_digits b hb)
  have hvalue := Real.valueFrom_ten
    (List.forall_mem_append.2 ⟨n.isDigits_whole.2, n.fraction_digits⟩) 0
  have hne : (n.whole ++ n.fraction).isEmpty = false := by
    rw [List.isEmpty_eq_false_iff]
    simp [n.isDigits_whole.1]
  unfold mantissa digits
  rw [← hvalue]
  split_ifs with h
  · have hspelled := Real.Mantissa.Spelled.whole hwhole
    rw [h, List.append_nil] at hne ⊢
    rwa [hne] at hspelled
  · have hspelled := Real.Mantissa.Spelled.pointed hwhole hfraction
    rw [hne] at hspelled
    rwa [List.isEmpty_eq_false_iff.2 h]

theorem plain_digits : Real.plain n.digits = n.digits :=
  Real.plain_of_notMem fun hmem => nomatch n.continuesNumber_of_mem_digits _ hmem

theorem stops_scale (m : Real.Mantissa) : m.Stops 10 n.scale := by
  unfold scale
  split
  · exact fun b hb => nomatch hb
  · rename_i e _
    refine Real.Mantissa.Ends.stops ?_ m e.spelling
    rcases e.letter_eq with h | h <;> rw [h] <;> decide

/-- The mantissa of a numeral is read up to its exponent. -/
theorem read_unsigned : Real.Mantissa.read 10 .start n.unsigned = (n.mantissa, n.scale) :=
  Real.Mantissa.read_of_spelled (n.plain_digits.symm ▸ n.spelled_mantissa) (n.stops_scale _)

theorem fits_mantissa_iff (e : Int) :
    Real.fits 10 n.mantissa.value e n.unsigned.length = true
      ↔ (n.mantissa.value : ℚ) * 10 ^ e < Real.limit := by
  refine Real.fits_ten_iff (Real.value_lt_of_spelled_plain ?_ (by decide) ?_ (t := n.digits))
  · rw [plain_digits]
    exact n.spelled_mantissa
  · simp [unsigned]

theorem acceptsDecimal_unsigned_iff :
    Real.acceptsDecimal n.unsigned = true ↔ n.magnitude < Real.limit := by
  have hseparated : Real.Separated 10 n.unsigned :=
    Real.separated_of_notMem (n.notMem_unsigned rfl)
  have hdigits : n.mantissa.digits = true := rfl
  rw [Real.acceptsDecimal_of_read n.read_unsigned, and_iff_right hdigits,
    and_iff_right hseparated]
  rcases he : n.exponent with _ | e
  · have hmagnitude : n.magnitude = n.mantissa.value * 10 ^ (-n.mantissa.places : ℤ) := by
      rw [magnitude, he, Option.map_none, Option.getD_none, zero_sub]
      rfl
    have hscale : n.scale = [] := by rw [scale, he]
    rw [hmagnitude, ← fits_mantissa_iff, hscale]
    simp
  · have hmagnitude : n.magnitude = n.mantissa.value * 10 ^ (e.value - n.mantissa.places) := by
      rw [magnitude, he, Option.map_some, Option.getD_some]
      rfl
    have hscale : n.scale = e.letter :: e.spelling := by rw [scale, he]
    have hletter : Real.fold e.letter = byte 'e' := by
      rcases e.letter_eq with h | h <;> rw [h] <;> rfl
    rw [hmagnitude, ← fits_mantissa_iff, hscale]
    simp [hletter, exponent?_spelling]

/-- The names of numbers have an n in them, which numerals do not have. -/
theorem acceptsName_toText : Real.acceptsName n.toText = false := by
  have hunsigned := n_notMem_map_fold n.continuesNumber_of_mem_unsigned
  have htext := n_notMem_map_fold n.continuesNumber_of_mem_toText
  rw [Bool.eq_false_iff]
  intro hname
  rw [Real.acceptsName, splitSign_toText] at hname
  simp only [Bool.or_eq_true, decide_eq_true_eq] at hname
  rcases hname with (heq | heq) | heq
  · exact hunsigned (heq ▸ by decide)
  · exact hunsigned (heq ▸ by decide)
  · exact htext (heq ▸ by decide)

/-- The reader takes the numerals of the numbers that a 64-bit float can hold. -/
theorem accepts_toText_iff : Real.accepts n.toText = true ↔ n.magnitude < Real.limit := by
  rw [Real.accepts, acceptsName_toText, Bool.false_or, Real.acceptsDigits_iff, splitSign_toText,
    ← acceptsDecimal_unsigned_iff, Real.acceptsDecimal_iff_spells]
  intro x u hx heq
  have hcontinues := n.continuesNumber_of_mem_unsigned x (by simp [heq])
  rcases Real.eq_or_eq_of_fold hx with rfl | rfl <;> cases hcontinues

/-- A numeral starts with a minus sign or a digit. -/
theorem exists_toText_eq_cons :
    ∃ b t, n.toText = b :: t ∧ (b = byte '-' ∨ 48 ≤ b.toNat ∧ b.toNat ≤ 57) := by
  obtain ⟨b, ds, hwhole⟩ := List.exists_cons_of_ne_nil n.isDigits_whole.1
  have hb := n.isDigits_whole.2 b (by simp [hwhole])
  unfold toText
  split_ifs
  · exact ⟨_, _, rfl, .inl rfl⟩
  · rw [unsigned, digits, hwhole]
    exact ⟨_, _, rfl, .inr hb⟩

end Numeral

theorem skipBlanks_cons {b : UInt8} (hb : isBlank b = false) (rest : Text) :
    skipBlanks (b :: rest) = b :: rest :=
  List.dropWhile_cons_of_neg (by simp [hb])

theorem isBlank_of_continuesNumber {b : UInt8} (hb : continuesNumber b = true) :
    isBlank b = false := by
  rw [Bool.eq_false_iff]
  intro hblank
  simp only [isBlank, Bool.or_eq_true, beq_iff_eq] at hblank
  rcases hblank with ((rfl | rfl) | rfl) | rfl <;> cases hb

theorem continuesNumber_of_start {b : UInt8}
    (hb : b = byte '-' ∨ 48 ≤ b.toNat ∧ b.toNat ≤ 57) : continuesNumber b = true := by
  rcases hb with rfl | hb
  · rfl
  · exact continuesNumber_of_digit hb

theorem ne_of_continuesNumber {b c : UInt8} (hb : continuesNumber b = true)
    (hc : continuesNumber c = false) : b ≠ c := by
  rintro rfl
  rw [hb] at hc
  cases hc

/-- What starts as a number is read as one. -/
theorem value?_of_start {b : UInt8} (hb : b = byte '-' ∨ 48 ≤ b.toNat ∧ b.toNat ≤ 57)
    (fuel depth : Nat) (rest : Text) :
    value? (fuel + 1) depth (b :: rest)
      = (number? b rest).map fun (s, rest) => (.number s, rest) := by
  have hcontinues : continuesNumber b = true := continuesNumber_of_start hb
  have hne : ∀ c, continuesNumber c = false → b ≠ c := fun _ => ne_of_continuesNumber hcontinues
  rw [value?, skipBlanks_cons (isBlank_of_continuesNumber hcontinues)]
  simp only [if_neg (hne (byte '\x7b') rfl), if_neg (hne (byte '[') rfl),
    if_neg (hne (byte '"') rfl), if_pos hb]

theorem number?_append {b : UInt8} {ds rest : Text} (hds : ∀ d ∈ ds, continuesNumber d = true)
    (hrest : ∀ b ∈ rest.head?, continuesNumber b = false) :
    number? b (ds ++ rest) = if Real.accepts (b :: ds) then some (b :: ds, rest) else none := by
  have hspan : rest.takeWhile continuesNumber = [] ∧ rest.dropWhile continuesNumber = rest := by
    rcases rest with _ | ⟨c, rest⟩
    · exact ⟨rfl, rfl⟩
    · have hc : ¬ continuesNumber c = true := by simp [hrest c rfl]
      exact ⟨List.takeWhile_cons_of_neg hc, List.dropWhile_cons_of_neg hc⟩
  rw [number?, List.takeWhile_append_of_pos hds, List.dropWhile_append_of_pos hds, hspan.1,
    hspan.2, List.append_nil]

/-- Where a value is due, a numeral is read up to its end. -/
theorem Numeral.value?_toText (n : Numeral) (fuel depth : Nat) {rest : Text}
    (hrest : ∀ b ∈ rest.head?, continuesNumber b = false) :
    value? (fuel + 1) depth (n.toText ++ rest)
      = if Real.accepts n.toText then some (.number n.toText, rest) else none := by
  obtain ⟨b, t, ht, hb⟩ := n.exists_toText_eq_cons
  have hall : ∀ c ∈ t, continuesNumber c = true := fun c hc =>
    n.continuesNumber_of_mem_toText c (by simp [ht, hc])
  rw [ht, List.cons_append, value?_of_start hb, number?_append hall hrest]
  split_ifs <;> rfl

end Reader

section Document

/-- Whether a byte of a string stands for itself. -/
def isPlain (b : UInt8) : Bool :=
  b != byte '"' && b != 0 && b != byte '\\'

theorem stringFrom?_of_isPlain {s : Text} (h : s.all isPlain = true) (read rest : Text) :
    stringFrom? 0 read (s ++ byte '"' :: rest) = some (read.reverse ++ s, rest) := by
  induction s generalizing read with
  | nil => simp [stringFrom?]
  | cons b s ih =>
    rw [List.all_cons, Bool.and_eq_true] at h
    obtain ⟨hb, hs⟩ := h
    simp only [isPlain, Bool.and_eq_true, bne_iff_ne, ne_eq] at hb
    obtain ⟨⟨hquote, hzero⟩, hescape⟩ := hb
    rw [List.cons_append, stringFrom?.eq_def]
    simp only [if_neg hquote, if_neg hzero, if_neg hescape, ih hs]
    simp

theorem string?_of_isPlain {s : Text} (h : s.all isPlain = true) (rest : Text) :
    string? (s ++ byte '"' :: rest) = some (s, rest) :=
  stringFrom?_of_isPlain h [] rest

section Steps

variable {fuel depth : Nat} {t rest : Text} {r : Option Value}

/-- A list of one item is read if the item is. -/
theorem value?_singleton (hdepth : depth < maxDepth) {b : UInt8} (hblank : isBlank b = false)
    (hne : b ≠ byte ']') (h : value? fuel (depth + 1) (b :: t) = r.map (·, byte ']' :: rest)) :
    value? (fuel + 2) depth (byte '[' :: b :: t) = (r.map fun v => .list [v]).map (·, rest) := by
  rw [value?, skipBlanks_cons rfl]
  simp only [if_pos hdepth, skipBlanks_cons hblank, if_neg hne]
  show items? (fuel + 1) (depth + 1) [] (b :: t) = _
  rw [items?, h]
  cases r <;> rfl

theorem value?_mapping (hdepth : depth < maxDepth) :
    value? (fuel + 1) depth (byte '\x7b' :: byte '"' :: t)
      = fields? fuel (depth + 1) [] (byte '"' :: t) := by
  rw [value?, skipBlanks_cons rfl]
  simp only [if_pos hdepth]
  rfl

theorem fields?_of_isPlain {s : Text} (hs : s.all isPlain = true)
    (fields : List (Text × Value)) :
    fields? (fuel + 1) depth fields (byte '"' :: (s ++ byte '"' :: byte ':' :: t))
      = (value? fuel depth t).bind fun (v, rest) =>
          match skipBlanks rest with
          | [] => none
          | b :: rest =>
            if b = byte '\x7d' then some (.mapping ((s, v) :: fields).reverse, rest)
            else if b = byte ',' then fields? fuel depth ((s, v) :: fields) rest
            else none := by
  have hread : key? (byte '"' :: (s ++ byte '"' :: byte ':' :: t)) = some (s, byte ':' :: t) :=
    string?_of_isPlain hs _
  rw [fields?, hread]
  rfl

theorem fields?_last {s : Text} (hs : s.all isPlain = true) (fields : List (Text × Value))
    (h : value? fuel depth t = r.map (·, byte '\x7d' :: rest)) :
    fields? (fuel + 1) depth fields (byte '"' :: (s ++ byte '"' :: byte ':' :: t))
      = (r.map fun v => .mapping ((s, v) :: fields).reverse).map (·, rest) := by
  rw [fields?_of_isPlain hs, h]
  cases r <;> rfl

theorem fields?_next {s : Text} (hs : s.all isPlain = true) (fields : List (Text × Value))
    {v : Value} (h : value? fuel depth t = some (v, byte ',' :: rest)) :
    fields? (fuel + 1) depth fields (byte '"' :: (s ++ byte '"' :: byte ':' :: t))
      = fields? fuel depth ((s, v) :: fields) rest := by
  rw [fields?_of_isPlain hs, h]
  rfl

end Steps

/-- A document of one test with one statement. -/
def oneStatement (t : Text) : Text :=
  text "\x7b\"tests\":[\x7b\"name\":\"t\",\"statements\":[" ++ (t ++ text "]\x7d]\x7d")

/-- What a document of one test with one statement holds. -/
def oneStatementValue (v : Value) : Value :=
  .mapping [(text "tests", .list [.mapping [(text "name", .string (text "t")),
    (text "statements", .list [v])]])]

/-- Where that statement stands. -/
def oneStatementPath : Path :=
  [.field (text "tests"), .item 0, .field (text "statements"), .item 0]

/-- Such a document is read if its statement is. -/
theorem value?_oneStatement {k : Nat} {b : UInt8} {t : Text} {r : Option Value}
    (hblank : isBlank b = false) (hne : b ≠ byte ']')
    (h : value? k 4 (b :: t ++ text "]\x7d]\x7d") = r.map (·, text "]\x7d]\x7d")) :
    value? (k + 9) 0 (oneStatement (b :: t)) = (r.map oneStatementValue).map (·, []) := by
  have hdepth : 3 < maxDepth := by decide
  have hstatements := value?_singleton hdepth hblank hne h
  have hname : value? (k + 3) 3 (text "\"t\",\"statements\":["
        ++ (b :: t ++ text "]\x7d]\x7d"))
      = some (.string (text "t"), text ",\"statements\":[" ++ (b :: t ++ text "]\x7d]\x7d")) :=
    rfl
  have htest := (value?_mapping (by decide : 2 < maxDepth)).trans
    ((fields?_next (s := text "name") rfl [] hname).trans
      (fields?_last (s := text "statements") rfl _ hstatements))
  have htests := value?_singleton (by decide : 1 < maxDepth) rfl (by decide) htest
  have hsuite := (value?_mapping (by decide : 0 < maxDepth)).trans
    (fields?_last (s := text "tests") rfl [] htests)
  cases r <;> exact hsuite

theorem isBlank_oneStatement (t : Text) : (oneStatement t).isBlank = false := by
  have hcons : oneStatement t = byte '\x7b' :: (oneStatement t).tail := rfl
  rw [hcons, Text.isBlank, Text.runes_cons_of_ascii (by decide), List.all_cons]
  rfl

theorem toSuite_oneStatementValue (v : Value) :
    (oneStatementValue v).toTree.toSuite
      = (Tree.toNode oneStatementPath v.toTree).map fun node => [⟨text "t", [node]⟩] := by
  have htree : (oneStatementValue v).toTree = .mapping [(text "tests", .list [.mapping
      [(text "name", .string (text "t")), (text "statements", .list [v.toTree])]])] := rfl
  have hpath : ((Path.item [.field (text "tests")] 0).field "statements").item 0
      = oneStatementPath := rfl
  rw [htree]
  simp only [Tree.toSuite, Tree.toList, Tree.toTestsFrom, Tree.toTest, Tree.toText, Tree.toNodes,
    Tree.toNodesFrom, Tree.get_cons, hpath, ok_bind, text_inj, String.reduceEq, if_true, if_false]
  rcases Tree.toNode oneStatementPath v.toTree with e | node <;> rfl

namespace Numeral

variable (n : Numeral)

/-- A document with one numeral in it is read if the reader takes the numeral. -/
theorem read?_oneStatement :
    read? (oneStatement n.toText)
      = if Real.accepts n.toText then some (oneStatementValue (.number n.toText)) else none := by
  obtain ⟨b, t, ht, -⟩ := n.exists_toText_eq_cons
  have hb : continuesNumber b = true := n.continuesNumber_of_mem_toText b (by simp [ht])
  have hne : b ≠ byte ']' := by
    rintro rfl
    cases hb
  have hmark : skipMark (oneStatement n.toText) = oneStatement n.toText := rfl
  have hlength : 4 ≤ (oneStatement n.toText).length := by
    have : (text "]\x7d]\x7d").length = 4 := rfl
    simp only [oneStatement, List.length_append]
    omega
  obtain ⟨k, hk⟩ : ∃ k, 2 * (oneStatement n.toText).length + 2 = k + 10 :=
    Nat.exists_eq_add_of_le' (by omega)
  have hvalue : value? (k + 1) 4 (n.toText ++ text "]\x7d]\x7d")
      = (if Real.accepts n.toText then some (Value.number n.toText) else none).map
          (·, text "]\x7d]\x7d") := by
    rw [n.value?_toText k 4 fun c hc => by cases hc; rfl]
    split_ifs <;> rfl
  rw [read?, hmark, hk]
  rw [ht] at hvalue ⊢
  rw [value?_oneStatement (isBlank_of_continuesNumber hb) hne hvalue]
  split_ifs <;> rfl

/-- A numeral in a statement's place is the statement, if the reader takes it. -/
theorem suite_read_oneStatement :
    Suite.read .json (oneStatement n.toText)
      = if Real.accepts n.toText then .ok [⟨text "t", [n.node]⟩] else .error .malformed := by
  have hnode : ∀ path, Tree.toNode path (Value.number n.toText).toTree = .ok n.node := by
    intro path
    rw [Value.toTree, Tree.toNode, numberNode_toText]
  rw [Suite.read, Format.readTree, isBlank_oneStatement, read?_oneStatement]
  rcases Real.accepts n.toText with _ | _
  · rfl
  · show Suite.ofTree (oneStatementValue (.number n.toText)).toTree = _
    rw [Suite.ofTree, toSuite_oneStatementValue, hnode]
    rfl

/-- A numeral is read as a whole number if it is written as one and 64 bits hold it, and otherwise
as it stands; either way it is written as it was read, but for `-0`.  In a document, wherever it
stands, it is read only if a 64-bit float can hold its number. -/
theorem numeral_kept (modules : List Text) :
    (∀ path, Tree.toNode path (.number n.toText) = .ok n.node)
    ∧ n.node.render modules = .ok (if n.toText = text "-0" then text "0" else n.toText)
    ∧ (n.magnitude < Real.limit →
        (∀ fuel depth rest, (∀ b ∈ rest.head?, continuesNumber b = false) →
          value? (fuel + 1) depth (n.toText ++ rest) = some (.number n.toText, rest))
        ∧ Suite.read .json (oneStatement n.toText) = .ok [⟨text "t", [n.node]⟩])
    ∧ (Real.limit ≤ n.magnitude →
        (∀ fuel depth rest, (∀ b ∈ rest.head?, continuesNumber b = false) →
          value? (fuel + 1) depth (n.toText ++ rest) = none)
        ∧ Suite.read .json (oneStatement n.toText) = .error .malformed) := by
  refine ⟨fun path => ?_, n.render_node modules, fun hlt => ?_, fun hle => ?_⟩
  · rw [Tree.toNode, numberNode_toText]
  · have haccepts := n.accepts_toText_iff.2 hlt
    refine ⟨fun fuel depth rest hrest => ?_, ?_⟩
    · rw [n.value?_toText fuel depth hrest, if_pos haccepts]
    · rw [suite_read_oneStatement, if_pos haccepts]
  · have hrefuses : ¬ Real.accepts n.toText = true := fun h =>
      absurd (n.accepts_toText_iff.1 h) (not_lt.2 hle)
    refine ⟨fun fuel depth rest hrest => ?_, ?_⟩
    · rw [n.value?_toText fuel depth hrest, if_neg hrefuses]
    · rw [suite_read_oneStatement, if_neg hrefuses]

/-- A number that no float comes near. -/
def beyondFloats : Numeral where
  negative := false
  whole := text "1"
  fraction := []
  exponent := some ⟨byte 'e', text "999", 999, .inl rfl, (Integer.read_eq_ok_iff.1 rfl).1⟩
  isDigits_whole := Integer.isDigits_ofNat 1
  whole_of_zero := by decide
  fraction_digits := List.forall_mem_nil _

/-- It is a number of the grammar, and a node of its own, but no document can hold it. -/
theorem beyondFloats_refused :
    beyondFloats.toText = text "1e999"
    ∧ beyondFloats.node = .number (text "1e999")
    ∧ Suite.read .json (text "\x7b\"tests\":[\x7b\"name\":\"t\",\"statements\":[1e999]\x7d]\x7d")
        = .error .malformed := by
  refine ⟨rfl, rfl, ?_⟩
  have hrefused : Real.accepts beyondFloats.toText = false := by decide +kernel
  have hread := beyondFloats.suite_read_oneStatement
  rw [hrefused] at hread
  exact hread

end Numeral

end Document

end SuiteScribe.Json
