import SuiteScribe.Proofs.Text.Utf8
import SuiteScribe.Text.Case

/-!
# The case maps

A case map takes every character to a character that it keeps: no run of its table holds what a run
of the table gives.  Characters in front of the letters have no case, and none of them is the other
case of another character.  Both are checked once for each table (`settled_upperRuns`,
`settled_lowerRuns`), and hold of what any such table makes of a character (`Settled.map_map`,
`Settled.keepsFront`).
-/

namespace SuiteScribe

/-- The map keeps the characters in front of the letters, and takes no other character there. -/
def KeepsFront (f : Char → Char) : Prop :=
  ∀ c, f c = c ∨ 64 < c.toNat ∧ 64 < (f c).toNat

namespace KeepsFront

variable {f : Char → Char} {c : Char}

/-- A character in front of the letters has no case. -/
theorem eq_of_le (h : KeepsFront f) (hc : c.toNat ≤ 64) : f c = c := by
  rcases h c with heq | ⟨hlt, -⟩
  · exact heq
  · omega

/-- A character in front of the letters is the case of itself alone. -/
theorem toNat_eq_iff (h : KeepsFront f) {m : Nat} (hm : m ≤ 64) :
    (f c).toNat = m ↔ c.toNat = m := by
  rcases h c with heq | ⟨hc, hf⟩
  · rw [heq]
  · omega

end KeepsFront

/-- The number that has a bit for every number of the list. -/
def bitsOf : List Nat → Nat
  | [] => 0
  | n :: ns => Nat.lor (Nat.shiftLeft 1 n) (bitsOf ns)

theorem testBit_lor (m n i : Nat) :
    (Nat.lor m n).testBit i = true ↔ m.testBit i = true ∨ n.testBit i = true := by
  rw [show Nat.lor m n = m ||| n from rfl, Nat.testBit_or, Bool.or_eq_true]

theorem testBit_bitsOf {ns : List Nat} {i : Nat} : (bitsOf ns).testBit i = true ↔ i ∈ ns := by
  induction ns with
  | nil => simp [bitsOf]
  | cons n ns ih =>
    have hbit : (Nat.shiftLeft 1 n).testBit i = true ↔ i = n := by
      rw [show Nat.shiftLeft 1 n = 1 <<< n from rfl, Nat.one_shiftLeft, Nat.testBit_two_pow,
        decide_eq_true_eq, eq_comm]
    rw [bitsOf, testBit_lor, ih, hbit, List.mem_cons]

namespace CaseRun

/-- As many code points as the run holds, from `start` on. -/
def places (r : CaseRun) (start : Nat) : List Nat :=
  (List.range ((r.last - r.first) / r.step + 1)).map fun k => start + k * r.step

/-- The places of all runs as one number, so that few steps compare many places. -/
def placeBits (start : CaseRun → Nat) : List CaseRun → Nat
  | [] => 0
  | r :: runs => Nat.lor (bitsOf (r.places (start r))) (placeBits start runs)

/-- Whether what the run gives are code points of characters. -/
def givesChars (r : CaseRun) : Bool :=
  r.image + (r.last - r.first) < 0xd800
    || (0xdfff < r.image && r.image + (r.last - r.first) < 0x110000)

/-- The runs give characters, and none that one of the runs holds.  They neither start nor end up in
front of the letters. -/
structure Settled (runs : List CaseRun) : Prop where
  chars : ∀ r ∈ runs, r.givesChars = true
  apart : Nat.land (placeBits first runs) (placeBits image runs) = 0
  behind : ∀ r ∈ runs, 64 < r.first ∧ 64 < r.image

theorem testBit_placeBits {start : CaseRun → Nat} {runs : List CaseRun} {i : Nat} :
    (placeBits start runs).testBit i = true ↔ ∃ r ∈ runs, i ∈ r.places (start r) := by
  induction runs with
  | nil => simp [placeBits]
  | cons r runs ih => rw [placeBits, testBit_lor, testBit_bitsOf, ih, List.exists_mem_cons_iff]

theorem mem_places {r : CaseRun} {n : Nat} (h : r.holds n = true) (start : Nat) :
    start + (n - r.first) ∈ r.places start := by
  simp only [holds, Bool.and_eq_true, decide_eq_true_eq, beq_iff_eq] at h
  obtain ⟨⟨-, hlast⟩, hstep⟩ := h
  have hle : (n - r.first) / r.step ≤ (r.last - r.first) / r.step :=
    Nat.div_le_div_right (by omega)
  refine List.mem_map.2 ⟨(n - r.first) / r.step, List.mem_range.2 (by omega), ?_⟩
  rw [Nat.div_mul_cancel (Nat.dvd_of_mod_eq_zero hstep)]

theorem isValidChar_of_givesChars {r : CaseRun} {n : Nat} (h : r.givesChars = true)
    (hn : r.holds n = true) : (r.image + (n - r.first)).isValidChar := by
  simp only [givesChars, Bool.or_eq_true, Bool.and_eq_true, decide_eq_true_eq] at h
  simp only [holds, Bool.and_eq_true, decide_eq_true_eq] at hn
  unfold Nat.isValidChar
  omega

variable {runs : List CaseRun}

/-- No run holds what a run gives, since their places share no bit. -/
theorem Settled.not_holds (h : Settled runs) {r s : CaseRun} {n : Nat} (hr : r ∈ runs)
    (hn : r.holds n = true) (hs : s ∈ runs) : s.holds (r.image + (n - r.first)) = false := by
  rw [Bool.eq_false_iff]
  intro hheld
  generalize hm : r.image + (n - r.first) = m at hheld
  have hgiven : (placeBits image runs).testBit m = true :=
    testBit_placeBits.2 ⟨r, hr, hm ▸ mem_places hn r.image⟩
  have hfirst : s.first ≤ m := by
    simp only [holds, Bool.and_eq_true, decide_eq_true_eq] at hheld
    exact hheld.1.1
  have hplace : m ∈ s.places s.first := by
    have hmem := mem_places hheld s.first
    rwa [Nat.add_sub_cancel' hfirst] at hmem
  have hheldBit : (placeBits first runs).testBit m = true := testBit_placeBits.2 ⟨s, hs, hplace⟩
  have hland : (Nat.land (placeBits first runs) (placeBits image runs)).testBit m = true := by
    rw [show ∀ a b, Nat.land a b = a &&& b from fun _ _ => rfl, Nat.testBit_and, hheldBit, hgiven]
    rfl
  rw [h.apart, Nat.zero_testBit] at hland
  cases hland

theorem apply_of_not_holds {n : Nat} (h : ∀ s ∈ runs, s.holds n = false) : apply runs n = n := by
  have hnone : runs.find? (·.holds n) = none :=
    List.find?_eq_none.2 fun s hs => by simp [h s hs]
  rw [apply, hnone]

/-- A code point is kept, or a run holds it and tells what becomes of it. -/
theorem apply_eq_or_exists (runs : List CaseRun) (n : Nat) :
    apply runs n = n
      ∨ ∃ r ∈ runs, r.holds n = true ∧ apply runs n = r.image + (n - r.first) := by
  rcases hfind : runs.find? (·.holds n) with _ | r
  · exact .inl (by rw [apply, hfind])
  · have hholds := List.find?_some hfind
    exact .inr ⟨r, List.mem_of_find?_eq_some hfind, hholds, by rw [apply, hfind]⟩

/-- What settled runs give is a character, and they keep it. -/
theorem Settled.apply_spec (h : Settled runs) {n : Nat} (hn : n.isValidChar) :
    (apply runs n).isValidChar ∧ apply runs (apply runs n) = apply runs n := by
  rcases apply_eq_or_exists runs n with hkept | ⟨r, hr, hholds, hgiven⟩
  · rw [hkept, hkept]
    exact ⟨hn, rfl⟩
  · rw [hgiven]
    exact ⟨isValidChar_of_givesChars (h.chars r hr) hholds,
      apply_of_not_holds fun s hs => h.not_holds hr hholds hs⟩

/-- Settled runs keep a code point, or have it and what they make of it behind the front. -/
theorem Settled.apply_eq_or_lt (h : Settled runs) (n : Nat) :
    apply runs n = n ∨ 64 < n ∧ 64 < apply runs n := by
  rcases apply_eq_or_exists runs n with hkept | ⟨r, hr, hholds, hgiven⟩
  · exact .inl hkept
  · obtain ⟨hfirst, himage⟩ := h.behind r hr
    simp only [holds, Bool.and_eq_true, decide_eq_true_eq] at hholds
    rw [hgiven]
    exact .inr ⟨Nat.lt_of_lt_of_le hfirst hholds.1.1, Nat.lt_add_right _ himage⟩

/-- What the runs make of a character. -/
def map (runs : List CaseRun) (c : Char) : Char :=
  Char.ofNat (apply runs c.toNat)

theorem Settled.toNat_map (h : Settled runs) (c : Char) :
    (map runs c).toNat = apply runs c.toNat :=
  toNat_ofNat_of_isValidChar (h.apply_spec c.valid).1

/-- To change the case twice is to change it once. -/
theorem Settled.map_map (h : Settled runs) (c : Char) : map runs (map runs c) = map runs c := by
  rw [← Char.toNat_inj, h.toNat_map, h.toNat_map]
  exact (h.apply_spec c.valid).2

theorem Settled.keepsFront (h : Settled runs) : KeepsFront (map runs) := by
  intro c
  rw [h.toNat_map, ← Char.toNat_inj, h.toNat_map]
  exact h.apply_eq_or_lt c.toNat

/-- The one check of the table of upper case. -/
theorem settled_upperRuns : Settled upperRuns := by
  constructor <;> decide +kernel

/-- The one check of the table of lower case. -/
theorem settled_lowerRuns : Settled lowerRuns := by
  constructor <;> decide +kernel

end CaseRun

theorem upper_upper (c : Char) : upper (upper c) = upper c :=
  CaseRun.settled_upperRuns.map_map c

theorem lower_lower (c : Char) : lower (lower c) = lower c :=
  CaseRun.settled_lowerRuns.map_map c

theorem keepsFront_upper : KeepsFront upper :=
  CaseRun.settled_upperRuns.keepsFront

theorem keepsFront_lower : KeepsFront lower :=
  CaseRun.settled_lowerRuns.keepsFront

end SuiteScribe
