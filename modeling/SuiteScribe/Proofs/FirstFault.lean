import Mathlib.Data.List.Forall2

/-!
# The first fault

A fault is found at an address, which leads to it by the numbers of the parts it lies in, and of two
faults the one with the smaller address in dictionary order comes first.  A search `Reports` the
faults of a thing if it finds the first of them, or nothing where there is none.

A list is searched by searching its members in order up to the first that is at fault
(`firstFault`). If the search of each member reports the faults of that member, the search of the
list reports the faults of the list (`reports_firstFault`), so whatever is searched part by part is
searched in dictionary order.
-/

namespace SuiteScribe

/-- The numbers of the parts that lead to a place. -/
abbrev Address := List Nat

variable {α ε : Type}

/-- Some place has the fault `e`, and every other fault is at a later place. -/
def IsFirst (D : Address → ε → Prop) (e : ε) : Prop :=
  ∃ a, D a e ∧ ∀ b d, D b d → List.Lex (· < ·) a b ∨ (b = a ∧ d = e)

/-- What was found is the first of the faults, or there are none. -/
def Reports (found : Option ε) (D : Address → ε → Prop) : Prop :=
  match found with
  | none => ∀ a e, ¬ D a e
  | some e => IsFirst D e

/-- There is one first defect at most. -/
theorem IsFirst.unique {D : Address → ε → Prop} {e d : ε} (he : IsFirst D e) (hd : IsFirst D d) :
    e = d := by
  obtain ⟨a, hae, ha⟩ := he
  obtain ⟨b, hbd, hb⟩ := hd
  rcases ha b d hbd with hab | ⟨-, rfl⟩
  · rcases hb a e hae with hba | ⟨-, rfl⟩
    · exact absurd hba (List.lt_asymm hab)
    · rfl
  · rfl

namespace Reports

variable {found : Option ε} {D D' : Address → ε → Prop}

theorem congr (h : Reports found D) (hD : ∀ a e, D' a e ↔ D a e) : Reports found D' := by
  rw [show D' = D from funext fun a => funext fun e => propext (hD a e)]
  exact h

/-- What reports the defects finds the first. -/
theorem eq_some_iff (h : Reports found D) {e : ε} : found = some e ↔ IsFirst D e := by
  rcases found with _ | d
  · simp only [reduceCtorEq, false_iff]
    rintro ⟨a, ha, -⟩
    exact h a e ha
  · rw [Option.some.injEq]
    exact ⟨fun hd => hd ▸ h, fun he => h.unique he⟩

/-- What reports the defects finds nothing exactly if there are none. -/
theorem eq_none_iff (h : Reports found D) : found = none ↔ ∀ a e, ¬ D a e := by
  rcases found with _ | d
  · exact ⟨fun _ => h, fun _ => rfl⟩
  · obtain ⟨a, ha, -⟩ := h
    simp only [reduceCtorEq, false_iff]
    exact fun hno => hno a d ha

end Reports

/-- The first fault that `f` finds in the members of a list, counted from `i`. -/
def firstFault (f : Nat → α → Option ε) : (i : Nat) → List α → Option ε
  | _, [] => none
  | i, x :: xs =>
    match f i x with
    | some e => some e
    | none => firstFault f (i + 1) xs

theorem firstFault_nil (f : Nat → α → Option ε) (i : Nat) : firstFault f i [] = none := rfl

theorem firstFault_cons (f : Nat → α → Option ε) (i : Nat) (x : α) (xs : List α) :
    firstFault f i (x :: xs) = (f i x).or (firstFault f (i + 1) xs) := by
  rw [firstFault]
  rcases f i x <;> rfl

/-- No fault is found exactly if no item has one. -/
theorem firstFault_eq_none {f : Nat → α → Option ε} :
    ∀ (i : Nat) (xs : List α), firstFault f i xs = none ↔
      ∀ j x, xs[j]? = some x → f (i + j) x = none
  | _, [] => by simp [firstFault]
  | i, x :: xs => by
    rw [firstFault]
    rcases hx : f i x with _ | e
    · rw [firstFault_eq_none (i + 1) xs]
      constructor
      · intro h j y hy
        rcases j with _ | j
        · simp only [List.getElem?_cons_zero, Option.some.injEq] at hy
          rw [← hy, Nat.add_zero, hx]
        · rw [show i + (j + 1) = i + 1 + j by omega]
          exact h j y hy
      · intro h j y hy
        rw [show i + 1 + j = i + (j + 1) by omega]
        exact h (j + 1) y hy
    · simp only [reduceCtorEq, false_iff, not_forall]
      exact ⟨0, x, rfl, by simp [hx]⟩

/-- A thing without parts is at fault as a whole. -/
theorem reports_whole (found : Option ε) : Reports found fun a e => a = [] ∧ found = some e := by
  rcases found with _ | e
  · rintro a e ⟨-, he⟩
    cases he
  · refine ⟨[], ⟨rfl, rfl⟩, ?_⟩
    rintro b d ⟨rfl, hd⟩
    cases hd
    exact Or.inr ⟨rfl, rfl⟩

/-- Faults at places behind the number 0, and after them faults whose first number is one more than
it was. -/
def Headed (D₀ D₁ : Address → ε → Prop) : Address → ε → Prop
  | [], _ => False
  | 0 :: a, e => D₀ a e
  | (j + 1) :: a, e => D₁ (j :: a) e

/-- What is searched second comes second. -/
theorem reports_or {x y : Option ε} {D₀ D₁ : Address → ε → Prop} (hx : Reports x D₀)
    (hy : Reports y D₁) (hnil : ∀ e, ¬ D₁ [] e) : Reports (x.or y) (Headed D₀ D₁) := by
  rcases x with _ | e
  · rcases y with _ | e
    · rintro (_ | ⟨_ | j, a⟩) e he
      · exact he
      · exact hx a e he
      · exact hy (j :: a) e he
    · obtain ⟨_ | ⟨j, a⟩, ha, hfirst⟩ := hy
      · exact absurd ha (hnil e)
      refine ⟨(j + 1) :: a, ha, ?_⟩
      rintro (_ | ⟨_ | k, b⟩) d hd
      · exact hd.elim
      · exact absurd hd (hx b d)
      · rcases hfirst (k :: b) d hd with hlt | ⟨heq, rfl⟩
        · left
          rw [List.cons_lex_cons_iff] at hlt ⊢
          simpa only [Nat.add_lt_add_iff_right, Nat.add_right_cancel_iff] using hlt
        · cases heq
          exact Or.inr ⟨rfl, rfl⟩
  · obtain ⟨a, ha, hfirst⟩ := hx
    refine ⟨0 :: a, ha, ?_⟩
    rintro (_ | ⟨_ | k, b⟩) d hd
    · exact hd.elim
    · rcases hfirst b d hd with hlt | ⟨rfl, rfl⟩
      · exact Or.inl (List.Lex.cons hlt)
      · exact Or.inr ⟨rfl, rfl⟩
    · exact Or.inl (List.Lex.rel (Nat.succ_pos k))

theorem reports_map {δ : Type} {x : Option ε} {D : Address → ε → Prop} (h : Reports x D)
    (g : ε → δ) : Reports (x.map g) fun a d => ∃ e, D a e ∧ d = g e := by
  rcases x with _ | e
  · rintro a d ⟨e, he, -⟩
    exact h a e he
  · obtain ⟨a, ha, hfirst⟩ := h
    refine ⟨a, ⟨e, ha, rfl⟩, ?_⟩
    rintro b d ⟨e', he', rfl⟩
    rcases hfirst b e' he' with hlt | ⟨rfl, rfl⟩
    · exact Or.inl hlt
    · exact Or.inr ⟨rfl, rfl⟩

/-- The faults of the members of a list, each at its place behind the number of the member. -/
def Listed (D : Nat → α → Address → ε → Prop) (xs : List α) : Address → ε → Prop
  | [], _ => False
  | j :: a, e => ∃ x, xs[j]? = some x ∧ D j x a e

theorem headed_listed (D : Nat → α → Address → ε → Prop) (x : α) (xs : List α) (a : Address)
    (e : ε) : Listed D (x :: xs) a e ↔ Headed (D 0 x) (Listed (fun j => D (j + 1)) xs) a e := by
  rcases a with _ | ⟨_ | j, a⟩
  · rfl
  · simp [Listed, Headed]
  · simp [Listed, Headed]

/-- Looking at items in turn reports the defects of all of them, those of the first item first. -/
theorem reports_firstFault {f : Nat → α → Option ε} :
    ∀ (i : Nat) (xs : List α) {D : Nat → α → Address → ε → Prop},
      (∀ j x, xs[j]? = some x → Reports (f (i + j) x) (D j x)) →
        Reports (firstFault f i xs) (Listed D xs)
  | _, [], D, _ => by
    rintro (_ | ⟨j, a⟩) e he
    · exact he
    · obtain ⟨x, hx, -⟩ := he
      simp at hx
  | i, x :: xs, D, h => by
    have hx : Reports (f i x) (D 0 x) := h 0 x rfl
    have ih := reports_firstFault (i + 1) xs (D := fun j => D (j + 1)) fun j y hy => by
      rw [show i + 1 + j = i + (j + 1) by omega]
      exact h (j + 1) y hy
    rw [firstFault_cons]
    exact (reports_or hx ih fun _ he => he).congr (headed_listed D x xs)

section Except

variable {β : Type}

/-- The error that a computation ended with, if it did. -/
def errorOf (x : Except ε β) : Option ε :=
  match x with
  | .ok _ => none
  | .error e => some e

theorem errorOf_eq_none {x : Except ε β} : errorOf x = none ↔ ∃ b, x = .ok b := by
  rcases x with e | b <;> simp [errorOf]

theorem errorOf_eq_some {x : Except ε β} {e : ε} : errorOf x = some e ↔ x = .error e := by
  rcases x with d | b <;> simp [errorOf]

@[simp] theorem pure_eq_ok (b : β) : (pure b : Except ε β) = .ok b := rfl

@[simp] theorem ok_bind {γ : Type} (b : β) (f : β → Except ε γ) : Except.ok b >>= f = f b := rfl

theorem bind_eq_ok_iff {γ : Type} {x : Except ε β} {f : β → Except ε γ} {c : γ} :
    x >>= f = .ok c ↔ ∃ b, x = .ok b ∧ f b = .ok c := by
  rcases x with e | b <;> simp [bind, Except.bind]

theorem errorOf_bind_pure {γ : Type} (x : Except ε β) (f : β → γ) :
    errorOf (do let b ← x; return f b) = errorOf x := by
  rcases x with e | b <;> rfl

theorem errorOf_bind_bind_pure {γ δ : Type} (x : Except ε β) (y : Except ε γ) (f : β → γ → δ) :
    errorOf (do let b ← x; let c ← y; return f b c) = (errorOf x).or (errorOf y) := by
  rcases x with e | b <;> rcases y with e' | c <;> rfl

theorem mapM_congr {f g : α → Except ε β} {xs : List α} (h : ∀ x ∈ xs, f x = g x) :
    xs.mapM f = xs.mapM g := by
  induction xs with
  | nil => rfl
  | cons x xs ih =>
    obtain ⟨hx, hxs⟩ := List.forall_mem_cons.1 h
    rw [List.mapM_cons, List.mapM_cons, hx, ih hxs]

/-- A list is mapped exactly if each of its items is. -/
theorem mapM_ok_iff {f : α → Except ε β} :
    ∀ {xs : List α} {ys : List β}, xs.mapM f = .ok ys ↔ List.Forall₂ (fun x y => f x = .ok y) xs ys
  | [], ys => by
    rw [List.mapM_nil, List.forall₂_nil_left_iff]
    exact ⟨fun h => by cases h; rfl, fun h => by rw [h]; rfl⟩
  | x :: xs, ys => by
    rw [List.mapM_cons, List.forall₂_cons_left_iff]
    simp only [bind_eq_ok_iff]
    constructor
    · rintro ⟨y, hy, zs, hzs, h⟩
      cases h
      exact ⟨y, zs, hy, mapM_ok_iff.1 hzs, rfl⟩
    · rintro ⟨y, zs, hy, hzs, rfl⟩
      exact ⟨y, hy, zs, mapM_ok_iff.2 hzs, rfl⟩

theorem errorOf_mapM (f : α → Except ε β) (i : Nat) (xs : List α) :
    errorOf (xs.mapM f) = firstFault (fun _ x => errorOf (f x)) i xs := by
  induction xs generalizing i with
  | nil => rfl
  | cons x xs ih =>
    rw [List.mapM_cons, firstFault]
    rcases f x with e | y
    · rfl
    · rw [show errorOf (.ok y : Except ε β) = none from rfl, ← ih (i + 1)]
      rcases xs.mapM f with e | ys <;> rfl

end Except

end SuiteScribe
