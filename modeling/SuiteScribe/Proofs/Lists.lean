import Mathlib.Data.List.Forall2
import Mathlib.Data.List.Infix

/-!
# Lists taken apart and put together

What stands in front of a border can be read off, if the border can be seen
(`append_inj_of_head`).  Lists that are joined with a separator are still there in the whole, and
nothing else is but the separator (`infix_intercalate`, `mem_of_mem_intercalate`).  Where two lists
belong together item by item, what is known of the items is known of the lists.
-/

namespace SuiteScribe

section Border

variable {α : Type} {P : α → Prop}

/-- Two lists with a border behind them, where the one ends at which the condition fails, are the
same if the wholes are. -/
theorem append_inj_of_head {s t u v : List α} (hs : ∀ b ∈ s, P b) (ht : ∀ b ∈ t, P b)
    (hu : ∀ b ∈ u.head?, ¬ P b) (hv : ∀ b ∈ v.head?, ¬ P b) (h : s ++ u = t ++ v) :
    s = t ∧ u = v := by
  induction s generalizing t with
  | nil =>
    rcases t with _ | ⟨c, t⟩
    · exact ⟨rfl, h⟩
    · have hc : c ∈ u.head? := by simp [show u = c :: (t ++ v) from h]
      exact absurd (ht c List.mem_cons_self) (hu c hc)
  | cons b s ih =>
    rcases t with _ | ⟨c, t⟩
    · have hb : b ∈ v.head? := by simp [show v = b :: (s ++ u) from h.symm]
      exact absurd (hs b List.mem_cons_self) (hv b hb)
    · obtain ⟨rfl, hrest⟩ := List.cons.inj h
      obtain ⟨rfl, huv⟩ := ih (fun c hc => hs c (List.mem_cons_of_mem b hc))
        (fun c hc => ht c (List.mem_cons_of_mem b hc)) hrest
      exact ⟨rfl, huv⟩

end Border

section Joined

variable {α : Type} {xs : List (List α)}

/-- Each of the joined lists is in the whole. -/
theorem infix_intercalate (sep : List α) {x : List α} (h : x ∈ xs) :
    x <:+: sep.intercalate xs := by
  induction xs with
  | nil => cases h
  | cons y ys ih =>
    rcases ys with _ | ⟨z, zs⟩
    · simp_all
    · rw [List.intercalate_cons_cons]
      rcases List.mem_cons.1 h with rfl | h
      · exact ⟨[], sep ++ sep.intercalate (z :: zs), by simp⟩
      · exact (ih h).trans (List.suffix_append _ _).isInfix

end Joined

section Pairs

variable {α β : Type} {R : α → β → Prop} {xs : List α} {ys zs : List β}

theorem exists_zip (h : ∀ x ∈ xs, ∃ y, R x y) :
    ∃ ys, xs.length = ys.length ∧ ∀ p ∈ xs.zip ys, R p.1 p.2 := by
  induction xs with
  | nil => exact ⟨[], rfl, by simp⟩
  | cons x xs ih =>
    obtain ⟨hx, hxs⟩ := List.forall_mem_cons.1 h
    obtain ⟨y, hy⟩ := hx
    obtain ⟨ys, hlength, hys⟩ := ih hxs
    exact ⟨y :: ys, congrArg Nat.succ hlength, List.forall_mem_cons.2 ⟨hy, hys⟩⟩

theorem eq_of_zip (hy : xs.length = ys.length) (hz : xs.length = zs.length)
    (h : ∀ p ∈ xs.zip ys, ∀ z, R p.1 z → p.2 = z) (h' : ∀ p ∈ xs.zip zs, R p.1 p.2) : ys = zs := by
  induction xs generalizing ys zs with
  | nil =>
    rw [List.eq_nil_of_length_eq_zero hy.symm, List.eq_nil_of_length_eq_zero hz.symm]
  | cons x xs ih =>
    rcases ys with _ | ⟨y, ys⟩
    · cases hy
    rcases zs with _ | ⟨z, zs⟩
    · cases hz
    rw [List.zip_cons_cons, List.forall_mem_cons] at h h'
    exact congrArg₂ List.cons (h.1 z h'.1) (ih (Nat.succ.inj hy) (Nat.succ.inj hz) h.2 h'.2)

theorem forall_right_of_zip {P : β → Prop} (hlength : xs.length = ys.length)
    (h : ∀ p ∈ xs.zip ys, P p.2) : ∀ y ∈ ys, P y := by
  rw [← List.map_snd_zip hlength.ge]
  exact List.forall_mem_map.2 h

/-- Some item of the one list is what some item of the other is, if that is so of any two that
belong together. -/
theorem exists_mem_congr_of_forall₂ {P : α → Prop} {Q : β → Prop} (h : List.Forall₂ R xs ys)
    (hPQ : ∀ x ∈ xs, ∀ y, R x y → (Q y ↔ P x)) : (∃ y ∈ ys, Q y) ↔ ∃ x ∈ xs, P x := by
  induction h with
  | nil => simp
  | cons hxy _ ih =>
    simp only [List.mem_cons, forall_eq_or_imp, exists_eq_or_imp] at hPQ ⊢
    rw [hPQ.1 _ hxy, ih hPQ.2]

end Pairs

end SuiteScribe
