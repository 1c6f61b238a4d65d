import Mathlib.Data.List.Sort
import SuiteScribe.Text.Ascending

/-!
# Sets of texts as ascending lists

`Text.ascending` keeps the members of a list and puts them in strictly ascending order, so that two
lists with the same members, in whatever order and number, give the same set (`ascending_congr`).
-/

namespace SuiteScribe.Text

theorem mem_insertAscending {t u : Text} {us : List Text} :
    t ∈ insertAscending u us ↔ t = u ∨ t ∈ us := by
  induction us with
  | nil => exact List.mem_cons
  | cons v us ih =>
    unfold insertAscending
    split_ifs with hlt heq
    · exact List.mem_cons
    · subst heq
      simp
    · rw [List.mem_cons, ih, List.mem_cons]
      exact or_left_comm

/-- Putting texts in order neither adds nor loses one. -/
theorem mem_ascending {t : Text} {ts : List Text} : t ∈ ascending ts ↔ t ∈ ts := by
  induction ts with
  | nil => rfl
  | cons u ts ih =>
    rw [ascending, List.foldr_cons, mem_insertAscending, List.mem_cons]
    exact or_congr_right ih

theorem pairwise_insertAscending {t : Text} {us : List Text} (h : us.Pairwise (· < ·)) :
    (insertAscending t us).Pairwise (· < ·) := by
  induction us with
  | nil => exact List.pairwise_singleton _ _
  | cons u us ih =>
    obtain ⟨hu, hus⟩ := List.pairwise_cons.1 h
    unfold insertAscending
    split_ifs with hlt heq
    · refine List.pairwise_cons.2 ⟨fun v hv => ?_, h⟩
      rcases List.mem_cons.1 hv with rfl | hv
      · exact hlt
      · exact List.lt_trans hlt (hu v hv)
    · exact h
    · refine List.pairwise_cons.2 ⟨fun v hv => ?_, ih hus⟩
      rcases mem_insertAscending.1 hv with rfl | hv
      · exact Std.lt_of_le_of_ne hlt (Ne.symm heq)
      · exact hu v hv

theorem pairwise_ascending (ts : List Text) : (ascending ts).Pairwise (· < ·) := by
  induction ts with
  | nil => exact .nil
  | cons t ts ih => exact pairwise_insertAscending ih

/-- Lists with the same members are put in order alike. -/
theorem ascending_congr {ts us : List Text} (h : ∀ t, t ∈ ts ↔ t ∈ us) :
    ascending ts = ascending us :=
  (pairwise_ascending ts).eq_of_mem_iff (pairwise_ascending us) fun t => by
    rw [mem_ascending, mem_ascending, h t]

end SuiteScribe.Text
