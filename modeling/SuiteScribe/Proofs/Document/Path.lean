import SuiteScribe.Document.Tree
import SuiteScribe.Proofs.Lists
import SuiteScribe.Proofs.Number.Integer

/-!
# Paths into a document

`Tree.at?` follows a path into a tree.  A path that leads somewhere leads through mappings and lists
only, whatever it ends at (`exists_container_of_at?`).

The words of a path name no other path, as long as its keys are plain words (`label_injective`): a
key ends before the next point or bracket, and an index before its closing bracket.
-/

namespace SuiteScribe

namespace Tree

/-- What a path leads to.  A key that is not there reads as null. -/
def at? : Tree → Path → Option Tree
  | t, [] => some t
  | mapping fields, .field key :: rest => (get fields key).at? rest
  | list items, .item i :: rest => items[i]?.bind fun t => t.at? rest
  | _, _ => none

def isContainer : Tree → Bool
  | mapping _ | list _ => true
  | _ => false

/-- Only a mapping or a list has something behind it. -/
theorem isContainer_of_at?_cons {t v : Tree} {step : PathStep} {p : Path}
    (h : t.at? (step :: p) = some v) : t.isContainer = true := by
  cases t <;> cases step <;> first | rfl | simp [at?] at h

theorem at?_append (t : Tree) (p q : Path) : t.at? (p ++ q) = (t.at? p).bind fun u => u.at? q := by
  induction p generalizing t with
  | nil => simp [at?]
  | cons step p ih =>
    cases t <;> cases step <;> simp [at?, ih, Option.bind_assoc]

/-- Before its end, a path that leads somewhere is at a mapping or a list. -/
theorem exists_container_of_at? {t v : Tree} {p q : Path} (h : t.at? p = some v) (hq : q <+: p)
    (hne : q ≠ p) : ∃ u, t.at? q = some u ∧ u.isContainer = true := by
  obtain ⟨rest, rfl⟩ := hq
  rcases rest with _ | ⟨step, rest⟩
  · simp at hne
  · rw [at?_append, Option.bind_eq_some_iff] at h
    obtain ⟨u, hu, hv⟩ := h
    exact ⟨u, hu, isContainer_of_at?_cons hv⟩

end Tree

/-- The step is to an item, or its key is a word of small letters. -/
def PathStep.IsPlain : PathStep → Prop
  | field key => key ≠ [] ∧ ∀ b ∈ key, 97 ≤ b.toNat ∧ b.toNat ≤ 122
  | item _ => True

instance : (s : PathStep) → Decidable s.IsPlain
  | .field key => @instDecidableAnd (key ≠ []) _ inferInstance (List.decidableBAll _ key)
  | .item _ => inferInstanceAs (Decidable True)

theorem Text.ofNat_injective {m n : Nat} (h : ofNat m = ofNat n) : m = n := by
  rw [← Integer.valueFrom_ofNat m, h, Integer.valueFrom_ofNat]

namespace Path

theorem head?_labelFrom_field (key : Text) (p : Path) :
    (labelFrom (.field key :: p)).head? = some (Text.byte '.') := rfl

theorem head?_labelFrom_item (i : Nat) (p : Path) :
    (labelFrom (.item i :: p)).head? = some (Text.byte '[') := rfl

theorem not_letter_of_head?_labelFrom {p : Path} :
    ∀ b ∈ p.labelFrom.head?, ¬ (97 ≤ b.toNat ∧ b.toNat ≤ 122) := by
  intro b hb
  rcases p with _ | ⟨key | i, p⟩
  · simp [labelFrom] at hb
  · rw [head?_labelFrom_field, Option.mem_some_iff] at hb
    subst hb
    decide
  · rw [head?_labelFrom_item, Option.mem_some_iff] at hb
    subst hb
    decide

/-- The number of an item can be read off between its brackets. -/
theorem item_label_inj {i j : Nat} {u v : Text}
    (h : text "[" ++ Text.ofNat i ++ text "]" ++ u = text "[" ++ Text.ofNat j ++ text "]" ++ v) :
    i = j ∧ u = v := by
  have hclose : ∀ w : Text, ∀ b ∈ (text "]" ++ w).head?, ¬ (48 ≤ b.toNat ∧ b.toNat ≤ 57) := by
    intro w b hb
    obtain rfl : Text.byte ']' = b := Option.some.inj hb
    decide
  simp only [List.append_assoc] at h
  obtain ⟨hij, huv⟩ := append_inj_of_head (Integer.isDigits_ofNat i).2
    (Integer.isDigits_ofNat j).2 (hclose u) (hclose v) (List.append_cancel_left h)
  exact ⟨Text.ofNat_injective hij, List.append_cancel_left huv⟩

theorem labelFrom_injective {p q : Path} (hp : ∀ s ∈ p, s.IsPlain) (hq : ∀ s ∈ q, s.IsPlain)
    (h : p.labelFrom = q.labelFrom) : p = q := by
  induction p generalizing q with
  | nil =>
    rcases q with _ | ⟨_ | _, q⟩
    · rfl
    all_goals simp [labelFrom, text] at h
  | cons s p ih =>
    have hheads := congrArg List.head? h
    have hpp := fun s hs => hp s (List.mem_cons_of_mem _ hs)
    rcases q with _ | ⟨s', q⟩
    · cases s <;> simp [labelFrom, text] at h
    have hqq := fun s hs => hq s (List.mem_cons_of_mem _ hs)
    cases s with
    | field key =>
      cases s' with
      | field key' =>
        simp only [labelFrom, List.append_assoc] at h
        obtain ⟨rfl, hrest⟩ := append_inj_of_head (hp _ List.mem_cons_self).2
          (hq _ List.mem_cons_self).2 not_letter_of_head?_labelFrom
          not_letter_of_head?_labelFrom (List.append_cancel_left h)
        rw [ih hpp hqq hrest]
      | item j =>
        rw [head?_labelFrom_field, head?_labelFrom_item] at hheads
        exact absurd hheads (by decide)
    | item i =>
      cases s' with
      | field key' =>
        rw [head?_labelFrom_field, head?_labelFrom_item] at hheads
        exact absurd hheads (by decide)
      | item j =>
        obtain ⟨rfl, hrest⟩ := item_label_inj h
        rw [ih hpp hqq hrest]

theorem le_of_head?_label_field {key : Text} (h : (PathStep.field key).IsPlain) {p : Path}
    {b : UInt8} (hb : (label (.field key :: p)).head? = some b) : 97 ≤ b.toNat := by
  obtain ⟨c, rest, rfl⟩ := List.exists_cons_of_ne_nil h.1
  obtain rfl : c = b := Option.some.inj hb
  exact (h.2 c List.mem_cons_self).1

/-- The first byte tells the root, a key and an index apart, and behind a key or an index the words
of a path are those of its steps. -/
theorem label_injective {p q : Path} (hp : ∀ s ∈ p, s.IsPlain) (hq : ∀ s ∈ q, s.IsPlain)
    (h : p.label = q.label) : p = q := by
  have hheads := congrArg List.head? h
  have hroot : (label []).head? = some (Text.byte '<') := rfl
  have hitem : ∀ i p, (label (.item i :: p)).head? = some (Text.byte '[') := fun _ _ => rfl
  rcases p with _ | ⟨key | i, p⟩ <;> rcases q with _ | ⟨key' | j, q⟩
  · rfl
  · exact absurd (le_of_head?_label_field (hq _ List.mem_cons_self) (hheads.symm.trans hroot))
      (by decide)
  · exact absurd (hroot.symm.trans (hheads.trans (hitem j q))) (by decide)
  · exact absurd (le_of_head?_label_field (hp _ List.mem_cons_self) (hheads.trans hroot))
      (by decide)
  · exact labelFrom_injective hp hq (congrArg (text "." ++ ·) h)
  · exact absurd (le_of_head?_label_field (hp _ List.mem_cons_self) (hheads.trans (hitem j q)))
      (by decide)
  · exact absurd (hroot.symm.trans (hheads.symm.trans (hitem i p))) (by decide)
  · exact absurd
      (le_of_head?_label_field (hq _ List.mem_cons_self) (hheads.symm.trans (hitem i p)))
      (by decide)
  · exact labelFrom_injective hp hq h

end Path

end SuiteScribe
