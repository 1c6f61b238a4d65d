import Mathlib.Data.Finset.Card
import Mathlib.Data.List.Dedup
import Mathlib.Data.Finset.Dedup
import Mathlib.Logic.Relation
import SuiteScribe.Document.Yaml.Node
import SuiteScribe.Proofs.Lists

/-!
# Aliases stand for copies

Reading a node goes on with its parts, and from an alias with the node it stands for (`Node.Next`).
The size of a node is no measure for that, since an alias leads out of the node it stands in.  But
where no alias leads back to itself, fewer aliases can be reached behind an alias than before it
(`card_below_lt`), and never more than there are anchors.  So reading ends (`acc_next`), within the
depth that a document is read with, and a node says what it says with copies in the places of its
aliases (`toTree_of_expands`).
-/

namespace SuiteScribe

namespace Yaml

namespace Node

variable {anchored : List (Nat × Node)}

/-- Reading the first node goes on with the second: it is a part of it, or the node that it stands
for. -/
inductive Next (anchored : List (Nat × Node)) : Node → Node → Prop
  | item {line : Nat} {items : List Node} {n : Node} (h : n ∈ items) :
    Next anchored (sequence line items) n
  | key {line : Nat} {fields : List (Node × Node)} {f : Node × Node} (h : f ∈ fields) :
    Next anchored (mapping line fields) f.1
  | value {line : Nat} {fields : List (Node × Node)} {f : Node × Node} (h : f ∈ fields) :
    Next anchored (mapping line fields) f.2
  | target {line anchor : Nat} {n : Node} (h : anchored.lookup anchor = some n) :
    Next anchored (reference line anchor) n

/-- Reading the first node comes to the second. -/
abbrev Within (anchored : List (Nat × Node)) : Node → Node → Prop :=
  Relation.ReflTransGen (Next anchored)

/-- The second node is the first with a copy of its node in the place of every alias, and copies in
the places of the aliases of the copy. -/
inductive Expands (anchored : List (Nat × Node)) : Node → Node → Prop
  | scalar {line : Nat} {tag : Tag} {value : Text} :
    Expands anchored (scalar line tag value) (scalar line tag value)
  | sequence {line : Nat} {items copies : List Node} (hlength : items.length = copies.length)
    (hitems : ∀ p ∈ items.zip copies, Expands anchored p.1 p.2) :
    Expands anchored (sequence line items) (sequence line copies)
  | mapping {line : Nat} {fields copies : List (Node × Node)}
    (hlength : fields.length = copies.length)
    (hkeys : ∀ p ∈ fields.zip copies, Expands anchored p.1.1 p.2.1)
    (hvalues : ∀ p ∈ fields.zip copies, Expands anchored p.1.2 p.2.2) :
    Expands anchored (mapping line fields) (mapping line copies)
  | reference {line anchor : Nat} {target copy : Node}
    (hlookup : anchored.lookup anchor = some target) (htarget : Expands anchored target copy) :
    Expands anchored (reference line anchor) copy

/-- There is no alias in the node. -/
def AliasFree (n : Node) : Prop :=
  ∀ line anchor, ¬ Within [] n (reference line anchor)

end Node

/-- Every alias of the document stands for a node, none is in its own node, directly or through
other aliases, and none is a key. -/
structure Document.WellAliased (d : Document) : Prop where
  resolved : ∀ {line anchor}, Node.Within d.anchored d.root (.reference line anchor) →
    ∃ target, d.anchored.lookup anchor = some target
  acyclic : ∀ {line line' anchor}, Node.Within d.anchored d.root (.reference line anchor) →
    ¬ Relation.TransGen (Node.Next d.anchored) (.reference line anchor) (.reference line' anchor)
  keys : ∀ {line fields}, Node.Within d.anchored d.root (.mapping line fields) →
    ∀ f ∈ fields, ∀ line' anchor, f.1 ≠ .reference line' anchor

section Below

variable {d : Document}

open scoped Classical in
/-- The anchors of the aliases that reading the node comes to. -/
noncomputable def Document.below (d : Document) (n : Node) : Finset Nat :=
  {a ∈ (d.anchored.map Prod.fst).toFinset | ∃ line, Node.Within d.anchored n (.reference line a)}

/-- What lies behind a node lies behind all that leads to it. -/
theorem below_subset {n m : Node} (h : Node.Next d.anchored n m) : d.below m ⊆ d.below n := by
  intro a
  simp only [Document.below, Finset.mem_filter]
  rintro ⟨ha, line, hwithin⟩
  exact ⟨ha, line, hwithin.head h⟩

open scoped Classical in
theorem card_below_le (n : Node) : (d.below n).card ≤ d.anchored.length :=
  calc (d.below n).card
      ≤ (d.anchored.map Prod.fst).toFinset.card := Finset.card_filter_le _ _
    _ ≤ (d.anchored.map Prod.fst).length := List.toFinset_card_le _
    _ = d.anchored.length := List.length_map _

/-- Behind an alias, there are fewer aliases to come to: not the alias itself. -/
theorem card_below_lt (hd : d.WellAliased) {line anchor : Nat} {target : Node}
    (hn : Node.Within d.anchored d.root (.reference line anchor))
    (hlookup : d.anchored.lookup anchor = some target) :
    (d.below target).card < (d.below (.reference line anchor)).card := by
  have hnext : Node.Next d.anchored (.reference line anchor) target := .target hlookup
  refine Finset.card_lt_card ((Finset.ssubset_iff_of_subset (below_subset hnext)).2
    ⟨anchor, ?_, ?_⟩)
  · obtain ⟨front, back, heq, -⟩ := List.lookup_eq_some_iff.1 hlookup
    simp only [Document.below, Finset.mem_filter, List.mem_toFinset]
    exact ⟨by simp [heq], line, .refl⟩
  · simp only [Document.below, Finset.mem_filter, not_and, not_exists]
    intro _ line' hwithin
    exact hd.acyclic hn (.head' hnext hwithin)

/-- A part is smaller than the node and has no more aliases to come to; behind an alias there are
fewer. -/
theorem lex_of_next (hd : d.WellAliased) {n m : Node} (hn : Node.Within d.anchored d.root n)
    (h : Node.Next d.anchored n m) :
    Prod.Lex (· < ·) (· < ·) ((d.below m).card, sizeOf m) ((d.below n).card, sizeOf n) := by
  have hpart : sizeOf m < sizeOf n →
      Prod.Lex (· < ·) (· < ·) ((d.below m).card, sizeOf m) ((d.below n).card, sizeOf n) :=
    fun hsize => Prod.lex_iff.2
      ((Finset.card_le_card (below_subset h)).lt_or_eq.imp_right fun heq => ⟨heq, hsize⟩)
  cases h with
  | item hmem =>
    have := List.sizeOf_lt_of_mem hmem
    exact hpart (by simp; omega)
  | @key _ _ f hmem =>
    have := List.sizeOf_lt_of_mem hmem
    have : sizeOf f = 1 + sizeOf f.1 + sizeOf f.2 := rfl
    exact hpart (by simp; omega)
  | @value _ _ f hmem =>
    have := List.sizeOf_lt_of_mem hmem
    have : sizeOf f = 1 + sizeOf f.1 + sizeOf f.2 := rfl
    exact hpart (by simp; omega)
  | target hlookup => exact .left _ _ (card_below_lt hd hn hlookup)

/-- Whatever reading comes to, reading ends there. -/
theorem acc_next (hd : d.WellAliased) {n : Node} (hn : Node.Within d.anchored d.root n) :
    Acc (fun m n => Node.Next d.anchored n m) n :=
  .intro n fun _ h => acc_next hd (hn.tail h)
termination_by ((d.below n).card, sizeOf n)
decreasing_by exact lex_of_next hd hn h

end Below

namespace Node

section Expands

variable {anchored : List (Nat × Node)} {n : Node}

/-- A node has one copy at most. -/
theorem Expands.unique {c c' : Node} (h : Expands anchored n c) (h' : Expands anchored n c') :
    c = c' := by
  induction h generalizing c' with
  | scalar =>
    cases h'
    rfl
  | sequence hlength _ ih =>
    cases h' with
    | sequence hlength' hitems' =>
      rw [eq_of_zip hlength hlength' (fun p hp _ => ih p hp) hitems']
  | mapping hlength _ _ ihkeys ihvalues =>
    cases h' with
    | mapping hlength' hkeys' hvalues' =>
      rw [eq_of_zip (R := fun f c => Expands anchored f.1 c.1 ∧ Expands anchored f.2 c.2) hlength
        hlength' (fun p hp _ h => Prod.ext (ihkeys p hp h.1) (ihvalues p hp h.2))
        fun p hp => ⟨hkeys' p hp, hvalues' p hp⟩]
  | reference hlookup _ ih =>
    cases h' with
    | reference hlookup' htarget' =>
      cases hlookup.symm.trans hlookup'
      exact ih htarget'

theorem aliasFree_iff : n.AliasFree
    ↔ (∀ line anchor, n ≠ reference line anchor) ∧ ∀ m, Next [] n m → m.AliasFree := by
  constructor
  · intro h
    refine ⟨?_, fun m hm line anchor hwithin => h line anchor (hwithin.head hm)⟩
    rintro line anchor rfl
    exact h line anchor .refl
  · rintro ⟨hne, hnext⟩ line anchor hwithin
    rcases hwithin.cases_head with h | ⟨m, hm, hwithin⟩
    · exact hne line anchor h
    · exact hnext m hm line anchor hwithin

/-- No alias is left in a copy. -/
theorem Expands.aliasFree {c : Node} (h : Expands anchored n c) : c.AliasFree := by
  induction h with
  | scalar => exact aliasFree_iff.2 ⟨by simp, fun _ h => nomatch h⟩
  | sequence hlength _ ih =>
    refine aliasFree_iff.2 ⟨by simp, ?_⟩
    rintro _ ⟨hmem⟩
    exact forall_right_of_zip hlength ih _ hmem
  | mapping hlength _ _ ihkeys ihvalues =>
    refine aliasFree_iff.2 ⟨by simp, ?_⟩
    rintro _ (_ | hmem | hmem | _)
    · exact forall_right_of_zip (P := fun c => c.1.AliasFree) hlength ihkeys _ hmem
    · exact forall_right_of_zip (P := fun c => c.2.AliasFree) hlength ihvalues _ hmem
  | reference _ _ ih => exact ih

/-- A key that is no alias is the key of its copy. -/
theorem key?_of_expands {c : Node} (h : Expands anchored n c)
    (hn : ∀ line anchor, n ≠ reference line anchor) : n.key? = c.key? := by
  cases h with
  | scalar | sequence | mapping => rfl
  | reference => exact absurd rfl (hn _ _)

variable {anchored' : List (Nat × Node)} {depth depth' : Nat}

theorem toTrees_congr {items copies : List Node} (hlength : items.length = copies.length)
    (h : ∀ p ∈ items.zip copies, p.1.toTree anchored depth = p.2.toTree anchored' depth') :
    toTrees anchored depth items = toTrees anchored' depth' copies := by
  induction items generalizing copies with
  | nil => rw [List.eq_nil_of_length_eq_zero hlength.symm, toTrees, toTrees]
  | cons n items ih =>
    rcases copies with _ | ⟨c, copies⟩
    · cases hlength
    · rw [List.zip_cons_cons, List.forall_mem_cons] at h
      rw [toTrees, toTrees, h.1, ih (Nat.succ.inj hlength) h.2]

theorem toFields_congr {fields copies : List (Node × Node)}
    (hlength : fields.length = copies.length)
    (hkeys : ∀ p ∈ fields.zip copies, p.1.1.key? = p.2.1.key?)
    (hvalues : ∀ p ∈ fields.zip copies,
      p.1.2.toTree anchored depth = p.2.2.toTree anchored' depth')
    (read : List (Text × Tree)) :
    toFields anchored depth read fields = toFields anchored' depth' read copies := by
  induction fields generalizing copies read with
  | nil => rw [List.eq_nil_of_length_eq_zero hlength.symm, toFields, toFields]
  | cons f fields ih =>
    rcases copies with _ | ⟨c, copies⟩
    · cases hlength
    · rw [List.zip_cons_cons, List.forall_mem_cons] at hkeys hvalues
      rw [toFields, toFields, hkeys.1, hvalues.1]
      simp only [ih (Nat.succ.inj hlength) hkeys.2 hvalues.2]

theorem toTree_reference {line anchor : Nat} {target : Node}
    (h : anchored.lookup anchor = some target) :
    (reference line anchor).toTree anchored (depth + 1) = target.toTree anchored depth := by
  rw [toTree]
  exact h

end Expands

section Endless

variable {anchored : List (Nat × Node)} {depth line : Nat}

theorem bind_ne_error {ε α β : Type} {x : Except ε α} {f : α → Except ε β} {e : ε}
    (hx : x ≠ .error e) (hf : ∀ a, f a ≠ .error e) : x >>= f ≠ .error e := by
  rcases x with e' | a
  · exact fun h => hx (congrArg Except.error (Except.error.inj h))
  · exact hf a

theorem pure_ne_error {ε α : Type} (a : α) (e : ε) : (pure a : Except ε α) ≠ .error e := by
  rintro ⟨⟩

theorem key?_ne_endless (n : Node) : n.key? ≠ .error (.endless line) := by
  cases n <;> simp [key?]

theorem scalarTree_ne_endless (line' : Nat) (tag : Tag) (value : Text) :
    scalarTree line' tag value ≠ .error (.endless line) := by
  unfold scalarTree
  split
  · simp
  · simp
  · simp
  · simp
  · split_ifs <;> simp

theorem toTrees_ne_endless {items : List Node}
    (h : ∀ n ∈ items, n.toTree anchored depth ≠ .error (.endless line)) :
    toTrees anchored depth items ≠ .error (.endless line) := by
  induction items with
  | nil => simp [toTrees]
  | cons n items ih =>
    rw [List.forall_mem_cons] at h
    rw [toTrees]
    exact bind_ne_error h.1 fun _ => bind_ne_error (ih h.2) fun _ => pure_ne_error _ _

theorem toFields_ne_endless {fields : List (Node × Node)}
    (h : ∀ f ∈ fields, f.2.toTree anchored depth ≠ .error (.endless line))
    (read : List (Text × Tree)) :
    toFields anchored depth read fields ≠ .error (.endless line) := by
  induction fields generalizing read with
  | nil => simp [toFields]
  | cons f fields ih =>
    rw [List.forall_mem_cons] at h
    rw [toFields]
    exact bind_ne_error (key?_ne_endless _) fun _ => bind_ne_error h.1 fun _ => ih h.2 _

/-- To read a copy takes no depth of aliases. -/
theorem Expands.toTree_ne_endless {n c : Node} (h : Expands anchored n c) :
    c.toTree [] 0 ≠ .error (.endless line) := by
  induction h with
  | scalar =>
    rw [toTree]
    exact scalarTree_ne_endless _ _ _
  | sequence hlength _ ih =>
    rw [toTree]
    have hitems :=
      forall_right_of_zip (P := fun c => c.toTree [] 0 ≠ .error (.endless line)) hlength ih
    exact bind_ne_error (toTrees_ne_endless hitems) fun _ => pure_ne_error _ _
  | mapping hlength _ _ _ ih =>
    rw [toTree]
    have hfields :=
      forall_right_of_zip (P := fun c => c.2.toTree [] 0 ≠ .error (.endless line)) hlength ih
    exact bind_ne_error (toFields_ne_endless hfields []) fun _ => pure_ne_error _ _
  | reference _ _ ih => exact ih

end Endless

end Node

section Reading

variable {d : Document}

/-- Reading ends, and so every node that it comes to has a copy. -/
theorem exists_expands (hd : d.WellAliased) {n : Node} (hn : Node.Within d.anchored d.root n) :
    ∃ copy, Node.Expands d.anchored n copy := by
  induction acc_next hd hn with
  | intro n _ ih =>
    have hnext : ∀ {m}, Node.Next d.anchored n m → ∃ copy, Node.Expands d.anchored m copy :=
      fun hm => ih _ hm (hn.tail hm)
    cases n with
    | scalar => exact ⟨_, .scalar⟩
    | sequence line items =>
      obtain ⟨copies, hlength, hcopies⟩ := exists_zip fun m hm => hnext (.item hm)
      exact ⟨_, .sequence hlength hcopies⟩
    | mapping line fields =>
      have hfields : ∀ f ∈ fields, ∃ c : Node × Node,
          Node.Expands d.anchored f.1 c.1 ∧ Node.Expands d.anchored f.2 c.2 := by
        intro f hf
        obtain ⟨key, hkey⟩ := hnext (.key hf)
        obtain ⟨value, hvalue⟩ := hnext (.value hf)
        exact ⟨(key, value), hkey, hvalue⟩
      obtain ⟨copies, hlength, hcopies⟩ := exists_zip hfields
      exact ⟨_, .mapping hlength (fun p hp => (hcopies p hp).1) fun p hp => (hcopies p hp).2⟩
    | reference line anchor =>
      obtain ⟨target, hlookup⟩ := hd.resolved hn
      obtain ⟨copy, hcopy⟩ := hnext (.target hlookup)
      exact ⟨copy, .reference hlookup hcopy⟩

/-- A depth of as many aliases as there are to come to is enough, and with it a node says what its
copy says. -/
theorem toTree_of_expands (hd : d.WellAliased) {n copy : Node}
    (h : Node.Expands d.anchored n copy) (hn : Node.Within d.anchored d.root n) {depth : Nat}
    (hdepth : (d.below n).card ≤ depth) :
    n.toTree d.anchored depth = copy.toTree [] 0 := by
  have hcard : ∀ {n m : Node}, Node.Next d.anchored n m → ∀ {depth}, (d.below n).card ≤ depth →
      (d.below m).card ≤ depth :=
    fun hnext _ => (Finset.card_le_card (below_subset hnext)).trans
  induction h generalizing depth with
  | scalar => rw [Node.toTree, Node.toTree]
  | @sequence line items _ hlength _ ih =>
    rw [Node.toTree, Node.toTree, Node.toTrees_congr hlength fun p hp => ?_]
    have hnext : Node.Next d.anchored (.sequence line items) p.1 := .item (List.of_mem_zip hp).1
    exact ih p hp (hn.tail hnext) (hcard hnext hdepth)
  | @mapping line fields _ hlength hkeys _ _ ih =>
    rw [Node.toTree, Node.toTree, Node.toFields_congr hlength (fun p hp => ?_) fun p hp => ?_]
    · exact Node.key?_of_expands (hkeys p hp) (hd.keys hn _ (List.of_mem_zip hp).1)
    · have hnext : Node.Next d.anchored (.mapping line fields) p.1.2 :=
        .value (List.of_mem_zip hp).1
      exact ih p hp (hn.tail hnext) (hcard hnext hdepth)
  | reference hlookup _ ih =>
    have hlt := card_below_lt hd hn hlookup
    rcases depth with _ | depth
    · omega
    · rw [Node.toTree_reference hlookup]
      exact ih (hn.tail (.target hlookup)) (by omega)

/-- Reading a document in which no alias is in its own node ends, and says what the document with
copies in the places of its aliases says, however much deeper than its anchors it is read. -/
theorem Document.toTree_expanded (d : Document) (hd : d.WellAliased) :
    Acc (fun m n => Node.Next d.anchored n m) d.root
      ∧ ∃ copy, (∀ c, Node.Expands d.anchored d.root c ↔ c = copy) ∧ copy.AliasFree
        ∧ d.toTree = Document.toTree ⟨copy, []⟩
        ∧ (∀ depth, d.anchored.length ≤ depth → d.root.toTree d.anchored depth = d.toTree)
        ∧ ∀ line, d.toTree ≠ .error (.endless line) := by
  obtain ⟨copy, hcopy⟩ := exists_expands hd .refl
  have hread : ∀ depth, d.anchored.length ≤ depth →
      d.root.toTree d.anchored depth = copy.toTree [] 0 := fun depth hdepth =>
    toTree_of_expands hd hcopy .refl ((card_below_le d.root).trans hdepth)
  have htree : d.toTree = copy.toTree [] 0 := hread _ le_rfl
  refine ⟨acc_next hd .refl, copy, fun c => ⟨fun hc => hc.unique hcopy, ?_⟩, hcopy.aliasFree, htree,
    fun depth hdepth => (hread depth hdepth).trans htree.symm, fun line => ?_⟩
  · rintro rfl
    exact hcopy
  · rw [htree]
    exact hcopy.toTree_ne_endless

end Reading

section Nested

/-- A field whose value is an alias of a list, which has two aliases of a number. -/
def nested : Document where
  root := .mapping 1 [(.scalar 1 .text (text "k"), .reference 1 1)]
  anchored := [(0, .scalar 2 .int (text "5")), (1, .sequence 3 [.reference 3 0, .reference 3 0])]

/-- What reading the nested aliases comes to. -/
def nestedNodes : List Node :=
  [nested.root, .scalar 1 .text (text "k"), .reference 1 1,
    .sequence 3 [.reference 3 0, .reference 3 0], .reference 3 0, .scalar 2 .int (text "5")]

/-- How far a node of the nested aliases is above the scalars. -/
def nestedHeight : Node → Nat
  | .scalar _ _ _ => 0
  | .reference _ anchor => 2 * anchor + 1
  | .sequence _ _ => 2
  | .mapping _ _ => 4

theorem next_nested {n m : Node} (hn : n ∈ nestedNodes) (h : Node.Next nested.anchored n m) :
    m ∈ nestedNodes ∧ nestedHeight m < nestedHeight n := by
  simp only [nestedNodes, List.mem_cons, List.not_mem_nil, or_false] at hn
  rcases hn with rfl | rfl | rfl | rfl | rfl | rfl
  · rcases h with _ | hf | hf | _ <;> rw [List.mem_singleton.1 hf] <;>
      simp [nestedNodes, nestedHeight, nested]
  · cases h
  · rcases h with _ | _ | _ | hlookup
    cases hlookup
    simp [nestedNodes, nestedHeight]
  · rcases h with hitem | _ | _ | _
    obtain rfl : m = .reference 3 0 := by simpa using hitem
    simp [nestedNodes, nestedHeight]
  · rcases h with _ | _ | _ | hlookup
    cases hlookup
    simp [nestedNodes, nestedHeight]
  · cases h

theorem mem_nestedNodes {n : Node} (h : Node.Within nested.anchored nested.root n) :
    n ∈ nestedNodes := by
  induction h with
  | refl => exact List.mem_cons_self
  | tail _ hnext ih => exact (next_nested ih hnext).1

theorem nestedHeight_lt {n m : Node} (hn : n ∈ nestedNodes)
    (h : Relation.TransGen (Node.Next nested.anchored) n m) :
    m ∈ nestedNodes ∧ nestedHeight m < nestedHeight n := by
  induction h with
  | single hnext => exact next_nested hn hnext
  | tail _ hnext ih =>
    obtain ⟨hmem, hlt⟩ := next_nested ih.1 hnext
    exact ⟨hmem, hlt.trans ih.2⟩

theorem wellAliased_nested : nested.WellAliased where
  resolved h := by
    have hmem := mem_nestedNodes h
    simp only [nestedNodes, nested, List.mem_cons, List.not_mem_nil, or_false, Node.reference.injEq,
      reduceCtorEq, false_or] at hmem
    rcases hmem with ⟨-, rfl⟩ | ⟨-, rfl⟩ <;> exact ⟨_, rfl⟩
  acyclic h hcycle := absurd (nestedHeight_lt (mem_nestedNodes h) hcycle).2 (Nat.lt_irrefl _)
  keys h := by
    have hmem := mem_nestedNodes h
    simp only [nestedNodes, nested, List.mem_cons, List.not_mem_nil, or_false, Node.mapping.injEq,
      reduceCtorEq] at hmem
    rw [hmem.2]
    simp

/-- The nested aliases say what the number, written out twice in a list, says. -/
def nestedExpanded : Node :=
  .mapping 1 [(.scalar 1 .text (text "k"),
    .sequence 3 [.scalar 2 .int (text "5"), .scalar 2 .int (text "5")])]

theorem expands_nested : Node.Expands nested.anchored nested.root nestedExpanded := by
  refine .mapping rfl ?_ ?_
  · exact List.forall_mem_singleton.2 .scalar
  · refine List.forall_mem_singleton.2 (.reference rfl (.sequence rfl ?_))
    exact List.forall_mem_cons.2
      ⟨.reference rfl .scalar, List.forall_mem_singleton.2 (.reference rfl .scalar)⟩

theorem Document.toTree_expanded_nested :
    nested.WellAliased ∧ nested.toTree = Document.toTree ⟨nestedExpanded, []⟩ := by
  refine ⟨wellAliased_nested, ?_⟩
  obtain ⟨-, copy, hcopy, -, htree, -⟩ := Document.toTree_expanded nested wellAliased_nested
  rw [htree, (hcopy _).1 expands_nested]

end Nested

end Yaml

end SuiteScribe
