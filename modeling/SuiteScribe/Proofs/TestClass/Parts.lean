import Mathlib.Logic.Relation
import SuiteScribe.Proofs.FirstFault
import SuiteScribe.TestClass.Render

/-!
# Parts of a node

The `children` of a node are the nodes that stand in it.  Its `parts` are those of them that are
rendered with it, in order and each with the field it stands in; a node that is kept as a marker has
children and no parts.  A node with parts is rendered by rendering them in order and putting their
texts together (`render_of_isComposite`), so it is refused for the first part that is.
-/

namespace SuiteScribe.Node

/-- The nodes that stand in a node. -/
def children : Node → List Node
  | assignment lhs rhs => [lhs, rhs]
  | assertion lhs rhs => [lhs, rhs]
  | call receiver args => receiver :: args
  | member owner name => [owner, name]
  | sequence elements => elements
  | ifPyd body => body
  | ifPynih body => body
  | shouldThrow exception body => exception :: body
  | _ => []

/-- The first node is the second or stands in it at some depth. -/
def Occurs (m n : Node) : Prop :=
  Relation.ReflTransGen (fun c p => c ∈ p.children) m n

/-- The items of a list with their fields, counted from `i`. -/
def itemsFrom (field : Text) : (i : Nat) → List Node → List (Field × Node)
  | _, [] => []
  | i, n :: rest => (.item field i, n) :: itemsFrom field (i + 1) rest

/-- The nodes that are rendered with a node, and where they stand in it. -/
def parts : Node → List (Field × Node)
  | assignment lhs rhs => [(.named (text "lhs"), lhs), (.named (text "rhs"), rhs)]
  | assertion lhs rhs => [(.named (text "lhs"), lhs), (.named (text "rhs"), rhs)]
  | call receiver args =>
    (.named (text "receiver"), receiver) :: itemsFrom (text "args") 0 args
  | member owner name => [(.named (text "instance"), owner), (.named (text "attribute"), name)]
  | sequence elements => itemsFrom (text "elements") 0 elements
  | _ => []

/-- The first node is the second or is rendered with it at some depth. -/
def Shown (m n : Node) : Prop :=
  Relation.ReflTransGen (fun c p => c ∈ p.parts.map Prod.snd) m n

/-- Whether a node is rendered from its parts. -/
def isComposite : Node → Bool
  | assignment _ _ | assertion _ _ | call _ _ | member _ _ | sequence _ => true
  | _ => false

/-- What occurs in a node is the node, or occurs in a child. -/
theorem occurs_iff {m n : Node} : Occurs m n ↔ n = m ∨ ∃ c ∈ n.children, Occurs m c := by
  unfold Occurs
  rw [Relation.ReflTransGen.cases_tail_iff]
  simp only [and_comm]

theorem shown_iff {m n : Node} : Shown m n ↔ n = m ∨ ∃ p ∈ n.parts, Shown m p.2 := by
  unfold Shown
  rw [Relation.ReflTransGen.cases_tail_iff]
  refine or_congr_right ⟨?_, ?_⟩
  · rintro ⟨c, hshown, hc⟩
    obtain ⟨p, hp, rfl⟩ := List.mem_map.1 hc
    exact ⟨p, hp, hshown⟩
  · rintro ⟨p, hp, hshown⟩
    exact ⟨p.2, hshown, List.mem_map_of_mem hp⟩

theorem map_snd_itemsFrom (field : Text) (i : Nat) (ns : List Node) :
    (itemsFrom field i ns).map Prod.snd = ns := by
  induction ns generalizing i with
  | nil => rfl
  | cons n ns ih => rw [itemsFrom, List.map_cons, ih]

theorem parts_of_not_isComposite {n : Node} (h : n.isComposite = false) : n.parts = [] := by
  cases n with
  | assignment | assertion | call | member | sequence => cases h
  | _ => rfl

theorem children_of_isComposite {n : Node} (h : n.isComposite = true) :
    n.parts.map Prod.snd = n.children := by
  cases n with
  | assignment | assertion | member => rfl
  | call => simp only [parts, List.map_cons, map_snd_itemsFrom, children]
  | sequence => simp only [parts, map_snd_itemsFrom, children]
  | _ => cases h

theorem sizeOf_lt_of_mem_children {c n : Node} (h : c ∈ n.children) : sizeOf c < sizeOf n := by
  have hlist : ∀ {ns : List Node}, c ∈ ns → sizeOf c < sizeOf ns := List.sizeOf_lt_of_mem
  cases n <;> simp only [children, List.mem_cons, List.not_mem_nil, or_false] at h
  case assignment | assertion | member =>
    rcases h with rfl | rfl <;> simp
    all_goals omega
  case call | shouldThrow =>
    rcases h with rfl | h
    · simp
      omega
    · have := hlist h
      simp
      omega
  case sequence | ifPyd | ifPynih =>
    have := hlist h
    simp
    omega

/-- What holds of a node as soon as it holds of its children holds of every node. -/
theorem induction_children {P : Node → Prop} (h : ∀ n, (∀ c ∈ n.children, P c) → P n)
    (n : Node) : P n :=
  h n fun c _ => induction_children h c
termination_by sizeOf n
decreasing_by exact sizeOf_lt_of_mem_children ‹_›

/-- Induction over the parts of nodes. -/
theorem induction_parts {P : Node → Prop} (h : ∀ n, (∀ p ∈ n.parts, P p.2) → P n) (n : Node) :
    P n := by
  refine induction_children (fun n ih => h n fun p hp => ih p.2 ?_) n
  by_cases hn : n.isComposite = true
  · rw [← children_of_isComposite hn]
    exact List.mem_map_of_mem hp
  · rw [parts_of_not_isComposite (Bool.eq_false_iff.2 hn)] at hp
    cases hp

section Render

variable (modules : List Text)

/-- A part rendered in its place: where a node has to stand, its absence is an error of the kind
around it. -/
def renderPart (kind : Text) (p : Field × Node) : Except NodeError Text :=
  match p.2 with
  | absent => .error (.malformed kind p.1 .missing)
  | n => n.render modules

/-- The texts of the parts put together. -/
def assemble : Node → List Text → Text
  | assignment _ _, [l, r] => text "var " ++ l ++ text " = " ++ r
  | assertion _ _, [actual, expected] =>
    text "Assert.AreEqual(" ++ expected ++ text ", " ++ actual ++ text ")"
  | call _ _, f :: xs => f ++ text "(" ++ (text ", ").intercalate xs ++ text ")"
  | member owner _, [o, m] => ownerName modules owner o ++ text "." ++ m.capitalize
  | sequence _, xs => text "\x7b" ++ (text ", ").intercalate xs ++ text "\x7d"
  | _, _ => []

theorem required_eq_renderPart (parent : Kind) (field : Field) (n : Node) :
    required parent field n (n.render modules) = renderPart modules parent.name (field, n) := by
  cases n <;> rfl

theorem renderItems_eq_mapM (parent : Kind) (field : Text) (i : Nat) (ns : List Node) :
    renderItems modules parent field i ns
      = (itemsFrom field i ns).mapM (renderPart modules parent.name) := by
  induction ns generalizing i with
  | nil => rw [renderItems, itemsFrom, List.mapM_nil]; rfl
  | cons n ns ih =>
    rw [renderItems, itemsFrom, List.mapM_cons, required_eq_renderPart, ih]

/-- A node with parts is rendered part by part and put together. -/
theorem render_of_isComposite {n : Node} (h : n.isComposite = true) :
    n.render modules = do
      let xs ← n.parts.mapM (renderPart modules n.kindName)
      return assemble modules n xs := by
  cases n with
  | assignment lhs rhs =>
    simp only [render, parts, kindName, required_eq_renderPart, List.mapM_cons, List.mapM_nil,
      bind_assoc, pure_bind, assemble]
  | assertion lhs rhs =>
    simp only [render, parts, kindName, required_eq_renderPart, List.mapM_cons, List.mapM_nil,
      bind_assoc, pure_bind, assemble]
  | call receiver args =>
    simp only [render, parts, kindName, required_eq_renderPart, renderItems_eq_mapM,
      List.mapM_cons, bind_assoc, pure_bind, assemble]
  | member owner name =>
    simp only [render, parts, kindName, required_eq_renderPart, List.mapM_cons, List.mapM_nil,
      bind_assoc, pure_bind, assemble]
  | sequence elements =>
    simp only [render, parts, kindName, renderItems_eq_mapM, assemble]
  | _ => cases h

theorem errorOf_render_of_isComposite {n : Node} (h : n.isComposite = true) :
    errorOf (n.render modules)
      = firstFault (fun _ p => errorOf (renderPart modules n.kindName p)) 0 n.parts := by
  rw [render_of_isComposite modules h, ← errorOf_mapM]
  rcases n.parts.mapM (renderPart modules n.kindName) with e | xs <;> rfl

theorem statement_of_ne_absent {n : Node} (h : n ≠ absent) :
    n.statement modules = do
      let line ← n.render modules
      return if line = [] then [] else text "// " ++ line ++ text ";" := by
  rw [statement]
  exact h

end Render

end SuiteScribe.Node
