import SuiteScribe.Proofs.Document.Complete
import SuiteScribe.Proofs.Number.Integer
import SuiteScribe.Proofs.Text.Utf8

/-!
# Every suite has a document

`Suite.toTree` writes a suite as a document: the suite and its tests as mappings, and every node as
a mapping with its kind and all the fields of that kind.  Reading that document gives the suite back
(`toSuite_toTree`), provided that its nodes are complete and its whole numbers have 64 bits.

A bare string or number could be written shorter than its node is here; reading knows both forms.
-/

namespace SuiteScribe

/-- A mapping that names a kind. -/
def Tree.tagged (kind : Kind) (fields : List (Text × Tree)) : Tree :=
  mapping ((text "kind", string kind.name) :: fields)

namespace Node

mutual

/-- The document of a node.  A node that is absent is written as null, and so is one from outside
the kinds, which has no document. -/
def toTree : Node → Tree
  | absent => .null
  | importOf name => .tagged .importOf [(text "module", .string name)]
  | assignment lhs rhs =>
    .tagged .assignment [(text "lhs", lhs.toTree), (text "rhs", rhs.toTree)]
  | assertion lhs rhs =>
    .tagged .assertion [(text "lhs", lhs.toTree), (text "rhs", rhs.toTree)]
  | call receiver args =>
    .tagged .call [(text "receiver", receiver.toTree), (text "args", .list (toTrees args))]
  | member owner name =>
    .tagged .member [(text "instance", owner.toTree), (text "attribute", name.toTree)]
  | sequence elements => .tagged .sequence [(text "elements", .list (toTrees elements))]
  | ifPyd body => .tagged .ifPyd [(text "body", .list (toTrees body))]
  | ifPynih body => .tagged .ifPynih [(text "body", .list (toTrees body))]
  | shouldThrow exception body =>
    .tagged .shouldThrow
      [(text "exception", exception.toTree), (text "body", .list (toTrees body))]
  | number value => .tagged .number [(text "value", .number value)]
  | string value => .tagged .string [(text "value", .string value)]
  | bytes value => .tagged .bytes [(text "value", .string value)]
  | int value => .tagged .int [(text "value", .number (Text.ofInt value))]
  | str value => .tagged .str [(text "value", .string value)]
  | foreign _ _ _ => .null

/-- The documents of the nodes of a list. -/
def toTrees : List Node → List Tree
  | [] => []
  | n :: rest => n.toTree :: toTrees rest

end

/-- Every whole number in the node, at any depth, has 64 bits. -/
def IntsInRange (n : Node) : Prop :=
  ∀ i, Occurs (.int i) n → Integer.InRange i

/-- The integers of a node are its own and those of its children. -/
theorem intsInRange_iff {n : Node} :
    n.IntsInRange ↔ (∀ i, n = .int i → Integer.InRange i) ∧ ∀ c ∈ n.children, c.IntsInRange := by
  constructor
  · intro h
    exact ⟨fun i hn => h i (occurs_iff.2 (.inl hn)),
      fun c hc i hi => h i (occurs_iff.2 (.inr ⟨c, hc, hi⟩))⟩
  · rintro ⟨hn, hc⟩ i hi
    rcases occurs_iff.1 hi with heq | ⟨c, hmem, hi⟩
    · exact hn i heq
    · exact hc c hmem i hi

theorem IntsInRange.of_mem_children {n c : Node} (h : n.IntsInRange) (hc : c ∈ n.children) :
    c.IntsInRange :=
  (intsInRange_iff.1 h).2 c hc

end Node

/-- The document of a test. -/
def Test.toTree (test : Test) : Tree :=
  .mapping [(text "name", .string test.name),
    (text "statements", .list (Node.toTrees test.statements))]

/-- The document of a suite. -/
def Suite.toTree (suite : Suite) : Tree :=
  .mapping [(text "tests", .list (suite.map Test.toTree))]

namespace Tree

@[simp] theorem get_cons (key k : Text) (v : Tree) (fields : List (Text × Tree)) :
    get ((k, v) :: fields) key = if k = key then v else get fields key := rfl

@[simp] theorem toKind_name (path : Path) (k : Kind) : toKind path k.name = .ok k := by
  rw [toKind, Kind.ofName?_name]

theorem toPart_of_toNode {path : Path} {t : Tree} {n : Node} (h : toNode path t = .ok n)
    (required : Bool) : toPart path required t = .ok n := by
  rw [toPart]
  · exact h
  · rintro rfl
    simp [toNode] at h

theorem toNodesFrom_toTrees {ns : List Node} (h : ∀ n ∈ ns, ∀ path, toNode path n.toTree = .ok n)
    (path : Path) (i : Nat) : toNodesFrom path i (Node.toTrees ns) = .ok ns := by
  induction ns generalizing i with
  | nil => rw [Node.toTrees, toNodesFrom]
  | cons n ns ih =>
    obtain ⟨hn, hns⟩ := List.forall_mem_cons.1 h
    rw [Node.toTrees, toNodesFrom, hn, ok_bind, ih hns]
    rfl

/-- Nodes that are read back one by one are read back from their list. -/
theorem toNodes_toTrees {ns : List Node} (h : ∀ n ∈ ns, ∀ path, toNode path n.toTree = .ok n)
    (path : Path) : toNodes path (.list (Node.toTrees ns)) = .ok ns := by
  rw [toNodes, toNodesFrom_toTrees h]

/-- Every kind is read back from its own fields, the parts by the induction and the whole numbers
from their decimal text. -/
theorem toNode_toTree {n : Node} (hn : n.Complete) (hi : n.IntsInRange) (path : Path) :
    toNode path n.toTree = .ok n := by
  induction hn generalizing path with
  | importOf h => simp [Node.toTree, tagged, toNode, toText, toModule, h]
  | @assignment lhs rhs _ _ ihl ihr | @assertion lhs rhs _ _ ihl ihr
  | @member lhs rhs _ _ ihl ihr =>
    have hl := fun path => toPart_of_toNode
      (ihl (hi.of_mem_children (by simp [Node.children])) path) true
    have hr := fun path => toPart_of_toNode
      (ihr (hi.of_mem_children (by simp [Node.children])) path) true
    simp [Node.toTree, tagged, toNode, toText, hl, hr]
  | @call receiver args _ _ ihr iha =>
    have hr := fun path => toPart_of_toNode
      (ihr (hi.of_mem_children (by simp [Node.children])) path) true
    have ha := toNodes_toTrees fun n hn =>
      iha n hn (hi.of_mem_children (by simp [Node.children, hn]))
    simp [Node.toTree, tagged, toNode, toText, hr, ha]
  | @sequence ns _ ih | @ifPyd ns _ ih | @ifPynih ns _ ih =>
    have hns := toNodes_toTrees fun n hn =>
      ih n hn (hi.of_mem_children (by simp [Node.children, hn]))
    simp [Node.toTree, tagged, toNode, toText, hns]
  | @shouldThrow exception body _ _ ihe ihb =>
    have he : ∀ path, toPart path false exception.toTree = .ok exception := by
      intro path
      by_cases habsent : exception = .absent
      · rw [habsent, Node.toTree, toPart, if_neg (by decide)]
      · exact toPart_of_toNode
          (ihe habsent (hi.of_mem_children (by simp [Node.children])) path) false
    have hb := toNodes_toTrees fun n hn =>
      ihb n hn (hi.of_mem_children (by simp [Node.children, hn]))
    simp [Node.toTree, tagged, toNode, toText, he, hb]
  | number => simp [Node.toTree, tagged, toNode, toText, toNumeral]
  | string | bytes | str => simp [Node.toTree, tagged, toNode, toText]
  | @int value =>
    have hread := Integer.read_ofInt (hi value .refl)
    simp [Node.toTree, tagged, toNode, toText, toInteger, hread]

theorem toTest_toTree {test : Test} (hc : ∀ n ∈ test.statements, n.Complete)
    (hi : ∀ n ∈ test.statements, n.IntsInRange) (path : Path) :
    toTest path test.toTree = .ok test := by
  have hstatements := toNodes_toTrees fun n hn => toNode_toTree (hc n hn) (hi n hn)
  simp [Test.toTree, toTest, toText, hstatements]

theorem toTestsFrom_map_toTree {suite : Suite}
    (h : ∀ test ∈ suite, ∀ path, toTest path test.toTree = .ok test) (path : Path) (i : Nat) :
    toTestsFrom path i (suite.map Test.toTree) = .ok suite := by
  induction suite generalizing i with
  | nil => rw [List.map_nil, toTestsFrom]
  | cons test tests ih =>
    obtain ⟨ht, hts⟩ := List.forall_mem_cons.1 h
    rw [List.map_cons, toTestsFrom, ht, ok_bind, ih hts]
    rfl

/-- A suite whose nodes are complete and whose whole numbers have 64 bits is what its document
reads as. -/
theorem toSuite_toTree {suite : Suite} (hc : ∀ test ∈ suite, ∀ n ∈ test.statements, n.Complete)
    (hi : ∀ test ∈ suite, ∀ n ∈ test.statements, n.IntsInRange) :
    suite.toTree.toSuite = .ok suite := by
  have htests := toTestsFrom_map_toTree fun test ht => toTest_toTree (hc test ht) (hi test ht)
  simp [Suite.toTree, toSuite, toList, htests]

/-- A suite with the least and the greatest whole number, an import inside of a `shouldThrow` that
names no exception, and bytes that are not UTF-8. -/
def farEnds : Suite :=
  [⟨text "t", [.shouldThrow .absent [.importOf (text "m"), .int (-9223372036854775808)],
    .sequence [.int 9223372036854775807, .bytes [255], .number (text "1e5")]]⟩, ⟨[], []⟩]

theorem toSuite_toTree_farEnds : farEnds.toTree.toSuite = .ok farEnds := by
  refine toSuite_toTree ?_ ?_ <;>
    simp only [farEnds, List.forall_mem_cons, List.not_mem_nil, false_implies, implies_true,
      and_true]
  · refine ⟨.shouldThrow (fun h => absurd rfl h) ?_, .sequence ?_⟩ <;>
      simp only [List.forall_mem_cons, List.not_mem_nil, false_implies, implies_true, and_true]
    · exact ⟨.importOf (by decide), .int⟩
    · exact ⟨.int, .bytes, .number⟩
  · have hint : ∀ i, Integer.InRange i → (Node.int i).IntsInRange := fun i hi =>
      Node.intsInRange_iff.2 ⟨fun _ h => by cases h; exact hi, by simp [Node.children]⟩
    have hleaf : ∀ n : Node, n.children = [] → (∀ i, n ≠ .int i) → n.IntsInRange := fun n hc hn =>
      Node.intsInRange_iff.2 ⟨fun i h => absurd h (hn i), by simp [hc]⟩
    refine ⟨Node.intsInRange_iff.2 ⟨by simp, ?_⟩, Node.intsInRange_iff.2 ⟨by simp, ?_⟩⟩ <;>
      simp only [Node.children, List.forall_mem_cons, List.not_mem_nil, false_implies, implies_true,
        and_true]
    · exact ⟨hleaf _ rfl (by simp), hleaf _ rfl (by simp), hint _ (by simp [Integer.InRange])⟩
    · exact ⟨hint _ (by simp [Integer.InRange]), hleaf _ rfl (by simp), hleaf _ rfl (by simp)⟩

end Tree

end SuiteScribe
