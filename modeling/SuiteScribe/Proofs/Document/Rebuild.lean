import SuiteScribe.Proofs.Document.Schema
import SuiteScribe.Proofs.Text.Utf8

/-!
# What reading a document depends on

Values read alike in a role if reading them in it gives the same, wherever they are (`Role.Alike`).
A mapping is read through the keys of its role and a list through its items, so mappings and lists
read alike as soon as these do (`alike_mapping`, `alike_list`).

`Role.rebuild` goes through a document by the schema and makes an edit at every place.  If no edit
changes what is read, neither do all of them (`alike_rebuild`).
-/

namespace SuiteScribe

namespace Role

/-- The keys that are looked at in a mapping, if the role is one of mappings. -/
def keys? : Role → List (Text × Tree) → Option (List (String × Role))
  | suite, _ => some [("tests", tests)]
  | test, _ => some [("name", text), ("statements", nodes)]
  | node, fields | part _, fields =>
    some (("kind", kind) :: ((Tree.kindOf? fields).map Kind.fields).getD [])
  | _, _ => none

/-- What the items of a list stand for, if the role is one of lists. -/
def itemRole? : Role → Option Role
  | tests => some test
  | nodes => some node
  | _ => none

/-- What a key stands for, if it is one of those looked at. -/
def ofKey? (keys : List (String × Role)) (key : Text) : Option Role :=
  (keys.find? fun k => SuiteScribe.text k.1 == key).map Prod.snd

theorem ofKey?_of_mem {r : Role} {fields : List (Text × Tree)} {keys : List (String × Role)}
    (hkeys : r.keys? fields = some keys) : ∀ k ∈ keys,
      ofKey? keys (SuiteScribe.text k.1) = some k.2 := by
  cases r with
  | suite | test =>
    cases hkeys
    simp [ofKey?]
  | node | part =>
    cases hkeys
    rcases Tree.kindOf? fields with _ | k
    · simp [ofKey?]
    · cases k <;> simp [ofKey?, Kind.fields]
  | _ => cases hkeys

section Alike

/-- Reading the values in the role gives the same, wherever they are. -/
def Alike : Role → Tree → Tree → Prop
  | suite, t, u => t.toSuite = u.toSuite
  | tests, t, u => ∀ path,
    (do Tree.toTestsFrom path 0 (← t.toList path true))
      = do Tree.toTestsFrom path 0 (← u.toList path true)
  | test, t, u => ∀ path, t.toTest path = u.toTest path
  | nodes, t, u => ∀ path, t.toNodes path = u.toNodes path
  | node, t, u => ∀ path, t.toNode path = u.toNode path
  | part required, t, u => ∀ path, t.toPart path required = u.toPart path required
  | _, t, u => t = u

theorem alike_refl (r : Role) (t : Tree) : r.Alike t t := by
  cases r <;> simp [Alike]

theorem Alike.trans {r : Role} {t u v : Tree} (h : r.Alike t u) (h' : r.Alike u v) :
    r.Alike t v := by
  cases r with
  | tests | test | nodes | node | part => exact fun path => (h path).trans (h' path)
  | _ => exact Eq.trans h h'

/-- A node is read through its kind and the fields of that kind. -/
theorem toNode_congr {fields fields' : List (Text × Tree)}
    (hkind : Tree.get fields' (SuiteScribe.text "kind")
      = Tree.get fields (SuiteScribe.text "kind"))
    (h : ∀ k, Tree.kindOf? fields = some k → ∀ f ∈ k.fields,
      f.2.Alike (Tree.get fields' (SuiteScribe.text f.1)) (Tree.get fields (SuiteScribe.text f.1)))
    (path : Path) :
    Tree.toNode path (.mapping fields') = Tree.toNode path (.mapping fields) := by
  rw [Tree.toNode, Tree.toNode, hkind]
  rcases hname : Tree.get fields (SuiteScribe.text "kind") with _ | _ | _ | name | _ | _
  case string =>
    rw [Tree.toText, ok_bind, ok_bind, Tree.toKind]
    rcases hk : Kind.ofName? name with _ | k
    · rfl
    · have hfields := h k (by rw [Tree.kindOf?, hname]; exact hk)
      simp only [ok_bind]
      cases k <;>
        simp only [Kind.fields, List.forall_mem_cons, List.not_mem_nil, false_implies,
          implies_true, and_true, Alike] at hfields <;>
        simp only [hfields]
  all_goals rfl

/-- Mappings whose known keys hold alike values read alike. -/
theorem alike_mapping {r : Role} {fields fields' : List (Text × Tree)}
    {keys : List (String × Role)} (hkeys : r.keys? fields = some keys)
    (h : ∀ k ∈ keys, k.2.Alike (Tree.get fields' (SuiteScribe.text k.1))
      (Tree.get fields (SuiteScribe.text k.1))) :
    r.Alike (.mapping fields') (.mapping fields) := by
  cases r with
  | suite =>
    cases hkeys
    rw [List.forall_mem_singleton] at h
    exact h [.field (SuiteScribe.text "tests")]
  | test =>
    cases hkeys
    rw [List.forall_mem_cons, List.forall_mem_singleton] at h
    obtain ⟨hname, hstatements⟩ : _ = _ ∧ ∀ path, _ = _ := h
    intro path
    rw [Tree.toTest, Tree.toTest, hname, hstatements]
  | node =>
    cases hkeys
    obtain ⟨hkind, hfields⟩ := List.forall_mem_cons.1 h
    refine toNode_congr hkind fun k hk => ?_
    rwa [hk] at hfields
  | part required =>
    cases hkeys
    obtain ⟨hkind, hfields⟩ := List.forall_mem_cons.1 h
    intro path
    rw [Tree.toPart, Tree.toPart]
    · refine toNode_congr hkind (fun k hk => ?_) path
      rwa [hk] at hfields
    all_goals simp
  | _ => cases hkeys

theorem toTestsFrom_congr {items items' : List Tree}
    (h : List.Forall₂ test.Alike items' items) (path : Path) (i : Nat) :
    Tree.toTestsFrom path i items' = Tree.toTestsFrom path i items := by
  induction h generalizing i with
  | nil => rfl
  | cons ht _ ih => rw [Tree.toTestsFrom, Tree.toTestsFrom, ht, ih]

theorem toNodesFrom_congr {items items' : List Tree}
    (h : List.Forall₂ node.Alike items' items) (path : Path) (i : Nat) :
    Tree.toNodesFrom path i items' = Tree.toNodesFrom path i items := by
  induction h generalizing i with
  | nil => rfl
  | cons ht _ ih => rw [Tree.toNodesFrom, Tree.toNodesFrom, ht, ih]

/-- Lists of items that read alike read alike. -/
theorem alike_list {r item : Role} (hr : r.itemRole? = some item) {items items' : List Tree}
    (h : List.Forall₂ item.Alike items' items) : r.Alike (.list items') (.list items) := by
  cases r with
  | tests =>
    cases hr
    exact fun path => toTestsFrom_congr h path 0
  | nodes =>
    cases hr
    intro path
    rw [Tree.toNodes, Tree.toNodes, toNodesFrom_congr h]
  | _ => cases hr

end Alike

section Rebuild

variable (edit : Path → Role → Tree → Tree)

mutual

/-- The value in the role after an edit at every place that is looked at in it, where `edit` is told
the place and its role.  The parts of a value are edited before the value itself. -/
def rebuild (path : Path) (r : Role) : Tree → Tree
  | .mapping fields =>
    match r.keys? fields with
    | some keys => edit path r (.mapping (rebuildFields path keys fields))
    | none => edit path r (.mapping fields)
  | .list items =>
    match r.itemRole? with
    | some item => edit path r (.list (rebuildItems path item 0 items))
    | none => edit path r (.list items)
  | t => edit path r t

/-- The fields of a mapping, each of the keys with its value rebuilt. -/
def rebuildFields (path : Path) (keys : List (String × Role)) :
    List (Text × Tree) → List (Text × Tree)
  | [] => []
  | (key, t) :: rest =>
    match ofKey? keys key with
    | some r => (key, rebuild (path ++ [.field key]) r t) :: rebuildFields path keys rest
    | none => (key, t) :: rebuildFields path keys rest

/-- The items of a list, counted from `i` and rebuilt. -/
def rebuildItems (path : Path) (item : Role) : (i : Nat) → List Tree → List Tree
  | _, [] => []
  | i, t :: rest => rebuild (path.item i) item t :: rebuildItems path item (i + 1) rest

end

variable {edit}

theorem rebuild_mapping (path : Path) {r : Role} {fields : List (Text × Tree)}
    {keys : List (String × Role)} (hkeys : r.keys? fields = some keys) :
    rebuild edit path r (.mapping fields)
      = edit path r (.mapping (rebuildFields edit path keys fields)) := by
  rw [rebuild, hkeys]

theorem rebuild_list (path : Path) {r item : Role} (hitem : r.itemRole? = some item)
    (items : List Tree) :
    rebuild edit path r (.list items)
      = edit path r (.list (rebuildItems edit path item 0 items)) := by
  rw [rebuild, hitem]

/-- A key that is looked at holds its rebuilt value.  One that is not there reads as null, so this
is where edits have to leave null alone. -/
theorem get_rebuildFields (hnull : ∀ path r, edit path r .null = .null) (path : Path)
    {keys : List (String × Role)} {key : Text} {r : Role} (hr : ofKey? keys key = some r)
    (fields : List (Text × Tree)) :
    Tree.get (rebuildFields edit path keys fields) key
      = rebuild edit (path ++ [.field key]) r (Tree.get fields key) := by
  induction fields with
  | nil => exact (hnull _ r).symm
  | cons field rest ih =>
    obtain ⟨k, t⟩ := field
    rw [rebuildFields]
    by_cases hk : k = key
    · subst hk
      simp only [hr, Tree.get, if_true]
    · split <;> simpa only [Tree.get, hk, if_false] using ih

theorem getElem?_rebuildItems (path : Path) (item : Role) (items : List Tree) (i j : Nat) :
    (rebuildItems edit path item i items)[j]?
      = items[j]?.map (rebuild edit (path.item (i + j)) item) := by
  induction items generalizing i j with
  | nil => simp [rebuildItems]
  | cons t rest ih =>
    rw [rebuildItems]
    rcases j with _ | j
    · simp
    · simp only [List.getElem?_cons_succ, ih]
      rw [show i + 1 + j = i + (j + 1) by omega]

theorem forall₂_rebuildItems {R : Tree → Tree → Prop} {item : Role} {items : List Tree}
    (h : ∀ t ∈ items, ∀ path, R (rebuild edit path item t) t) (path : Path) (i : Nat) :
    List.Forall₂ R (rebuildItems edit path item i items) items := by
  induction items generalizing i with
  | nil => exact .nil
  | cons t rest ih =>
    obtain ⟨ht, hrest⟩ := List.forall_mem_cons.1 h
    exact .cons (ht _) (ih hrest (i + 1))

/-- An edit that leaves each value alike leaves the document alike. -/
theorem alike_rebuild (hnull : ∀ path r, edit path r .null = .null)
    (h : ∀ path (r : Role) t, r.Alike (edit path r t) t) (path : Path) (r : Role) (t : Tree) :
    r.Alike (rebuild edit path r t) t := by
  match t with
  | .mapping fields =>
    rcases hkeys : r.keys? fields with _ | keys
    · rw [rebuild, hkeys]
      exact h path r _
    · rw [rebuild_mapping path hkeys]
      refine (h path r _).trans (alike_mapping hkeys fun k hk => ?_)
      rw [get_rebuildFields hnull path (ofKey?_of_mem hkeys k hk)]
      have := Tree.sizeOf_get_lt fields (SuiteScribe.text k.1)
      exact alike_rebuild hnull h _ k.2 _
  | .list items =>
    rcases hitem : r.itemRole? with _ | item
    · rw [rebuild, hitem]
      exact h path r _
    · rw [rebuild_list path hitem]
      refine (h path r _).trans
        (alike_list hitem (forall₂_rebuildItems (fun t ht path => ?_) path 0))
      have := List.sizeOf_lt_of_mem ht
      exact alike_rebuild hnull h path item t
  | .null | .bool _ | .number _ | .string _ => exact h path r _
termination_by sizeOf t
decreasing_by
  · assumption
  · simp only [Tree.list.sizeOf_spec]
    omega

end Rebuild

end Role

end SuiteScribe
