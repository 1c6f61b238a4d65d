import Mathlib.Data.List.Sort
import SuiteScribe.Document.Read
import SuiteScribe.Proofs.FirstFault

/-!
# The two formats agree

A JSON value and a YAML node that has the same shape are read as the same tree
(`toTree_of_mirrors`).  Two mappings have the same shape if they have the same keys and, key by key,
values of the same shape, in whatever order.  The fields of a tree ascend, so they are determined by
the value that every key has (`Ascending.eq_of_lookup`), and it is enough to follow what a look-up
finds while the fields are put in one after the other.

In a YAML mapping keys may be repeated.  A value that a later one replaces leaves no trace
(`toFields_lastFields`), but it is read all the same, and a fault in it is told.
-/

namespace SuiteScribe

namespace Tree

/-- The keys of the fields ascend. -/
def Ascending (fields : List (Text × Tree)) : Prop :=
  fields.Pairwise fun f g => f.1 < g.1

theorem lookup_cons (k key : Text) (value : Tree) (fields : List (Text × Tree)) :
    ((key, value) :: fields).lookup k = if k = key then some value else fields.lookup k := by
  rw [List.lookup_cons]
  split_ifs with h
  · rw [beq_iff_eq.2 h]
  · rw [beq_eq_false_iff_ne.2 h]

/-- A put value is found under its key, and nothing else is found otherwise than before. -/
theorem lookup_put (fields : List (Text × Tree)) (key : Text) (value : Tree) (k : Text) :
    (put fields key value).lookup k = if k = key then some value else fields.lookup k := by
  induction fields with
  | nil => rw [put, lookup_cons]
  | cons field fields ih =>
    obtain ⟨k', v⟩ := field
    unfold put
    split_ifs <;> simp only [lookup_cons, ih] <;> grind

theorem fst_of_mem_put {fields : List (Text × Tree)} {key : Text} {value : Tree} {f : Text × Tree}
    (h : f ∈ put fields key value) : f.1 = key ∨ f ∈ fields := by
  induction fields with
  | nil => exact .inl (by rw [List.mem_singleton.1 h])
  | cons field fields ih =>
    unfold put at h
    split_ifs at h <;> grind

namespace Ascending

variable {fields fields' : List (Text × Tree)}

theorem put (h : Ascending fields) (key : Text) (value : Tree) :
    Ascending (Tree.put fields key value) := by
  induction fields with
  | nil => exact List.pairwise_singleton _ _
  | cons field fields ih =>
    obtain ⟨hfield, hfields⟩ := List.pairwise_cons.1 h
    unfold Tree.put
    split_ifs with hlt heq
    · refine List.pairwise_cons.2 ⟨fun g hg => ?_, h⟩
      rcases List.mem_cons.1 hg with rfl | hg
      · exact hlt
      · exact List.lt_trans hlt (hfield g hg)
    · refine List.pairwise_cons.2 ⟨fun g hg => ?_, hfields⟩
      rw [heq]
      exact hfield g hg
    · refine List.pairwise_cons.2 ⟨fun g hg => ?_, ih hfields⟩
      rcases fst_of_mem_put hg with hkey | hg
      · rw [hkey]
        exact Std.lt_of_le_of_ne hlt (Ne.symm heq)
      · exact hfield g hg

theorem mem_iff (h : Ascending fields) {f : Text × Tree} :
    f ∈ fields ↔ fields.lookup f.1 = some f.2 := by
  induction fields with
  | nil => simp
  | cons field fields ih =>
    obtain ⟨hfield, hfields⟩ := List.pairwise_cons.1 h
    rw [List.mem_cons, ih hfields, lookup_cons]
    split_ifs with hkey
    · have hlater : ¬ fields.lookup f.1 = some f.2 := by
        rw [← ih hfields]
        intro hmem
        exact List.lt_irrefl _ (hkey ▸ hfield f hmem)
      rw [or_iff_left hlater, Option.some.injEq]
      constructor
      · rintro rfl
        rfl
      · exact fun hvalue => Prod.ext hkey hvalue.symm
    · refine or_iff_right ?_
      rintro rfl
      exact hkey rfl

/-- Ascending fields are determined by what is found in them. -/
theorem eq_of_lookup (h : Ascending fields) (h' : Ascending fields')
    (heq : ∀ k, fields.lookup k = fields'.lookup k) : fields = fields' := by
  have : Std.Irrefl fun f g : Text × Tree => f.1 < g.1 := ⟨fun f => List.lt_irrefl f.1⟩
  refine h.eq_of_mem_iff h' fun f => ?_
  rw [h.mem_iff, h'.mem_iff, heq]

theorem put_put (h : Ascending fields) (key : Text) (value value' : Tree) :
    Tree.put (Tree.put fields key value) key value' = Tree.put fields key value' := by
  refine ((h.put _ _).put _ _).eq_of_lookup (h.put _ _) fun k => ?_
  simp only [lookup_put]
  grind

theorem put_comm (h : Ascending fields) {key key' : Text} (hne : key ≠ key')
    (value value' : Tree) :
    Tree.put (Tree.put fields key value) key' value'
      = Tree.put (Tree.put fields key' value') key value := by
  refine ((h.put _ _).put _ _).eq_of_lookup ((h.put _ _).put _ _) fun k => ?_
  simp only [lookup_put]
  grind

end Ascending

end Tree

namespace Json

/-- The value that a mapping gives a key: the last one, if there are several. -/
def lastValue? (key : Text) : List (Text × Value) → Option Value
  | [] => none
  | (k, v) :: rest => (lastValue? key rest).or (if k = key then some v else none)

namespace Value

theorem ascending_toFields {read : List (Text × Tree)} (h : Tree.Ascending read)
    (fields : List (Text × Value)) : Tree.Ascending (toFields read fields) := by
  induction fields generalizing read with
  | nil => rwa [toFields]
  | cons field fields ih =>
    rw [toFields]
    exact ih (h.put _ _)

/-- Under a key the last of its values is found, or else what was there before. -/
theorem lookup_toFields (read : List (Text × Tree)) (fields : List (Text × Value)) (key : Text) :
    (toFields read fields).lookup key
      = ((lastValue? key fields).map toTree).or (read.lookup key) := by
  induction fields generalizing read with
  | nil => rw [toFields, lastValue?, Option.map_none, Option.none_or]
  | cons field fields ih =>
    obtain ⟨k, v⟩ := field
    rw [toFields, ih, Tree.lookup_put, lastValue?]
    rcases lastValue? key fields with _ | w
    · by_cases hk : k = key
      · simp [hk]
      · simp [hk, Ne.symm hk]
    · rfl

end Value

end Json

namespace Yaml.Node

/-- The node is a scalar with this text, so it may stand for a key. -/
def IsKey (key : Text) (n : Node) : Prop :=
  ∃ line tag, n = scalar line tag key

/-- The node says what a JSON value says: it has the same shape, and its scalars have the tags and
the texts of what stands in the value.  The fields of a mapping may come in any order. -/
inductive Mirrors : Node → Json.Value → Prop
  | null {line : Nat} {value : Text} : Mirrors (scalar line .null value) .null
  | yes {line : Nat} {value : Text} (h : value ∈ trueWords) :
    Mirrors (scalar line .bool value) (.bool true)
  | no {line : Nat} {value : Text} (h : value ∈ falseWords) :
    Mirrors (scalar line .bool value) (.bool false)
  | int {line : Nat} {value : Text} : Mirrors (scalar line .int value) (.number value)
  | float {line : Nat} {value : Text} : Mirrors (scalar line .float value) (.number value)
  | text {line : Nat} {value : Text} : Mirrors (scalar line .text value) (.string value)
  | list {line : Nat} {items : List Node} {values : List Json.Value}
    (hlength : items.length = values.length)
    (hitems : ∀ p ∈ items.zip values, Mirrors p.1 p.2) :
    Mirrors (sequence line items) (.list values)
  | mapping {line : Nat} {fields : List (Node × Node)} {values : List (Text × Json.Value)}
    (hscalar : ∀ f ∈ fields, ∃ key, f.1.IsKey key)
    (hkeys : ∀ key, (∃ f ∈ fields, f.1.IsKey key) ↔ ∃ v, Json.lastValue? key values = some v)
    (hvalues : ∀ f ∈ fields, ∀ key v, f.1.IsKey key → Json.lastValue? key values = some v →
      Mirrors f.2 v) :
    Mirrors (Node.mapping line fields) (.mapping values)

variable (anchored : List (Nat × Node)) (depth : Nat)

theorem key?_of_isKey {n : Node} {key : Text} (h : n.IsKey key) : n.key? = .ok key := by
  obtain ⟨line, tag, rfl⟩ := h
  rfl

theorem isKey_unique {n : Node} {key key' : Text} (h : n.IsKey key) (h' : n.IsKey key') :
    key = key' := by
  obtain ⟨line, tag, rfl⟩ := h
  obtain ⟨line', tag', heq⟩ := h'
  cases heq
  rfl

theorem toTrees_of_zip {items : List Node} {values : List Json.Value}
    (hlength : items.length = values.length)
    (h : ∀ p ∈ items.zip values, p.1.toTree anchored depth = .ok p.2.toTree) :
    toTrees anchored depth items = .ok (Json.Value.toTrees values) := by
  induction items generalizing values with
  | nil =>
    rw [List.eq_nil_of_length_eq_zero hlength.symm, toTrees, Json.Value.toTrees]
  | cons n items ih =>
    rcases values with _ | ⟨v, values⟩
    · cases hlength
    · rw [List.zip_cons_cons, List.forall_mem_cons] at h
      rw [toTrees, h.1, ok_bind, ih (Nat.succ.inj hlength) h.2, ok_bind, Json.Value.toTrees]
      rfl

/-- If every field has the value that is wanted for its key, the mapping has the values that are
wanted for the keys of the fields, and besides what was read before. -/
theorem toFields_of_wanted (want : Text → Option Tree) {fields : List (Node × Node)}
    (h : ∀ f ∈ fields, ∃ key t, f.1.IsKey key ∧ want key = some t
      ∧ f.2.toTree anchored depth = .ok t)
    {read : List (Text × Tree)} (hread : Tree.Ascending read) :
    ∃ out, toFields anchored depth read fields = .ok out ∧ Tree.Ascending out
      ∧ (∀ key, (∃ f ∈ fields, f.1.IsKey key) → out.lookup key = want key)
      ∧ ∀ key, (¬ ∃ f ∈ fields, f.1.IsKey key) → out.lookup key = read.lookup key := by
  induction fields generalizing read with
  | nil => exact ⟨read, by rw [toFields], hread, by simp, fun _ _ => rfl⟩
  | cons f fields ih =>
    obtain ⟨hf, hfields⟩ := List.forall_mem_cons.1 h
    obtain ⟨key, t, hkey, hwant, ht⟩ := hf
    obtain ⟨out, hout, hascending, hin, hnot⟩ := ih hfields (hread.put key t)
    refine ⟨out, ?_, hascending, fun k hk => ?_, fun k hk => ?_⟩
    · rw [toFields, key?_of_isKey hkey, ok_bind, ht, ok_bind, hout]
    · by_cases hlater : ∃ f ∈ fields, f.1.IsKey k
      · exact hin k hlater
      · have hkk : k = key := by
          obtain ⟨g, hg, hgk⟩ := hk
          rcases List.mem_cons.1 hg with rfl | hg
          · exact isKey_unique hgk hkey
          · exact absurd ⟨g, hg, hgk⟩ hlater
        rw [hnot k hlater, Tree.lookup_put, if_pos hkk, hkk, hwant]
    · have hlater : ¬ ∃ f ∈ fields, f.1.IsKey k := by
        rintro ⟨g, hg, hgk⟩
        exact hk ⟨g, List.mem_cons_of_mem _ hg, hgk⟩
      have hkk : k ≠ key := by
        rintro rfl
        exact hk ⟨f, List.mem_cons_self, hkey⟩
      rw [hnot k hlater, Tree.lookup_put, if_neg hkk]

/-- A node that mirrors a JSON value is read as the same tree, whatever order its keys have. -/
theorem toTree_of_mirrors {n : Node} {j : Json.Value} (h : Mirrors n j) :
    n.toTree anchored depth = .ok j.toTree := by
  induction h with
  | null | int | float | text => simp [toTree, scalarTree, Json.Value.toTree]
  | yes h => simp [toTree, scalarTree, Json.Value.toTree, h]
  | @no _ value h =>
    have hnot : value ∉ trueWords := by
      intro htrue
      revert value
      decide
    simp [toTree, scalarTree, Json.Value.toTree, h, hnot]
  | list hlength _ ih =>
    rw [toTree, toTrees_of_zip anchored depth hlength ih, ok_bind, Json.Value.toTree]
    rfl
  | @mapping _ fields values hscalar hkeys _ ih =>
    have hwanted : ∀ f ∈ fields, ∃ key t, f.1.IsKey key
        ∧ (Json.lastValue? key values).map Json.Value.toTree = some t
        ∧ f.2.toTree anchored depth = .ok t := by
      intro f hf
      obtain ⟨key, hkey⟩ := hscalar f hf
      obtain ⟨v, hv⟩ := (hkeys key).1 ⟨f, hf, hkey⟩
      exact ⟨key, v.toTree, hkey, by rw [hv, Option.map_some], ih f hf key v hkey hv⟩
    obtain ⟨out, hout, hascending, hin, hnot⟩ :=
      toFields_of_wanted anchored depth _ hwanted List.Pairwise.nil
    have heq : out = Json.Value.toFields [] values := by
      refine hascending.eq_of_lookup (Json.Value.ascending_toFields .nil values) fun key => ?_
      rw [Json.Value.lookup_toFields, List.lookup_nil, Option.or_none]
      by_cases hkey : ∃ f ∈ fields, f.1.IsKey key
      · exact hin key hkey
      · rw [hnot key hkey, List.lookup_nil]
        rw [hkeys, not_exists] at hkey
        rw [Option.eq_none_iff_forall_ne_some.2 hkey, Option.map_none]
    rw [toTree, hout, ok_bind, heq, Json.Value.toTree]
    rfl

section Repeated

/-- Whether both nodes are scalars with the same text. -/
def sameKey : Node → Node → Bool
  | scalar _ _ key, scalar _ _ key' => key == key'
  | _, _ => false

/-- The fields that no later field of the same key follows. -/
def lastFields : List (Node × Node) → List (Node × Node)
  | [] => []
  | f :: rest => if rest.any (sameKey f.1 ·.1) then lastFields rest else f :: lastFields rest

/-- The fields whose values are replaced by later ones. -/
def replacedFields : List (Node × Node) → List (Node × Node)
  | [] => []
  | f :: rest =>
    if rest.any (sameKey f.1 ·.1) then f :: replacedFields rest else replacedFields rest

theorem exists_isKey_of_sameKey {n n' : Node} (h : sameKey n n' = true) :
    ∃ key, n.IsKey key ∧ n'.IsKey key := by
  cases n <;> cases n' <;> simp only [sameKey, Bool.false_eq_true, beq_iff_eq] at h
  subst h
  exact ⟨_, ⟨_, _, rfl⟩, _, _, rfl⟩

/-- A value that was read is of no account if its key comes again: whether the later value is read
or something before it is at fault, the outcome is the same. -/
theorem toFields_put_of_repeated {fields : List (Node × Node)} {key : Text}
    (h : ∃ f ∈ fields, f.1.IsKey key) {read : List (Text × Tree)} (hread : Tree.Ascending read)
    (t : Tree) :
    toFields anchored depth (Tree.put read key t) fields = toFields anchored depth read fields := by
  induction fields generalizing read with
  | nil => simp at h
  | cons f fields ih =>
    obtain ⟨k, v⟩ := f
    rw [toFields, toFields]
    rcases hk : k.key? with e | key'
    · rfl
    rw [ok_bind, ok_bind]
    rcases v.toTree anchored depth with e | u
    · rfl
    rw [ok_bind, ok_bind]
    by_cases heq : key = key'
    · rw [heq, hread.put_put]
    · have hlater : ∃ f ∈ fields, f.1.IsKey key := by
        obtain ⟨g, hg, hgk⟩ := h
        rcases List.mem_cons.1 hg with rfl | hg
        · rw [key?_of_isKey hgk, Except.ok.injEq] at hk
          exact absurd hk heq
        · exact ⟨g, hg, hgk⟩
      rw [hread.put_comm heq, ih hlater (hread.put key' u)]

/-- Values that a later one replaces can be left out, if they can be read. -/
theorem toFields_lastFields {fields : List (Node × Node)}
    (h : ∀ f ∈ replacedFields fields, ∃ t, f.2.toTree anchored depth = .ok t)
    {read : List (Text × Tree)} (hread : Tree.Ascending read) :
    toFields anchored depth read (lastFields fields) = toFields anchored depth read fields := by
  induction fields generalizing read with
  | nil => rfl
  | cons f fields ih =>
    obtain ⟨k, v⟩ := f
    unfold lastFields
    unfold replacedFields at h
    split_ifs at h ⊢ with hrepeated
    · obtain ⟨⟨t, ht⟩, hfields⟩ := List.forall_mem_cons.1 h
      obtain ⟨g, hg, hsame⟩ := List.any_eq_true.1 hrepeated
      obtain ⟨key, hkey, hgkey⟩ := exists_isKey_of_sameKey hsame
      rw [ih hfields hread, toFields, key?_of_isKey hkey, ok_bind, ht, ok_bind,
        toFields_put_of_repeated anchored depth ⟨g, hg, hgkey⟩ hread]
    · rw [toFields, toFields]
      rcases k.key? with e | key
      · rfl
      rcases v.toTree anchored depth with e | t
      · rfl
      rw [ok_bind, ok_bind, ok_bind, ok_bind, ih h (hread.put key t)]

end Repeated

end Yaml.Node

/-- A document in one format and a document in the other that mirrors it are read as the same tree,
and so as the same suite or with the same error.  A mapping in which keys are repeated is read as
the mapping with only the last value of every key, provided that the values which these replace can
be read at all. -/
theorem formats_agree :
    (∀ (j : Json.Value) (d : Yaml.Document), d.root.Mirrors j →
      d.toTree = .ok j.toTree
      ∧ ∀ t u, t.isBlank = false → Json.read? t = some j → Yaml.document? u = some (some d) →
        Suite.read .json t = Suite.read .yaml u)
    ∧ ∀ anchored depth line fields,
      (∀ f ∈ Yaml.Node.replacedFields fields, ∃ t, f.2.toTree anchored depth = .ok t) →
        (Yaml.Node.mapping line fields).toTree anchored depth
          = (Yaml.Node.mapping line (Yaml.Node.lastFields fields)).toTree anchored depth := by
  refine ⟨fun j d hmirrors => ?_, fun anchored depth line fields h => ?_⟩
  · have htree : d.toTree = .ok j.toTree := Yaml.Node.toTree_of_mirrors _ _ hmirrors
    refine ⟨htree, fun t u hblank hj hd => ?_⟩
    simp [Suite.read, Format.readTree, hblank, hj, hd, htree]
  · rw [Yaml.Node.toTree, Yaml.Node.toTree,
      Yaml.Node.toFields_lastFields anchored depth h List.Pairwise.nil]

/-- A value with two keys. -/
def twoKeys : Json.Value :=
  .mapping [(text "a", .null), (text "b", .list [.bool true, .number (text "1.50")])]

/-- A document that says the same, with the keys in the other order. -/
def twoKeysTurned : Yaml.Document :=
  ⟨.mapping 1 [(.scalar 1 .text (text "b"), .sequence 1 [.scalar 1 .bool (text "True"),
      .scalar 1 .float (text "1.50")]),
    (.scalar 2 .text (text "a"), .scalar 2 .null (text "~"))], []⟩

theorem mirrors_twoKeys : twoKeysTurned.root.Mirrors twoKeys := by
  have hne : text "a" ≠ text "b" := by decide
  refine .mapping ?_ (fun key => ?_) ?_
  · simp [Yaml.Node.IsKey]
  · by_cases ha : text "a" = key <;> by_cases hb : text "b" = key <;>
      simp [Yaml.Node.IsKey, Json.lastValue?, ha, hb]
  · rintro f hf key v ⟨line, tag, hkey⟩ hv
    simp only [List.mem_cons, List.not_mem_nil, or_false] at hf
    rcases hf with rfl | rfl <;> cases hkey <;>
      simp only [Json.lastValue?, hne, hne.symm, if_true, if_false, Option.none_or, Option.or_none,
        Option.some.injEq] at hv <;> subst hv
    · refine .list rfl (List.forall_mem_cons.2 ⟨.yes (by decide), ?_⟩)
      exact List.forall_mem_singleton.2 .float
    · exact .null

/-- Whether a stream has been read as an empty list on its first line. -/
def isEmptyList : Option (Option Yaml.Document) → Bool
  | some (some ⟨.sequence 1 [], []⟩) => true
  | _ => false

theorem eq_of_isEmptyList {found : Option (Option Yaml.Document)} (h : isEmptyList found = true) :
    found = some (some ⟨.sequence 1 [], []⟩) := by
  unfold isEmptyList at h
  split at h
  · rfl
  · cases h

/-- The empty list reads alike as a text of either format, and the first of two values of a key is
left out. -/
theorem formats_agree_twoKeys :
    twoKeysTurned.toTree = .ok twoKeys.toTree
    ∧ Suite.read .json (text "[]") = Suite.read .yaml (text "[]")
    ∧ (Yaml.Node.mapping 1 [(.scalar 1 .text (text "a"), .scalar 1 .int (text "1")),
          (.scalar 2 .text (text "a"), .scalar 2 .int (text "2"))]).toTree [] 0
        = (Yaml.Node.mapping 1 [(.scalar 2 .text (text "a"), .scalar 2 .int (text "2"))]).toTree
          [] 0 := by
  refine ⟨(formats_agree.1 _ _ mirrors_twoKeys).1, ?_, ?_⟩
  · exact (formats_agree.1 (.list []) ⟨.sequence 1 [], []⟩ (.list rfl (by simp))).2 _ _
      (by decide) rfl (eq_of_isEmptyList (by decide +kernel))
  · refine formats_agree.2 [] 0 1 _ ?_
    intro f hf
    rw [List.mem_singleton.1 hf]
    exact ⟨.number (text "1"), by rw [Yaml.Node.toTree, Yaml.Node.scalarTree]⟩

end SuiteScribe
