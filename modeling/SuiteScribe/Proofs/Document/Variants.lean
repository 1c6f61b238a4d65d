import SuiteScribe.Proofs.Document.Rebuild
import SuiteScribe.Proofs.Document.RoundTrip

/-!
# Documents that say the same

A bare string or number is short for a node: with any of them spelled out, a document reads as
before (`toSuite_spellOut`).  A key that holds null, or that nothing looks at, is as good as one
that is not there: with all of them taken out, at every depth, a document reads as before
(`toSuite_pruned`).  Both hold of documents with defects too, which stay the same.

Either way the document is rebuilt by edits of single values, of which it is enough to know that
each reads as the value did.
-/

namespace SuiteScribe

/-- The text is the numeral of a whole number that 64 bits hold. -/
def Integer.IsHeld (t : Text) : Prop :=
  ∃ i, Spells t i ∧ InRange i

theorem Integer.isHeld_iff {t : Text} : IsHeld t ↔ ∃ i, read t = .ok i :=
  exists_congr fun _ => read_eq_ok_iff.symm

instance (t : Text) : Decidable (Integer.IsHeld t) :=
  match h : Integer.read t with
  | .ok i => .isTrue (Integer.isHeld_iff.2 ⟨i, h⟩)
  | .error _ => .isFalse fun hi => by
    obtain ⟨i, hi⟩ := Integer.isHeld_iff.1 hi
    rw [h] at hi
    cases hi

namespace Role

theorem parts_mapping (r : Role) (fields : List (Text × Tree)) :
    r.parts (.mapping fields) = Part.ofFields fields ((r.keys? fields).getD []) := by
  cases r <;> rfl

theorem parts_list (r : Role) (items : List Tree) :
    r.parts (.list items) = ((r.itemRole?.map fun item => Part.ofItems item 0 items).getD []) := by
  cases r <;> rfl

/-- Whether a node stands in the role. -/
def isNode : Role → Bool
  | node | part _ => true
  | _ => false

end Role

section SpellOut

namespace Tree

def isBare : Tree → Bool
  | string _ | number _ => true
  | _ => false

/-- What a bare string or number is short for. -/
def spelledOut : Tree → Tree
  | string value => tagged .str [(text "value", string value)]
  | number value =>
    if Integer.IsHeld value then tagged .int [(text "value", number value)]
    else tagged .number [(text "value", number value)]
  | t => t

/-- A bare string or number reads as the node that spells it out. -/
theorem toNode_spelledOut (path : Path) (t : Tree) : toNode path t.spelledOut = toNode path t := by
  cases t with
  | string value => simp [spelledOut, tagged, toNode, toText]
  | number value =>
    rw [spelledOut]
    split_ifs with h
    · obtain ⟨i, hi⟩ := Integer.isHeld_iff.1 h
      simp [tagged, toNode, toText, toInteger, numberNode, hi]
    · rcases hread : Integer.read value with fault | i
      · simp [tagged, toNode, toText, toNumeral, numberNode, hread]
      · exact absurd (Integer.isHeld_iff.2 ⟨i, hread⟩) h
  | _ => rfl

end Tree

namespace Role

/-- Spells out the value at one of the places, if it is a bare node. -/
def spellOutAt (places : Path → Bool) (path : Path) (r : Role) (t : Tree) : Tree :=
  if r.isNode && places path then t.spelledOut else t

variable (places : Path → Bool)

theorem spellOutAt_of_not_isBare (path : Path) (r : Role) {t : Tree} (h : t.isBare = false) :
    spellOutAt places path r t = t := by
  have hself : t.spelledOut = t := by
    cases t with
    | string | number => cases h
    | _ => rfl
  rw [spellOutAt, hself, ite_self]

theorem alike_spellOutAt (path : Path) (r : Role) (t : Tree) :
    r.Alike (spellOutAt places path r t) t := by
  unfold spellOutAt
  split_ifs with h
  · cases r with
    | node => exact fun path => Tree.toNode_spelledOut path t
    | part required =>
      intro path
      by_cases ht : t = .null
      · rw [ht]
        rfl
      · have hne : t.spelledOut ≠ .null := by
          cases t with
          | null => exact absurd rfl ht
          | number value =>
            rw [Tree.spelledOut]
            split_ifs <;> simp [Tree.tagged]
          | _ => simp [Tree.spelledOut, Tree.tagged]
        rw [Tree.toPart, Tree.toPart, Tree.toNode_spelledOut]
        · exact ht
        · exact hne
    | _ => cases h
  · exact alike_refl r t

/-- A path through the document goes through what was rebuilt as well. -/
theorem at?_rebuild_of_leads {r r' : Role} {t v : Tree} {a : Address} {p : Path}
    (h : Leads r t a p r' v) (hv : v.isBare = true) (path : Path) :
    (rebuild (spellOutAt places) path r t).at? p = some (spellOutAt places (path ++ p) r' v) := by
  have hnull : ∀ path r, spellOutAt places path r .null = .null := fun path r =>
    spellOutAt_of_not_isBare places path r rfl
  induction h generalizing path with
  | @here r t =>
    rw [List.append_nil]
    cases t with
    | string | number => rfl
    | _ => cases hv
  | @inPart r r' t v i p a steps hp _ ih =>
    have hmem := List.mem_of_getElem? hp
    cases t with
    | mapping fields =>
      rw [parts_mapping] at hmem
      obtain ⟨k, hk, rfl⟩ := List.mem_map.1 hmem
      rcases hkeys : r.keys? fields with _ | keys <;> rw [hkeys] at hk
      · cases hk
      · have hkey := ofKey?_of_mem hkeys k hk
        rw [rebuild_mapping path hkeys, spellOutAt_of_not_isBare places path r rfl,
          Tree.at?, get_rebuildFields hnull path hkey, ih hv, List.append_assoc,
          List.singleton_append]
    | list items =>
      rw [parts_list] at hmem
      rcases hitem : r.itemRole? with _ | item <;> rw [hitem] at hmem
      · cases hmem
      · obtain ⟨⟨u, j⟩, hj, rfl⟩ := List.mem_map.1 hmem
        rw [List.mem_zipIdx_iff_getElem?] at hj
        have hu : (rebuildItems (spellOutAt places) path item 0 items)[j]?
            = some (rebuild (spellOutAt places) (path.item j) item u) := by
          rw [getElem?_rebuildItems, hj, Nat.zero_add]
          rfl
        rw [rebuild_list path hitem, spellOutAt_of_not_isBare places path r rfl, Tree.at?, hu,
          Option.bind_some, ih hv, Path.item, List.append_assoc, List.singleton_append]
    | _ => cases r <;> cases hmem

end Role

namespace Tree

/-- The document with the bare nodes at some of its places spelled out. -/
def spellOut (places : Path → Bool) (t : Tree) : Tree :=
  Role.rebuild (Role.spellOutAt places) [] .suite t

/-- With the bare strings and numbers spelled out at any set of places where nodes stand, a document
reads as it did, be it as a suite or as an error. -/
theorem toSuite_spellOut (places : Path → Bool) (t : Tree) :
    (t.spellOut places).toSuite = t.toSuite
    ∧ ∀ a path r v, Role.Leads .suite t a path r v → r.isNode = true → v.isBare = true →
        (t.spellOut places).at? path = some (if places path then v.spelledOut else v) := by
  have hnull : ∀ path r, Role.spellOutAt places path r .null = .null := fun path r =>
    Role.spellOutAt_of_not_isBare places path r rfl
  refine ⟨Role.alike_rebuild hnull (Role.alike_spellOutAt places) [] .suite t, ?_⟩
  intro a path r v h hr hv
  rw [spellOut, Role.at?_rebuild_of_leads places h hv, Role.spellOutAt, hr]
  rfl

end Tree

end SpellOut

section Prune

namespace Tree

def isNull : Tree → Bool
  | null => true
  | _ => false

theorem get_filter (keep : Text → Bool) (fields : List (Text × Tree)) (key : Text) :
    get (fields.filter fun f => keep f.1) key = if keep key then get fields key else null := by
  induction fields with
  | nil => simp [get]
  | cons field rest ih =>
    obtain ⟨k, v⟩ := field
    by_cases hk : k = key
    · subst hk
      by_cases hkeep : keep k = true
      · simp [hkeep]
      · simp [hkeep, ih]
    · by_cases hkeep : keep k = true
      · simp [hkeep, hk, ih]
      · simp [hkeep, hk, ih]

end Tree

namespace Role

/-- Whether a key is looked at in the mapping and holds something. -/
def counts (keys : List (String × Role)) (fields : List (Text × Tree)) (key : Text) : Bool :=
  (ofKey? keys key).isSome && !(Tree.get fields key).isNull

theorem counts_iff {keys : List (String × Role)} {fields : List (Text × Tree)} {key : Text} :
    counts keys fields key = true
      ↔ (∃ k ∈ keys, SuiteScribe.text k.1 = key) ∧ Tree.get fields key ≠ .null := by
  have hkey : (ofKey? keys key).isSome = true ↔ ∃ k ∈ keys, SuiteScribe.text k.1 = key := by
    simp [ofKey?]
  have hnull : (!(Tree.get fields key).isNull) = true ↔ Tree.get fields key ≠ .null := by
    cases Tree.get fields key <;> simp [Tree.isNull]
  rw [counts, Bool.and_eq_true, hkey, hnull]

/-- Takes the keys out of a mapping that do not count in its role. -/
def strip (r : Role) (t : Tree) : Tree :=
  match t with
  | .mapping fields =>
    match r.keys? fields with
    | some keys => .mapping (fields.filter fun f => counts keys fields f.1)
    | none => .mapping fields
  | t => t

theorem get_strip {keys : List (String × Role)} (fields : List (Text × Tree)) {key : Text}
    (h : (ofKey? keys key).isSome = true) :
    Tree.get (fields.filter fun f => counts keys fields f.1) key = Tree.get fields key := by
  rw [Tree.get_filter, counts, h, Bool.true_and]
  cases Tree.get fields key <;> rfl

theorem strip_mapping {r : Role} {fields : List (Text × Tree)} {keys : List (String × Role)}
    (hkeys : r.keys? fields = some keys) :
    r.strip (.mapping fields) = .mapping (fields.filter fun f => counts keys fields f.1) := by
  rw [strip, hkeys]

theorem alike_strip (r : Role) (t : Tree) : r.Alike (r.strip t) t := by
  cases t with
  | mapping fields =>
    rw [strip]
    split
    · rename_i keys hkeys
      refine alike_mapping hkeys fun k hk => ?_
      rw [get_strip fields (by rw [ofKey?_of_mem hkeys k hk]; rfl)]
      exact alike_refl _ _
    · exact alike_refl _ _
  | _ => exact alike_refl _ _

/-- Only through its kind does a mapping have a say in which of its keys are looked at. -/
theorem keys?_of_get {r : Role} {fields fields' : List (Text × Tree)}
    {keys : List (String × Role)} (hkeys : r.keys? fields = some keys)
    (h : ∀ k ∈ keys, k.2 = kind →
      Tree.get fields' (SuiteScribe.text k.1) = Tree.get fields (SuiteScribe.text k.1)) :
    r.keys? fields' = some keys := by
  cases r with
  | suite | test => exact hkeys
  | node | part =>
    cases hkeys
    have hkind := h ("kind", kind) List.mem_cons_self rfl
    simp only [keys?, Tree.kindOf?, hkind]
  | _ => cases hkeys

/-- What becomes of a mapping: all its keys count, and those that did hold their own rest. -/
theorem exists_rebuild_strip (path : Path) {r : Role} {fields : List (Text × Tree)}
    {keys : List (String × Role)} (hkeys : r.keys? fields = some keys) :
    ∃ kept, rebuild (fun _ => strip) path r (.mapping fields) = .mapping kept
      ∧ r.keys? kept = some keys
      ∧ (∀ k ∈ keys, Tree.get kept (SuiteScribe.text k.1)
          = rebuild (fun _ => strip) (path ++ [.field (SuiteScribe.text k.1)]) k.2
              (Tree.get fields (SuiteScribe.text k.1)))
      ∧ ∀ f ∈ kept, counts keys kept f.1 = true := by
  have hget : ∀ k ∈ keys,
      Tree.get (rebuildFields (fun _ => strip) path keys fields) (SuiteScribe.text k.1)
        = rebuild (fun _ => strip) (path ++ [.field (SuiteScribe.text k.1)]) k.2
            (Tree.get fields (SuiteScribe.text k.1)) := fun k hk =>
    get_rebuildFields (fun _ _ => rfl) path (ofKey?_of_mem hkeys k hk) fields
  rw [rebuild_mapping path hkeys]
  generalize rebuildFields (fun _ => strip) path keys fields = rebuilt at hget
  have hrebuilt : r.keys? rebuilt = some keys := by
    refine keys?_of_get hkeys fun k hk hkind => ?_
    rw [hget k hk, hkind]
    cases Tree.get fields (SuiteScribe.text k.1) <;> rfl
  have hsome : ∀ k ∈ keys, (ofKey? keys (SuiteScribe.text k.1)).isSome = true := fun k hk => by
    rw [ofKey?_of_mem hkeys k hk]
    rfl
  refine ⟨_, strip_mapping hrebuilt, keys?_of_get hrebuilt fun k hk _ => get_strip _ (hsome k hk),
    fun k hk => (get_strip rebuilt (hsome k hk)).trans (hget k hk), fun f hf => ?_⟩
  have hcounts : counts keys rebuilt f.1 = true := (List.mem_filter.1 hf).2
  have hkey : (ofKey? keys f.1).isSome = true := Bool.and_elim_left hcounts
  rwa [counts, get_strip rebuilt hkey]

/-- The parts of a document that was pruned were pruned themselves. -/
theorem exists_of_mem_parts_rebuild {path : Path} {r : Role} {t : Tree} {p : Part}
    (hp : p ∈ r.parts (rebuild (fun _ => strip) path r t)) :
    ∃ path' u, p.value = rebuild (fun _ => strip) path' p.role u := by
  cases t with
  | mapping fields =>
    rcases hkeys : r.keys? fields with _ | keys
    · rw [rebuild, hkeys] at hp
      simp only [strip, hkeys, parts_mapping] at hp
      cases hp
    · obtain ⟨kept, heq, hkept, hget, -⟩ := exists_rebuild_strip path hkeys
      rw [heq, parts_mapping, hkept] at hp
      obtain ⟨k, hk, rfl⟩ := List.mem_map.1 hp
      exact ⟨_, _, hget k hk⟩
  | list items =>
    rcases hitem : r.itemRole? with _ | item
    · rw [rebuild, hitem] at hp
      simp only [strip, parts_list, hitem] at hp
      cases hp
    · rw [rebuild_list path hitem] at hp
      simp only [strip, parts_list, hitem] at hp
      obtain ⟨⟨u, j⟩, hj, rfl⟩ := List.mem_map.1 hp
      rw [List.mem_zipIdx_iff_getElem?, getElem?_rebuildItems] at hj
      obtain ⟨u', -, hu⟩ := Option.map_eq_some_iff.1 hj
      exact ⟨_, u', hu.symm⟩
  | _ => cases r <;> cases hp

theorem exists_of_leads_rebuild {path : Path} {r r' : Role} {t u v : Tree} {a : Address} {p : Path}
    (h : Leads r u a p r' v) (hu : u = rebuild (fun _ => strip) path r t) :
    ∃ path' t', v = rebuild (fun _ => strip) path' r' t' := by
  induction h generalizing path t with
  | here => exact ⟨path, t, hu⟩
  | inPart hp _ ih =>
    subst hu
    obtain ⟨path', u, hvalue⟩ := exists_of_mem_parts_rebuild (List.mem_of_getElem? hp)
    exact ih hvalue

theorem counts_of_rebuild {path : Path} {r : Role} {t : Tree} {fields : List (Text × Tree)}
    {keys : List (String × Role)} (h : .mapping fields = rebuild (fun _ => strip) path r t)
    (hkeys : r.keys? fields = some keys) : ∀ f ∈ fields, counts keys fields f.1 = true := by
  cases t with
  | mapping fields' =>
    rcases hkeys' : r.keys? fields' with _ | keys'
    · rw [rebuild, hkeys'] at h
      simp only [strip, hkeys', Tree.mapping.injEq] at h
      rw [h, hkeys'] at hkeys
      cases hkeys
    · obtain ⟨kept, heq, hkept, -, hcounts⟩ := exists_rebuild_strip path hkeys'
      obtain rfl := Tree.mapping.inj (h.trans heq)
      obtain rfl := Option.some.inj (hkept.symm.trans hkeys)
      exact hcounts
  | list items =>
    rw [rebuild] at h
    split at h <;> cases h
  | _ => cases h

end Role

namespace Tree

/-- The document without the keys that hold null and those that nothing looks at. -/
def pruned (t : Tree) : Tree :=
  Role.rebuild (fun _ => Role.strip) [] .suite t

/-- Without the keys that hold null and those that nothing looks at, a document reads as it did, be
it as a suite or as an error. -/
theorem toSuite_pruned (t : Tree) :
    t.pruned.toSuite = t.toSuite
    ∧ ∀ a path r fields keys, Role.Leads .suite t.pruned a path r (.mapping fields) →
        r.keys? fields = some keys →
        ∀ f ∈ fields, (∃ k ∈ keys, text k.1 = f.1) ∧ get fields f.1 ≠ null := by
  refine ⟨Role.alike_rebuild (fun _ _ => rfl) (fun _ => Role.alike_strip) [] .suite t, ?_⟩
  intro a path r fields keys h hkeys f hf
  obtain ⟨path', u, hu⟩ := Role.exists_of_leads_rebuild h rfl
  exact Role.counts_iff.1 (Role.counts_of_rebuild hu hkeys f hf)

end Tree

end Prune

end SuiteScribe
