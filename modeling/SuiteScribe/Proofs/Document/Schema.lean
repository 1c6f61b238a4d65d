import SuiteScribe.Document.Decode
import SuiteScribe.Proofs.Document.Path
import SuiteScribe.Proofs.FirstFault
import SuiteScribe.Proofs.Number.Real

/-!
# The schema of a document

Every part of a document that is looked at has a role: the root is the suite, what its key `tests`
holds is the list of tests, and so on down to the texts and numbers in the nodes.  `Role.parts` says
which parts a value in a role has, in the order in which they are looked at, and `Role.Refuses` what
a value in a role cannot be.  A defect of a document is a value that its role refuses
(`Tree.DefectAt`).

Nothing here reads a document.  That a defect is where its path says follows from the schema alone
(`at?_of_leads`).
-/

namespace SuiteScribe

/-- What a part of a document stands for. -/
inductive Role where
  | suite
  | tests
  | test
  | text
  | kind
  | moduleName
  | numeral
  | integer
  | nodes
  | node
  | part (required : Bool)
deriving DecidableEq

/-- A part of a value: the step to it, what it stands for, and what is there. -/
structure Part where
  step : PathStep
  role : Role
  value : Tree

/-- The keys that a node of the kind has besides `kind`. -/
def Kind.fields : Kind → List (String × Role)
  | importOf => [("module", .moduleName)]
  | assignment => [("lhs", .part true), ("rhs", .part true)]
  | assertion => [("lhs", .part true), ("rhs", .part true)]
  | call => [("receiver", .part true), ("args", .nodes)]
  | member => [("instance", .part true), ("attribute", .part true)]
  | sequence => [("elements", .nodes)]
  | ifPyd => [("body", .nodes)]
  | ifPynih => [("body", .nodes)]
  | shouldThrow => [("exception", .part false), ("body", .nodes)]
  | number => [("value", .numeral)]
  | string => [("value", .text)]
  | bytes => [("value", .text)]
  | int => [("value", .integer)]
  | str => [("value", .text)]

/-- The kind that a mapping names. -/
def Tree.kindOf? (fields : List (Text × Tree)) : Option Kind :=
  match get fields (text "kind") with
  | string name => Kind.ofName? name
  | _ => none

namespace Part

/-- The parts of a mapping under some of its keys. -/
def ofFields (fields : List (Text × Tree)) (keys : List (String × Role)) : List Part :=
  keys.map fun k => ⟨.field (text k.1), k.2, Tree.get fields (text k.1)⟩

/-- The parts of a list, counted from `i`. -/
def ofItems (role : Role) (i : Nat) (items : List Tree) : List Part :=
  (items.zipIdx i).map fun item => ⟨.item item.2, role, item.1⟩

end Part

namespace Role

/-- The parts of a value in a role, first what is looked at first. -/
def parts : Role → Tree → List Part
  | suite, .mapping fields => Part.ofFields fields [("tests", tests)]
  | tests, .list items => Part.ofItems test 0 items
  | test, .mapping fields => Part.ofFields fields [("name", text), ("statements", nodes)]
  | nodes, .list items => Part.ofItems node 0 items
  | node, .mapping fields =>
    Part.ofFields fields (("kind", kind) :: ((Tree.kindOf? fields).map Kind.fields).getD [])
  | part _, .mapping fields =>
    Part.ofFields fields (("kind", kind) :: ((Tree.kindOf? fields).map Kind.fields).getD [])
  | _, _ => []

/-- The shape of the values in a role. -/
def shape : Role → Shape
  | suite | test => .mapping
  | tests | nodes => .list
  | text | kind | moduleName => .string
  | numeral => .number
  | integer => .integer
  | node | part _ => .node

/-- Whether null counts as nothing there, where something has to be. -/
def isRequired : Role → Bool
  | tests | text | kind | moduleName | part true => true
  | _ => false

/-- Whether null counts as nothing there, where nothing has to be. -/
def isOptional : Role → Bool
  | nodes | part false => true
  | _ => false

end Role

/-- Whether the form of a value allows it where the shape is wanted.  Where a number is wanted, a
string may be a numeral. -/
def Shape.admits : Shape → Tree → Bool
  | mapping, .mapping _ => true
  | list, .list _ => true
  | string, .string _ => true
  | number, .number _ => true
  | number, .string _ => true
  | integer, .number _ => true
  | node, .string _ => true
  | node, .number _ => true
  | node, .mapping _ => true
  | _, _ => false

/-- The value cannot stand in the role, for that fault. -/
inductive Role.Refuses : Role → Tree → Fault → Prop
  | missing {r : Role} (h : r.isRequired = true) : Refuses r .null .missing
  | wanted {r : Role} {t : Tree} (h : r.shape.admits t = false)
    (hnull : t = .null → r.isRequired = false ∧ r.isOptional = false) :
    Refuses r t (.wanted r.shape t)
  | unknownKind {name : Text} (h : ∀ k : Kind, k.name ≠ name) :
    Refuses .kind (.string name) (.unknownKind name)
  | emptyModule : Refuses .moduleName (.string []) .emptyModule
  | notNumber {value : Text} (h : ¬ Real.IsNumber value) :
    Refuses .numeral (.string value) (.notNumber value)
  | notInteger {value : Text} (h : ∀ i, ¬ Integer.Spells value i)
    (hstart : ¬ Integer.StartsHuge value) :
    Refuses .integer (.number value) (.notInteger value .malformed)
  | outOfRange {value : Text}
    (h : (∃ i, Integer.Spells value i ∧ ¬ Integer.InRange i) ∨ Integer.StartsHuge value) :
    Refuses .integer (.number value) (.notInteger value .outOfRange)

/-- From the value in the role, the numbers of the parts and the steps of the path lead to the value
in the role. -/
inductive Role.Leads : Role → Tree → Address → Path → Role → Tree → Prop
  | here {r : Role} {t : Tree} : Leads r t [] [] r t
  | inPart {r r' : Role} {t v : Tree} {i : Nat} {p : Part} {a : Address} {path : Path}
    (hp : (r.parts t)[i]? = some p) (h : Leads p.role p.value a path r' v) :
    Leads r t (i :: a) (p.step :: path) r' v

/-- Somewhere in the document a role refuses a value, with that error and at that address. -/
def Tree.DefectAt (t : Tree) (a : Address) (e : DecodeError) : Prop :=
  ∃ r v, Role.Leads .suite t a e.path r v ∧ r.Refuses v e.fault

section Place

namespace Part

theorem at?_of_mem_ofFields {fields : List (Text × Tree)} {keys : List (String × Role)} {p : Part}
    (hp : p ∈ ofFields fields keys) (path : Path) :
    (Tree.mapping fields).at? (p.step :: path) = p.value.at? path := by
  obtain ⟨k, -, rfl⟩ := List.mem_map.1 hp
  rfl

theorem at?_of_mem_ofItems {role : Role} {items : List Tree} {p : Part}
    (hp : p ∈ ofItems role 0 items) (path : Path) :
    (Tree.list items).at? (p.step :: path) = p.value.at? path := by
  obtain ⟨⟨t, i⟩, ht, rfl⟩ := List.mem_map.1 hp
  rw [List.mem_zipIdx_iff_getElem?] at ht
  simp [Tree.at?, ht]

theorem sizeOf_lt_of_mem_ofFields {fields : List (Text × Tree)} {keys : List (String × Role)}
    {p : Part} (hp : p ∈ ofFields fields keys) :
    sizeOf p.value < sizeOf (Tree.mapping fields) := by
  obtain ⟨k, -, rfl⟩ := List.mem_map.1 hp
  exact Tree.sizeOf_get_lt fields _

theorem sizeOf_lt_of_mem_ofItems {role : Role} {items : List Tree} {p : Part}
    (hp : p ∈ ofItems role 0 items) : sizeOf p.value < sizeOf (Tree.list items) := by
  obtain ⟨⟨t, i⟩, ht, rfl⟩ := List.mem_map.1 hp
  rw [List.mem_zipIdx_iff_getElem?] at ht
  have hlt : sizeOf t < sizeOf items := List.sizeOf_lt_of_mem (List.mem_of_getElem? ht)
  simp only [Tree.list.sizeOf_spec]
  omega

end Part

namespace Role

/-- What the keys of the schema have in common: each is a plain word, and none leads to another
suite. -/
def IsKey (k : String × Role) : Prop :=
  k.2 ≠ suite ∧ (PathStep.field (SuiteScribe.text k.1)).IsPlain

instance (k : String × Role) : Decidable (IsKey k) :=
  inferInstanceAs (Decidable (_ ∧ _))

theorem isKey_of_mem_node {kind? : Option Kind} :
    ∀ k ∈ ("kind", kind) :: (kind?.map Kind.fields).getD [], IsKey k := by
  rcases kind? with _ | k
  · decide
  · cases k <;> decide

/-- A value that has parts is a mapping, of which they are fields, or a list, of which they are
items. -/
theorem parts_cases {r : Role} {t : Tree} {p : Part} (hp : p ∈ r.parts t) :
    (∃ fields keys, t = .mapping fields ∧ r.parts t = Part.ofFields fields keys
      ∧ ∀ k ∈ keys, IsKey k)
    ∨ ∃ items role, t = .list items ∧ r.parts t = Part.ofItems role 0 items ∧ role ≠ suite := by
  cases r with
  | suite | test =>
    cases t with
    | mapping fields => exact .inl ⟨fields, _, rfl, rfl, by decide⟩
    | _ => cases hp
  | tests | nodes =>
    cases t with
    | list items => exact .inr ⟨items, _, rfl, rfl, by decide⟩
    | _ => cases hp
  | node | part =>
    cases t with
    | mapping fields => exact .inl ⟨fields, _, rfl, rfl, isKey_of_mem_node⟩
    | _ => cases hp
  | _ => cases hp

theorem at?_of_mem_parts {r : Role} {t : Tree} {p : Part} (hp : p ∈ r.parts t) (path : Path) :
    t.at? (p.step :: path) = p.value.at? path := by
  rcases parts_cases hp with ⟨fields, keys, rfl, heq, -⟩ | ⟨items, role, rfl, heq, -⟩ <;>
    rw [heq] at hp
  · exact Part.at?_of_mem_ofFields hp path
  · exact Part.at?_of_mem_ofItems hp path

/-- A part is smaller than the value that it is a part of. -/
theorem sizeOf_lt_of_mem_parts {r : Role} {t : Tree} {p : Part} (hp : p ∈ r.parts t) :
    sizeOf p.value < sizeOf t := by
  rcases parts_cases hp with ⟨fields, keys, rfl, heq, -⟩ | ⟨items, role, rfl, heq, -⟩ <;>
    rw [heq] at hp
  · exact Part.sizeOf_lt_of_mem_ofFields hp
  · exact Part.sizeOf_lt_of_mem_ofItems hp

theorem ne_suite_and_isPlain_of_mem_parts {r : Role} {t : Tree} {p : Part} (hp : p ∈ r.parts t) :
    p.role ≠ suite ∧ p.step.IsPlain := by
  rcases parts_cases hp with ⟨fields, keys, -, heq, hkeys⟩ | ⟨items, role, -, heq, hrole⟩ <;>
    rw [heq] at hp
  · obtain ⟨k, hk, rfl⟩ := List.mem_map.1 hp
    exact hkeys k hk
  · obtain ⟨item, -, rfl⟩ := List.mem_map.1 hp
    exact ⟨hrole, trivial⟩

/-- The keys on a way through the schema are plain words. -/
theorem isPlain_of_leads {r r' : Role} {t v : Tree} {a : Address} {path : Path}
    (h : Leads r t a path r' v) : ∀ s ∈ path, s.IsPlain := by
  induction h with
  | here => simp
  | inPart hp _ ih =>
    refine List.forall_mem_cons.2 ⟨?_, ih⟩
    exact (ne_suite_and_isPlain_of_mem_parts (List.mem_of_getElem? hp)).2

/-- A way through the schema leads to what is at its path. -/
theorem at?_of_leads {r r' : Role} {t v : Tree} {a : Address} {path : Path}
    (h : Leads r t a path r' v) : t.at? path = some v := by
  induction h with
  | here => rfl
  | inPart hp _ ih => rw [at?_of_mem_parts (List.mem_of_getElem? hp), ih]

end Role

end Place

end SuiteScribe
