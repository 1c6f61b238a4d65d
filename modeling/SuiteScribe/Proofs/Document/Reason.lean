import SuiteScribe.Proofs.Document.Schema
import SuiteScribe.Proofs.Text.Ascending

/-!
# What the reason of a refusal says

The error of a document is a path and a reason in words.  `Tree.BearsOut` says of which values the
words of each reason are true, apart from how a value is read: `want X, got D` of a value that D
describes and that is no X, `is not a number` of a string that is no numeral, and so on.

Two reasons are also given where they are not true (`Tree.Belies`).  The digits of a whole number
are counted before what stands behind them is seen, so a text that spells no whole number can be
called out of range; and a numeral is called no number if a 64-bit float cannot hold its value.
Every other value bears out the reason that it is refused with (`bearsOut_iff_of_refuses`).
-/

namespace SuiteScribe

/-- What a role wants, in words. -/
def Role.wants : Role → Text
  | suite | test => SuiteScribe.text "a mapping"
  | tests | nodes => SuiteScribe.text "a list"
  | text | kind | moduleName => SuiteScribe.text "a string"
  | numeral => SuiteScribe.text "a number"
  | integer => SuiteScribe.text "an integer"
  | node | part _ => SuiteScribe.text "a node"

theorem Role.label_shape (r : Role) : r.shape.label = r.wants := by
  cases r <;> rfl

theorem Fault.message_notInteger (value : Text) (fault : Integer.Fault) :
    (notInteger value fault).message
      = text "strconv.ParseInt: parsing " ++ value.quote ++ (text ": " ++ fault.message) :=
  List.append_assoc _ _ _

theorem Kind.mem_map_name_iff {other : Text} :
    other ∈ all.map name ↔ ∃ k : Kind, k.name = other := by
  rw [List.mem_map]
  exact exists_congr fun k => and_iff_right (by cases k <;> decide)

namespace Tree

/-- The words that describe a value. -/
inductive Described : Tree → Text → Prop
  | null : Described .null (text "null")
  | bool {value : Bool} : Described (.bool value) (text "a boolean")
  | number {value : Text} : Described (.number value) (text "a number")
  | string {value : Text} : Described (.string value) (text "a string")
  | list {items : List Tree} : Described (.list items) (text "a list")
  | mapping {fields : List (Text × Tree)} : Described (.mapping fields) (text "a mapping")

/-- The value is what the words say: what describes it, a whole number, or something that a node can
be written as. -/
inductive IsA : Tree → Text → Prop
  | described {v : Tree} {words : Text} (h : v.Described words) : IsA v words
  | integer {value : Text} {i : Int} (h : Integer.Spells value i) :
    IsA (.number value) (text "an integer")
  | stringNode {value : Text} : IsA (.string value) (text "a node")
  | numberNode {value : Text} : IsA (.number value) (text "a node")
  | mappingNode {fields : List (Text × Tree)} : IsA (.mapping fields) (text "a node")

/-- The words of the reason are true of the value in the role. -/
inductive BearsOut : Tree → Role → Text → Prop
  | missing {r : Role} (h : r.isRequired = true) : BearsOut .null r (text "missing")
  | wanted {v : Tree} {r : Role} {got : Text} (hgot : v.Described got) (hnot : ¬ v.IsA r.wants) :
    BearsOut v r (text "want " ++ r.wants ++ text ", got " ++ got)
  | unknownKind {name : Text} {known : List Text} (h : ∀ k : Kind, k.name ≠ name)
    (hknown : ∀ other, other ∈ known ↔ ∃ k : Kind, k.name = other)
    (hordered : known.Pairwise (· < ·)) :
    BearsOut (.string name) .kind (text "unknown node kind " ++ name.quote
      ++ text " (known: " ++ (text "[" ++ (text " ").intercalate known ++ text "]") ++ text ")")
  | emptyModule : BearsOut (.string []) .moduleName (text "empty module name")
  | notNumber {value : Text} (hname : ¬ Real.IsName value) (h : ∀ q, ¬ Real.Denotes value q) :
    BearsOut (.string value) .numeral (value.quote ++ text " is not a number")
  | notInteger {value : Text} (h : ∀ i, ¬ Integer.Spells value i) :
    BearsOut (.number value) .integer
      (text "strconv.ParseInt: parsing " ++ value.quote ++ text ": invalid syntax")
  | outOfRange {value : Text} {i : Int} (h : Integer.Spells value i) (hi : ¬ Integer.InRange i) :
    BearsOut (.number value) .integer
      (text "strconv.ParseInt: parsing " ++ value.quote ++ text ": value out of range")

/-- The value is refused with words that are not true of it. -/
inductive Belies : Tree → Role → Text → Prop
  | outOfRange {value : Text} (hstart : Integer.StartsHuge value)
    (h : ∀ i, ¬ Integer.Spells value i) :
    Belies (.number value) .integer
      (text "strconv.ParseInt: parsing " ++ value.quote ++ text ": value out of range")
  | notNumber {value : Text} {q : ℚ} (h : Real.Denotes value q) (hq : Real.limit ≤ q) :
    Belies (.string value) .numeral (value.quote ++ text " is not a number")

theorem described_describe (v : Tree) : v.Described v.describe := by
  cases v <;> constructor

/-- Only a value of its form is called by the name of a shape. -/
theorem admits_of_isA_label {shape : Shape} {v : Tree} (h : v.IsA shape.label) :
    shape.admits v = true := by
  generalize hwords : shape.label = words at h
  -- A value of another form is not called by the name of the shape.
  cases h with
  | described h => cases h <;> cases shape <;> first | rfl | exact absurd hwords (by decide)
  | _ => cases shape <;> first | rfl | exact absurd hwords (by decide)

/-- No reason that is true of a value is false of it. -/
theorem BearsOut.not_belies {v : Tree} {r : Role} {reason : Text} (h : v.BearsOut r reason) :
    ¬ v.Belies r reason := by
  intro hm
  cases hm with
  | @outOfRange value _ hnot =>
    generalize hreason : _ ++ text ": value out of range" = reason at h
    cases h with
    | wanted => cases hreason
    | notInteger => exact absurd (List.append_cancel_left hreason) (by decide)
    | outOfRange h _ => exact hnot _ h
  | @notNumber value q hq _ =>
    generalize hreason : value.quote ++ text " is not a number" = reason at h
    cases h with
    | wanted => cases hreason
    | notNumber _ h => exact h q hq

/-- A value bears out the reason that it is refused with, or it belies it. -/
theorem bearsOut_iff_of_refuses {r : Role} {v : Tree} {f : Fault} (h : r.Refuses v f) :
    v.BearsOut r f.message ↔ ¬ v.Belies r f.message := by
  refine ⟨BearsOut.not_belies, fun hm => ?_⟩
  cases h with
  | missing h => exact .missing h
  | wanted h _ =>
    rw [Fault.message, Role.label_shape]
    refine .wanted (described_describe v) fun hv => ?_
    rw [← Role.label_shape] at hv
    exact Bool.eq_false_iff.1 h (admits_of_isA_label hv)
  | unknownKind h =>
    refine .unknownKind h (fun other => ?_) (Text.pairwise_ascending _)
    rw [Text.mem_ascending, Kind.mem_map_name_iff]
  | emptyModule => exact .emptyModule
  | notNumber h =>
    refine .notNumber (fun hname => h (.inl hname)) fun q hq => ?_
    by_cases hlimit : q < Real.limit
    · exact h (.inr ⟨q, hq, hlimit⟩)
    · exact hm (.notNumber hq (not_lt.1 hlimit))
  | notInteger h _ =>
    rw [Fault.message_notInteger]
    exact .notInteger h
  | @outOfRange value h =>
    rw [Fault.message_notInteger] at hm ⊢
    obtain ⟨i, hi⟩ : ∃ i, Integer.Spells value i := by
      by_contra hnot
      rw [not_exists] at hnot
      rcases h with ⟨i, hi, -⟩ | hstart
      · exact hnot i hi
      · exact hm (.outOfRange hstart hnot)
    refine .outOfRange hi fun hrange => ?_
    cases (Integer.read_eq_outOfRange_iff.2 h).symm.trans (Integer.read_eq_ok_iff.2 ⟨hi, hrange⟩)

end Tree

end SuiteScribe
