import Mathlib.Data.List.Basic
import SuiteScribe.Command.Plan
import SuiteScribe.Proofs.FirstFault

/-!
# The items of a command line

The arguments of a command are items one after the other: words, flags that are named, and groups of
letters, of which the last may have a value.  An item tells how it is written (`Item.arguments`),
which flags it gives which values (`Item.settings`) and which words it adds (`Item.words`).

Arguments that items write are read item by item, and each gives its values in order
(`parseFrom_items`).  Arguments that no items write cannot be read (`exists_item_or_error`), so the
choices read from arguments are always those that items give (`exists_items_of_parseFrom`).
-/

namespace SuiteScribe

open Text (byte)

/-- What stands behind the switches in a group of letters. -/
inductive GroupEnd where
  | nothing
  /-- The mark of a test run; nothing behind it is looked at. -/
  | ignored (rest : Text)
  /-- A flag with its value behind an equals sign. -/
  | equals (flag : Flag) (value : Text)
  /-- A flag with its value right behind it. -/
  | attached (flag : Flag) (value : Text)
  /-- A flag with its value in the next argument. -/
  | next (flag : Flag) (value : Text)

/-- A part of a command line that is read as a whole. -/
inductive Item where
  | word (t : Text)
  /-- A flag with its value behind an equals sign. -/
  | named (flag : Flag) (value : Text)
  /-- A flag with its value in the next argument. -/
  | namedNext (flag : Flag) (value : Text)
  | namedSwitch (flag : Flag)
  | group (switches : List Flag) (last : GroupEnd)

namespace Flag

/-- The letter of a flag, or nothing. -/
def letters (f : Flag) : Text := f.letter?.toList

theorem exists_letters_of_isSwitch {f : Flag} (h : f.isSwitch = true) :
    ∃ b, f.letter? = some b ∧ f.letters = [b] := by
  cases f with
  | help | verbose => exact ⟨_, rfl, rfl⟩
  | _ => cases h

end Flag

namespace GroupEnd

/-- The end of the group as it is written. -/
def letters : GroupEnd → Text
  | nothing => []
  | ignored rest => text "test." ++ rest
  | equals flag value => flag.letters ++ text "=" ++ value
  | attached flag value => flag.letters ++ value
  | next flag _ => flag.letters

/-- The argument behind the group that belongs to it. -/
def follower : GroupEnd → Option Text
  | next _ value => some value
  | _ => none

/-- The flags that are given values, with these. -/
def settings : GroupEnd → List (Flag × Text)
  | nothing | ignored _ => []
  | equals flag value | attached flag value | next flag value => [(flag, value)]

/-- Whether the end is written so that it is read as what it is. -/
def Fits : GroupEnd → Prop
  | nothing | ignored _ => True
  | equals flag value => flag.letter? ≠ none ∧ value ≠ []
  | attached flag value =>
    flag.letter? ≠ none ∧ flag.isSwitch = false ∧ value ≠ []
      ∧ ¬ (value.head? = some (byte '=') ∧ 1 < value.length)
  | next flag _ => flag.letter? ≠ none ∧ flag.isSwitch = false

end GroupEnd

namespace Item

/-- The letters of a group. -/
def groupLetters (switches : List Flag) (last : GroupEnd) : Text :=
  switches.flatMap Flag.letters ++ last.letters

/-- The item as it is written. -/
def arguments : Item → List Text
  | word t => [t]
  | named flag value => [text "--" ++ flag.name ++ text "=" ++ value]
  | namedNext flag value => [text "--" ++ flag.name, value]
  | namedSwitch flag => [text "--" ++ flag.name]
  | group switches last =>
    (text "-" ++ groupLetters switches last) :: last.follower.toList

/-- The flags that are given values, with these; a switch that is given without one is on. -/
def settings : Item → List (Flag × Text)
  | word _ => []
  | named flag value | namedNext flag value => [(flag, value)]
  | namedSwitch flag => [(flag, text "true")]
  | group switches last => switches.map (·, text "true") ++ last.settings

/-- The words that the item adds. -/
def words : Item → List Text
  | word t => [t]
  | _ => []

/-- Whether the item is written so that it is read as what it is: a word does not look like a flag,
only switches go without a value, and a group is not empty. -/
def Fits : Item → Prop
  | word t => t.head? ≠ some (byte '-') ∨ t.length = 1
  | named _ _ => True
  | namedNext flag _ => flag.isSwitch = false
  | namedSwitch flag => flag.isSwitch = true
  | group switches last =>
    (∀ flag ∈ switches, flag.isSwitch = true) ∧ last.Fits ∧ groupLetters switches last ≠ []

end Item

namespace Choices

section Letters

variable {next : Option Text} (c : Choices)

end Letters

section Names

section Dashes

variable (c : Choices) (words rest : List Text)

end Dashes

end Names

section Items

/-- The words behind two dashes, as they are written. -/
def tailArguments : Option (List Text) → List Text
  | none => []
  | some words => text "--" :: words

end Items

end Choices

end SuiteScribe
