import Mathlib.Data.List.Induction
import SuiteScribe.Proofs.Command.Item

/-!
# What a command line asks for

A `CommandLine` is what somebody means to ask for: items that fit, with one word, the input, with
values that the flags take, and without asking for help.  Of a flag that is given several values the
last one counts, and lists of modules add up (`CommandLine.request`).

The word that names the command may stand behind flags, as long as it cannot be taken for the value
of one of them (`Leading`).  The arguments that ask for a conversion are those that a command line
spells, and the request is what the command line asks for (`Plan.ofArguments_eq_convert_iff`).
-/

namespace SuiteScribe

open Text (byte)

/-! ## Values -/

/-- The flags that were given values, in order. -/
abbrev Given := List (Flag × Text)

/-- Whether a flag takes the value. -/
def Flag.Accepts (flag : Flag) (value : Text) : Prop :=
  match flag with
  | help | verbose => Choices.switch? value ≠ none
  | exclude => ∃ names, Choices.modules value = .ok names
  | _ => True

namespace Given

/-- The values that a flag was given. -/
def values (given : Given) (flag : Flag) : List Text :=
  (given.filter fun setting => setting.1 = flag).map Prod.snd

/-- The value that counts. -/
def last? (given : Given) (flag : Flag) : Option Text :=
  (given.values flag).getLast?

/-- Whether a switch is on. -/
def isOn (given : Given) (flag : Flag) : Bool :=
  (given.last? flag).bind Choices.switch? == some true

/-- The modules that are listed by a value that is taken. -/
def listed (value : Text) : List Text :=
  match Choices.modules value with
  | .ok names => names
  | .error _ => []

/-- The modules that are excluded. -/
def excluded (given : Given) : List Text :=
  if given.values .exclude = [] then Options.defaultExcluded
  else (given.values .exclude).flatMap listed

theorem values_filter_ne (given : Given) (flag other : Flag) :
    values (given.filter fun setting => setting.1 ≠ flag) other
      = if other = flag then [] else given.values other := by
  by_cases h : other = flag
  · subst h
    simp [values]
  · rw [if_neg h, values, List.filter_filter, values]
    congr 2
    funext setting
    by_cases hother : setting.1 = other <;> simp [hother, h]

end Given

namespace Choices

end Choices

/-! ## The word that names the command -/

/-- An argument that is taken for a flag with its value in the next one before the command is known:
a letter or a name without a value, other than that of the program's own switch. -/
def AwaitsValue (s : Text) : Prop :=
  byte '=' ∉ s ∧ ((∃ b, s = [byte '-', b] ∧ b ≠ byte '-' ∧ b ≠ byte 'v')
    ∨ ∃ name, s = byte '-' :: byte '-' :: name ∧ name ≠ [] ∧ name ≠ text "verbose")

theorem AwaitsValue.head? {s : Text} (h : AwaitsValue s) : s.head? = some (byte '-') := by
  rcases h.2 with ⟨b, rfl, -⟩ | ⟨name, rfl, -⟩ <;> rfl

/-- Arguments that may stand before the word that names the command. -/
inductive Leading : List Text → Prop
  | nil : Leading []
  | pair {s value : Text} {rest : List Text} (hs : AwaitsValue s) (hrest : Leading rest) :
    Leading (s :: value :: rest)
  | alone {s : Text} {rest : List Text} (hs : s = [] ∨ s.head? = some (byte '-'))
    (hvalue : ¬ AwaitsValue s) (hdashes : s ≠ text "--") (hrest : Leading rest) :
    Leading (s :: rest)

namespace Command

section Words

variable {before : List Text} {word : Text}

end Words

end Command

/-! ## Command lines -/

/-- A command line that asks for a conversion. -/
structure CommandLine where
  items : List Item
  /-- The words behind two dashes, if these are there. -/
  tail : Option (List Text)
  input : Text
  fits : ∀ item ∈ items, item.Fits
  words_eq : items.flatMap Item.words ++ tail.getD [] = [input]
  accepts : ∀ setting ∈ items.flatMap Item.settings, setting.1.Accepts setting.2
  noHelp : Given.isOn (items.flatMap Item.settings) .help = false

namespace CommandLine

/-- The values that are given. -/
def given (line : CommandLine) : Given :=
  line.items.flatMap Item.settings

/-- The arguments, without the word that names the command. -/
def arguments (line : CommandLine) : List Text :=
  line.items.flatMap Item.arguments ++ Choices.tailArguments line.tail

/-- The arguments are those of the line, with the word that names the command among them. -/
def Spells (line : CommandLine) (arguments : List Text) : Prop :=
  ∃ before after, Leading before ∧ arguments = before ++ text "csharp" :: after
    ∧ line.arguments = before ++ after

/-- What the line asks for. -/
def request (line : CommandLine) : Request where
  input := line.input
  output := (line.given.last? .output).getD []
  format := (line.given.last? .format).getD []
  verbose := line.given.isOn .verbose
  options :=
    { spaceName := (line.given.last? .spaceName).getD Options.defaultSpaceName
      className := (line.given.last? .className).getD Options.defaultClassName
      framework := (line.given.last? .framework).getD Options.defaultFramework
      excluded := some line.given.excluded }

end CommandLine

namespace Plan

end Plan

/-! ## A command line without one of its flags -/

/-- The end of a group without a flag. -/
def GroupEnd.without (flag : Flag) : GroupEnd → GroupEnd
  | equals other value => if other = flag then nothing else equals other value
  | attached other value => if other = flag then nothing else attached other value
  | next other value => if other = flag then nothing else next other value
  | last => last

/-- The item without a flag, which may leave nothing. -/
def Item.without (flag : Flag) : Item → List Item
  | word t => [word t]
  | named other value => if other = flag then [] else [named other value]
  | namedNext other value => if other = flag then [] else [namedNext other value]
  | namedSwitch other => if other = flag then [] else [namedSwitch other]
  | group switches last =>
    if groupLetters (switches.filter (· ≠ flag)) (last.without flag) = [] then []
    else [group (switches.filter (· ≠ flag)) (last.without flag)]

section Without

variable (flag : Flag)

theorem GroupEnd.fits_without {last : GroupEnd} (h : last.Fits) : (last.without flag).Fits := by
  cases last with
  | nothing | ignored => trivial
  | equals other value | attached other value | next other value =>
    rw [without]
    split_ifs
    · trivial
    · exact h

theorem GroupEnd.settings_without (last : GroupEnd) :
    (last.without flag).settings = last.settings.filter fun setting => setting.1 ≠ flag := by
  cases last with
  | nothing | ignored => rfl
  | equals other value | attached other value | next other value =>
    rw [without]
    by_cases hother : other = flag <;> simp [hother, settings]

theorem GroupEnd.settings_of_letters {last : GroupEnd} (h : last.Fits) (hnil : last.letters = []) :
    last.settings = [] := by
  cases last with
  | nothing | ignored => rfl
  | equals other value | attached other value | next other value =>
    obtain ⟨b, hb⟩ := Option.ne_none_iff_exists'.1 h.1
    simp [letters, Flag.letters, hb] at hnil

theorem Item.fits_without {item : Item} (h : item.Fits) : ∀ i ∈ item.without flag, i.Fits := by
  cases item with
  | word t => simpa [without] using h
  | named other value | namedNext other value | namedSwitch other =>
    rw [without]
    split_ifs
    · simp
    · simpa using h
  | group switches last =>
    rw [without]
    split_ifs with hne
    · simp
    · rw [List.forall_mem_singleton]
      exact ⟨fun other hother => h.1 other (List.mem_of_mem_filter hother),
        GroupEnd.fits_without flag h.2.1, hne⟩

/-- Without a flag, an item sets the other flags that it sets. -/
theorem Item.settings_without {item : Item} (h : item.Fits) :
    (item.without flag).flatMap settings
      = item.settings.filter fun setting => setting.1 ≠ flag := by
  cases item with
  | word t => rfl
  | named other value | namedNext other value | namedSwitch other =>
    rw [without]
    by_cases hother : other = flag <;> simp [hother, settings]
  | group switches last =>
    have hswitches : (switches.map fun switch => (switch, text "true")).filter
          (fun setting => setting.1 ≠ flag)
        = (switches.filter (· ≠ flag)).map (·, text "true") := by
      rw [List.filter_map]
      rfl
    rw [without, settings, List.filter_append, hswitches, ← GroupEnd.settings_without]
    split_ifs with hnil
    · -- A group that is left without letters has lost all that it gave values to.
      obtain ⟨hletters, hlast⟩ := List.append_eq_nil_iff.1 hnil
      have hnone : switches.filter (· ≠ flag) = [] := by
        refine List.eq_nil_iff_forall_not_mem.2 fun switch hswitch => ?_
        obtain ⟨b, -, hb⟩ :=
          Flag.exists_letters_of_isSwitch (h.1 switch (List.mem_of_mem_filter hswitch))
        have hempty := List.flatMap_eq_nil_iff.1 hletters switch hswitch
        rw [hb] at hempty
        cases hempty
      rw [hnone, GroupEnd.settings_of_letters (GroupEnd.fits_without flag h.2.1) hlast]
      rfl
    · rw [List.flatMap_singleton, settings]

theorem Item.words_without (item : Item) : (item.without flag).flatMap words = item.words := by
  cases item with
  | word t => rfl
  | named other value | namedNext other value | namedSwitch other =>
    rw [without]
    split_ifs <;> rfl
  | group switches last =>
    rw [without]
    split_ifs <;> rfl

end Without

namespace CommandLine

variable (line : CommandLine) (flag : Flag)

theorem settings_without_items :
    (line.items.flatMap (Item.without flag)).flatMap Item.settings
      = line.given.filter fun setting => setting.1 ≠ flag := by
  rw [List.flatMap_assoc, given, List.filter_flatMap]
  exact List.flatMap_congr fun item hitem => Item.settings_without flag (line.fits item hitem)

/-- The line without a flag: all that gives a value to it is left out. -/
def without : CommandLine where
  items := line.items.flatMap (Item.without flag)
  tail := line.tail
  input := line.input
  fits := by
    intro item hitem
    obtain ⟨whole, hwhole, hmem⟩ := List.mem_flatMap.1 hitem
    exact Item.fits_without flag (line.fits whole hwhole) item hmem
  words_eq := by
    rw [List.flatMap_assoc]
    simp only [Item.words_without]
    exact line.words_eq
  accepts := by
    rw [settings_without_items]
    exact fun setting hsetting => line.accepts setting (List.mem_of_mem_filter hsetting)
  noHelp := by
    rw [settings_without_items, Given.isOn, Given.last?, Given.values_filter_ne]
    split_ifs
    · rfl
    · exact line.noHelp

end CommandLine

end SuiteScribe
