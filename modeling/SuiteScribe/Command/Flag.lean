import SuiteScribe.TestClass.Options
import SuiteScribe.Text.Quoted
import SuiteScribe.Text.Record

/-!
# Flags

A flag is given by its name behind two dashes or by its letter behind one; letters may stand
together. Switches are on when they are given, and other flags take a value, behind an equals sign
or in the next argument.  Flags and words may be mixed; two dashes alone make words of all that
follows.

`Choices.parse` reads arguments from left to right and stops at the first that is wrong.
-/

namespace SuiteScribe

open Text (byte)

/-- What can be asked for on the command line. -/
inductive Flag where
  | help
  | verbose
  | output
  | format
  | spaceName
  | className
  | framework
  | exclude
deriving DecidableEq

namespace Flag

/-- The name of a flag. -/
def name : Flag → Text
  | help => text "help"
  | verbose => text "verbose"
  | output => text "output"
  | format => text "format"
  | spaceName => text "namespace"
  | className => text "class"
  | framework => text "framework"
  | exclude => text "exclude"

/-- The letter of a flag that has one. -/
def letter? : Flag → Option UInt8
  | help => some (byte 'h')
  | verbose => some (byte 'v')
  | output => some (byte 'o')
  | format => some (byte 'f')
  | _ => none

/-- Whether a flag needs no value. -/
def isSwitch : Flag → Bool
  | help => true
  | verbose => true
  | _ => false

/-- The flag in messages: its letter and its name. -/
def label (f : Flag) : Text :=
  match f.letter? with
  | some b => text "-" ++ [b] ++ text ", --" ++ f.name
  | none => text "--" ++ f.name

/-- The flag of that name among those that are known. -/
def named? (known : List Flag) (name : Text) : Option Flag :=
  known.find? (·.name = name)

/-- The flag of that letter among those that are known. -/
def lettered? (known : List Flag) (b : UInt8) : Option Flag :=
  known.find? (·.letter? = some b)

end Flag

/-- Why a value does not fit a flag. -/
inductive ValueError where
  | notBool
  | notRecord (e : Record.Error)

/-- Why flags cannot be read. -/
inductive FlagError where
  | badName (argument : Text)
  | unknownName (name : Text)
  | unknownLetter (letter : UInt8) (group : Text)
  | noValueForName (name : Text)
  | noValueForLetter (letter : UInt8) (group : Text)
  | badValue (flag : Flag) (value : Text) (error : ValueError)

namespace FlagError

/-- A letter in single quotes.  A byte that is no ASCII character shows as the character that the
first byte of its own encoding stands for. -/
def quoteLetter (b : UInt8) : Text :=
  let c :=
    if b.toNat < 0x80 then Char.ofNat b.toNat
    else if b.toNat < 0xc0 then 'Â'
    else 'Ã'
  let shown :=
    if c = '\'' then text "\\'"
    else if c = '"' then text "\""
    else (Rune.char c).quoted
  text "'" ++ shown ++ text "'"

/-- Why a value does not fit, in words. -/
def reason (value : Text) : ValueError → Text
  | .notBool => text "strconv.ParseBool: parsing " ++ value.quote ++ text ": invalid syntax"
  | .notRecord e => e.message

/-- The error in words. -/
def message : FlagError → Text
  | badName argument => text "bad flag syntax: " ++ argument
  | unknownName name => text "unknown flag: --" ++ name
  | unknownLetter b group =>
    text "unknown shorthand flag: " ++ quoteLetter b ++ text " in -" ++ group
  | noValueForName name => text "flag needs an argument: --" ++ name
  | noValueForLetter b group =>
    text "flag needs an argument: " ++ quoteLetter b ++ text " in -" ++ group
  | badValue flag value error =>
    text "invalid argument " ++ value.quote ++ text " for " ++ flag.label.quote ++ text " flag: " ++
      reason value error

end FlagError

/-- What the flags of a command line ask for. -/
structure Choices where
  help : Bool := false
  verbose : Bool := false
  output : Text := []
  format : Text := []
  spaceName : Text := Options.defaultSpaceName
  className : Text := Options.defaultClassName
  framework : Text := Options.defaultFramework
  excluded : List Text := Options.defaultExcluded
  /-- Whether the excluded modules were given. -/
  excludedGiven : Bool := false

namespace Choices

/-- The setting of a switch. -/
def switch? (value : Text) : Option Bool :=
  let on := [text "1", text "t", text "T", text "TRUE", text "true", text "True"]
  let off := [text "0", text "f", text "F", text "FALSE", text "false", text "False"]
  if on.contains value then some true
  else if off.contains value then some false
  else none

/-- The modules that a value lists. -/
def modules (value : Text) : Except Record.Error (List Text) :=
  if value = [] then .ok [] else Record.read value

/-- Gives a value to a flag.  Excluded modules take the place of the default ones first and add up
from then on. -/
def set (c : Choices) (flag : Flag) (value : Text) : Except FlagError Choices :=
  match flag with
  | .help =>
    match switch? value with
    | some on => .ok { c with help := on }
    | none => .error (.badValue flag value .notBool)
  | .verbose =>
    match switch? value with
    | some on => .ok { c with verbose := on }
    | none => .error (.badValue flag value .notBool)
  | .output => .ok { c with output := value }
  | .format => .ok { c with format := value }
  | .spaceName => .ok { c with spaceName := value }
  | .className => .ok { c with className := value }
  | .framework => .ok { c with framework := value }
  | .exclude =>
    match modules value with
    | .ok names =>
      let before := if c.excludedGiven then c.excluded else []
      .ok { c with excluded := before ++ names, excludedGiven := true }
    | .error e => .error (.badValue flag value (.notRecord e))

/-- The value of a switch that is given without one. -/
def switchedOn : Text := text "true"

/-- Reads a group of letters; `next` is the argument behind it, and the result says whether that was
taken as a value.  A group that starts with the mark of a test run is left alone. -/
def parseLetters (known : List Flag) (next : Option Text) :
    Choices → (group : Text) → Except FlagError (Choices × Bool)
  | c, [] => .ok (c, false)
  | c, b :: rest =>
    if (text "test.").isPrefixOf (b :: rest) then .ok (c, false)
    else
      match Flag.lettered? known b with
      | none => .error (.unknownLetter b (b :: rest))
      | some flag =>
        if rest.head? = some (byte '=') ∧ 1 < rest.length then do
          return (← c.set flag rest.tail, false)
        else if flag.isSwitch then do
          parseLetters known next (← c.set flag switchedOn) rest
        else if rest ≠ [] then do
          return (← c.set flag rest, false)
        else
          match next with
          | some value => do return (← c.set flag value, true)
          | none => .error (.noValueForLetter b (b :: rest))

/-- The name in an argument, and its value if there is an equals sign. -/
def splitName (t : Text) : Text × Option Text :=
  match t.dropWhile (· ≠ byte '=') with
  | [] => (t, none)
  | _ :: value => (t.takeWhile (· ≠ byte '='), some value)

/-- Whether an argument is a word and no flag. -/
def isWord : Text → Bool
  | b :: _ :: _ => b != byte '-'
  | _ => true

/-- Reads arguments; `words` are those read before that are no flags, the last of them first. -/
def parseFrom (known : List Flag) :
    Choices → (words : List Text) → List Text → Except FlagError (Choices × List Text)
  | c, words, [] => .ok (c, words.reverse)
  | c, words, s :: rest =>
    if isWord s then parseFrom known c (s :: words) rest
    else if s = text "--" then .ok (c, words.reverse ++ rest)
    else if (text "--").isPrefixOf s then
      let (name, given) := splitName (s.drop 2)
      if name = [] ∨ name.head? = some (byte '-') then .error (.badName s)
      else
        match Flag.named? known name with
        | none => .error (.unknownName name)
        | some flag =>
          match given with
          | some value => do parseFrom known (← c.set flag value) words rest
          | none =>
            if flag.isSwitch then do parseFrom known (← c.set flag switchedOn) words rest
            else
              match rest with
              | value :: rest => do parseFrom known (← c.set flag value) words rest
              | [] => .error (.noValueForName name)
    else
      match parseLetters known rest.head? c s.tail with
      | .error e => .error e
      | .ok (c, false) => parseFrom known c words rest
      | .ok (c, true) =>
        match rest with
        | _ :: rest => parseFrom known c words rest
        | [] => .ok (c, words.reverse)

/-- Reads arguments: what the known flags among them ask for, and the words. -/
def parse (known : List Flag) (arguments : List Text) : Except FlagError (Choices × List Text) :=
  parseFrom known {} [] arguments

end Choices

end SuiteScribe
