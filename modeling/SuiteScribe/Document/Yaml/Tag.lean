import SuiteScribe.Number.Real

/-!
# What a scalar is

A tag that a document gives decides.  Otherwise a plain scalar is what its text looks like: null, a
boolean, a whole number, a fraction, or else a string.
-/

namespace SuiteScribe.Yaml

open Text (byte)

/-- What a scalar may be; every tag that is none of the first four makes a string. -/
inductive Tag where
  | null
  | bool
  | int
  | float
  | text
deriving DecidableEq

namespace Tag

/-- The short spelling of a tag. -/
def name : Tag → Text
  | null => SuiteScribe.text "!!null"
  | bool => SuiteScribe.text "!!bool"
  | int => SuiteScribe.text "!!int"
  | float => SuiteScribe.text "!!float"
  | text => SuiteScribe.text "!!str"

/-- What the long spelling of a tag starts with. -/
def longStart : Text :=
  SuiteScribe.text "tag:yaml.org,2002:"

/-- The tag of that name, short or long. -/
def ofName (t : Text) : Tag :=
  let short :=
    if longStart.isPrefixOf t then SuiteScribe.text "!!" ++ t.drop longStart.length else t
  if short = null.name then null
  else if short = bool.name then bool
  else if short = int.name then int
  else if short = float.name then float
  else text

end Tag

/-- How true is spelled. -/
def trueWords : List Text :=
  [text "true", text "True", text "TRUE"]

/-- How false is spelled. -/
def falseWords : List Text :=
  [text "false", text "False", text "FALSE"]

/-- How null is spelled. -/
def nullWords : List Text :=
  [[], text "~", text "null", text "Null", text "NULL"]

/-- How the numbers without digits are spelled. -/
def floatWords : List Text :=
  [text ".nan", text ".NaN", text ".NAN", text ".inf", text ".Inf", text ".INF", text "+.inf",
    text "+.Inf", text "+.INF", text "-.inf", text "-.Inf", text "-.INF"]

/-- A decimal digit. -/
def isDigit (b : UInt8) : Bool :=
  48 ≤ b.toNat && b.toNat ≤ 57

/-- Whether what follows the digits of a fraction is nothing or an exponent. -/
def isExponent : Text → Bool
  | [] => true
  | b :: rest =>
    let digits := (Integer.splitSign rest).2
    (b == byte 'e' || b == byte 'E') && digits ≠ [] && digits.all isDigit

/-- Whether a text is written like a fraction: digits with a point before, between or behind them,
and an exponent. -/
def isFraction (t : Text) : Bool :=
  let ds := (Integer.splitSign t).2
  match ds with
  | [] => false
  | b :: rest =>
    if b = byte '.' then rest.takeWhile isDigit ≠ [] && isExponent (rest.dropWhile isDigit)
    else if isDigit b then
      match rest.dropWhile isDigit with
      | [] => true
      | p :: more =>
        if p = byte '.' then isExponent (more.dropWhile isDigit) else isExponent (p :: more)
    else false

/-- Whether a text is a whole number behind the mark of a base, each digit of which stands for
`base` values; the number may have a sign of its own. -/
def isMarked (mark : String) (base : Nat) (t : Text) : Bool :=
  let sign := text "-"
  if (text mark).isPrefixOf t then
    let ds := t.drop (text mark).length
    (Integer.readSigned base ds).isOk || (Integer.readUnsigned base ds).isOk
  else if (sign ++ text mark).isPrefixOf t then
    (Integer.readSigned base (sign ++ t.drop (sign ++ text mark).length)).isOk
  else false

/-- What a text that starts with a digit or a sign is; underscores between its digits do not count.
-/
def resolveNumber (t : Text) : Tag :=
  let t := t.filter (· ≠ byte '_')
  if (Integer.readBased t).isOk || (Integer.readBasedUnsigned t).isOk then .int
  else if isFraction t && Real.accepts t then .float
  else if isMarked "0b" 2 t || isMarked "0o" 8 t then .int
  else .text

/-- What a plain text is. -/
def resolve (t : Text) : Tag :=
  if t ∈ nullWords then .null
  else if t ∈ trueWords ∨ t ∈ falseWords then .bool
  else if t ∈ floatWords then .float
  else
    match t with
    | [] => .null
    | b :: _ =>
      if b = byte '.' then if Real.accepts t then .float else .text
      else if isDigit b ∨ b = byte '+' ∨ b = byte '-' then resolveNumber t
      else .text

end SuiteScribe.Yaml
