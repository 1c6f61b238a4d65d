import SuiteScribe.Command.Flag
import SuiteScribe.Command.Help
import SuiteScribe.Document.Read
import SuiteScribe.Files.Basic
import SuiteScribe.TestClass.Generate
import SuiteScribe.Text.Distance

/-!
# What a command line asks for

The first word names the command; flags may stand before it.  `Plan.ofArguments` makes of a command
line a page to show, a refusal, or a request to convert a document.
-/

namespace SuiteScribe

open Text (byte)

/-- Why a command fails. -/
inductive CommandError where
  | unknownCommand (word : Text)
  | flags (e : FlagError)
  | wordCount (count : Nat)
  | format (e : FormatError)
  | document (e : DocumentError)
  | generate (e : GenerateError)
  | makeDirectory (e : FileError)
  | writeFile (e : FileError)

namespace CommandError

/-- The commands that a word might be meant for: those that are hardly apart from it, whether in
capitals or not, and those that start with it. -/
def suggestions (word : Text) : List Text :=
  [Command.csharp.name, Command.completion.name].filter fun name =>
    Text.distance word.lowercase name ≤ 2 || word.lowercase.isPrefixOf name

/-- The error in words. -/
def message : CommandError → Text
  | unknownCommand word =>
    let names := suggestions word
    text "unknown command " ++ word.quote ++ text " for \"translate\"" ++
      (if names = [] then []
        else text "\n\nDid you mean this?\n" ++
          names.flatMap fun name => text "\t" ++ name ++ text "\n")
  | flags e => e.message
  | wordCount count => text "accepts 1 arg(s), received " ++ Text.ofNat count
  | format e => e.message
  | document e => e.message
  | generate e => e.message
  | makeDirectory e => text "failed to create output directory: " ++ e.message
  | writeFile e => text "failed to write generated file: " ++ e.message

/-- What the program says when a command fails. -/
def report (e : CommandError) : Text :=
  text "Error: " ++ e.message ++ text "\n" ++
    match e with
    | unknownCommand _ => text "Run 'translate --help' for usage.\n"
    | _ => []

end CommandError

/-- A request to convert a document into a test class. -/
structure Request where
  /-- The path of the document, or a dash for the standard input. -/
  input : Text
  /-- The path of the file to write, or nothing for the standard output. -/
  output : Text
  /-- The name of the format, or nothing. -/
  format : Text
  verbose : Bool
  options : Options

/-- What a command line asks for. -/
inductive Plan where
  | showPage (page : Text)
  | refuse (e : CommandError)
  | convert (request : Request)

namespace Command

/-- The flags that a command knows. -/
def flags : Command → List Flag
  | csharp =>
    [.help, .verbose, .output, .format, .spaceName, .className, .framework, .exclude]
  | _ => [.help, .verbose]

/-- Whether an argument before the command has its value in the next one.  Only the switch of the
program itself is known to have none. -/
def takesNext (s : Text) : Bool :=
  byte '=' ∉ s &&
    match s with
    | a :: b :: rest =>
      a == byte '-' &&
        (if b = byte '-' then rest != Flag.verbose.name
          else rest.isEmpty && Flag.verbose.letter? != some b)
    | _ => false

/-- Whether an argument looks like a flag. -/
def looksLikeFlag (s : Text) : Bool :=
  s.head? == some (byte '-')

/-- The words among arguments, as far as they can be told without knowing the command. -/
def words : List Text → List Text
  | [] => []
  | s :: rest =>
    if s = text "--" then []
    else if takesNext s then
      match rest with
      | _ :: next :: more => words (next :: more)
      | _ => []
    else if s ≠ [] ∧ !looksLikeFlag s then s :: words rest
    else words rest

/-- The arguments without the first that is this word. -/
def without (word : Text) : List Text → List Text
  | [] => []
  | s :: rest =>
    if s = text "--" then s :: rest
    else if takesNext s then
      match rest with
      | value :: rest => s :: value :: without word rest
      | [] => [s]
    else if s = word then rest
    else s :: without word rest

/-- The command that arguments name, with the other arguments; or the word that names none. -/
def select (arguments : List Text) : Except Text (Command × List Text) :=
  match words arguments with
  | [] => .ok (top, arguments)
  | word :: _ =>
    match ofName? word with
    | some command => .ok (command, without word arguments)
    | none => .error word

end Command

/-- The request that flags and an input make. -/
def Request.ofChoices (c : Choices) (input : Text) : Request where
  input := input
  output := c.output
  format := c.format
  verbose := c.verbose
  options :=
    { spaceName := c.spaceName
      className := c.className
      framework := c.framework
      excluded := some c.excluded }

namespace Plan

/-- What a command does with its words when no help is asked for. -/
def ofWords (command : Command) (c : Choices) (words : List Text) : Plan :=
  match command with
  | .csharp =>
    match words with
    | [input] => convert (.ofChoices c input)
    | _ => refuse (.wordCount words.length)
  | .help =>
    match Command.select words with
    | .ok (topic, _) => .showPage topic.helpText
    | .error _ => .showPage (Command.unknownTopic words)
  | _ => .showPage command.helpText

/-- What a command line asks for. -/
def ofArguments (arguments : List Text) : Plan :=
  match Command.select arguments with
  | .error word => refuse (.unknownCommand word)
  | .ok (command, rest) =>
    match Choices.parse command.flags rest with
    | .error e => refuse (.flags e)
    | .ok (c, words) => if c.help then .showPage command.helpText else ofWords command c words

end Plan

end SuiteScribe
