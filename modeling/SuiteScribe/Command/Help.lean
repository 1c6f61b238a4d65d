import SuiteScribe.Text.Quoted

/-!
# Help pages

What the program says of itself and of its commands.
-/

namespace SuiteScribe

/-- The commands of the program; `top` is the program itself. -/
inductive Command where
  | top
  | csharp
  | help
  | completion
deriving DecidableEq

namespace Command

/-- The name of the program. -/
def programName : Text := text "translate"

/-- The name of a command. -/
def name : Command → Text
  | top => programName
  | csharp => text "csharp"
  | help => text "help"
  | completion => text "completion"

/-- The command that a word names. -/
def ofName? (t : Text) : Option Command :=
  [csharp, help, completion].find? (·.name = t)

/-- Lines of a page. -/
def page (lines : List String) : Text :=
  lines.flatMap fun line => text line ++ text "\n"

/-- How to call the program, with the flags it says it has. -/
def topUsage (flags : List String) : Text :=
  page [
    "Usage:",
    "  translate [command]",
    "",
    "Available Commands:",
    "  completion  Generate the autocompletion script for the specified shell",
    "  csharp      Generate an MSTest C# test class",
    "  help        Help about any command",
    "",
    "Flags:"] ++
  page flags ++
  page [
    "",
    "Use \"translate [command] --help\" for more information about a command."]

/-- The flag that every command has from the program. -/
def globalFlags : Text :=
  page [
    "",
    "Global Flags:",
    "  -v, --verbose   log progress to stderr"]

/-- The page of the program. -/
def topPage : Text :=
  page [
    "Read a serialized IR test suite and render it as test source code for a",
    "target language. Each target is a subcommand.",
    ""] ++
  topUsage [
    "  -h, --help      help for translate",
    "  -v, --verbose   log progress to stderr"]

/-- The page of the command that generates a test class. -/
def csharpPage : Text :=
  page [
    "Decode an IR test suite from a JSON or YAML document and emit a C# file with",
    "one test method per test. Use \"-\" to read the document from stdin.",
    "The result goes to stdout or, via -o/--output, to a file that is only",
    "created when the whole suite translated successfully.",
    "",
    "Usage:",
    "  translate csharp IR_FILE [flags]",
    "",
    "Flags:",
    "      --class string       name of the generated test class (default \"TestMain\")",
    "      --exclude strings    modules that never get a using directive (default [datetime])",
    "  -f, --format string      IR document format: json or yaml " ++
      "(default: from the file extension)",
    "      --framework string   namespace of the test framework attributes " ++
      "(default \"Microsoft.VisualStudio.TestTools.UnitTesting\")",
    "  -h, --help               help for csharp",
    "      --namespace string   namespace of the generated class " ++
      "(default \"Autowrap.CSharp.Tests\")",
    "  -o, --output string      write the generated C# to a file"] ++
  globalFlags

/-- The page of the command that shows pages. -/
def helpPage : Text :=
  page [
    "Help provides help for any command in the application.",
    "Simply type translate help [path to command] for full details.",
    "",
    "Usage:",
    "  translate help [command] [flags]",
    "",
    "Flags:",
    "  -h, --help   help for help"] ++
  globalFlags

/-- The page of the command for shells. -/
def completionPage : Text :=
  page [
    "Generate the autocompletion script for translate for the specified shell.",
    "See each sub-command's help for details on how to use the generated script.",
    "",
    "Usage:",
    "  translate completion [command]",
    "",
    "Available Commands:",
    "  bash        Generate the autocompletion script for bash",
    "  fish        Generate the autocompletion script for fish",
    "  powershell  Generate the autocompletion script for powershell",
    "  zsh         Generate the autocompletion script for zsh",
    "",
    "Flags:",
    "  -h, --help   help for completion"] ++
  globalFlags ++
  page [
    "",
    "Use \"translate completion [command] --help\" for more information about a command."]

/-- The page of a command. -/
def helpText : Command → Text
  | top => topPage
  | csharp => csharpPage
  | help => helpPage
  | completion => completionPage

/-- Whether a character can stand between backquotes. -/
def fitsBackquotes : Rune → Bool
  | .char c =>
    c == '\t' || (32 ≤ c.toNat && c != '\x60' && c.toNat != 0x7f && c.toNat != 0xfeff)
  | .stray _ => false

/-- A text between backquotes, or between quotes if it does not fit. -/
def backquoted (t : Text) : Text :=
  if t.runes.all fitsBackquotes then text "`" ++ t ++ text "`" else t.quote

/-- The page for words that name no command. -/
def unknownTopic (words : List Text) : Text :=
  text "Unknown help topic [" ++ (text " ").intercalate (words.map backquoted) ++ text "]\n" ++
    topUsage ["  -v, --verbose   log progress to stderr"]

end Command

end SuiteScribe
