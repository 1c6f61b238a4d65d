import SuiteScribe.Command.Flag
import SuiteScribe.Command.Help
import SuiteScribe.Command.Log
import SuiteScribe.Command.Plan
import SuiteScribe.Command.Run
import SuiteScribe.Document.Decode
import SuiteScribe.Document.Format
import SuiteScribe.Document.Json
import SuiteScribe.Document.Read
import SuiteScribe.Document.Tree
import SuiteScribe.Document.Yaml.Character
import SuiteScribe.Document.Yaml.Cursor
import SuiteScribe.Document.Yaml.Document
import SuiteScribe.Document.Yaml.Node
import SuiteScribe.Document.Yaml.Property
import SuiteScribe.Document.Yaml.Scalar
import SuiteScribe.Document.Yaml.Tag
import SuiteScribe.Document.Yaml.Token
import SuiteScribe.Document.Yaml.TokenStream
import SuiteScribe.Files.Basic
import SuiteScribe.Files.CleanPath
import SuiteScribe.Main
import SuiteScribe.Number.Integer
import SuiteScribe.Number.Real
import SuiteScribe.Proofs.FirstFault
import SuiteScribe.Proofs.TestClass.FileScript
import SuiteScribe.Proofs.TestClass.Parts
import SuiteScribe.Proofs.Writer.Script
import SuiteScribe.Suite.Kind
import SuiteScribe.Suite.Node
import SuiteScribe.TestClass.Error
import SuiteScribe.TestClass.Generate
import SuiteScribe.TestClass.Options
import SuiteScribe.TestClass.Render
import SuiteScribe.TestClass.Using
import SuiteScribe.Text.Ascending
import SuiteScribe.Text.Basic
import SuiteScribe.Text.Blank
import SuiteScribe.Text.Case
import SuiteScribe.Text.CodeSet
import SuiteScribe.Text.Digit
import SuiteScribe.Text.Distance
import SuiteScribe.Text.Identifier
import SuiteScribe.Text.Letter
import SuiteScribe.Text.Printable
import SuiteScribe.Text.Quoted
import SuiteScribe.Text.Record
import SuiteScribe.Text.Utf8
import SuiteScribe.Writer.Basic
import SuiteScribe.Writer.Session
import SuiteScribe.Proofs.TestClass.Layout
import SuiteScribe.Proofs.TestClass.Defect
import SuiteScribe.Proofs.TestClass.OneLine
import SuiteScribe.Proofs.Document.Complete
import SuiteScribe.Proofs.TestClass.Unfinished
import SuiteScribe.Proofs.Writer.Session
import SuiteScribe.Proofs.Writer.Trace
import SuiteScribe.Proofs.Writer.Course
import SuiteScribe.Proofs.TestClass.Imports
import SuiteScribe.Proofs.Number.Integer
import SuiteScribe.Proofs.Number.Real
import SuiteScribe.Proofs.Document.Path
import SuiteScribe.Proofs.Document.Schema
import SuiteScribe.Proofs.Document.FirstDefect
import SuiteScribe.Proofs.Document.RoundTrip
import SuiteScribe.Proofs.TestClass.Namespaces
import SuiteScribe.Proofs.TestClass.AddedImport
import SuiteScribe.Proofs.Command.Effects
import SuiteScribe.Proofs.Document.FrontEnds
import SuiteScribe.Proofs.TestClass.Verbatim
import SuiteScribe.Proofs.Document.Variants
import SuiteScribe.Proofs.Document.Numeral
import SuiteScribe.Proofs.TestClass.NoLine
import SuiteScribe.Proofs.Document.NumberValue
import SuiteScribe.Proofs.Text.Quoted
import SuiteScribe.Proofs.Suite.Spelling
import SuiteScribe.Proofs.Document.Alias
import SuiteScribe.Proofs.Text.Capitalize
import SuiteScribe.Proofs.TestClass.TestName
import SuiteScribe.Proofs.Writer.BlockEnding
import SuiteScribe.Proofs.Document.FirstObject
