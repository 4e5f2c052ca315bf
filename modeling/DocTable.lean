import DocTable.Bytes.Decoding
import DocTable.Cache.Basic
import DocTable.Cache.Key
import DocTable.Cache.Memo
import DocTable.Cache.Run
import DocTable.Config.Basic
import DocTable.Config.Environment
import DocTable.Config.File
import DocTable.Console.Command
import DocTable.Console.Failure
import DocTable.Console.Output
import DocTable.Console.Query
import DocTable.Console.Run
import DocTable.Console.Words
import DocTable.Document
import DocTable.Engine.Connect
import DocTable.Engine.Inspect
import DocTable.Engine.Rules
import DocTable.Engine.Session
import DocTable.Error
import DocTable.Files
import DocTable.Json.Bitwise
import DocTable.Json.Display
import DocTable.Json.Integer
import DocTable.Json.Reader
import DocTable.Json.Same
import DocTable.Json.Value
import DocTable.Json.Writer
import DocTable.Main
import DocTable.Model.Schema
import DocTable.Model.Table
import DocTable.Number.Binary64
import DocTable.Number.Decimal
import DocTable.Number.FloatText
import DocTable.Number.Shortest
import DocTable.Sql.Builder
import DocTable.Sql.Clause
import DocTable.Sql.Condition
import DocTable.Sql.Error
import DocTable.Sql.Field
import DocTable.Sql.Fragment
import DocTable.Sql.Path
import DocTable.Sql.Schema
import DocTable.Sql.Shorthand
import DocTable.Sql.Statement
import DocTable.Table.Basic
import DocTable.Text.Basic
import DocTable.Text.Case
import DocTable.Text.Hexadecimal
import DocTable.Text.Pattern
import DocTable.Text.Printable
import DocTable.Text.Quoted
import DocTable.Text.Words
import DocTable.Yaml.Cursor
import DocTable.Yaml.Error
import DocTable.Yaml.Lexeme
import DocTable.Yaml.Lexer
import DocTable.Yaml.Node
import DocTable.Yaml.Scalar
import DocTable.Yaml.Token
import DocTable.Yaml.Value
import DocTable.Proofs.Shorthand.Parity
import DocTable.Proofs.Shorthand.Reading
import DocTable.Proofs.Shorthand.Again
import DocTable.Proofs.Shorthand.Column
import DocTable.Proofs.Shorthand.Embedded
import DocTable.Proofs.Session.Calls
import DocTable.Proofs.Session.Record
import DocTable.Proofs.Statement.Filling
import DocTable.Proofs.Statement.Operations
import DocTable.Proofs.Table.Exchanges
import DocTable.Proofs.Statement.BoundValues
import DocTable.Proofs.Console.Lines
import DocTable.Proofs.Console.Commands
import DocTable.Proofs.Console.Course
import DocTable.Proofs.Console.Footprint
import DocTable.Proofs.Json.Texts
import DocTable.Proofs.Json.ReadBack
import DocTable.Proofs.Result
import DocTable.Proofs.Console.Query
import DocTable.Proofs.Condition.Wording
import DocTable.Proofs.Condition.Dotted
import DocTable.Proofs.Condition.Paths
import DocTable.Proofs.Condition.UniqueReading
import DocTable.Proofs.Condition.Shape
import DocTable.Proofs.Console.Selection
import DocTable.Proofs.Console.Options
import DocTable.Proofs.Console.Selective
import DocTable.Proofs.Json.Numbers
import DocTable.Proofs.Table.AllOrNothing
import DocTable.Proofs.Memo.Keys
import DocTable.Proofs.Memo.Transparency
import DocTable.Proofs.Console.Checking
import DocTable.Proofs.Console.Closing
import DocTable.Proofs.Session.Replies
import DocTable.Proofs.Console.DryRun
import DocTable.Proofs.Console.Input
import DocTable.Proofs.Console.ExitCode
import DocTable.Proofs.Number.Rounding
import DocTable.Proofs.Number.Shortest
import DocTable.Proofs.Json.Floats
import DocTable.Proofs.Json.Ascii
import DocTable.Proofs.Document.RoundTrip
import DocTable.Proofs.Document.Merging
import DocTable.Proofs.Document.Shown
import DocTable.Proofs.Document.Independent
import DocTable.Proofs.Document.NullMembers
import DocTable.Proofs.Table.Batch
import DocTable.Proofs.Cache.Events
import DocTable.Proofs.Cache.Queue
import DocTable.Proofs.Cache.FirstValue
import DocTable.Proofs.Cache.Statistics
import DocTable.Proofs.Condition.Rendering
import DocTable.Proofs.Text.Order
import DocTable.Proofs.Cache.Arguments
import DocTable.Proofs.Schema.ExpressionName
import DocTable.Proofs.Schema.IndexName
import DocTable.Proofs.Shorthand.Segments
import DocTable.Proofs.Statement.Building
import DocTable.Proofs.Console.Assembly
import DocTable.Proofs.Console.Expressions
import DocTable.Proofs.Condition.Like
import DocTable.Proofs.Config.KeyOrder
import DocTable.Proofs.Config.Settings
import DocTable.Proofs.Config.Loading
import DocTable.Proofs.Console.Printing
import DocTable.Proofs.Table.Identity
import DocTable.Proofs.Session.Drawing
import DocTable.Proofs.Console.Insertion
import DocTable.Proofs.Model.Lawful
import DocTable.Proofs.Model.Writing
import DocTable.Proofs.Table.Binding
import DocTable.Proofs.Model.NullIds
import DocTable.Proofs.Console.Columns
import DocTable.Proofs.Console.Report
