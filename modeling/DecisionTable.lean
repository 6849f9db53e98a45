import DecisionTable.Binary64.Arithmetic
import DecisionTable.Binary64.Basic
import DecisionTable.Binary64.Rounding
import DecisionTable.Book.Basic
import DecisionTable.Chaining.Run
import DecisionTable.Chaining.Settings
import DecisionTable.Chaining.Signals
import DecisionTable.Console.Arguments
import DecisionTable.Console.Failure
import DecisionTable.Console.Listing
import DecisionTable.Console.Reach
import DecisionTable.Console.Session
import DecisionTable.Console.Style
import DecisionTable.Decimal.Basic
import DecisionTable.Decimal.Reader
import DecisionTable.Decimal.Shortest
import DecisionTable.Decimal.Text
import DecisionTable.Digest.Sha256
import DecisionTable.Files.Path
import DecisionTable.Files.Tree
import DecisionTable.Formula.Evaluation
import DecisionTable.Formula.Expression
import DecisionTable.Formula.FieldPath
import DecisionTable.Formula.Lexer
import DecisionTable.Formula.Parser
import DecisionTable.Formula.SExpression
import DecisionTable.Formula.Token
import DecisionTable.Json.Basic
import DecisionTable.Json.Coercion
import DecisionTable.Json.Equality
import DecisionTable.Json.Printer
import DecisionTable.Json.Reader
import DecisionTable.Main
import DecisionTable.Proofs.Alike
import DecisionTable.Proofs.Binary64.Rounding
import DecisionTable.Proofs.Book.Bookkeeping
import DecisionTable.Proofs.Book.History
import DecisionTable.Proofs.Book.Interleaving
import DecisionTable.Proofs.Book.Linearization
import DecisionTable.Proofs.Book.Loading
import DecisionTable.Proofs.Book.Races
import DecisionTable.Proofs.Chaining.Confinement
import DecisionTable.Proofs.Chaining.Counter
import DecisionTable.Proofs.Chaining.FirstMatch
import DecisionTable.Proofs.Chaining.FixedPoint
import DecisionTable.Proofs.Chaining.Loop
import DecisionTable.Proofs.Chaining.Pass
import DecisionTable.Proofs.Chaining.Restarts
import DecisionTable.Proofs.Console.EverySheet
import DecisionTable.Proofs.Decimal.Nearest
import DecisionTable.Proofs.Decimal.Text
import DecisionTable.Proofs.Files.Names
import DecisionTable.Proofs.Formula.Assignment
import DecisionTable.Proofs.Formula.Bytes
import DecisionTable.Proofs.Formula.Completeness
import DecisionTable.Proofs.Formula.Conjunction
import DecisionTable.Proofs.Formula.ErrorOffsets
import DecisionTable.Proofs.Formula.Failures
import DecisionTable.Proofs.Formula.Fields
import DecisionTable.Proofs.Formula.Folding
import DecisionTable.Proofs.Formula.Grammar
import DecisionTable.Proofs.Formula.Grouping
import DecisionTable.Proofs.Formula.Joining
import DecisionTable.Proofs.Formula.Lexemes
import DecisionTable.Proofs.Formula.Lookahead
import DecisionTable.Proofs.Formula.Nesting
import DecisionTable.Proofs.Formula.NestingLimit
import DecisionTable.Proofs.Formula.Parsing
import DecisionTable.Proofs.Formula.Pinned
import DecisionTable.Proofs.Formula.Soundness
import DecisionTable.Proofs.Formula.Written
import DecisionTable.Proofs.Json.Comparison
import DecisionTable.Proofs.Json.Members
import DecisionTable.Proofs.Json.Number
import DecisionTable.Proofs.Rule.Encoding
import DecisionTable.Proofs.Rule.Source
import DecisionTable.Proofs.Sheet.Arrangement
import DecisionTable.Proofs.Sheet.ColumnNames
import DecisionTable.Proofs.Sheet.Compilation
import DecisionTable.Proofs.Sheet.Copies
import DecisionTable.Proofs.Sheet.Detection
import DecisionTable.Proofs.Sheet.Faults
import DecisionTable.Proofs.Sheet.Fragments
import DecisionTable.Proofs.Sheet.Gap
import DecisionTable.Proofs.Sheet.Header
import DecisionTable.Proofs.Sheet.Invariance
import DecisionTable.Proofs.Sheet.Labels
import DecisionTable.Proofs.Sheet.Layout
import DecisionTable.Proofs.Sheet.Literals
import DecisionTable.Proofs.Sheet.Lookup
import DecisionTable.Proofs.Sheet.Order
import DecisionTable.Proofs.Sheet.PlaceNames
import DecisionTable.Proofs.Sheet.Rows
import DecisionTable.Proofs.Sheet.Template
import DecisionTable.Rule.Basic
import DecisionTable.Rule.Set
import DecisionTable.Settings.Configuration
import DecisionTable.Settings.Environment
import DecisionTable.Settings.ProjectDirectory
import DecisionTable.Settings.Quoted
import DecisionTable.Settings.Scalar
import DecisionTable.Settings.Value
import DecisionTable.Settings.Yaml.BlockScalar
import DecisionTable.Settings.Yaml.Character
import DecisionTable.Settings.Yaml.Cursor
import DecisionTable.Settings.Yaml.FlowScalar
import DecisionTable.Settings.Yaml.Lexer
import DecisionTable.Settings.Yaml.Node
import DecisionTable.Settings.Yaml.Printer
import DecisionTable.Settings.Yaml.Reader
import DecisionTable.Settings.Yaml.Token
import DecisionTable.Sheet.ColumnMap
import DecisionTable.Sheet.Compile
import DecisionTable.Sheet.Csv
import DecisionTable.Sheet.Discovery
import DecisionTable.Sheet.Error
import DecisionTable.Sheet.Format
import DecisionTable.Sheet.Grid
import DecisionTable.Sheet.Layout
import DecisionTable.Sheet.Position
import DecisionTable.Sheet.Records
import DecisionTable.Sheet.Workbook
import DecisionTable.Text.Blank
import DecisionTable.Text.Timestamp
import DecisionTable.Text.Utf8
