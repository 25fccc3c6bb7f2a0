import LogQuery.Address
import LogQuery.Answer
import LogQuery.CommandLine
import LogQuery.CommandLine.Command
import LogQuery.Compilation
import LogQuery.Condition
import LogQuery.Detection
import LogQuery.Fault
import LogQuery.FieldPath
import LogQuery.Filter
import LogQuery.Json
import LogQuery.Json.Decoding
import LogQuery.Json.Document
import LogQuery.Json.Lexeme
import LogQuery.Json.Numeral
import LogQuery.LogsQl.Filter
import LogQuery.LogsQl.Statement
import LogQuery.Main
import LogQuery.Number.Decimal
import LogQuery.Number.Double
import LogQuery.Number.Integer
import LogQuery.Number.Shortest
import LogQuery.Parameter
import LogQuery.Token
import LogQuery.Proofs.Number
import LogQuery.Proofs.Text
import LogQuery.Query
import LogQuery.Query.Parser
import LogQuery.Schema
import LogQuery.Service
import LogQuery.Service.Body
import LogQuery.Service.MediaType
import LogQuery.Service.Target
import LogQuery.Settings
import LogQuery.Sql.Filter
import LogQuery.Sql.Projection
import LogQuery.Sql.Statement
import LogQuery.Text.Alphabetic
import LogQuery.Text.Basic
import LogQuery.Text.Numeric
import LogQuery.Text.Quoted
import LogQuery.Time.Calendar
import LogQuery.Time.Instant
import LogQuery.Token.Lexer
import LogQuery.Proofs.Grammar
import LogQuery.Proofs.Parser
import LogQuery.Proofs.Formula
import LogQuery.Proofs.Sql.Pieces
import LogQuery.Proofs.Sql.Words
import LogQuery.Proofs.Sql.Reader
import LogQuery.Proofs.Sql.Filter
import LogQuery.Proofs.Derivation
import LogQuery.Proofs.Sql.Statement
import LogQuery.Proofs.Lexer
import LogQuery.Proofs.Scan
import LogQuery.Proofs.FieldPath
import LogQuery.Proofs.Printing
import LogQuery.Proofs.Condition
import LogQuery.Proofs.LogsQl.Comparison
import LogQuery.Proofs.Sql.Identifier
import LogQuery.Proofs.Conjuncts
import LogQuery.Proofs.LogsQl.Filter
import LogQuery.Proofs.LogsQl.Statement
import LogQuery.Proofs.Rejection
import LogQuery.Proofs.Slices
import LogQuery.Proofs.Place
import LogQuery.Proofs.Agreement
import LogQuery.Proofs.Precedence
import LogQuery.Proofs.Limits
import LogQuery.Proofs.Tiling
import LogQuery.Proofs.Shape
import LogQuery.Proofs.Layout
import LogQuery.Proofs.Dots
import LogQuery.Proofs.Tree
import LogQuery.Proofs.Sql.Projection
import LogQuery.Proofs.Sql.OutputNames
import LogQuery.Proofs.LogsQl.Projection
import LogQuery.Proofs.LogsQl.Spaces
import LogQuery.Proofs.Time.Calendar
import LogQuery.Proofs.Time.Notation
import LogQuery.Proofs.Wrappers
import LogQuery.Proofs.Alphabets
import LogQuery.Proofs.Escaping
