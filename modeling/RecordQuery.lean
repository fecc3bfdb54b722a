import RecordQuery.App
import RecordQuery.CommandLine
import RecordQuery.Configuration
import RecordQuery.Datum
import RecordQuery.Decimal
import RecordQuery.Double
import RecordQuery.EnvironmentFile
import RecordQuery.FieldType
import RecordQuery.Filter.Coercion
import RecordQuery.Filter.Expr
import RecordQuery.Filter.LeadingToken
import RecordQuery.Filter.Lexed
import RecordQuery.Filter.Operator
import RecordQuery.Filter.OperatorSet
import RecordQuery.Filter.Parser
import RecordQuery.Filter.Resolution
import RecordQuery.Filter.Token
import RecordQuery.Filter.TokenStream
import RecordQuery.Json.Document
import RecordQuery.Json.Kept
import RecordQuery.Json.Number
import RecordQuery.Json.Reading
import RecordQuery.Json.Token
import RecordQuery.Json.Value
import RecordQuery.Limits
import RecordQuery.Main
import RecordQuery.Order
import RecordQuery.Program
import RecordQuery.Proofs.Agreement
import RecordQuery.Proofs.BoundQueryRuns
import RecordQuery.Proofs.Calendar
import RecordQuery.Proofs.Composition
import RecordQuery.Proofs.Continuations
import RecordQuery.Proofs.Declaration
import RecordQuery.Proofs.Demand
import RecordQuery.Proofs.DisplayedLiterals
import RecordQuery.Proofs.EncodingFaults
import RecordQuery.Proofs.ExplicitDeclarations
import RecordQuery.Proofs.FieldNames
import RecordQuery.Proofs.FirstFault
import RecordQuery.Proofs.FormEncoding
import RecordQuery.Proofs.Formats
import RecordQuery.Proofs.Fragment
import RecordQuery.Proofs.Grammar
import RecordQuery.Proofs.LenientOrder
import RecordQuery.Proofs.LongestTimestamps
import RecordQuery.Proofs.OrderSegments
import RecordQuery.Proofs.Outcome
import RecordQuery.Proofs.OutputModes
import RecordQuery.Proofs.ParameterReferences
import RecordQuery.Proofs.ParserCompleteness
import RecordQuery.Proofs.ParserFaults
import RecordQuery.Proofs.ParserRuns
import RecordQuery.Proofs.ParserSoundness
import RecordQuery.Proofs.ParserSteps
import RecordQuery.Proofs.PatternMatching
import RecordQuery.Proofs.Patterns
import RecordQuery.Proofs.Placeholders
import RecordQuery.Proofs.PrintedTimestamps
import RecordQuery.Proofs.PrintedTokens
import RecordQuery.Proofs.ReadTokens
import RecordQuery.Proofs.Readability
import RecordQuery.Proofs.Registration
import RecordQuery.Proofs.Rendering
import RecordQuery.Proofs.Requests
import RecordQuery.Proofs.Resolution
import RecordQuery.Proofs.StatementBoundaries
import RecordQuery.Proofs.StatementRuns
import RecordQuery.Proofs.StrictOrder
import RecordQuery.Proofs.StructuralLimits
import RecordQuery.Proofs.TargetAgreement
import RecordQuery.Proofs.TimestampForm
import RecordQuery.Proofs.TimestampFormats
import RecordQuery.Proofs.TokenContext
import RecordQuery.Proofs.TokenCuts
import RecordQuery.Proofs.TokenOrder
import RecordQuery.Proofs.TokenSpans
import RecordQuery.Proofs.Utf8
import RecordQuery.Proofs.ValidDeclarations
import RecordQuery.Proofs.WiderLimits
import RecordQuery.Proofs.WrittenInstants
import RecordQuery.Proofs.WrittenLiterals
import RecordQuery.Proofs.WrittenNumbers
import RecordQuery.Proofs.WrittenValues
import RecordQuery.QueryError
import RecordQuery.Request
import RecordQuery.RequestText
import RecordQuery.Schema.Field
import RecordQuery.Schema.RecordType
import RecordQuery.Schema.Registry
import RecordQuery.Schema.SchemaError
import RecordQuery.Schema.SchemaFile
import RecordQuery.Settings
import RecordQuery.SettingsText
import RecordQuery.Sql.BoundQuery
import RecordQuery.Sql.Condition
import RecordQuery.Sql.Dialect
import RecordQuery.Sql.Page
import RecordQuery.Sql.SortKey
import RecordQuery.Sql.Statement
import RecordQuery.Text.Alphanumeric
import RecordQuery.Text.Ascii
import RecordQuery.Text.Blank
import RecordQuery.Text.DecimalDigit
import RecordQuery.Text.FormEncoding
import RecordQuery.Text.LikePattern
import RecordQuery.Text.Numeral
import RecordQuery.Text.Utf8
import RecordQuery.Time.Date
import RecordQuery.Time.Timestamp
import RecordQuery.Time.Written
