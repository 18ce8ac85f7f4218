import Telemetry.Calendar.Civil
import Telemetry.Calendar.Instant
import Telemetry.Calendar.Interval
import Telemetry.Calendar.Pattern
import Telemetry.Calendar.Period
import Telemetry.Calendar.Stamp
import Telemetry.Configuration
import Telemetry.Csv.Row
import Telemetry.Cursor
import Telemetry.Expression
import Telemetry.Fault
import Telemetry.Function
import Telemetry.Json.Decimal
import Telemetry.Json.Reader
import Telemetry.Json.Token
import Telemetry.Json.Tree
import Telemetry.Json.Writer
import Telemetry.Link
import Telemetry.Literal
import Telemetry.Main
import Telemetry.Number.Binary
import Telemetry.Number.Form
import Telemetry.Number.Integer
import Telemetry.Number.Notation
import Telemetry.Number.Reading
import Telemetry.Number.Real
import Telemetry.Number.Shortest
import Telemetry.Operator.Analysis
import Telemetry.Operator.Arithmetic
import Telemetry.Operator.Conversion
import Telemetry.Operator.Dating
import Telemetry.Operator.Directive
import Telemetry.Operator.Logic
import Telemetry.Operator.Rule
import Telemetry.Operator.Textual
import Telemetry.Pass
import Telemetry.Proofs.AgeWindow
import Telemetry.Proofs.Buffers
import Telemetry.Proofs.CommonKey
import Telemetry.Proofs.Compilation
import Telemetry.Proofs.Copies
import Telemetry.Proofs.Deliveries
import Telemetry.Proofs.Depth
import Telemetry.Proofs.FailingPass
import Telemetry.Proofs.Histories
import Telemetry.Proofs.InPlace
import Telemetry.Proofs.IncrementalLinking
import Telemetry.Proofs.Latest
import Telemetry.Proofs.Library
import Telemetry.Proofs.Linking
import Telemetry.Proofs.Locality
import Telemetry.Proofs.Lockstep
import Telemetry.Proofs.Mismatch
import Telemetry.Proofs.PassInPlace
import Telemetry.Proofs.Passes
import Telemetry.Proofs.Relinking
import Telemetry.Proofs.ResultTime
import Telemetry.Proofs.Rewrites
import Telemetry.Proofs.Session
import Telemetry.Proofs.Skipped
import Telemetry.Proofs.SynchronizedTime
import Telemetry.Proofs.Walk
import Telemetry.Proofs.Written
import Telemetry.Replay.Arguments
import Telemetry.Replay.CommandLine
import Telemetry.Replay.Definition
import Telemetry.Replay.Environment
import Telemetry.Replay.Record
import Telemetry.Replay.Report
import Telemetry.Replay.Run
import Telemetry.Replay.Setting
import Telemetry.Replay.Settings
import Telemetry.Script
import Telemetry.Source
import Telemetry.Stack
import Telemetry.Synch
import Telemetry.Text.Blank
import Telemetry.Text.Case
import Telemetry.Text.CaseTable
import Telemetry.Text.Digit
import Telemetry.Text.Escape
import Telemetry.Text.Search
import Telemetry.Token
import Telemetry.Value
import Telemetry.Variable
import Telemetry.Window.Aggregate
import Telemetry.Window.History
import Telemetry.Window.Retention
import Telemetry.Window.Ring
import Telemetry.Window.Running
import Telemetry.Word
import Telemetry.Yaml.Meaning
import Telemetry.Yaml.Node
import Telemetry.Yaml.Scalar
import Telemetry.Yaml.Token
import Telemetry.Proofs.ArrivalOrder
import Telemetry.Proofs.CountWindow
import Telemetry.Proofs.Periods
import Telemetry.Proofs.ResetWindow
import Telemetry.Proofs.MalformedRow
import Telemetry.Proofs.LineFeeds
import Telemetry.Proofs.ReportLines
import Telemetry.Proofs.Rendering
import Telemetry.Proofs.ColumnOrder
import Telemetry.Proofs.Numerals
import Telemetry.Proofs.StatelessPasses
import Telemetry.Proofs.LiteralForms
import Telemetry.Proofs.AliasChains
import Telemetry.Proofs.KeyedSamples
import Telemetry.Proofs.Ranks
import Telemetry.Proofs.RefusedLinks
import Telemetry.Proofs.ScriptCode
import Telemetry.Proofs.NumberTexts
import Telemetry.Proofs.Negations
import Telemetry.Proofs.CivilDates
import Telemetry.Proofs.Intervals
import Telemetry.Proofs.Application
import Telemetry.Proofs.DateTexts
import Telemetry.Proofs.SerialDates
import Telemetry.Proofs.Components
import Telemetry.Proofs.Nesting
import Telemetry.Proofs.SourceItems
import Telemetry.Proofs.QuotedTexts
import Telemetry.Proofs.IntegerSpellings
import Telemetry.Proofs.NearestDoubles
import Telemetry.Proofs.TextualIntegers
import Telemetry.Proofs.DoubleOrder
import Telemetry.Proofs.RunningCalculations
import Telemetry.Proofs.WholeDivision
import Telemetry.Proofs.Substrings
import Telemetry.Proofs.Searches
import Telemetry.Proofs.Comparisons
import Telemetry.Proofs.Resolutions
import Telemetry.Proofs.CarriedSums
import Telemetry.Proofs.TotalOrder
import Telemetry.Proofs.Medians
