import TypedRecords.Columnar.Batch
import TypedRecords.Main
import TypedRecords.Proofs.Inference.RecordSet
import TypedRecords.Proofs.DataType.Plain
import TypedRecords.Proofs.Json.Numeral
import TypedRecords.Proofs.Json.Formed
import TypedRecords.Proofs.Calendar.Day
import TypedRecords.Proofs.Calendar.Reader
import TypedRecords.Proofs.DataType.Canonical
import TypedRecords.Proofs.DataType.Order
import TypedRecords.Proofs.Decimal.Literal
import TypedRecords.Proofs.Inference.Literals
import TypedRecords.Proofs.Row.Read
import TypedRecords.Proofs.Inference.Soundness
import TypedRecords.Proofs.Inference.Corrupt
import TypedRecords.Proofs.Json.Quote
import TypedRecords.Proofs.Json.RoundTrip
import TypedRecords.Proofs.Text.Base64
import TypedRecords.Proofs.Calendar.RoundTrip
import TypedRecords.Proofs.Floating.Rounding
import TypedRecords.Proofs.Floating.Shortest
import TypedRecords.Proofs.Floating.Layout
import TypedRecords.Proofs.Decimal.RoundTrip
import TypedRecords.Proofs.Row.Scalars
import TypedRecords.Proofs.Row.RoundTrip
import TypedRecords.Proofs.Row.Record
import TypedRecords.Proofs.Row.Typed
import TypedRecords.Proofs.Row.Encodable
import TypedRecords.Proofs.Row.Range
import TypedRecords.Proofs.Schema.Distinct
import TypedRecords.Proofs.Inference.Undisturbed
import TypedRecords.Proofs.Inference.Canonical
import TypedRecords.Proofs.Inference.Observed
import TypedRecords.Proofs.Command.Saved
import TypedRecords.Proofs.Inference.Elements
import TypedRecords.Proofs.Row.Stream
import TypedRecords.Proofs.Row.Undeclared
import TypedRecords.Proofs.Row.Unaliased
import TypedRecords.Proofs.Decimal.Nearest
import TypedRecords.Proofs.Decimal.Words
import TypedRecords.Proofs.Decimal.Exact
import TypedRecords.Proofs.Command.Normalize
import TypedRecords.Proofs.Json.Printable
import TypedRecords.Proofs.Command.Idempotent
import TypedRecords.Proofs.Row.Line
import TypedRecords.Proofs.Row.Strict
import TypedRecords.Proofs.DataType.Aliases
import TypedRecords.Proofs.DataType.Overlap
import TypedRecords.Proofs.Command.Report
import TypedRecords.Proofs.Row.Temporal
import TypedRecords.Proofs.Row.Widening
import TypedRecords.Proofs.DataType.Holding
import TypedRecords.Proofs.DataType.Normal
import TypedRecords.Proofs.Schema.Accepted
import TypedRecords.Proofs.Decimal.Distance
import TypedRecords.Proofs.Decimal.Canonical
import TypedRecords.Proofs.Columnar.Batch
import TypedRecords.Proofs.Decimal.Grammar
