import ColumnFormula.Text.Blank
import ColumnFormula.Text.Lines
import ColumnFormula.Text.CaseMap
import ColumnFormula.Text.DigitTable
import ColumnFormula.Text.Quoted
import ColumnFormula.Text.Utf8
import ColumnFormula.Number.Binary64
import ColumnFormula.Number.Decimal
import ColumnFormula.Number.Shortest
import ColumnFormula.Number.Display
import ColumnFormula.Number.Reading
import ColumnFormula.RawText
import ColumnFormula.Cell
import ColumnFormula.FormulaError
import ColumnFormula.Formula
import ColumnFormula.Aggregate
import ColumnFormula.Json
import ColumnFormula.Json.Printer
import ColumnFormula.Json.Reader
import ColumnFormula.Event
import ColumnFormula.Event.Redaction
import ColumnFormula.Event.Fields
import ColumnFormula.FileTree
import ColumnFormula.Log
import ColumnFormula.Log.Query
import ColumnFormula.Log.Reporter
import ColumnFormula.Table
import ColumnFormula.Table.Records
import ColumnFormula.Table.Csv
import ColumnFormula.Sheet.Store
import ColumnFormula.Sheet
import ColumnFormula.Sheet.Calculation
import ColumnFormula.Sheet.Recalculation
import ColumnFormula.Handles
import ColumnFormula.Boundary
import ColumnFormula.Yaml
import ColumnFormula.Yaml.Plain
import ColumnFormula.Yaml.Cursor
import ColumnFormula.Yaml.Text
import ColumnFormula.Yaml.Reader
import ColumnFormula.Config
import ColumnFormula.Session
import ColumnFormula.Log.Project
import ColumnFormula.Json.Plain
import ColumnFormula.CommandLine.Arguments
import ColumnFormula.CommandLine.Command
import ColumnFormula.CommandLine.Ending
import ColumnFormula.CommandLine
import ColumnFormula.Event.Stamp
import ColumnFormula.Main
import ColumnFormula.Proofs.Text.Trim
import ColumnFormula.Proofs.Text.Utf8
import ColumnFormula.Proofs.Text.Lines
import ColumnFormula.Proofs.Number.Rounding
import ColumnFormula.Proofs.Number.Decimal
import ColumnFormula.Proofs.Number.Shortest
import ColumnFormula.Proofs.Number.Digits
import ColumnFormula.Proofs.Number.Numeral
import ColumnFormula.Proofs.Json.Strings
import ColumnFormula.Proofs.Json.Numbers
import ColumnFormula.Proofs.Json.RoundTrip
import ColumnFormula.Proofs.Json.SortKeys
import ColumnFormula.Proofs.Json.Characters
import ColumnFormula.Proofs.FileTree.Appending
import ColumnFormula.Proofs.Log.Lines
import ColumnFormula.Proofs.Log.Records
import ColumnFormula.Proofs.Log.Filters
import ColumnFormula.Proofs.Log.RoundTrip
import ColumnFormula.Proofs.Log.Tail
import ColumnFormula.Proofs.Sheet.Passes
import ColumnFormula.Proofs.Sheet.Dependents
import ColumnFormula.Proofs.Session.Independence
import ColumnFormula.Proofs.Event.Redaction
import ColumnFormula.Proofs.Formula.Grammar
import ColumnFormula.Proofs.Handles.Reachable
import ColumnFormula.Proofs.Boundary.Calls
import ColumnFormula.Proofs.CommandLine.Aggregate
import ColumnFormula.Proofs.FrontEnds
import ColumnFormula.Proofs.Lookup
import ColumnFormula.Proofs.Sheet.Store
import ColumnFormula.Proofs.Number.Range
import ColumnFormula.Proofs.Aggregate.Range
import ColumnFormula.Proofs.Session.Formulas
import ColumnFormula.Proofs.Session.Storing
import ColumnFormula.Proofs.Number.Length
import ColumnFormula.Proofs.Sheet.Reports
import ColumnFormula.Proofs.Session.Reporting
import ColumnFormula.Proofs.Session.Trace
import ColumnFormula.Proofs.Session.Replay
import ColumnFormula.Proofs.Handles.History
import ColumnFormula.Proofs.Log.AppendOnly
import ColumnFormula.Proofs.Table.Blocks
import ColumnFormula.Proofs.Table.ReadBack
import ColumnFormula.Proofs.Text.UpperCase
import ColumnFormula.Proofs.Log.Windows
import ColumnFormula.Proofs.Sheet.Notices
import ColumnFormula.Proofs.Session.Recalculation
import ColumnFormula.Proofs.Sheet.Stages
import ColumnFormula.Proofs.Formula.Canonical
import ColumnFormula.Proofs.Number.Literal
import ColumnFormula.Proofs.Aggregate.ReadBack
import ColumnFormula.Proofs.Boundary.Encoding
import ColumnFormula.Proofs.Text.IllFormed
import ColumnFormula.Proofs.Number.Nearest
import ColumnFormula.Proofs.Number.Whole
import ColumnFormula.Proofs.Aggregate.WholeSums
import ColumnFormula.Proofs.Aggregate.RowOrder
import ColumnFormula.Proofs.Event.Shape
import ColumnFormula.Proofs.Log.Damaged
import ColumnFormula.Proofs.Log.Limits
import ColumnFormula.Proofs.Log.CalcIds
import ColumnFormula.Proofs.Number.Difference
import ColumnFormula.Proofs.Log.Warnings
import ColumnFormula.Proofs.Json.Rests
import ColumnFormula.Proofs.Json.Fragments
import ColumnFormula.Proofs.Log.OpenLines
import ColumnFormula.Proofs.Text.BlankLines
import ColumnFormula.Proofs.Table.QuotedRows
import ColumnFormula.Proofs.Table.LineFeeds
import ColumnFormula.Proofs.Table.Names
import ColumnFormula.Proofs.Table.Trimming
import ColumnFormula.Proofs.CommandLine.Logs
