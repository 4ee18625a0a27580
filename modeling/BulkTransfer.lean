import BulkTransfer.Budget
import BulkTransfer.Cli.Arguments
import BulkTransfer.Cli.Help
import BulkTransfer.Cli.Paths
import BulkTransfer.Cli.Run
import BulkTransfer.Column
import BulkTransfer.ColumnType.Basic
import BulkTransfer.ColumnType.Reader
import BulkTransfer.Columnar.File
import BulkTransfer.Columnar.Physical
import BulkTransfer.Columnar.Platform
import BulkTransfer.Columnar.Reader
import BulkTransfer.Columnar.Restore
import BulkTransfer.Columnar.Storage
import BulkTransfer.Columnar.Store
import BulkTransfer.Columnar.Writer
import BulkTransfer.Config
import BulkTransfer.Copy
import BulkTransfer.Delimited.Reader
import BulkTransfer.Delimited.Record
import BulkTransfer.Delimited.Writer
import BulkTransfer.Export
import BulkTransfer.Failure
import BulkTransfer.FileFormat
import BulkTransfer.FileTree
import BulkTransfer.Hex
import BulkTransfer.Import.Batch
import BulkTransfer.Import.Ledger
import BulkTransfer.Import.Run
import BulkTransfer.Import.Schedule
import BulkTransfer.Instant.Basic
import BulkTransfer.Instant.Calendar
import BulkTransfer.Instant.Reader
import BulkTransfer.Json.Basic
import BulkTransfer.Json.Cursor
import BulkTransfer.Json.Number
import BulkTransfer.Json.Reader
import BulkTransfer.Json.Shape
import BulkTransfer.Json.Skip
import BulkTransfer.JsonLines.Reader
import BulkTransfer.JsonLines.Writer
import BulkTransfer.Keyed
import BulkTransfer.Literal.Conform
import BulkTransfer.Literal.Failure
import BulkTransfer.Literal.Printer
import BulkTransfer.Literal.Reader
import BulkTransfer.Literal.Scalar
import BulkTransfer.Main
import BulkTransfer.Number.Binary64
import BulkTransfer.Number.Integer
import BulkTransfer.Number.Shortest
import BulkTransfer.Number.Spelling
import BulkTransfer.Options.Basic
import BulkTransfer.Options.Compression
import BulkTransfer.Options.Threshold
import BulkTransfer.Partition.Column
import BulkTransfer.Partition.Key
import BulkTransfer.Partition.Reader
import BulkTransfer.Partition.Writer
import BulkTransfer.Path
import BulkTransfer.Reader
import BulkTransfer.Record
import BulkTransfer.Row
import BulkTransfer.Session.Basic
import BulkTransfer.Session.Dataset
import BulkTransfer.Session.Statement
import BulkTransfer.Source
import BulkTransfer.Text.Blank
import BulkTransfer.Text.Case
import BulkTransfer.Text.CaseTable
import BulkTransfer.Text.Letter
import BulkTransfer.Text.Line
import BulkTransfer.Text.Numeral
import BulkTransfer.Text.Pattern
import BulkTransfer.Text.Quoted
import BulkTransfer.Text.Ranges
import BulkTransfer.Text.Split
import BulkTransfer.Text.Utf8
import BulkTransfer.Text.Word
import BulkTransfer.Toml.Basic
import BulkTransfer.Toml.Quoted
import BulkTransfer.Toml.Reader
import BulkTransfer.Toml.Scalar
import BulkTransfer.Toml.Table
import BulkTransfer.Transfer.Basic
import BulkTransfer.Transfer.Command
import BulkTransfer.Uuid
import BulkTransfer.Value.Basic
import BulkTransfer.Value.Json
import BulkTransfer.WriteReport
import BulkTransfer.Writer
import BulkTransfer.Proofs.Instant.Calendar
import BulkTransfer.Proofs.Instant.Reading
import BulkTransfer.Proofs.Uuid
import BulkTransfer.Proofs.Literal.Token
import BulkTransfer.Proofs.Value.Canonical
import BulkTransfer.Proofs.Literal.RoundTrip
import BulkTransfer.Proofs.Import.Trace
import BulkTransfer.Proofs.Reader
import BulkTransfer.Proofs.Reader.Stepwise
import BulkTransfer.Proofs.Import.Step
import BulkTransfer.Proofs.Import.Writes
import BulkTransfer.Proofs.Import.Reading
import BulkTransfer.Proofs.Import.Interleaving
import BulkTransfer.Proofs.Session.Growth
import BulkTransfer.Proofs.Import.Aborted
import BulkTransfer.Proofs.Import.Sequential
import BulkTransfer.Proofs.Session.Names
import BulkTransfer.Proofs.Session.Insert
import BulkTransfer.Proofs.Session.Query
import BulkTransfer.Proofs.Delimited.Cursor
import BulkTransfer.Proofs.Delimited.Record
import BulkTransfer.Proofs.Delimited.RoundTrip
import BulkTransfer.Proofs.FileTree
import BulkTransfer.Proofs.Import.Faultless
import BulkTransfer.Proofs.Budget
import BulkTransfer.Proofs.ColumnType
import BulkTransfer.Proofs.Columnar.Cell
import BulkTransfer.Proofs.Columnar.Cursor
import BulkTransfer.Proofs.Columnar.Rows
import BulkTransfer.Proofs.Columnar.RoundTrip
import BulkTransfer.Proofs.Copy.File
import BulkTransfer.Proofs.Copy.Rejected
import BulkTransfer.Proofs.Copy.RoundTrip
import BulkTransfer.Proofs.Literal.Shape
import BulkTransfer.Proofs.Value.Fitted
import BulkTransfer.Proofs.Literal.Number
import BulkTransfer.Proofs.Literal.Naming
import BulkTransfer.Proofs.Session.Execute
import BulkTransfer.Proofs.Keyed
import BulkTransfer.Proofs.Transfer.Command
import BulkTransfer.Proofs.Json.RoundTrip
import BulkTransfer.Proofs.Value.Json
import BulkTransfer.Proofs.JsonLines.Cursor
import BulkTransfer.Proofs.JsonLines.RoundTrip
import BulkTransfer.Proofs.Path
import BulkTransfer.Proofs.Partition.Key
import BulkTransfer.Proofs.FileTree.Growth
import BulkTransfer.Proofs.Columnar.Taken
import BulkTransfer.Proofs.Partition.Entries
import BulkTransfer.Proofs.Partition.Parts
import BulkTransfer.Proofs.Partition.Writer
import BulkTransfer.Proofs.Partition.Written
import BulkTransfer.Proofs.Partition.OpenFiles
import BulkTransfer.Proofs.Partition.Rotation
import BulkTransfer.Proofs.Partition.Cursor
import BulkTransfer.Proofs.Partition.Discovery
import BulkTransfer.Proofs.Partition.Escape
import BulkTransfer.Proofs.Partition.RoundTrip
import BulkTransfer.Proofs.Reader.Calls
import BulkTransfer.Proofs.Value.Pairs
import BulkTransfer.Proofs.Literal.Fields
import BulkTransfer.Proofs.Session.Identifiers
import BulkTransfer.Proofs.Columnar.Stuck
import BulkTransfer.Proofs.Partition.Attempts
import BulkTransfer.Proofs.Partition.Report
import BulkTransfer.Proofs.Import.Trip
import BulkTransfer.Proofs.Export.Finished
import BulkTransfer.Proofs.Export.Cut
import BulkTransfer.Proofs.Literal.Spelling
import BulkTransfer.Proofs.Partition.Guess
import BulkTransfer.Proofs.Columnar.Groups
import BulkTransfer.Proofs.Value.Settled
import BulkTransfer.Proofs.Instant.Spellings
import BulkTransfer.Proofs.Literal.Endless
import BulkTransfer.Proofs.Partition.Directory
import BulkTransfer.Proofs.Columnar.Rounding
