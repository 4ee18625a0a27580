import BulkTransfer.FileFormat
import BulkTransfer.Json.Cursor
import BulkTransfer.Literal.Failure

/-!
Why a command or an operation fails, and the wording of each cause.
-/

namespace BulkTransfer

/-- Why an input is refused. -/
inductive InputFault where
  | unknownType (text : String)
  | unknownCodec (text : String)
  | unknownFormat (text : String)
  | improperCommand (text : String)
  | emptyColumnList
  | unexpectedOption (text : String)
  | exportToInput
  | importFromOutput
  | columnarInputStream
  | columnarOutputStream
  | partitionedFormat (format : FileFormat)
  | unknownColumn (name table : String)
  | columnNotInSource (name : String)
  | noColumns (table : String)
  | noDelimitedColumns
  | noJsonColumns
  | badJsonArray (cause : Json.Failure)
  | noColumnarColumns
  | unknownTimePart (part spec : String)
  | noPartitionColumns
  | partitionColumnMissing (name : String)
  | noDatasetFiles (root : String)
  | badDataset (cause : Json.Failure)
  | badDatasetValue (table column : String) (cause : ValueFailure)
  | unknownDatasetColumn (table column : String)

/-- The wording of a refused input. -/
def InputFault.message : InputFault → String
  | unknownType s => "Unknown column type: " ++ s
  | unknownCodec s => "Unknown compression codec: " ++ s
  | unknownFormat s => "Unknown format: " ++ s
  | improperCommand s => "Improper COPY command: " ++ s
  | emptyColumnList => "Empty column list in COPY command"
  | unexpectedOption s => "Unexpected text in WITH clause: " ++ s
  | exportToInput => "COPY TO cannot write to STDIN"
  | importFromOutput => "COPY FROM cannot read from STDOUT"
  | columnarInputStream => "STDIN is not supported for columnar format; use a file path"
  | columnarOutputStream => "STDOUT is not supported for columnar format; use a file path"
  | partitionedFormat format => "PARTITION requires columnar format, got " ++ format.name
  | unknownColumn name table => "Column '" ++ name ++ "' not found in table " ++ table
  | columnNotInSource name => "Column '" ++ name ++ "' not found in source"
  | noColumns table =>
    "Cannot determine columns for table " ++ table ++ ". Please specify columns explicitly."
  | noDelimitedColumns => "Cannot determine column names: no column list, header or table schema"
  | noJsonColumns => "Cannot determine column names for JSON input"
  | badJsonArray cause => "Failed to parse JSON array: " ++ cause.message
  | noColumnarColumns => "Columnar output needs at least one column"
  | unknownTimePart part spec =>
    "Unknown partition date part '" ++ part ++ "' in " ++ spec ++
      "; expected year, month, day, hour or date"
  | noPartitionColumns => "No partition columns given"
  | partitionColumnMissing name =>
    "Partition column '" ++ name ++ "' not found in result columns"
  | noDatasetFiles root => "No Parquet files found in directory: " ++ root
  | badDataset cause => "Invalid dataset: " ++ cause.message
  | badDatasetValue table column cause => table ++ "." ++ column ++ ": " ++ cause.message
  | unknownDatasetColumn table column => table ++ ": unknown column " ++ column

/-- Why a session rejects a query or a statement. -/
inductive ExecutionFault where
  | unconfiguredTable (key : String)
  | unsupportedQuery (statement : String)
  | unsupportedStatement (statement : String)
  | undefinedColumn (name : String)
  | invalidValues (cause : ValueFailure)
  /-- A failure that was asked for: of every write. -/
  | writeTimeout
  /-- A failure that was asked for: of writes that contain a text. -/
  | writeFailure (pattern : String)
  /-- A failure that was asked for: of a query after some rows. -/
  | readFailure (rows : Nat)

/-- The wording of a rejected query or statement. -/
def ExecutionFault.message : ExecutionFault → String
  | unconfiguredTable key => "unconfigured table " ++ key
  | unsupportedQuery statement => "unsupported query: " ++ statement
  | unsupportedStatement statement => "unsupported statement: " ++ statement
  | undefinedColumn name => "Undefined column name " ++ name
  | invalidValues cause => "Invalid values: " ++ cause.message
  | writeTimeout => "simulated write timeout"
  | writeFailure pattern => "simulated write failure for '" ++ pattern ++ "'"
  | readFailure rows => "simulated read failure after " ++ Integer.natText rows ++ " rows"

/-- A failed command or operation. -/
inductive Failure where
  /-- The input is refused before anything is done. -/
  | invalidInput (fault : InputFault)
  /-- A step on files or encodings failed. -/
  | operation (name cause : String)
  /-- A session rejected a query or a statement. -/
  | execution (fault : ExecutionFault)
  /-- The configuration cannot be used. -/
  | config (cause : String)

namespace Failure

/-- The wording of a failure. -/
def message : Failure → String
  | invalidInput fault => "invalid input: " ++ fault.message
  | operation name cause => "operation '" ++ name ++ "' failed: " ++ cause
  | execution fault => "execution failed: " ++ fault.message
  | config cause => "configuration error: " ++ cause

end Failure

end BulkTransfer
