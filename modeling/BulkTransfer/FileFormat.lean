import BulkTransfer.Path
import BulkTransfer.Text.Case

/-!
The file formats and their names.
-/

namespace BulkTransfer

/-- A file format for import and export. -/
inductive FileFormat where
  /-- Text with fields between delimiters. -/
  | delimited
  /-- Typed columns in row groups: a single file or a partitioned dataset. -/
  | columnar
  /-- JSON objects, one a line. -/
  | json
  deriving DecidableEq, Repr, Inhabited

namespace FileFormat

/-- The name of a format. -/
def name : FileFormat → String
  | delimited => "delimited"
  | columnar => "columnar"
  | json => "json"

/-- The usual file extension. -/
def extension : FileFormat → String
  | delimited => "csv"
  | columnar => "parquet"
  | json => "json"

/-- The format that a name stands for; case and blanks around it do not matter. -/
def ofName? (s : String) : Option FileFormat :=
  let word := Text.lowered (Text.trimmed s)
  if word ∈ ["csv", "tsv", "delimited", "text"] then some delimited
  else if word ∈ ["parquet", "pq", "columnar"] then some columnar
  else if word ∈ ["json", "ndjson", "jsonl"] then some json
  else none

/-- The format that the extension of a path tells. -/
def ofPath? (path : String) : Option FileFormat :=
  match (Path.extension? path).map Text.lowered with
  | some word =>
    if word ∈ ["csv", "tsv", "txt"] then some delimited
    else if word ∈ ["parquet", "pq"] then some columnar
    else if word ∈ ["json", "ndjson", "jsonl"] then some json
    else none
  | none => none

end FileFormat

end BulkTransfer
