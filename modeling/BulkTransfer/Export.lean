import BulkTransfer.Session.Basic
import BulkTransfer.Writer

/-!
Exporting a table: one query, whose rows go to a writer. A failure in the middle ends the export;
what was written until then is finished and stays.
-/

namespace BulkTransfer.Export

/-- What an export reads and how it is written. -/
structure Job where
  /-- The table as statements name it. -/
  table : String
  /-- The columns asked for; none means all. -/
  columns : List String
  options : Options
  format : FileFormat

/-- The query of an export. The option `LIMIT` goes before `MAXROWS`. -/
def Job.statement (job : Job) : String :=
  Statement.select job.table job.columns (job.options.limit? <|> job.options.maxRows?)

/-- The outcome of an export. -/
structure Report where
  rows : Nat
  files : Nat
  partitions : List PartitionReport
  evicted : Nat
  /-- Why the export ended early. -/
  failure? : Option Failure

/-- Whether all rows were exported. -/
def Report.isComplete (r : Report) : Bool := r.failure?.isNone

/-- What an export leaves: the tree of files, the bytes of a stream, and the report. -/
structure Outcome where
  tree : FileTree
  stream : Bytes
  result : Except Failure Report

variable [Columnar.Platform]

/-- Writes rows up to the first failure, and counts them. -/
def pour (w : Writer) (count : Nat) : List (Except Failure Row) → Writer × Nat × Option Failure
  | [] => (w, count, none)
  | .error e :: _ => (w, count, some e)
  | .ok row :: more => match w.write row with
    | (w, .error e) => (w, count, some e)
    | (w, .ok ()) => pour w (count + 1) more

/-- The report of an export, from the count and failure of its rows and from closing the writer. -/
def reportOf (rows : Nat) (failure? : Option Failure) :
    Except Failure WriteReport → Report
  | .ok written => ⟨rows, written.files, written.partitions, written.evicted, failure?⟩
  | .error e => ⟨rows, 0, [], 0, some (failure?.getD e)⟩

/-- Exports to a sink. -/
def run (job : Job) (session : Session) (tree : FileTree) (sink : Sink) : Outcome :=
  match session.query job.statement with
  | .error e => ⟨tree, [], .error e⟩
  | .ok found => match Writer.create tree job.format sink found.columns job.options with
    | (tree, .error e) => ⟨tree, [], .error e⟩
    | (_, .ok writer) =>
      let (writer, rows, failure?) := pour writer 0 found.rows
      let (written, closed) := writer.close
      ⟨written.tree, written.stream, .ok (reportOf rows failure? closed)⟩

end BulkTransfer.Export
