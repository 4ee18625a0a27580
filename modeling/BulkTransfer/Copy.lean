import BulkTransfer.Export
import BulkTransfer.Import.Run
import BulkTransfer.Transfer.Command

/-!
Carrying out a command: its options are completed, its parts are judged before anything is touched,
and the export or import is run and summed up.
-/

namespace BulkTransfer.Copy

/-- What a command works on. -/
structure World where
  session : Session
  tree : FileTree

/-- How commands are carried out. -/
structure Setting where
  /-- Values of options that a command does not set. -/
  defaults : Options
  /-- Whether the columns of tables are known. -/
  knowsTables : Bool

/-- What a command has done. -/
inductive Summary where
  | exported (destination : String) (format : FileFormat) (partitioned : Bool)
      (report : Export.Report)
  | imported (source : String) (report : Import.Report)

/-- A count as text. -/
def count (n : Nat) : String := Integer.natText n

/-- The summary of an export as text. -/
def exportText (destination : String) (format : FileFormat) (partitioned : Bool)
    (r : Export.Report) : String :=
  match r.failure? with
  | some failure =>
    "Export to " ++ destination ++ " failed after " ++ count r.rows ++ " rows: " ++ failure.message
  | none =>
    if partitioned then
      "Exported " ++ count r.rows ++ " rows to " ++ count r.partitions.length ++
        " partitions in " ++ destination ++ " (" ++ count r.files ++ " files)"
    else if format = .columnar then
      "Exported " ++ count r.rows ++ " rows to " ++ destination ++ " (Parquet format)"
    else "Exported " ++ count r.rows ++ " rows to " ++ destination

/-- A note in brackets, if there is something to count. -/
def noteText (before : String) (n : Nat) (after : String) : String :=
  if 0 < n then " (" ++ before ++ count n ++ after ++ ")" else ""

/-- The summary of an import as text, without the kept errors. -/
def importHead (source : String) (r : Import.Report) : String :=
  match r.aborted? with
  | some trip =>
    let kind := trip.kind.name
    "Too many " ++ kind ++ " errors. Imported " ++ count r.succeeded ++ " rows, failed after " ++
      count trip.count ++ " " ++ kind ++ " errors"
  | none =>
    let what := match r.dataset? with
      | some size =>
        "Imported " ++ count r.succeeded ++ " rows from partitioned dataset (" ++
          count size.files ++ " files, " ++ count size.partitions ++ " partitions)"
      | none => "Imported " ++ count r.succeeded ++ " rows from " ++ source
    what ++ noteText "skipped " r.skipped " rows" ++ noteText "" r.parseErrors " parse errors" ++
      noteText "" r.insertErrors " insert errors"

/-- A summary as text. -/
def Summary.text : Summary → String
  | exported destination format partitioned report =>
    exportText destination format partitioned report
  | imported source report =>
    importHead source report ++
      Budget.renderSamples report.samples (report.parseErrors + report.insertErrors)

/-- What a command leaves. -/
structure Outcome where
  world : World
  /-- The bytes written to the output stream. -/
  output : Bytes
  /-- The bytes of the input stream that were not read. -/
  unread : Bytes
  progress : List Import.Progress
  result : Except Failure Summary

/-! ## Resolving -/

/-- The table as statements name it, in the keyspace of the session where none is named. -/
def qualifiedTable (s : Session) (t : Transfer) : String :=
  match splitTable t.table, s.keyspace? with
  | (none, name), some keyspace => keyspace ++ "." ++ name
  | (none, name), none => name
  | (some _, _), _ => t.table

/-- The columns of the table of a transfer, where they are known. -/
def tableColumns? (setting : Setting) (s : Session) (t : Transfer) : Option (List Column) :=
  if setting.knowsTables then
    let (keyspace?, name) := splitTable t.table
    s.columns? (keyspace? <|> s.keyspace?) name
  else none

/-- The first name that a known table does not have. -/
def unknownColumn? (known? : Option (List Column)) (names : List String) : Option String :=
  match known? with
  | some known => names.find? fun n => (Column.find? known n).isNone
  | none => none

/-- The path of an export: a single columnar file gets an extension where it has none. -/
def exportPath (path : String) (format : FileFormat) (partitioned : Bool) : String :=
  if format = .columnar && !partitioned && (Path.extension? path).isNone then
    Path.addExtension path format.extension
  else path

/-- The columns of the source that names ask for. -/
def pickColumns (source : List Column) : List String → Except Failure (List Column)
  | [] => .ok []
  | name :: more => match Column.find? source name with
    | none => .error (.invalidInput (.columnNotInSource name))
    | some c => match pickColumns source more with
      | .ok rest => .ok (c :: rest)
      | .error e => .error e

/-- A column with the type that the table knows where the source has none. -/
def completeColumn (table : List Column) (c : Column) : Column :=
  match c.type? with
  | some _ => c
  | none => { c with type? := Column.typeOf? table c.name }

/-- The columns that an import inserts: those named, or all of the source. -/
def importColumns (explicit : List String) (source table : List Column) (tableName : String) :
    Except Failure (List Column) :=
  match if explicit.isEmpty then .ok source else pickColumns source explicit with
  | .error e => .error e
  | .ok [] => .error (.invalidInput (.noColumns tableName))
  | .ok columns => .ok (columns.map (completeColumn table))

/-! ## Running -/

variable [Columnar.Platform]

/-- Carries out an export. -/
def runExport (w : World) (t : Transfer) (format : FileFormat) (table : String) (input : Bytes) :
    Outcome :=
  let (sink, label) := match t.target with
    | .path path =>
      let path := exportPath path format t.isPartitioned
      (Sink.path path, path)
    | _ => (Sink.stream, "STDOUT")
  let done := Export.run ⟨table, t.columns, t.options, format⟩ w.session w.tree sink
  ⟨{ w with tree := done.tree }, done.stream, input, [],
    done.result.map fun report => .exported label format t.isPartitioned report⟩

/-- Carries out an import. -/
def runImport (w : World) (t : Transfer) (format : FileFormat) (table : String)
    (known? : Option (List Column)) (input : Bytes) : Outcome :=
  let known := known?.getD []
  let source := match t.target with
    | .path path => Source.path path
    | _ => Source.stream input
  let unread (left : Bytes) : Bytes := match t.target with
    | .path _ => input
    | _ => left
  match Reader.ofSource w.tree format source t.options ⟨t.columns, known⟩ with
  | .error e => ⟨w, [], unread (Reader.leftByOpening format t.options input), [], .error e⟩
  | .ok reader => match importColumns t.columns reader.columns known table with
    | .error e => ⟨w, [], unread reader.left, [], .error e⟩
    | .ok columns =>
      let done := Import.run ⟨table, columns, t.options⟩ w.session reader
      ⟨{ w with session := done.session }, [], unread done.reader.left, done.progress,
        done.result.map fun report => .imported t.target.text report⟩

/-- Carries out a transfer with the given input stream, and with the columns of its table where they
are known. -/
def runKnowing (defaults : Options) (known? : Option (List Column)) (w : World) (t : Transfer)
    (input : Bytes) : Outcome :=
  let t := { t with options := t.options.withDefaults defaults }
  match t.validate w.tree.isDirectory with
  | .error e => ⟨w, [], input, [], .error e⟩
  | .ok format =>
    let table := qualifiedTable w.session t
    match unknownColumn? known? t.columns with
    | some name => ⟨w, [], input, [], .error (.invalidInput (.unknownColumn name table))⟩
    | none => match t.direction with
      | .exporting => runExport w t format table input
      | .importing => runImport w t format table known? input

/-- Carries out a transfer with the given input stream. -/
def run (setting : Setting) (w : World) (t : Transfer) (input : Bytes) : Outcome :=
  runKnowing setting.defaults (tableColumns? setting w.session t) w t input

/-- What a command leaves, and its status line. -/
structure Status where
  world : World
  output : Bytes
  text : String

/-- Reads and carries out a command; failures become part of the status. -/
def execute (setting : Setting) (home : String) (w : World) (command : String) (input : Bytes) :
    Status :=
  match Command.parse home command with
  | .error e => ⟨w, [], "Error: " ++ e.message⟩
  | .ok t =>
    let done := run setting w t input
    match done.result with
    | .ok summary => ⟨done.world, done.output, summary.text⟩
    | .error e => ⟨done.world, done.output, "Error: " ++ e.message⟩

end BulkTransfer.Copy
