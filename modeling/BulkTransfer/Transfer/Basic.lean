import BulkTransfer.Failure
import BulkTransfer.Options.Basic

/-!
What one command asks for: a table, its columns, a direction, a target and options.
-/

namespace BulkTransfer

/-- Which way rows go. -/
inductive Direction where
  /-- From the table to a target. -/
  | exporting
  /-- From a target to the table. -/
  | importing
  deriving DecidableEq, Repr, Inhabited

/-- Where rows come from or go to. -/
inductive Target where
  /-- A file, or the root of a partitioned dataset. -/
  | path (path : String)
  | stdout
  | stdin
  deriving DecidableEq, Repr, Inhabited

namespace Target

/-- The path of a target. -/
def path? : Target → Option String
  | path p => some p
  | _ => none

/-- The target as text. -/
def text : Target → String
  | path p => p
  | stdout => "STDOUT"
  | stdin => "STDIN"

end Target

/-- The keyspace and the name of a table, cut at the first dot. -/
def splitTable (table : String) : Option String × String :=
  match Text.cut? '.' table.toList with
  | some (keyspace, name) => (some (String.ofList keyspace), String.ofList name)
  | none => (none, table)

/-- One transfer. -/
structure Transfer where
  table : String
  /-- The columns asked for; none means all. -/
  columns : List String
  direction : Direction
  target : Target
  options : Options
  deriving Repr, Inhabited

namespace Transfer

/-- The format: named by the option, columnar for partitions and directories, else told by the
extension of the path, else delimited. -/
def format (isDirectory : String → Bool) (t : Transfer) : Except Failure FileFormat :=
  match t.options.format? with
  | some name => match FileFormat.ofName? name with
    | some f => .ok f
    | none => .error (.invalidInput (.unknownFormat name))
  | none =>
    if !t.options.partitionColumns.isEmpty || !t.options.partitionFilter.isEmpty then .ok .columnar
    else match t.target.path? with
      | none => .ok .delimited
      | some path =>
        if t.direction == .importing && isDirectory path then .ok .columnar
        else .ok ((FileFormat.ofPath? path).getD .delimited)

/-- Whether the transfer writes a partitioned dataset. -/
def isPartitioned (t : Transfer) : Bool := !t.options.partitionColumns.isEmpty

/-- The fault of a target that does not go with direction and format. -/
def targetFault? (t : Transfer) (format : FileFormat) : Option InputFault :=
  match t.direction, t.target with
  | .exporting, .stdin => some .exportToInput
  | .importing, .stdout => some .importFromOutput
  | .importing, .stdin => if format == .columnar then some .columnarInputStream else none
  | .exporting, .stdout => if format == .columnar then some .columnarOutputStream else none
  | _, _ => none

/-- The format of a transfer that can be carried out, judged before anything is done. -/
def validate (isDirectory : String → Bool) (t : Transfer) : Except Failure FileFormat :=
  match t.format isDirectory with
  | .error e => .error e
  | .ok format => match t.targetFault? format with
    | some fault => .error (.invalidInput fault)
    | none =>
      if t.direction == .exporting && t.isPartitioned && format != .columnar then
        .error (.invalidInput (.partitionedFormat format))
      else .ok format

end Transfer

end BulkTransfer
