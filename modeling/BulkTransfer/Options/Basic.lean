import BulkTransfer.Keyed
import BulkTransfer.Options.Compression
import BulkTransfer.Options.Threshold
import BulkTransfer.Text.Split

/-!
Options of a transfer: texts under names without case. An option that is absent or cannot be read
has its default.
-/

namespace BulkTransfer

open Text

/-! ## Counts and sizes -/

namespace Quantity

/-- A number with a unit at its end; `none` where it is no number or leaves 64 bits. -/
def scaled? (digits : List Char) (unit : Nat) : Option Nat :=
  match Integer.readUnsigned? (trim digits) with
  | some n => if n * unit ≤ Integer.maxUnsigned64 then some (n * unit) else none
  | none => none

/-- The first unit whose letter ends the text, and the text before it. -/
def splitUnit (units : List (Char × Nat)) (s : List Char) : List Char × Nat :=
  match units with
  | [] => (s, 1)
  | (letter, unit) :: more => match dropEnd? [letter] s with
    | some digits => (digits, unit)
    | none => splitUnit more s

/-- Reads a count; `K` stands for thousands and `M` for millions. -/
def readCount? (s : String) : Option Nat :=
  let (digits, unit) := splitUnit [('K', 1000), ('M', 1000000)] (upper (trim s.toList))
  scaled? digits unit

/-- Reads a size in bytes; `K`, `M` and `G` are powers of 1024 and a `B` may follow. -/
def readBytes? (s : String) : Option Nat :=
  let word := upper (trim s.toList)
  let word := (dropEnd? ['B'] word).getD word
  let (digits, unit) :=
    splitUnit [('K', 1024), ('M', 1024 * 1024), ('G', 1024 * 1024 * 1024)] word
  scaled? digits unit

end Quantity

/-! ## The option map -/

/-- Options of a transfer, under upper-case names. -/
structure Options where
  values : Keyed String
  deriving Repr, Inhabited

namespace Options

/-- No options. -/
def empty : Options := ⟨[]⟩

/-- Sets an option. -/
def set (o : Options) (key value : String) : Options := ⟨o.values.insert (uppered key) value⟩

/-- Options set one after the other. -/
def ofPairs (pairs : List (String × String)) : Options :=
  pairs.foldl (fun o p => o.set p.1 p.2) empty

/-- Fills in every option that is not set here. -/
def withDefaults (o defaults : Options) : Options :=
  ⟨defaults.values.foldl
    (fun m p => if (m.get? p.1).isSome then m else m.insert p.1 p.2) o.values⟩

/-- The text of an option. -/
def get? (o : Options) (key : String) : Option String := o.values.get? (uppered key)

/-- Whether an option is set. -/
def contains (o : Options) (key : String) : Bool := (o.get? key).isSome

/-- An option read by a reader, or its default. -/
def readOr {α : Type} (o : Options) (key : String) (default : α) (read : String → Option α) : α :=
  ((o.get? key).bind read).getD default

/-- Reads a switch. -/
def readSwitch? (s : String) : Option Bool :=
  let word := lowered (trimmed s)
  if word ∈ ["true", "yes", "on", "1"] then some true
  else if word ∈ ["false", "no", "off", "0"] then some false
  else none

/-- Reads one byte; a tab may be spelled with a backslash. -/
def readByte? (s : String) : Option UInt8 :=
  match s.toList with
  | ['\\', 't'] => some 9
  | [c] => if c.toNat < 128 then some (UInt8.ofNat c.toNat) else none
  | _ => none

/-- Reads a signed number. -/
def readSigned? (s : String) : Option Int := Integer.readSigned? (trim s.toList)

/-- The parts of a list with commas, blanks around them and empty ones dropped. -/
def splitList (s : String) : List String :=
  ((splitAll ',' s.toList).map trim).filterMap fun part =>
    if part.isEmpty then none else some (String.ofList part)

/-- Whether delimited files have a header. -/
def header (o : Options) : Bool := o.readOr "HEADER" false readSwitch?

/-- The byte between fields. -/
def delimiter (o : Options) : UInt8 := o.readOr "DELIMITER" 44 readByte?

/-- The quoting byte. -/
def quote (o : Options) : UInt8 := o.readOr "QUOTE" 34 readByte?

/-- The escaping byte, if the option is set. -/
def escape? (o : Options) : Option UInt8 :=
  if o.contains "ESCAPE" then some (o.readOr "ESCAPE" 92 readByte?) else none

/-- The text that stands for null in delimited files. -/
def nullToken (o : Options) : String := (o.get? "NULLVAL").getD "null"

/-- Rows of a read batch and of a row group. -/
def chunkSize (o : Options) : Nat := max 1 (o.readOr "CHUNKSIZE" 5000 Quantity.readCount?)

/-- Statements of a write batch. -/
def maxBatchSize (o : Options) : Nat := max 1 (o.readOr "MAXBATCHSIZE" 20 Quantity.readCount?)

/-- The number of writers. -/
def maxRequests (o : Options) : Nat := max 1 (o.readOr "MAXREQUESTS" 6 Quantity.readCount?)

/-- The greatest number of rows read behind the skipped ones. -/
def maxRows? (o : Options) : Option Nat :=
  let n := o.readOr "MAXROWS" (-1) readSigned?
  if n < 0 then none else some n.toNat

/-- Records passed before any is read. -/
def skipRows (o : Options) : Nat :=
  o.readOr "SKIPROWS" 0 fun s => Integer.readUnsigned? (trim s.toList)

/-- The ceiling on parse errors. -/
def maxParseErrors (o : Options) : Threshold :=
  Threshold.ofInt (o.readOr "MAXPARSEERRORS" (-1) readSigned?)

/-- The ceiling on insert errors. -/
def maxInsertErrors (o : Options) : Threshold :=
  Threshold.ofInt (o.readOr "MAXINSERTERRORS" 1000 readSigned?)

/-- The columns by which a dataset is partitioned. -/
def partitionColumns (o : Options) : List String :=
  ((o.get? "PARTITION").map splitList).getD []

/-- A column and its value in a filter. -/
def filterPair? (part : String) : Option (String × String) :=
  (cut? '=' part.toList).map fun (k, v) => (String.ofList (trim k), String.ofList (trim v))

/-- The partition values to which an import is restricted. -/
def partitionFilter (o : Options) : List (String × String) :=
  match o.get? "PARTITION_FILTER" with
  | some s => (splitList s).filterMap filterPair?
  | none => []

/-- The greatest number of open partition files. -/
def maxOpenFiles (o : Options) : Nat := max 1 (o.readOr "MAX_OPEN_FILES" 10 Quantity.readCount?)

/-- The size in bytes at which a partition file is closed. -/
def maxFileSize (o : Options) : Nat :=
  max 1 (o.readOr "MAX_FILE_SIZE" (100 * 1024 * 1024) Quantity.readBytes?)

/-- The codec of columnar files. -/
def compression (o : Options) : Compression := o.readOr "COMPRESSION" .none Compression.ofName?

/-- Rows of a page of a query. -/
def pageSize (o : Options) : Nat := max 1 (o.readOr "PAGESIZE" 5000 Quantity.readCount?)

/-- The greatest number of rows of a query. -/
def limit? (o : Options) : Option Nat :=
  let n := o.readOr "LIMIT" (-1) readSigned?
  if n ≤ 0 then none else some n.toNat

/-- The name of the format. -/
def format? (o : Options) : Option String := o.get? "FORMAT"

end Options

end BulkTransfer
