import BulkTransfer.Column
import BulkTransfer.ColumnType.Reader
import BulkTransfer.Columnar.File
import BulkTransfer.Literal.Conform
import BulkTransfer.Row

/-!
Cells of columnar files as values. The declared type of a column, kept in the file, tells what a
text stands for and whether a list is a set.
-/

namespace BulkTransfer.Columnar

/-- The value that a stored text stands for; one that does not fit its type stays a text. -/
def restoreText (type? : Option ColumnType) (s : String) : Value :=
  match type? with
  | none => .text s
  | some type => match Value.conformText s type with
    | .ok v => v
    | .error _ => .text s

/-- A product kept within 64 bits. -/
def saturated (i : Int) : Int := max Integer.min64 (min Integer.max64 i)

/-- The milliseconds of a stored instant; parts of one are cut off toward zero. -/
def millisOf (unit : TimeUnit) (i : Int) : Int :=
  match unit with
  | .seconds => saturated (i * 1000)
  | .millis => i
  | .micros => i.tdiv 1000
  | .nanos => i.tdiv 1000000

/-- The value of a stored instant; one that no calendar date has is null. -/
def restoreInstant (unit : TimeUnit) (i : Int) : Value :=
  match Instant.ofMillis? (millisOf unit i) with
  | some t => .instant t
  | none => .null

/-- The value of a stored date, as its text. -/
def restoreDate (days : Int) : Value :=
  match Instant.ofSeconds? (days * Instant.dayLength) 0 with
  | some t => .text (String.ofList t.dateText)
  | none => .null

/-- The digits of a decimal with its point in place; digits beyond the precision are dropped. -/
def decimalText (precision : Nat) (scale : Int) (unscaled : Int) : List Char :=
  let sign : List Char := if unscaled < 0 then ['-'] else []
  let digits := Integer.digits unscaled.natAbs
  let kept := digits.take precision
  if scale = 0 then sign ++ kept
  else if scale < 0 then sign ++ kept ++ List.replicate scale.natAbs '0'
  else if scale.natAbs < digits.length then
    let whole := (sign ++ kept).length - scale.natAbs
    (sign ++ kept).take whole ++ '.' :: (sign ++ kept).drop whole
  else sign ++ '0' :: '.' :: List.replicate (scale.natAbs - digits.length) '0' ++ digits

/-- Whether values of a layout can be read. -/
def Physical.isReadable : Physical → Bool
  | .date64 | .record _ => false
  | _ => true

/-- The complaint about a layout that cannot be read. -/
def unsupported (p : Physical) : String := "unsupported column type " ++ p.name

/-- The value of a cell that is neither a list nor a map. -/
def restoreScalar (p : Physical) (type? : Option ColumnType) (c : Cell) : Value :=
  match c with
  | .int i => match p with
    | .instant unit _ => restoreInstant unit i
    | .date32 => restoreDate i
    | .decimal precision scale => .decimal (String.ofList (decimalText precision scale i))
    | .uint64 => if i ≤ Integer.max64 then .int i else .decimal (Integer.text i)
    | _ => .int i
  | .float x => .float x
  | .bool b => .bool b
  | .bytes b => .bytes b
  | .text s => restoreText type? s
  | _ => .null

/-- Whether the declared type is a set. -/
def isSet : Option ColumnType → Bool
  | some (.set _) => true
  | _ => false

/-- The types of keys and values that a declared map has. -/
def entryTypes : Option ColumnType → Option ColumnType × Option ColumnType
  | some (.map k v) => (some k, some v)
  | _ => (none, none)

/-- Restores all cells of an array of one layout, which must be readable. -/
def restoreAll (p : Physical) (one : Cell → Except String Value) (cells : List Cell) :
    Except String (List Value) :=
  if p.isReadable then cells.mapM one else .error (unsupported p)

/-- The value of a cell. -/
def restore : Physical → Option ColumnType → Cell → Except String Value
  | .list item, type?, .list cells => do
    let items ← restoreAll item (restore item (type?.bind ColumnType.element?)) cells
    pure (if isSet type? then .set items else .list items)
  | .map key value, type?, .map entries => do
    let keys ← restoreAll key (restore key (entryTypes type?).1) (entries.map Prod.fst)
    let values ← restoreAll value (restore value (entryTypes type?).2) (entries.map Prod.snd)
    pure (.map (keys.zip values))
  | p, type?, c => .ok (restoreScalar p type? c)

/-- The column that a field holds; the declared type goes before the one that the layout shows. -/
def Field.column (f : Field) : Column :=
  ⟨f.name, match f.declared?.bind ColumnType.ofString? with
    | some t => some t
    | none => f.physical.columnType?⟩

/-- The values of one column of rows. -/
def restoreColumn (f : Field) (cells : List Cell) : Except String (List Value) :=
  match restoreAll f.physical (restore f.physical f.column.type?) cells with
  | .ok values => .ok values
  | .error e => .error ("column " ++ f.name ++ ": " ++ e)

/-- The values of all columns, one column after the other. -/
def restoreColumns (rows : List (List Cell)) : Nat → List Field → Except String (List (List Value))
  | _, [] => .ok []
  | index, f :: more => do
    let values ← restoreColumn f (rows.map fun r => r.getD index .null)
    let rest ← restoreColumns rows (index + 1) more
    pure (values :: rest)

/-- Rows from the values of their columns. -/
def assemble (fields : List Field) : Nat → List (List Value) → List Row
  | 0, _ => []
  | n + 1, columns =>
    Row.ofFields ((fields.map Field.name).zip (columns.map fun c => c.headD .null)) ::
      assemble fields n (columns.map List.tail)

/-- The rows that cells make. -/
def restoreRows (fields : List Field) (rows : List (List Cell)) : Except String (List Row) :=
  match restoreColumns rows 0 fields with
  | .ok columns => .ok (assemble fields rows.length columns)
  | .error e => .error e

end BulkTransfer.Columnar
