import BulkTransfer.Literal.Printer
import BulkTransfer.Partition.Column
import BulkTransfer.Path

/-!
Partition keys: the escaped values of the partition columns, and the directories they name.
-/

namespace BulkTransfer.Partition

open Text

/-- The directory value that stands for null. -/
def nullValue : String := "__NULL__"

/-- What a slash is written as. -/
def slashMark : List Char := "__SLASH__".toList

/-- What an equals sign is written as. -/
def equalsMark : List Char := "__EQ__".toList

/-- A text without slashes and equals signs. -/
def escapeText (s : List Char) : List Char :=
  replaceChar '=' equalsMark (replaceChar '/' slashMark s)

/-- The text with slashes and equals signs put back. -/
def unescapeText (s : List Char) : List Char :=
  replaceText equalsMark '=' (replaceText slashMark '/' s)

/-- A value as part of a directory name. -/
def escape (v : Value) : String :=
  if v.isNull then nullValue
  else String.ofList (escapeText (v.field nullValue "" none).toList)

/-- The text that a part of a directory name stands for; `none` is null. -/
def unescape? (s : String) : Option String :=
  if s = nullValue then none else some (String.ofList (unescapeText s.toList))

/-- What tells a partition: columns and escaped values, in order. -/
abbrev Key := List (String × String)

namespace Key

/-- The key of a row. -/
def ofRow (columns : List PartitionColumn) (row : Row) : Key :=
  columns.map fun c => (c.name, escape (c.value row))

/-- The directory name of one column. -/
def segment (p : String × String) : String := p.1 ++ "=" ++ p.2

/-- The key as text. -/
def text (k : Key) : String := joined "/" (k.map segment)

/-- The directory of the partition below the root of the dataset. -/
def directory (k : Key) : String := (k.map segment).foldl Path.join ""

/-- Whether a key comes before another or is the same. -/
def isAtMost : Key → Key → Bool
  | [], _ => true
  | _ :: _, [] => false
  | (n, v) :: more, (m, w) :: others =>
    if n ≠ m then n < m else if v ≠ w then v < w else isAtMost more others

end Key

end BulkTransfer.Partition
