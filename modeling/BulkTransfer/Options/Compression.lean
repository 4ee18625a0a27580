import BulkTransfer.Text.Blank
import BulkTransfer.Text.Case

/-!
Codecs of columnar files.
-/

namespace BulkTransfer

/-- A codec of a columnar file. -/
inductive Compression where
  | none
  | snappy
  | gzip
  | lz4
  | zstd
  deriving DecidableEq, Repr, Inhabited

namespace Compression

/-- The name of a codec. -/
def name : Compression → String
  | none => "none"
  | snappy => "snappy"
  | gzip => "gzip"
  | lz4 => "lz4"
  | zstd => "zstd"

/-- The codec that a word stands for; case and blanks around it do not matter. -/
def ofName? (s : String) : Option Compression :=
  let word := Text.lowered (Text.trimmed s)
  if word = "" ∨ word = "none" ∨ word = "uncompressed" then some none
  else if word = "snappy" then some snappy
  else if word = "gzip" ∨ word = "gz" then some gzip
  else if word = "lz4" then some lz4
  else if word = "zstd" then some zstd
  else Option.none

end Compression

end BulkTransfer
