import BulkTransfer.ColumnType.Basic
import BulkTransfer.Hex
import BulkTransfer.Number.Spelling

/-!
Why a text or a value cannot be taken as a value of the requested type, and the wording of it.
-/

namespace BulkTransfer

/-- A failed conversion to a value. -/
inductive ValueFailure where
  | endOfLiteral
  /-- Another character stands where `want` is due. -/
  | expected (want : Char) (offset : Nat) (found : Char)
  | expectedAtEnd (want : Char)
  | trailing (rest : String)
  | expectedCommaOr (close found : Char)
  | unterminated (close : Char)
  | unexpected (rest : String)
  /-- Braces hold both single items and entries. -/
  | mixedBraces
  | expectedFieldName (rest : String)
  | unterminatedQuote
  | valueCount (expected found : Nat)
  | badBlobLiteral (token : String) (cause : Hex.Failure)
  | badBlob (text : String) (cause : Hex.Failure)
  /-- A text that does not spell what the word says. -/
  | invalid (what text : String)
  | instantRange (millis : Int)
  | notInteger (x : Binary64)
  | tupleLength (expected found : Nat)
  | fieldNameKind (kind : String)
  | cannotConvert (kind : String) (type : ColumnType)
  /-- Reading comes back to the same text under the same type and so never ends. -/
  | endless

namespace ValueFailure

/-- The wording of a failure. -/
def message : ValueFailure → String
  | endOfLiteral => "unexpected end of literal"
  | expected want offset found =>
    "expected '" ++ want.toString ++ "' at offset " ++ Integer.natText offset ++ ", found '" ++
      found.toString ++ "'"
  | expectedAtEnd want => "expected '" ++ want.toString ++ "', found end of input"
  | trailing rest => "unexpected trailing input: " ++ rest
  | expectedCommaOr close found =>
    "expected ',' or '" ++ close.toString ++ "', found '" ++ found.toString ++ "'"
  | unterminated close => "unterminated literal, expected '" ++ close.toString ++ "'"
  | unexpected rest => "unexpected input: " ++ rest
  | mixedBraces => "mixed set items and map entries in literal"
  | expectedFieldName rest => "expected field name at: " ++ rest
  | unterminatedQuote => "unterminated quoted string"
  | valueCount n m => "expected " ++ Integer.natText n ++ " values, found " ++ Integer.natText m
  | badBlobLiteral token cause => "invalid blob literal " ++ token ++ ": " ++ cause.message
  | badBlob text cause => "invalid blob " ++ text ++ ": " ++ cause.message
  | invalid what text => "invalid " ++ what ++ ": " ++ text
  | instantRange millis => "timestamp out of range: " ++ Integer.text millis
  | notInteger x => "not an integer: " ++ x.plainText
  | tupleLength n m =>
    "tuple expects " ++ Integer.natText n ++ " items, found " ++ Integer.natText m
  | fieldNameKind kind => "UDT field names must be text, found " ++ kind
  | cannotConvert kind type => "cannot convert " ++ kind ++ " to " ++ type.render
  | endless => "literal never ends"

end ValueFailure

end BulkTransfer
