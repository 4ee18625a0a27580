import BulkTransfer.ColumnType.Basic
import BulkTransfer.Hex
import BulkTransfer.Literal.Scalar
import BulkTransfer.Text.Case
import BulkTransfer.Text.Split
import BulkTransfer.Uuid
import BulkTransfer.Value.Basic

/-!
Written values. A statement has every value as a literal; a file has texts and instants bare at
the top level and a token of its own for null. Values inside collections are always literals, so
that they can be read back.

Where no type tells it, the name of a column does: names of identifiers let a text that looks like
one stand bare, and names of sets put lists in braces.
-/

namespace BulkTransfer

open Text

/-! ## Names -/

/-- Whether the character may stand in a name without quotes. -/
def isPlainNameChar (c : Char) : Bool := c.isLower || c.isDigit || c == '_'

/-- Whether a name needs no quotes: lower-case letters, digits and underscores, no digit first. -/
def isPlainName : List Char → Bool
  | [] => false
  | c :: rest => (c.isLower || c == '_') && (c :: rest).all isPlainNameChar

theorem toNat_of_isPlainNameChar {c : Char} (h : isPlainNameChar c = true) :
    (97 ≤ c.toNat ∧ c.toNat ≤ 122) ∨ (48 ≤ c.toNat ∧ c.toNat ≤ 57) ∨ c.toNat = 95 := by
  unfold isPlainNameChar Char.isLower Char.isDigit at h
  simp only [Bool.or_eq_true, Bool.and_eq_true, decide_eq_true_eq, beq_iff_eq,
    UInt32.le_iff_toNat_le, ge_iff_le] at h
  have hcode : c.toNat = c.val.toNat := rfl
  rw [hcode]
  rcases h with (h | h) | rfl
  · exact .inl h
  · exact .inr (.inl h)
  · exact .inr (.inr rfl)

theorem isBlank_of_isPlainNameChar {c : Char} (h : isPlainNameChar c = true) :
    isBlank c = false := by
  have hcode := toNat_of_isPlainNameChar h
  simp only [isBlank, Bool.or_eq_false_iff, Bool.and_eq_false_iff, beq_eq_false_iff_ne,
    decide_eq_false_iff_not]
  omega

theorem isPlainNameChar_of_mem {name : List Char} (h : isPlainName name = true) :
    ∀ c ∈ name, isPlainNameChar c = true := by
  cases name with
  | nil => nomatch h
  | cons c rest =>
    rw [isPlainName, Bool.and_eq_true, List.all_eq_true] at h
    exact h.2

/-- Writes a quote character twice. -/
def doubleQuote (quote : Char) (s : List Char) : List Char :=
  s.flatMap fun c => if c = quote then [c, c] else [c]

theorem doubleQuote_of_not_mem {quote : Char} {s : List Char} (h : quote ∉ s) :
    doubleQuote quote s = s := by
  induction s with
  | nil => rfl
  | cons c s ih =>
    simp only [List.mem_cons, not_or] at h
    rw [doubleQuote, List.flatMap_cons, if_neg (Ne.symm h.1)]
    exact congrArg (c :: ·) (ih h.2)

/-- A name as it stands in a statement. -/
def quoteName (name : List Char) : List Char :=
  if isPlainName name then name else '"' :: doubleQuote '"' name ++ ['"']

/-- Whether the name of a column tells that it holds identifiers. -/
def isIdColumn (column : String) : Bool :=
  let name := lower column.toList
  name == "id".toList || occursIn "uuid".toList name || (dropEnd? "_id".toList name).isSome ||
    (dropEnd? "_ids".toList name).isSome || (dropStart? "id_".toList name).isSome

/-- Whether the name of a column tells that it holds sets. -/
def isSetColumn (column : String) : Bool :=
  let name := lower column.toList
  (dropEnd? "_set".toList name).isSome || occursIn "unique".toList name

namespace Value

/-! ## Literals -/

/-- A text in single quotes. -/
def quoted (s : List Char) : List Char := '\'' :: doubleQuote '\'' s ++ ['\'']

/-- A number: the special values have names of their own. -/
def floatLiteral (x : Binary64) : List Char :=
  if x.isNaN then "NaN".toList
  else if x.isInfinite then (if x.isNegative then "-Infinity" else "Infinity").toList
  else x.plain

/-- Whether a text stands bare: an identifier where identifiers are expected. -/
def standsBare (column : String) (type? : Option ColumnType) (s : String) : Bool :=
  Uuid.isHyphenated s.toList && ((type?.map ColumnType.isUuid).getD false || isIdColumn column)

/-- The types of keys and values that a map type declares. -/
def entryTypes : Option ColumnType → Option ColumnType × Option ColumnType
  | some (.map k v) => (some k, some v)
  | _ => (none, none)

/-- The types of items that a tuple type declares. -/
def itemTypes : Option ColumnType → List ColumnType
  | some (.tuple types) => types
  | _ => []

/-- Whether a list stands in braces. -/
def inBraces (column : String) : Option ColumnType → Bool
  | some (.set _) => true
  | _ => isSetColumn column

mutual

/-- The literal of a value in a column. -/
def literal (column : String) (type? : Option ColumnType) : Value → List Char
  | null => "null".toList
  | bool true => "true".toList
  | bool false => "false".toList
  | bytes b => '0' :: 'x' :: Hex.encode b
  | instant t => '\'' :: t.render ++ ['\'']
  | text s => if standsBare column type? s then s.toList else quoted s.toList
  | int i => Integer.render i
  | float x => floatLiteral x
  | decimal s => s.toList
  | list items =>
    let body := literals column (type?.bind ColumnType.element?) items
    if inBraces column type? then '{' :: body ++ ['}'] else '[' :: body ++ [']']
  | set items => '{' :: literals column (type?.bind ColumnType.element?) items ++ ['}']
  | map entries =>
    '{' :: entryLiterals column (entryTypes type?).1 (entryTypes type?).2 entries ++ ['}']
  | fields items => '{' :: fieldLiterals items ++ ['}']
  | tuple items => '(' :: itemLiterals column (itemTypes type?) items ++ [')']

/-- Items of one type with commas between. -/
def literals (column : String) (type? : Option ColumnType) : List Value → List Char
  | [] => []
  | [v] => literal column type? v
  | v :: more => literal column type? v ++ ',' :: ' ' :: literals column type? more

/-- Items of a tuple with commas between. -/
def itemLiterals (column : String) (types : List ColumnType) : List Value → List Char
  | [] => []
  | [v] => literal column types.head? v
  | v :: more => literal column types.head? v ++ ',' :: ' ' :: itemLiterals column types.tail more

/-- Entries of a map with commas between. -/
def entryLiterals (column : String) (key? value? : Option ColumnType) :
    List (Value × Value) → List Char
  | [] => []
  | [(k, v)] => literal column key? k ++ ':' :: ' ' :: literal column value? v
  | (k, v) :: more =>
    literal column key? k ++ ':' :: ' ' :: literal column value? v ++
      ',' :: ' ' :: entryLiterals column key? value? more

/-- Named fields with commas between; each field's name is its column. -/
def fieldLiterals : List (String × Value) → List Char
  | [] => []
  | [(n, v)] => quoteName n.toList ++ ':' :: ' ' :: literal n none v
  | (n, v) :: more =>
    quoteName n.toList ++ ':' :: ' ' :: literal n none v ++ ',' :: ' ' :: fieldLiterals more

end

theorem literal_bool (column : String) (type? : Option ColumnType) (b : Bool) :
    literal column type? (bool b) = (if b then "true" else "false").toList := by
  cases b <;> rw [literal] <;> rfl

/-- The field of a value in a file. -/
def field (nullToken : String) (column : String) (type? : Option ColumnType) : Value → String
  | null => nullToken
  | text s => s
  | instant t => t.text
  | v => String.ofList (literal column type? v)

/-- The literal of a value in a statement. -/
def statementText (column : String) (type? : Option ColumnType) (v : Value) : String :=
  String.ofList (literal column type? v)

end Value

end BulkTransfer
