import BulkTransfer.Column
import BulkTransfer.Columnar.File
import BulkTransfer.Literal.Conform
import BulkTransfer.Literal.Printer
import BulkTransfer.Row

/-!
Values as cells of a columnar file. A value is fitted to the declared type of its column before it
is stored; types without a layout of their own are stored as the text of a literal.
-/

namespace BulkTransfer.Columnar

/-- Why a value cannot be stored. -/
inductive StoreFailure where
  | unfit (cause : ValueFailure)
  | outOfRange (i : Int)
  | nullKey
  | wrongKind (kind : String) (type : ColumnType)

/-- The wording of a failure. -/
def StoreFailure.message : StoreFailure → String
  | unfit cause => cause.message
  | outOfRange i => Integer.text i ++ " is out of range"
  | nullKey => "map keys cannot be null"
  | wrongKind kind type => "cannot store " ++ kind ++ " as " ++ type.render

/-- Fits a value to a type. -/
def fit (v : Value) (type : ColumnType) : Except StoreFailure Value :=
  match v.conform type with
  | .ok w => .ok w
  | .error e => .error (.unfit e)

/-- A whole number in so many bits. -/
def storeInt (bits : Nat) (i : Int) : Except StoreFailure Cell :=
  if -(2 ^ (bits - 1) : Nat) ≤ i ∧ i < (2 ^ (bits - 1) : Nat) then .ok (.int i)
  else .error (.outOfRange i)

/-- The cell of a value whose type has no layout of its own. -/
def storeText (type : ColumnType) (v : Value) : Cell := .text (v.field "" "" (some type))

/-- The cell of a fitted value under a scalar layout. -/
def storeFitted (type : ColumnType) (v : Value) : Except StoreFailure Cell :=
  match physicalOf type, v with
  | .int64, .int i => .ok (.int i)
  | .int32, .int i => storeInt 32 i
  | .int16, .int i => storeInt 16 i
  | .int8, .int i => storeInt 8 i
  | .float32, .float x => .ok (.float x.toSingle)
  | .float64, .float x => .ok (.float x)
  | .bool, .bool b => .ok (.bool b)
  | .binary, .bytes b => .ok (.bytes b)
  | .instant _ _, .instant t => .ok (.int t.toMillis)
  | _, v => .error (.wrongKind v.kind type)

/-- Whether a type without parts is stored as text. -/
def isStoredAsText (type : ColumnType) : Bool :=
  match physicalOf type with
  | .utf8 => true
  | _ => false

/-- The cell of a value under a type without parts. -/
def storeScalar (type : ColumnType) (v : Value) : Except StoreFailure Cell :=
  if v.isNull then .ok .null
  else if isStoredAsText type then .ok (storeText type v)
  else match fit v type with
    | .ok w => storeFitted type w
    | .error e => .error e

/-- The cells of items of one type. -/
def storeItems (element : ColumnType) : List Value → Except StoreFailure (List Cell)
  | [] => .ok []
  | v :: more => do
    let c ← storeScalar element v
    let rest ← storeItems element more
    pure (c :: rest)

/-- The cells of entries, whose keys are not null. -/
def storeEntries (key value : ColumnType) :
    List (Value × Value) → Except StoreFailure (List (Cell × Cell))
  | [] => .ok []
  | (k, v) :: more =>
    if k.isNull then .error .nullKey
    else do
      let ck ← storeScalar key k
      let cv ← storeScalar value v
      let rest ← storeEntries key value more
      pure ((ck, cv) :: rest)

/-- The cell of a list or set. -/
def storeList (type element : ColumnType) (v : Value) : Except StoreFailure Cell := do
  match ← fit v type with
  | .list items | .set items => (storeItems element items).map .list
  | w => .error (.wrongKind w.kind type)

/-- The cell of a map. -/
def storeMap (type key value : ColumnType) (v : Value) : Except StoreFailure Cell := do
  match ← fit v type with
  | .map entries => (storeEntries key value entries).map .map
  | w => .error (.wrongKind w.kind type)

/-- The cell of a value under a declared type. -/
def store (type : ColumnType) (v : Value) : Except StoreFailure Cell :=
  if v.isNull then .ok .null
  else match type with
    | .list e | .set e | .vector e _ =>
      if e.isComposite then .ok (storeText type v) else storeList type e v
    | .map k e =>
      if k.isComposite || e.isComposite then .ok (storeText type v) else storeMap type k e v
    | _ => storeScalar type v

/-! ## Types from values -/

mutual

/-- The type that a value shows. -/
def shownType : Value → ColumnType
  | .null | .text _ => .text
  | .int _ => .bigint
  | .float _ => .double
  | .decimal _ => .decimal
  | .bool _ => .boolean
  | .bytes _ => .blob
  | .instant _ => .timestamp
  | .list items => .list (firstType items)
  | .set items => .set (firstType items)
  | .map entries => .map (firstKeyType entries) (firstValueType entries)
  | .tuple items => .tuple (shownTypes items)
  | .fields _ => .userDefined "record"

/-- The type of the first item that is not null. -/
def firstType : List Value → ColumnType
  | [] => .text
  | v :: more => if v.isNull then firstType more else shownType v

/-- The type of the first key that is not null. -/
def firstKeyType : List (Value × Value) → ColumnType
  | [] => .text
  | (k, _) :: more => if k.isNull then firstKeyType more else shownType k

/-- The type of the first value that is not null. -/
def firstValueType : List (Value × Value) → ColumnType
  | [] => .text
  | (_, v) :: more => if v.isNull then firstValueType more else shownType v

/-- The types of all items. -/
def shownTypes : List Value → List ColumnType
  | [] => []
  | v :: more => shownType v :: shownTypes more

end

/-- A column that certainly has a type. -/
structure TypedColumn where
  name : String
  type : ColumnType
  deriving Repr, Inhabited

/-- Gives each column without a type that of its first value among the rows. -/
def resolveTypes (columns : List Column) (rows : List Row) : List TypedColumn :=
  columns.map fun c => ⟨c.name, c.type?.getD (firstType (rows.filterMap fun r => r.get? c.name))⟩

/-- The field of a file that keeps a column. -/
def TypedColumn.field (c : TypedColumn) : Field := ⟨c.name, physicalOf c.type, some c.type.render⟩

/-- The cells of one column. -/
def storeColumn (c : TypedColumn) : List Row → Except String (List Cell)
  | [] => .ok []
  | row :: more => match store c.type (row.getD c.name) with
    | .error e => .error ("column " ++ c.name ++ ": " ++ e.message)
    | .ok cell => match storeColumn c more with
      | .ok rest => .ok (cell :: rest)
      | .error e => .error e

/-- The cells of all columns, one column after the other. -/
def storeColumns (rows : List Row) : List TypedColumn → Except String (List (List Cell))
  | [] => .ok []
  | c :: more => match storeColumn c rows with
    | .error e => .error e
    | .ok cells => match storeColumns rows more with
      | .ok rest => .ok (cells :: rest)
      | .error e => .error e

/-- The group that rows make. -/
def storeRows (columns : List TypedColumn) (rows : List Row) : Except String RowGroup :=
  match storeColumns rows columns with
  | .ok cells => .ok ⟨rows.length, cells⟩
  | .error e => .error e

end BulkTransfer.Columnar
