import BulkTransfer.Proofs.Instant.Reading
import BulkTransfer.Proofs.Uuid

/-!
Canonical values: those of the kind and spelling that a declared type asks for, at every level of
nesting. Null is canonical everywhere. No value but null is canonical for numbers with a fraction or
of any size, nor for user-defined types.
-/

namespace BulkTransfer

/-- The number of bits of the integers that a type declares. -/
def ColumnType.bits? : ColumnType → Option Nat
  | .bigint | .counter => some 64
  | .int => some 32
  | .smallint => some 16
  | .tinyint => some 8
  | _ => none

/-- Whether a whole number fits into so many bits. -/
def InWidth (bits : Nat) (i : Int) : Prop :=
  -(2 ^ (bits - 1) : Nat) ≤ i ∧ i < (2 ^ (bits - 1) : Nat)

instance (bits : Nat) (i : Int) : Decidable (InWidth bits i) :=
  inferInstanceAs (Decidable (_ ∧ _))

/-- A text that is the lower-case hyphenated form of an identifier. -/
def Uuid.IsCanonical (s : String) : Prop := ∃ u : Uuid, u.IsValid ∧ s.toList = u.render

namespace Value

/-- The values of a declared type in the kind and spelling that the type asks for. -/
inductive Canonical : ColumnType → Value → Prop
  | null (type : ColumnType) : Canonical type null
  | text {type : ColumnType} (h : type.isTextual = true) (s : String) : Canonical type (text s)
  | uuid {type : ColumnType} (h : type.isUuid = true) {s : String} (hs : Uuid.IsCanonical s) :
    Canonical type (text s)
  | int {type : ColumnType} {bits : Nat} (h : type.bits? = some bits) {i : Int}
      (hi : InWidth bits i) : Canonical type (int i)
  | bool (b : Bool) : Canonical .boolean (bool b)
  | bytes (b : Bytes) : Canonical .blob (bytes b)
  | instant {t : Instant} (h : t.IsWhole) : Canonical .timestamp (instant t)
  | list {e : ColumnType} {items : List Value} (h : ∀ v ∈ items, Canonical e v) :
    Canonical (.list e) (list items)
  | set {e : ColumnType} {items : List Value} (h : ∀ v ∈ items, Canonical e v) :
    Canonical (.set e) (set items)
  | vector {e : ColumnType} (n : Nat) {items : List Value} (h : ∀ v ∈ items, Canonical e v) :
    Canonical (.vector e n) (list items)
  | map {k e : ColumnType} {entries : List (Value × Value)}
      (hk : ∀ p ∈ entries, Canonical k p.1) (he : ∀ p ∈ entries, Canonical e p.2) :
    Canonical (.map k e) (map entries)
  | tuple {types : List ColumnType} {items : List Value} (hlen : items.length = types.length)
      (h : ∀ p ∈ types.zip items, Canonical p.1 p.2) : Canonical (.tuple types) (tuple items)

/-- A list stands in the value, at some level. -/
inductive HasList : Value → Prop
  | list (items : List Value) : HasList (list items)
  | set {items : List Value} {v : Value} (hv : v ∈ items) (h : HasList v) : HasList (set items)
  | key {entries : List (Value × Value)} {p : Value × Value} (hp : p ∈ entries)
      (h : HasList p.1) : HasList (map entries)
  | value {entries : List (Value × Value)} {p : Value × Value} (hp : p ∈ entries)
      (h : HasList p.2) : HasList (map entries)
  | tuple {items : List Value} {v : Value} (hv : v ∈ items) (h : HasList v) : HasList (tuple items)

end Value

end BulkTransfer
