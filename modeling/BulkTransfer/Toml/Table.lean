import BulkTransfer.Toml.Basic

/-!
Tables of a TOML document while it is read. A table remembers how it came to be, since that decides
what may still be added to it: a header defines a table once, a key with dots extends only tables
that were implied, and a value that was written whole is never extended.
-/

namespace BulkTransfer.Toml

/-- How a table came to be. -/
inductive Origin where
  /-- A header names it. -/
  | header
  /-- A longer header leads through it. -/
  | implied
  /-- A key with dots leads through it. -/
  | dotted
  deriving DecidableEq, Repr

/-- What a key of a table stands for. -/
inductive Item where
  /-- A value that was written whole. -/
  | value (v : Value)
  | table (origin : Origin) (entries : List (String × Item))
  /-- The tables of repeated headers; the last is the first of the list. -/
  | tables (elements : List (List (String × Item)))

/-- The entries of a table, in the order in which they were written. -/
abbrev Entries := List (String × Item)

namespace Entries

/-- What a key stands for. -/
def find? (key : String) : List (String × Item) → Option Item
  | [] => none
  | (k, i) :: rest => if k = key then some i else find? key rest

/-- Sets what a key stands for, in its old position or last. -/
def set (key : String) (item : Item) : List (String × Item) → List (String × Item)
  | [] => [(key, item)]
  | (k, i) :: rest => if k = key then (k, item) :: rest else (k, i) :: set key item rest

/-- Adds a new key; `none` where it is already there. -/
def add? (key : String) (item : Item) (entries : Entries) : Option Entries :=
  match find? key entries with
  | some _ => none
  | none => some (set key item entries)

/-- Adds a value under a key with dots. The tables on the way are made, or were made by other keys
with dots or implied by headers. -/
def addValue? (entries : Entries) : List String → Value → Option Entries
  | [], _ => none
  | [key], v => add? key (.value v) entries
  | key :: rest, v => match find? key entries with
    | none => (addValue? [] rest v).map fun inner => set key (.table .dotted inner) entries
    | some (.table .header _) => none
    | some (.table origin inner) =>
      (addValue? inner rest v).map fun inner => set key (.table origin inner) entries
    | some _ => none

/-- Changes the table that a header leads to. Missing tables on the way are implied; repeated ones
stand for their last. -/
def changeAt? (change : Entries → Option Entries) (entries : Entries) :
    List String → Option Entries
  | [] => change entries
  | key :: rest => match find? key entries with
    | none => (changeAt? change [] rest).map fun inner => set key (.table .implied inner) entries
    | some (.table origin inner) =>
      (changeAt? change inner rest).map fun inner => set key (.table origin inner) entries
    | some (.tables (last :: before)) =>
      (changeAt? change last rest).map fun last => set key (.tables (last :: before)) entries
    | some _ => none

/-- Defines the table of a header, which may have been implied before. -/
def define? (key : String) (entries : Entries) : Option Entries :=
  match find? key entries with
  | none => some (set key (.table .header []) entries)
  | some (.table .implied inner) => some (set key (.table .header inner) entries)
  | some _ => none

/-- Adds a table to those of a repeated header. -/
def append? (key : String) (entries : Entries) : Option Entries :=
  match find? key entries with
  | none => some (set key (.tables [[]]) entries)
  | some (.tables elements) => some (set key (.tables ([] :: elements)) entries)
  | some _ => none

end Entries

/-- The value of a finished item. -/
def Item.toValue : Item → Value
  | .value v => v
  | .table _ entries => .table (fieldsOf entries)
  | .tables elements => .array (tablesOf elements)
where
  /-- The fields of finished entries. -/
  fieldsOf : List (String × Item) → List (String × Value)
    | [] => []
    | (k, i) :: more => (k, i.toValue) :: fieldsOf more
  /-- The values of repeated tables, in the order in which they were written. -/
  tablesOf : List (List (String × Item)) → List Value
    | [] => []
    | entries :: before => tablesOf before ++ [.table (fieldsOf entries)]

/-- The fields of a finished table. -/
def Entries.fields (entries : Entries) : List (String × Value) := Item.toValue.fieldsOf entries

end BulkTransfer.Toml
