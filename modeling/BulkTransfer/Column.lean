import BulkTransfer.ColumnType.Basic

/-!
Columns: a name and, where the source tells it, a declared type.

- `find?_of_mem`: where names are different, each finds its column.
-/

namespace BulkTransfer

/-- A named column. The type is absent where nothing declares it. -/
structure Column where
  name : String
  type? : Option ColumnType := none
  deriving Repr, Inhabited

namespace Column

/-- The column of a name. -/
def find? (columns : List Column) (name : String) : Option Column :=
  columns.find? fun c => c.name == name

/-- The declared type of a name. -/
def typeOf? (columns : List Column) (name : String) : Option ColumnType :=
  (find? columns name).bind Column.type?

/-- The column of a name in a table, or a column without type. -/
def knownOrUntyped (table : List Column) (name : String) : Column :=
  (find? table name).getD ⟨name, none⟩

theorem find?_of_mem {columns : List Column} (h : (columns.map name).Nodup) {c : Column}
    (hc : c ∈ columns) : find? columns c.name = some c := by
  induction columns with
  | nil => nomatch hc
  | cons d rest ih =>
    unfold find?
    rw [List.map_cons, List.nodup_cons] at h
    rcases List.mem_cons.mp hc with rfl | hmem
    · exact List.find?_cons_of_pos (by simp)
    · have hne : (d.name == c.name) = false := by
        rw [beq_eq_false_iff_ne]
        intro heq
        exact h.1 (heq ▸ List.mem_map_of_mem hmem)
      rw [List.find?_cons, hne]
      exact ih h.2 hmem

end Column

end BulkTransfer
