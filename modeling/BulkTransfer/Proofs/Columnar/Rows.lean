import BulkTransfer.Proofs.Columnar.Cell
import BulkTransfer.Proofs.ColumnType

/-!
Rows in columns and back. A group holds the cells of its rows column by column; read row by row they
make the rows again, with the columns and types of the table.

- `cellOf`, `groupOf`: what rows are stored as.
- `rowsOf_groupOf`: the cells of a group, row by row.
- `restoreRows_cellsOf`: cells are restored as the rows they were made of.
-/

namespace BulkTransfer.Columnar

/-- A row that columns can keep. -/
def IsStorable (typed : List TypedColumn) (row : Row) : Prop :=
  ∀ c ∈ typed, IsRestored c.type (row.getD c.name)

/-- The cell of a row in a column. -/
def cellOf (c : TypedColumn) (row : Row) : Cell :=
  match store c.type (row.getD c.name) with
  | .ok cell => cell
  | .error _ => .null

/-- The cells of a row. -/
def cellsOf (typed : List TypedColumn) (row : Row) : List Cell := typed.map fun c => cellOf c row

/-- The group of rows. -/
def groupOf (typed : List TypedColumn) (rows : List Row) : RowGroup :=
  ⟨rows.length, typed.map fun c => rows.map (cellOf c)⟩

theorem restore_cellOf {c : TypedColumn} {row : Row} (h : IsRestored c.type (row.getD c.name)) :
    restore (physicalOf c.type) (some c.type) (cellOf c row) = .ok (row.getD c.name) := by
  obtain ⟨cell, hstore, hrestore⟩ := h
  unfold cellOf
  rw [hstore]
  exact hrestore

/-- The cells of a group, row by row, are the cells of its rows. -/
theorem rowsOf_groupOf (typed : List TypedColumn) (rows : List Row) :
    rowsOf (groupOf typed rows).columns (groupOf typed rows).size = rows.map (cellsOf typed) := by
  unfold groupOf
  dsimp only
  induction rows with
  | nil => rfl
  | cons row more ih =>
    rw [List.length_cons, rowsOf, List.map_cons, List.map_map, List.map_map]
    have htails : (typed.map (List.tail ∘ fun c => (row :: more).map (cellOf c))) =
        typed.map fun c => more.map (cellOf c) := rfl
    have hheads : typed.map ((fun c => List.headD c .null) ∘
        fun c => (row :: more).map (cellOf c)) = cellsOf typed row := rfl
    rw [htails, hheads, ih]

/-! ## Restoring -/

variable {typed : List TypedColumn} {rows : List Row}

/-- The column of a field that keeps a built-in type. -/
theorem column_field {c : TypedColumn} (h : c.type.isBuiltIn = true) :
    c.field.column = ⟨c.name, some c.type⟩ := by
  unfold TypedColumn.field Field.column
  dsimp only
  rw [Option.bind_some, ColumnType.ofString?_render h]

theorem restoreColumn_eq {c : TypedColumn} (hc : c.type.isBuiltIn = true)
    (h : ∀ row ∈ rows, IsRestored c.type (row.getD c.name)) :
    restoreColumn c.field (rows.map (cellOf c)) = .ok (rows.map fun row => row.getD c.name) := by
  have hcells : (rows.map (cellOf c)).mapM (restore (physicalOf c.type) (some c.type)) =
      .ok (rows.map fun row => row.getD c.name) := by
    induction rows with
    | nil => rfl
    | cons row more ih =>
      rw [List.map_cons, List.mapM_cons, restore_cellOf (h row List.mem_cons_self),
        ih fun r hr => h r (List.mem_cons_of_mem row hr)]
      rfl
  have hphysical : c.field.physical = physicalOf c.type := rfl
  unfold restoreColumn
  rw [column_field hc, hphysical, restoreAll_physicalOf, hcells]

/-- Behind the first columns, the others are restored from the cells at their places. -/
theorem restoreColumns_eq (before : List TypedColumn) {more : List TypedColumn}
    (hmore : ∀ c ∈ more, c.type.isBuiltIn = true) (h : ∀ row ∈ rows, IsStorable more row) :
    restoreColumns (rows.map (cellsOf (before ++ more))) before.length
        (more.map TypedColumn.field) =
      .ok (more.map fun c => rows.map fun row => row.getD c.name) := by
  induction more generalizing before with
  | nil => rfl
  | cons c more ih =>
    have hplace : ((rows.map (cellsOf (before ++ c :: more))).map
        fun r => r.getD before.length .null) = rows.map (cellOf c) := by
      rw [List.map_map]
      refine List.map_congr_left fun row _ => ?_
      simp [cellsOf]
    have hnext := ih (before ++ [c]) (fun d hd => hmore d (List.mem_cons_of_mem c hd))
      fun row hrow d hd => h row hrow d (List.mem_cons_of_mem c hd)
    rw [List.append_assoc, List.singleton_append, List.length_append, List.length_singleton]
      at hnext
    rw [List.map_cons, restoreColumns, hplace,
      restoreColumn_eq (hmore c List.mem_cons_self) fun row hrow => h row hrow c List.mem_cons_self,
      hnext]
    rfl

/-- Values of columns make the rows, projected on the columns. -/
theorem assemble_eq (hnodup : (typed.map TypedColumn.name).Nodup) (rows : List Row) :
    assemble (typed.map TypedColumn.field) rows.length
        (typed.map fun c => rows.map fun row => row.getD c.name) =
      rows.map fun row => row.project (typed.map TypedColumn.name) := by
  have hnames : (typed.map TypedColumn.field).map Field.name = typed.map TypedColumn.name := by
    rw [List.map_map]
    rfl
  induction rows with
  | nil => rfl
  | cons row more ih =>
    have hheads : ((typed.map fun c => (row :: more).map fun row => row.getD c.name).map
        fun values => values.headD .null) = (typed.map TypedColumn.name).map row.getD := by
      rw [List.map_map, List.map_map]
      rfl
    have htails : ((typed.map fun c => (row :: more).map fun row => row.getD c.name).map
        List.tail) = typed.map fun c => more.map fun row => row.getD c.name := by
      rw [List.map_map]
      rfl
    rw [List.length_cons, assemble, hnames, hheads, htails, ih, Row.ofFields_zip row hnodup,
      List.map_cons]

/-- Cells are restored as the rows they were made of. -/
theorem restoreRows_cellsOf (hnodup : (typed.map TypedColumn.name).Nodup)
    (htyped : ∀ c ∈ typed, c.type.isBuiltIn = true) (h : ∀ row ∈ rows, IsStorable typed row) :
    restoreRows (typed.map TypedColumn.field) (rows.map (cellsOf typed)) =
      .ok (rows.map fun row => row.project (typed.map TypedColumn.name)) := by
  have hcolumns := restoreColumns_eq [] htyped h
  rw [List.nil_append, List.length_nil] at hcolumns
  unfold restoreRows
  rw [hcolumns, List.length_map]
  dsimp only
  rw [assemble_eq hnodup]

end BulkTransfer.Columnar
