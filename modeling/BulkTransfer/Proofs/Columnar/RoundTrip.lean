import BulkTransfer.Proofs.Columnar.Cursor
import BulkTransfer.Proofs.Columnar.Stored
import BulkTransfer.Proofs.Session.Insert

/-!
Rows in a columnar file and back: a file with the cells of rows is read as these rows, whatever the
sizes of its groups and of the chunks that are read.

- `group_restores_rows`: a group of rows is restored as these rows.
- `Reader.Leaves`: a reader in front of rows that were stored, some of them decoded.
- `Reader.Leaves.holds`: these rows are restored from the cells.
- `Reader.leaves_ofFile`: a finished file is read from its first row on.
-/

namespace BulkTransfer.Columnar

/-! ## Columns with types -/

/-- The columns of a table, all of which have types. -/
def typedOf (columns : List Column) : List TypedColumn :=
  columns.map fun c => ⟨c.name, c.type?.getD .text⟩

theorem names_typedOf (columns : List Column) :
    (typedOf columns).map TypedColumn.name = columns.map Column.name := by
  unfold typedOf
  rw [List.map_map]
  rfl

/-- Columns with types take none from their values. -/
theorem resolveTypes_typed {columns : List Column} (h : ∀ c ∈ columns, c.type?.isSome = true)
    (rows : List Row) : resolveTypes columns rows = typedOf columns := by
  unfold resolveTypes typedOf
  refine List.map_congr_left fun c hc => ?_
  obtain ⟨type, htype⟩ := Option.isSome_iff_exists.mp (h c hc)
  rw [htype]
  rfl

/-- The columns of a file are those of the table. -/
theorem columns_fields {columns : List Column}
    (h : ∀ c ∈ columns, ∃ type, c.type? = some type ∧ type.isBuiltIn = true) :
    ((typedOf columns).map TypedColumn.field).map Field.column = columns := by
  unfold typedOf
  rw [List.map_map, List.map_map]
  refine (List.map_congr_left fun c hc => ?_).trans (List.map_id _)
  obtain ⟨type, htype, hbuilt⟩ := h c hc
  have hcolumn : (⟨c.name, type⟩ : TypedColumn).field.column = ⟨c.name, some type⟩ :=
    column_field hbuilt
  unfold Function.comp
  dsimp only
  rw [htype, Option.getD_some, hcolumn, ← htype]
  rfl

theorem isBuiltIn_typedOf {columns : List Column}
    (h : ∀ c ∈ columns, ∃ type, c.type? = some type ∧ type.isBuiltIn = true) :
    ∀ c ∈ typedOf columns, c.type.isBuiltIn = true := by
  intro typed hmem
  obtain ⟨c, hc, rfl⟩ := List.mem_map.mp hmem
  obtain ⟨type, htype, hbuilt⟩ := h c hc
  dsimp only
  rw [htype]
  exact hbuilt

/-- Columns can keep canonical values of which none is a map with null as a key. -/
theorem isStorable_of_fits {columns : List Column} (htyped : ∀ c ∈ columns, c.type?.isSome = true)
    {row : Row} (hrow : row.Fits columns)
    (hkeys : ∀ c ∈ columns, ¬ HasNullKey (row.getD c.name)) : IsStorable (typedOf columns) row := by
  intro typed hmem
  obtain ⟨c, hc, rfl⟩ := List.mem_map.mp hmem
  obtain ⟨type, htype, hvalue⟩ := hrow.canonical hc (htyped c hc)
  dsimp only
  rw [htype, Option.getD_some]
  exact isRestored_of_canonical hvalue (hkeys c hc)

/-! ## Groups -/

/-- Rows of canonical values can be stored in a group, whose fields tell the columns of the table,
and are restored from it in their order, with null in columns that a row lacks. -/
theorem group_restores_rows {columns : List Column} (hnodup : (columns.map Column.name).Nodup)
    (htypes : ∀ c ∈ columns, ∃ type, c.type? = some type ∧ type.isBuiltIn = true)
    {rows : List Row} (hrows : ∀ row ∈ rows, row.Fits columns)
    (hkeys : ∀ row ∈ rows, ∀ c ∈ columns, ¬ HasNullKey (row.getD c.name)) :
    let fields := (typedOf columns).map TypedColumn.field
    fields.map Field.column = columns ∧
      ∃ group, storeRows (typedOf columns) rows = .ok group ∧
        restoreRows fields (rowsOf group.columns group.size) =
          .ok (rows.map fun row => row.project (columns.map Column.name)) := by
  intro fields
  have htyped : ∀ c ∈ columns, c.type?.isSome = true := by
    intro c hc
    obtain ⟨type, htype, -⟩ := htypes c hc
    exact Option.isSome_iff_exists.mpr ⟨type, htype⟩
  have hstorable : ∀ row ∈ rows, IsStorable (typedOf columns) row :=
    fun row hrow => isStorable_of_fits htyped (hrows row hrow) (hkeys row hrow)
  rw [← names_typedOf] at hnodup
  have hstored : storeRows (typedOf columns) rows = .ok (groupOf (typedOf columns) rows) :=
    storeRows_eq_ok_iff.mpr ⟨fun row hrow => (hstorable row hrow).hasCells, rfl⟩
  refine ⟨columns_fields htypes, groupOf (typedOf columns) rows, hstored, ?_⟩
  rw [rowsOf_groupOf, restoreRows_cellsOf hnodup (isBuiltIn_typedOf htypes) hstorable,
    names_typedOf]

/-- Sets and maps of scalars, which have layouts of their own, and a list of tuples, which is kept
as a literal. The second row has none of them. -/
theorem group_restores_rows_nested :
    let columns : List Column := [⟨"id", some .tinyint⟩, ⟨"tags", some (.set .text)⟩,
      ⟨"seen", some (.map .text .timestamp)⟩, ⟨"parts", some (.list (.tuple [.blob, .boolean]))⟩]
    let tags := Value.set [.text "it's", .null]
    let seen := Value.map [(.text "", .instant ⟨946684800, 7000000⟩), (.text "b", .null)]
    let parts := Value.list [.tuple [.bytes [0, 255], .bool true], .null]
    let rows : List Row := [⟨[("parts", parts), ("id", .int (-128)), ("seen", seen),
      ("tags", tags)]⟩, ⟨[("id", .int 127)]⟩]
    let fields := (typedOf columns).map TypedColumn.field
    fields.map Field.column = columns ∧
      ∃ group, storeRows (typedOf columns) rows = .ok group ∧
        restoreRows fields (rowsOf group.columns group.size) = .ok
          [⟨[("id", .int (-128)), ("tags", tags), ("seen", seen), ("parts", parts)]⟩,
            ⟨[("id", .int 127), ("tags", .null), ("seen", .null), ("parts", .null)]⟩] := by
  intro columns tags seen parts rows fields
  have htags : Value.Canonical (.set .text) tags :=
    .set (List.forall_mem_cons.mpr ⟨.text rfl _, List.forall_mem_singleton.mpr (.null _)⟩)
  have hseen : Value.Canonical (.map .text .timestamp) seen := by
    refine .map ?_ ?_
    · exact List.forall_mem_cons.mpr ⟨.text rfl _, List.forall_mem_singleton.mpr (.text rfl _)⟩
    · exact List.forall_mem_cons.mpr
        ⟨.instant (by decide), List.forall_mem_singleton.mpr (.null _)⟩
  have hpart : Value.Canonical (.tuple [.blob, .boolean]) (.tuple [.bytes [0, 255], .bool true]) :=
    .tuple rfl (List.forall_mem_cons.mpr ⟨.bytes _, List.forall_mem_singleton.mpr (.bool _)⟩)
  have hparts : Value.Canonical (.list (.tuple [.blob, .boolean])) parts :=
    .list (List.forall_mem_cons.mpr ⟨hpart, List.forall_mem_singleton.mpr (.null _)⟩)
  have htypes : ∀ c ∈ columns, ∃ type, c.type? = some type ∧ type.isBuiltIn = true := by
    simp only [columns, List.mem_cons, List.not_mem_nil, or_false, forall_eq_or_imp, forall_eq]
    exact ⟨⟨_, rfl, rfl⟩, ⟨_, rfl, rfl⟩, ⟨_, rfl, rfl⟩, ⟨_, rfl, rfl⟩⟩
  have hrows : ∀ row ∈ rows, row.Fits columns := by
    intro row hrow c hc type htype
    simp only [rows, columns, List.mem_cons, List.not_mem_nil, or_false] at hrow hc
    rcases hrow with rfl | rfl <;> rcases hc with rfl | rfl | rfl | rfl <;>
      obtain rfl := Option.some.inj htype
    · exact .int rfl (by decide)
    · exact htags
    · exact hseen
    · exact hparts
    · exact .int rfl (by decide)
    all_goals exact .null _
  have hkeys : ∀ row ∈ rows, ∀ c ∈ columns, ¬ HasNullKey (row.getD c.name) := by
    intro row hrow c hc
    simp only [rows, columns, List.mem_cons, List.not_mem_nil, or_false] at hrow hc
    rcases hrow with rfl | rfl <;> rcases hc with rfl | rfl | rfl | rfl
    case inl.inr.inr.inl =>
      rintro ⟨p, hp, hnull⟩
      simp only [List.mem_cons, List.not_mem_nil, or_false] at hp
      rcases hp with rfl | rfl <;> nomatch hnull
    all_goals exact id
  exact group_restores_rows (by decide) htypes hrows hkeys

/-! ## Reading -/

namespace Reader

/-- A reader in front of rows: the first ones are decoded, the others are cells in chunks. -/
structure Leaves (typed : List TypedColumn) (r : Reader) (left : List Row) : Prop where
  fields_eq : r.fields = typed.map TypedColumn.field
  chunks : ∃ pending : List (List Row),
    r.chunks = pending.map (fun rows => rows.map (cellsOf typed)) ∧
      (∀ rows ∈ pending, ∀ row ∈ rows, IsStorable typed row) ∧
      left = r.buffered ++ pending.flatten.map fun row => row.project (typed.map TypedColumn.name)
  exhausted : r.exhausted = true → r.chunks = []

section Reads

variable {typed : List TypedColumn} {r : Reader} {left : List Row}
  (hnodup : (typed.map TypedColumn.name).Nodup) (hbuilt : ∀ c ∈ typed, c.type.isBuiltIn = true)

include hnodup hbuilt

/-- The cells of rows that could be stored are restored as these rows. -/
theorem Leaves.holds (h : Leaves typed r left) : r.Holds left := by
  obtain ⟨pending, hchunks, hpending, hleft⟩ := h.chunks
  refine ⟨⟨pending.map fun rows => (rows.map (cellsOf typed),
    rows.map fun row => row.project (typed.map TypedColumn.name)), ?_, ?_, ?_⟩, h.exhausted⟩
  · rw [hchunks, List.map_map]
    rfl
  · intro p hp
    obtain ⟨rows, hrows, rfl⟩ := List.mem_map.mp hp
    rw [h.fields_eq]
    exact restoreRows_cellsOf hnodup hbuilt (hpending rows hrows)
  · rw [hleft, List.flatMap_map, List.map_flatten, List.flatMap_def]

end Reads

/-- A finished file is read from its first row on. -/
theorem leaves_ofFile {typed : List TypedColumn} {rows : List Row}
    (hrows : ∀ row ∈ rows, IsStorable typed row) {f : File}
    (hfields : f.fields = typed.map TypedColumn.field) (hcells : f.rows = rows.map (cellsOf typed))
    (o : Options) :
    Leaves typed (ofFile f o) (rows.map fun row => row.project (typed.map TypedColumn.name)) := by
  have hchunk : 0 < o.chunkSize := Nat.le_max_left _ _
  refine ⟨hfields, ⟨chunksOf o.chunkSize rows, ?_, ?_, ?_⟩, fun hex => (nomatch hex)⟩
  · unfold ofFile
    rw [hcells, chunksOf_map]
  · intro piece hpiece row hrow
    refine hrows row ?_
    rw [← flatten_chunksOf hchunk rows]
    exact List.mem_flatten_of_mem hpiece hrow
  · rw [flatten_chunksOf hchunk]
    rfl

end Reader

end BulkTransfer.Columnar
