import BulkTransfer.Columnar.Platform
import BulkTransfer.Proofs.Columnar.Cursor
import BulkTransfer.Proofs.Columnar.Rows
import BulkTransfer.Proofs.Literal.Shape

/-!
Rows that can be stored, and the groups they make. Rows are stored just when every column has a cell
for each of them; canonical values that were stored are restored.

- `HasCells`: every column has a cell for a row.
- `storeRows_eq_ok_iff`: which rows are stored, and as what.
- `isRestored_of_store`: canonical values that can be stored are restored.
- `cut_groupOf`: a group is cut as its rows are.
-/

namespace BulkTransfer.Columnar

open Value

/-! ## Values that were stored -/

/-- Entries of which a key is null cannot be stored. -/
theorem ne_null_of_storeEntries {k e : ColumnType} {entries : List (Value × Value)}
    {cells : List (Cell × Cell)} (h : storeEntries k e entries = .ok cells) :
    ∀ p ∈ entries, p.1 ≠ .null := by
  induction entries generalizing cells with
  | nil => exact List.forall_mem_nil _
  | cons p more ih =>
    rw [storeEntries] at h
    by_cases hnull : p.1.isNull = true
    · rw [if_pos hnull] at h
      cases h
    · rw [if_neg hnull] at h
      obtain ⟨key, -, h⟩ := bind_eq_ok.mp h
      obtain ⟨value, -, h⟩ := bind_eq_ok.mp h
      obtain ⟨rest, hrest, -⟩ := bind_eq_ok.mp h
      refine List.forall_mem_cons.mpr ⟨?_, ih hrest⟩
      rintro heq
      rw [heq] at hnull
      exact hnull rfl

/-- Canonical values that can be stored are restored from their cells: a map with a null key either
has no cell or is kept as a literal. -/
theorem isRestored_of_store {type : ColumnType} {v : Value} (h : Canonical type v) {cell : Cell}
    (hstore : store type v = .ok cell) : IsRestored type v := by
  by_cases hkeys : HasNullKey v
  · cases h
    case map k e entries hk he =>
      obtain ⟨p, hp, hnull⟩ := hkeys
      have hcanon : Canonical (.map k e) (.map entries) := .map hk he
      by_cases hparts : (k.isComposite || e.isComposite) = true
      · exact isRestored_of_text hcanon (by simp) (if_pos hparts) (if_pos hparts)
      · have hmap : storeMap (.map k e) k e (.map entries) = .ok cell :=
          (if_neg hparts).symm.trans hstore
        unfold storeMap at hmap
        rw [fit_of_canonical hcanon] at hmap
        obtain ⟨cells, hcells, -⟩ := map_eq_ok.mp hmap
        exact absurd hnull (ne_null_of_storeEntries hcells p hp)
    all_goals exact hkeys.elim
  · exact isRestored_of_canonical h hkeys

/-! ## Rows that were stored -/

/-- Every column has a cell for the row. -/
def HasCells (typed : List TypedColumn) (row : Row) : Prop :=
  ∀ c ∈ typed, ∃ cell, store c.type (row.getD c.name) = .ok cell

theorem IsStorable.hasCells {typed : List TypedColumn} {row : Row} (h : IsStorable typed row) :
    HasCells typed row := fun c hc => by
  obtain ⟨cell, hcell, -⟩ := h c hc
  exact ⟨cell, hcell⟩

theorem storeColumn_eq_ok_iff {c : TypedColumn} {rows : List Row} {cells : List Cell} :
    storeColumn c rows = .ok cells ↔
      (∀ row ∈ rows, ∃ cell, store c.type (row.getD c.name) = .ok cell) ∧
        cells = rows.map (cellOf c) := by
  induction rows generalizing cells with
  | nil => exact ⟨fun h => ⟨List.forall_mem_nil _, (Except.ok.inj h).symm⟩, fun h => h.2 ▸ rfl⟩
  | cons row more ih =>
    rw [storeColumn, List.forall_mem_cons, List.map_cons]
    cases hcell : store c.type (row.getD c.name) with
    | error e =>
      constructor
      · intro h
        cases h
      · rintro ⟨⟨⟨cell, hok⟩, -⟩, -⟩
        cases hok
    | ok cell =>
      have hfirst : cellOf c row = cell := by
        unfold cellOf
        rw [hcell]
      rw [hfirst]
      dsimp only
      cases hmore : storeColumn c more with
      | error e =>
        constructor
        · intro h
          cases h
        · rintro ⟨⟨-, hcells⟩, -⟩
          cases hmore.symm.trans (ih.mpr ⟨hcells, rfl⟩)
      | ok rest =>
        obtain ⟨hcells, rfl⟩ := ih.mp hmore
        exact ⟨fun h => ⟨⟨⟨cell, rfl⟩, hcells⟩, (Except.ok.inj h).symm⟩, fun h => h.2 ▸ rfl⟩

theorem storeColumns_eq_ok_iff {typed : List TypedColumn} {rows : List Row}
    {cells : List (List Cell)} :
    storeColumns rows typed = .ok cells ↔
      (∀ row ∈ rows, HasCells typed row) ∧ cells = typed.map fun c => rows.map (cellOf c) := by
  induction typed generalizing cells with
  | nil =>
    exact ⟨fun h => ⟨fun _ _ => List.forall_mem_nil _, (Except.ok.inj h).symm⟩, fun h => h.2 ▸ rfl⟩
  | cons c more ih =>
    have hsplit : (∀ row ∈ rows, HasCells (c :: more) row) ↔
        (∀ row ∈ rows, ∃ cell, store c.type (row.getD c.name) = .ok cell) ∧
          ∀ row ∈ rows, HasCells more row := by
      simp only [HasCells, List.forall_mem_cons]
      exact ⟨fun h => ⟨fun row hrow => (h row hrow).1, fun row hrow => (h row hrow).2⟩,
        fun h row hrow => ⟨h.1 row hrow, h.2 row hrow⟩⟩
    rw [storeColumns, hsplit, List.map_cons]
    cases hcolumn : storeColumn c rows with
    | error e =>
      constructor
      · intro h
        cases h
      · rintro ⟨⟨hfirst, -⟩, -⟩
        cases hcolumn.symm.trans (storeColumn_eq_ok_iff.mpr ⟨hfirst, rfl⟩)
    | ok column =>
      obtain ⟨hcells, rfl⟩ := storeColumn_eq_ok_iff.mp hcolumn
      dsimp only
      cases hmore : storeColumns rows more with
      | error e =>
        constructor
        · intro h
          cases h
        · rintro ⟨⟨-, hothers⟩, -⟩
          cases hmore.symm.trans (ih.mpr ⟨hothers, rfl⟩)
      | ok rest =>
        obtain ⟨hothers, rfl⟩ := ih.mp hmore
        exact ⟨fun h => ⟨⟨hcells, hothers⟩, (Except.ok.inj h).symm⟩, fun h => h.2 ▸ rfl⟩

/-- Rows are stored just when every column has a cell for each, and then make the group of their
cells. -/
theorem storeRows_eq_ok_iff {typed : List TypedColumn} {rows : List Row} {group : RowGroup} :
    storeRows typed rows = .ok group ↔
      (∀ row ∈ rows, HasCells typed row) ∧ group = groupOf typed rows := by
  unfold storeRows
  match hcells : storeColumns rows typed with
  | .error e =>
    refine ⟨nofun, fun h => ?_⟩
    nomatch hcells.symm.trans (storeColumns_eq_ok_iff.mpr ⟨h.1, rfl⟩)
  | .ok cells =>
    obtain ⟨hall, rfl⟩ := storeColumns_eq_ok_iff.mp hcells
    exact ⟨fun h => ⟨hall, (Except.ok.inj h).symm⟩, fun h => h.2 ▸ rfl⟩

theorem mapM_storeRows {typed : List TypedColumn} {pieces : List (List Row)}
    (h : ∀ piece ∈ pieces, ∀ row ∈ piece, HasCells typed row) :
    pieces.mapM (storeRows typed) = .ok (pieces.map (groupOf typed)) := by
  induction pieces with
  | nil => rfl
  | cons piece more ih =>
    obtain ⟨hpiece, hmore⟩ := List.forall_mem_cons.mp h
    rw [List.mapM_cons, storeRows_eq_ok_iff.mpr ⟨hpiece, rfl⟩, ih hmore]
    rfl

/-! ## Groups -/

/-- The group of rows is cut as the rows are. -/
theorem cut_groupOf (typed : List TypedColumn) {limit : Nat} (hlimit : 0 < limit)
    {rows : List Row} (hne : rows ≠ []) :
    (groupOf typed rows).cut limit = (chunksOf limit rows).map (groupOf typed) := by
  induction hn : rows.length using Nat.strongRecOn generalizing rows with
  | ind n ih =>
    rw [RowGroup.cut]
    have hsize : (groupOf typed rows).size = rows.length := rfl
    by_cases hfits : rows.length ≤ limit
    · rw [if_pos (.inr hfits), chunksOf_of_le hne hfits]
      rfl
    · have hlong : limit < rows.length := Nat.lt_of_not_le hfits
      have hfirst : (groupOf typed rows).first limit = groupOf typed (rows.take limit) := by
        unfold RowGroup.first groupOf
        simp only [List.map_map, List.length_take, Nat.min_eq_left (Nat.le_of_lt hlong),
          RowGroup.mk.injEq, true_and]
        exact List.map_congr_left fun c _ => (List.map_take ..).symm
      have hrest : (groupOf typed rows).rest limit = groupOf typed (rows.drop limit) := by
        unfold RowGroup.rest groupOf
        simp only [List.map_map, List.length_drop, RowGroup.mk.injEq, true_and]
        exact List.map_congr_left fun c _ => (List.map_drop ..).symm
      rw [if_neg (by omega), chunksOf_of_lt hlimit hlong, List.map_cons, hfirst, hrest,
        ih (rows.drop limit).length (by rw [List.length_drop]; omega) (by simpa using hlong) rfl]

/-- The cells of a file whose groups hold these pieces. -/
theorem rows_of_groups {typed : List TypedColumn} {pieces : List (List Row)} {file : File}
    (h : file.groups = pieces.map (groupOf typed)) :
    file.rows = pieces.flatten.map (cellsOf typed) := by
  unfold File.rows
  rw [h, List.flatMap_map, List.map_flatten, List.flatMap_def]
  exact congrArg List.flatten (List.map_congr_left fun piece _ => rowsOf_groupOf typed piece)

end BulkTransfer.Columnar
