import BulkTransfer.Columnar.Writer
import BulkTransfer.Proofs.Columnar.RoundTrip
import BulkTransfer.Proofs.Columnar.Stored

/-!
The rows that a columnar writer was handed. Between them there may be flushes, which change the row
groups and not the rows. This is so over every platform: whatever limit a library puts on groups,
and whatever the sizes of files.

- `Writer.flush_cases`: all that a flush can do.
- `Writer.Holds`: the rows of a writer, in the pieces that its groups are of; kept by every step.
- `Writer.Took`: a writer after rows and flushes, all of which succeeded.
- `Writer.Makes`: a file that was finished after these rows.
- `Writer.Makes.exists_cells`: the file has the cells of the rows, in their order.
- `Writer.Took.exists_write`, `Writer.Took.exists_finish`: where there is always room for the file,
  rows that have cells are written.
-/

namespace BulkTransfer.Columnar

open Value

namespace Writer

variable {w after : Writer} {row : Row} {rows : List Row} {pieces : List (List Row)}
  {columns : List Column} {o : Options} {outlet : Outlet} {e : Failure}

theorem into_eq_ok (h : into outlet columns o = .ok w) :
    columns ≠ [] ∧ w = ⟨columns, o.chunkSize, o.compression, outlet, none, [], [], #[], 0, 0⟩ := by
  unfold into at h
  split at h
  · nomatch h
  · next hne => exact ⟨fun hnil => hne (List.isEmpty_iff.mpr hnil), (Except.ok.inj h).symm⟩

theorem exists_new (hne : columns ≠ []) (o : Options) : ∃ w, new columns o = .ok w := by
  unfold new into
  rw [if_neg fun hempty => hne (List.isEmpty_iff.mp hempty)]
  exact ⟨_, rfl⟩

/-! ## Flushes -/

/-- What no flush changes, and the types, which are settled by it. -/
structure Settles (w after : Writer) : Prop where
  columns : after.columns = w.columns
  chunk : after.chunk = w.chunk
  typed : after.typed? = some w.types
  rows : after.rows = w.rows

theorem Settles.types_eq (h : w.Settles after) : after.types = w.types := by
  unfold types
  rw [h.typed]
  rfl

section Flushes

variable [Platform]

/-- All that a flush can do: there is nothing to write, a row cannot be stored, the outlet refuses
the rows, or they are written in pieces of up to the limit. -/
inductive Flush (w : Writer) : Writer × Except Failure Unit → Prop where
  | idle (hnone : w.pending = #[]) : Flush w (w.settle, .ok ())
  | unfit {row : Row} (hrow : row ∈ w.pending) (hcells : ¬ HasCells w.types row)
      {cause : String} : Flush w (w.settle, .error (.operation "write_parquet" cause))
  | refused (hsome : w.pending ≠ #[]) (houtlet : w.outlet.take? = none) :
    Flush w ({ w.settle with refusals := w.refusal :: w.refusals },
      .error (.operation "write_parquet" w.refusal.cause))
  | written (hcells : ∀ row ∈ w.pending, HasCells w.types row) {outlet : Outlet}
      (houtlet : w.outlet.take? = some outlet) :
    Flush w ({ w.settle with
      outlet := outlet
      groups := ((chunksOf Platform.groupLimit w.pending.toList).map
        (groupOf w.types)).reverse ++ w.groups
      pending := #[]
      pendingSize := 0 }, .ok ())

theorem flush_cases (w : Writer) : Flush w w.flush := by
  unfold flush
  by_cases hnone : w.pending = #[]
  · rw [if_pos (Array.isEmpty_iff.mpr hnone)]
    exact .idle hnone
  · rw [if_neg fun hempty => hnone (Array.isEmpty_iff.mp hempty)]
    match hstore : storeRows w.types w.pending.toList with
    | .error cause =>
      have hsome : ∃ row, row ∈ w.pending ∧ ¬ HasCells w.types row := by
        refine Classical.byContradiction fun hnone => ?_
        have hall : ∀ row ∈ w.pending.toList, HasCells w.types row := fun row hrow =>
          Classical.byContradiction fun hcells =>
            hnone ⟨row, Array.mem_toList_iff.mp hrow, hcells⟩
        nomatch hstore.symm.trans (storeRows_eq_ok_iff.mpr ⟨hall, rfl⟩)
      obtain ⟨row, hrow, hcells⟩ := hsome
      exact .unfit hrow hcells
    | .ok group =>
      obtain ⟨hcells, rfl⟩ := storeRows_eq_ok_iff.mp hstore
      match houtlet : w.outlet.take? with
      | none => exact .refused hnone houtlet
      | some outlet =>
        dsimp only
        rw [cut_groupOf w.types Platform.groupLimit_pos
          fun hnil => hnone (Array.toList_eq_nil_iff.mp hnil)]
        exact .written (fun row hrow => hcells row (Array.mem_toList_iff.mpr hrow)) houtlet

theorem settles_flush (w : Writer) : w.Settles w.flush.1 := by
  have hcases := w.flush_cases
  generalize w.flush = done at hcases
  cases hcases <;> exact ⟨rfl, rfl, rfl, rfl⟩

end Flushes

/-! ## Types -/

/-- A writer of columns with types has these, or has not settled them yet. -/
structure KeepsTypes (columns : List Column) (w : Writer) : Prop where
  columns_eq : w.columns = columns
  typed : w.typed? = none ∨ w.typed? = some (typedOf columns)

theorem KeepsTypes.types_eq (htyped : ∀ c ∈ columns, c.type?.isSome = true)
    (h : KeepsTypes columns w) : w.types = typedOf columns := by
  unfold types
  rcases h.typed with hnone | hsome
  · rw [hnone, Option.getD_none, h.columns_eq, resolveTypes_typed htyped]
  · rw [hsome, Option.getD_some]

theorem KeepsTypes.keep (h : KeepsTypes columns w) (row : Row) :
    KeepsTypes columns (w.keep row) := ⟨h.columns_eq, h.typed⟩

/-! ## Rows and pieces -/

/-- A writer that has taken rows: those that are written make these pieces, one for each group, and
the others wait. -/
structure Holds (w : Writer) (rows : List Row) (pieces : List (List Row)) : Prop where
  groups : w.groups = (pieces.map (groupOf w.types)).reverse
  cells : ∀ piece ∈ pieces, ∀ row ∈ piece, HasCells w.types row
  /-- The types are settled before anything is written. -/
  settled : w.typed? = none → pieces = []
  split : rows = pieces.flatten ++ w.pending.toList
  count : w.rows = rows.length

theorem Holds.new (h : into outlet columns o = .ok w) : w.Holds [] [] := by
  obtain ⟨-, rfl⟩ := into_eq_ok h
  exact ⟨rfl, List.forall_mem_nil _, fun _ => rfl, rfl, rfl⟩

theorem Holds.mem_of_mem_pending (h : w.Holds rows pieces) : ∀ row ∈ w.pending, row ∈ rows := by
  intro row hrow
  rw [h.split]
  exact List.mem_append_right _ (Array.mem_toList_iff.mpr hrow)

theorem Holds.keep (h : w.Holds rows pieces) (row : Row) :
    (w.keep row).Holds (rows ++ [row]) pieces := by
  have hsplit : rows ++ [row] = pieces.flatten ++ (w.keep row).pending.toList := by
    unfold Writer.keep
    rw [h.split, Array.toList_push, List.append_assoc]
  have hcount : (w.keep row).rows = (rows ++ [row]).length := by
    rw [List.length_append, ← h.count]
    rfl
  match htyped : w.typed? with
  | none =>
    obtain rfl := h.settled htyped
    exact ⟨h.groups, List.forall_mem_nil _, fun _ => rfl, hsplit, hcount⟩
  | some typed =>
    have htypes : (w.keep row).types = w.types := by
      unfold Writer.types Writer.keep
      rw [htyped]
      rfl
    refine ⟨?_, ?_, fun hnone => (nomatch hnone.symm.trans htyped), hsplit, hcount⟩
    · rw [htypes]
      exact h.groups
    · rw [htypes]
      exact h.cells

section Steps

variable [Platform]

/-- A flush that succeeds has written all that was pending. -/
theorem Holds.flush (h : w.Holds rows pieces) (hflush : w.flush = (after, .ok ())) :
    after.Holds rows (pieces ++ chunksOf Platform.groupLimit w.pending.toList) ∧
      after.pending = #[] := by
  have hsettles := w.settles_flush
  have hcases := w.flush_cases
  rw [hflush] at hsettles hcases
  have htypes := hsettles.types_eq
  have hsettled : after.typed? = none → pieces ++ chunksOf Platform.groupLimit w.pending.toList =
      [] := fun hnone => nomatch hnone.symm.trans hsettles.typed
  have hcount := hsettles.rows.trans h.count
  cases hcases with
  | idle hnone =>
    have hnil : chunksOf Platform.groupLimit w.pending.toList = [] := by
      rw [hnone, chunksOf]
      exact Nat.ne_of_gt Platform.groupLimit_pos
    rw [hnil, List.append_nil] at hsettled ⊢
    exact ⟨⟨htypes ▸ h.groups, htypes ▸ h.cells, hsettled, h.split, hcount⟩, hnone⟩
  | @written hcells outlet _ =>
    refine ⟨⟨?_, ?_, hsettled, ?_, hcount⟩, rfl⟩
    · rw [htypes, List.map_append, List.reverse_append, ← h.groups]
    · rw [htypes]
      intro piece hpiece row hrow
      rcases List.mem_append.mp hpiece with hold | hnew
      · exact h.cells piece hold row hrow
      · refine hcells row (Array.mem_toList_iff.mp ?_)
        rw [← flatten_chunksOf Platform.groupLimit_pos w.pending.toList]
        exact List.mem_flatten_of_mem hnew hrow
    · rw [List.flatten_append, flatten_chunksOf Platform.groupLimit_pos, List.append_nil]
      exact h.split

theorem Holds.write (h : w.Holds rows pieces) (hwrite : w.write row = (after, .ok ())) :
    ∃ others, after.Holds (rows ++ [row]) others := by
  unfold Writer.write at hwrite
  dsimp only at hwrite
  split at hwrite
  · exact ⟨_, ((h.keep row).flush hwrite).1⟩
  · obtain ⟨rfl, -⟩ := Prod.mk.inj hwrite
    exact ⟨pieces, h.keep row⟩

/-- A file that is finished has a group for each piece, and pieces of what was pending. -/
theorem Holds.finish (h : w.Holds rows pieces) {f : File} (hfinish : w.finish = .ok f) :
    let all := pieces ++ chunksOf Platform.groupLimit w.pending.toList
    f.fields = w.types.map TypedColumn.field ∧ f.groups = all.map (groupOf w.types) ∧
      all.flatten = rows ∧ ∀ row ∈ rows, HasCells w.types row := by
  intro all
  unfold Writer.finish at hfinish
  split at hfinish
  · nomatch hfinish
  · next after hflush =>
    obtain ⟨hafter, hnone⟩ := h.flush hflush
    have htypes : after.types = w.types := by
      have hsettles := w.settles_flush
      rw [hflush] at hsettles
      exact hsettles.types_eq
    have hrows : all.flatten = rows := by
      have hsplit := hafter.split
      rw [hnone, List.append_nil] at hsplit
      exact hsplit.symm
    split at hfinish
    · nomatch hfinish
    · obtain rfl := Except.ok.inj hfinish
      refine ⟨congrArg _ htypes, ?_, hrows, fun row hrow => ?_⟩
      · rw [hafter.groups, List.reverse_reverse, htypes]
      · obtain ⟨piece, hpiece, hmem⟩ := List.mem_flatten.mp (hrows ▸ hrow)
        exact htypes ▸ hafter.cells piece hpiece row hmem

/-! ## Rows that were handed over -/

/-- A writer that was new and has then been handed rows, and flushes between them; all succeeded. -/
inductive Took (columns : List Column) (o : Options) : List Row → Writer → Prop where
  | new {outlet : Outlet} {w : Writer} (hnew : into outlet columns o = .ok w) : Took columns o [] w
  | write {rows : List Row} {w after : Writer} {row : Row} (h : Took columns o rows w)
      (hwrite : w.write row = (after, .ok ())) : Took columns o (rows ++ [row]) after
  | flush {rows : List Row} {w after : Writer} (h : Took columns o rows w)
      (hflush : w.flush = (after, .ok ())) : Took columns o rows after

/-- A writer that was handed these rows finishes with this file. -/
def Makes (columns : List Column) (o : Options) (rows : List Row) (f : File) : Prop :=
  ∃ w, Took columns o rows w ∧ w.finish = .ok f

theorem Took.exists_holds (h : Took columns o rows w) : ∃ pieces, w.Holds rows pieces := by
  induction h with
  | new hnew => exact ⟨[], .new hnew⟩
  | write h hwrite ih =>
    obtain ⟨pieces, hholds⟩ := ih
    exact hholds.write hwrite
  | flush h hflush ih =>
    obtain ⟨pieces, hholds⟩ := ih
    exact ⟨_, (hholds.flush hflush).1⟩

section Typed

variable (htyped : ∀ c ∈ columns, c.type?.isSome = true)

include htyped

theorem KeepsTypes.flush (h : KeepsTypes columns w) : KeepsTypes columns w.flush.1 := by
  have hsettles := w.settles_flush
  refine ⟨hsettles.columns.trans h.columns_eq, .inr ?_⟩
  rw [hsettles.typed, h.types_eq htyped]

theorem KeepsTypes.write (h : KeepsTypes columns w) (row : Row) :
    KeepsTypes columns (w.write row).1 := by
  unfold Writer.write
  dsimp only
  split
  · exact (h.keep row).flush htyped
  · exact h.keep row

theorem Took.keepsTypes (h : Took columns o rows w) : KeepsTypes columns w := by
  induction h with
  | new hnew =>
    obtain ⟨-, rfl⟩ := into_eq_ok hnew
    exact ⟨rfl, .inl rfl⟩
  | @write rows w after row h hwrite ih =>
    have hafter := ih.write htyped row
    rwa [hwrite] at hafter
  | @flush rows w after h hflush ih =>
    have hafter := ih.flush htyped
    rwa [hflush] at hafter

end Typed

/-! ## Finished files -/

/-- A finished file has the cells of the rows that its writer was handed, in their order, under the
types that the columns have where they have types. -/
theorem Makes.exists_cells {f : File} (h : Makes columns o rows f) :
    ∃ typed : List TypedColumn, f.fields = typed.map TypedColumn.field ∧
      (∀ row ∈ rows, HasCells typed row) ∧ f.rows = rows.map (cellsOf typed) ∧
      ((∀ c ∈ columns, c.type?.isSome = true) → typed = typedOf columns) := by
  obtain ⟨w, htook, hfinish⟩ := h
  obtain ⟨pieces, hholds⟩ := htook.exists_holds
  obtain ⟨hfields, hgroups, hflatten, hcells⟩ := hholds.finish hfinish
  refine ⟨w.types, hfields, hcells, ?_, fun htyped =>
    (htook.keepsTypes htyped).types_eq htyped⟩
  rw [rows_of_groups hgroups, hflatten]

/-- A finished file has as many rows as its writer was handed. -/
theorem Makes.length_rows {f : File} (h : Makes columns o rows f) :
    f.rows.length = rows.length := by
  obtain ⟨typed, -, -, hrows, -⟩ := h.exists_cells
  rw [hrows, List.length_map]

section Typed

variable (htyped : ∀ c ∈ columns, c.type?.isSome = true)

include htyped

/-- Rows of canonical values in a finished file are restored. -/
theorem Makes.isStorable {f : File} (h : Makes columns o rows f)
    (hrows : ∀ row ∈ rows, row.Fits columns) :
    ∀ row ∈ rows, IsStorable (typedOf columns) row := by
  obtain ⟨typed, -, hcells, -, htypes⟩ := h.exists_cells
  obtain rfl := htypes htyped
  intro row hrow typed hmem
  obtain ⟨cell, hcell⟩ := hcells row hrow typed hmem
  obtain ⟨c, hc, rfl⟩ := List.mem_map.mp hmem
  obtain ⟨type, htype, hcanonical⟩ := (hrows row hrow).canonical hc (htyped c hc)
  dsimp only at hcell ⊢
  rw [htype, Option.getD_some] at hcell ⊢
  exact isRestored_of_store hcanonical hcell

theorem Makes.cells {f : File} (h : Makes columns o rows f) :
    f.fields = (typedOf columns).map TypedColumn.field ∧
      f.rows = rows.map (cellsOf (typedOf columns)) := by
  obtain ⟨typed, hfields, -, hrows, htypes⟩ := h.exists_cells
  obtain rfl := htypes htyped
  exact ⟨hfields, hrows⟩

end Typed

/-! ## Files with room -/

/-- Where there is always room for the file, rows that have cells are written. -/
theorem flush_ok (hroom : w.outlet = .endless) (hcells : ∀ row ∈ w.pending, HasCells w.types row) :
    ∃ after, w.flush = (after, .ok ()) ∧ after.outlet = .endless := by
  have hcases := w.flush_cases
  generalize w.flush = done at hcases
  cases hcases with
  | idle _ => exact ⟨_, rfl, hroom⟩
  | unfit hrow hnot => exact absurd (hcells _ hrow) hnot
  | refused _ houtlet =>
    rw [hroom] at houtlet
    nomatch houtlet
  | written _ houtlet =>
    rw [hroom] at houtlet
    exact ⟨_, rfl, (Option.some.inj houtlet).symm⟩

theorem write_ok (hroom : w.outlet = .endless)
    (hcells : ∀ r ∈ (w.keep row).pending, HasCells (w.keep row).types r) :
    ∃ after, w.write row = (after, .ok ()) ∧ after.outlet = .endless := by
  unfold Writer.write
  dsimp only
  split
  · exact flush_ok hroom hcells
  · exact ⟨_, rfl, hroom⟩

theorem finish_ok (hroom : w.outlet = .endless)
    (hcells : ∀ row ∈ w.pending, HasCells w.types row) : ∃ f, w.finish = .ok f := by
  obtain ⟨after, hflush, hafter⟩ := flush_ok hroom hcells
  unfold Writer.finish
  rw [hflush]
  dsimp only
  rw [hafter]
  exact ⟨_, rfl⟩

section Typed

variable (htyped : ∀ c ∈ columns, c.type?.isSome = true)

include htyped

/-- Where there is always room, a row is taken if it and all before it have cells. -/
theorem Took.exists_write (h : Took columns o rows w) (hroom : w.outlet = .endless)
    (hcells : ∀ r ∈ rows ++ [row], HasCells (typedOf columns) r) :
    ∃ after, w.write row = (after, .ok ()) ∧ Took columns o (rows ++ [row]) after ∧
      after.outlet = .endless := by
  obtain ⟨pieces, hholds⟩ := h.exists_holds
  have htypes := ((h.keepsTypes htyped).keep row).types_eq htyped
  obtain ⟨after, hwrite, hafter⟩ := write_ok hroom fun r hr => by
    rw [htypes]
    exact hcells r ((hholds.keep row).mem_of_mem_pending r hr)
  exact ⟨after, hwrite, h.write hwrite, hafter⟩

theorem Took.exists_finish (h : Took columns o rows w) (hroom : w.outlet = .endless)
    (hcells : ∀ r ∈ rows, HasCells (typedOf columns) r) :
    ∃ f, w.finish = .ok f ∧ Makes columns o rows f := by
  obtain ⟨pieces, hholds⟩ := h.exists_holds
  obtain ⟨f, hfinish⟩ := finish_ok hroom fun r hr => by
    rw [(h.keepsTypes htyped).types_eq htyped]
    exact hcells r (hholds.mem_of_mem_pending r hr)
  exact ⟨f, hfinish, w, h, hfinish⟩

end Typed

end Steps

end Writer

end BulkTransfer.Columnar
