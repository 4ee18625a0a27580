import BulkTransfer.Proofs.Columnar.Taken

/-!
Columnar files that were written with failures. Rows that cannot be stored stay pending and the
types of the columns stay as they are, so that no later group can be stored either; rows that were
refused stay pending too, and the outlet refuses them again. Either way the file is never finished.
A file that is finished has the rows of the writes that succeeded.

- `Writer.IsStuck`: a writer whose pending rows can never be written.
- `Writer.Carries`: a writer that took rows, or is stuck; every step keeps this.
- `Writer.Carries.finish`: what is finished was handed these rows and no others.
-/

namespace BulkTransfer.Columnar.Writer

/-! ## Stuck writers -/

/-- The pending rows can never be written: one of them cannot be stored under the types that the
columns have, or the outlet refuses them. -/
inductive IsStuck (w : Writer) : Prop where
  | unfit {typed : List TypedColumn} {row : Row} (htyped : w.typed? = some typed)
      (hrow : row ∈ w.pending) (hcells : ¬ HasCells typed row)
  | refused (hsome : w.pending ≠ #[]) (houtlet : w.outlet.take? = none)

variable [Platform] {w after : Writer} {rows : List Row} {row : Row} {columns : List Column}
  {o : Options}

/-- A flush that fails leaves rows that can never be written. -/
theorem isStuck_of_flush {e : Failure} (h : w.flush = (after, .error e)) : after.IsStuck := by
  have hcases := w.flush_cases
  rw [h] at hcases
  cases hcases with
  | unfit hrow hcells => exact .unfit rfl hrow hcells
  | refused hsome houtlet => exact .refused hsome houtlet

/-- A stuck writer cannot be flushed. -/
theorem IsStuck.flush (h : w.IsStuck) : ∃ after e, w.flush = (after, .error e) := by
  have hcases := w.flush_cases
  generalize w.flush = done at hcases
  cases hcases with
  | unfit _ _ => exact ⟨_, _, rfl⟩
  | refused _ _ => exact ⟨_, _, rfl⟩
  | idle hnone =>
    cases h with
    | unfit _ hrow _ =>
      rw [hnone] at hrow
      exact absurd hrow (Array.not_mem_empty _)
    | refused hsome _ => exact absurd hnone hsome
  | written hall houtlet =>
    cases h with
    | unfit htyped hrow hcells =>
      refine absurd (hall _ hrow) ?_
      unfold types
      rwa [htyped, Option.getD_some]
    | refused _ hnone => nomatch hnone.symm.trans houtlet

/-- A stuck writer stays stuck when it is flushed, and whatever rows it is handed. -/
theorem IsStuck.flushed (h : w.IsStuck) : w.flush.1.IsStuck := by
  obtain ⟨after, e, he⟩ := h.flush
  rw [he]
  exact isStuck_of_flush he

theorem IsStuck.write (h : w.IsStuck) (row : Row) : (w.write row).1.IsStuck := by
  have hkept : (w.keep row).IsStuck := by
    cases h with
    | unfit htyped hrow hcells => exact .unfit htyped (Array.mem_push_of_mem row hrow) hcells
    | refused _ houtlet => exact .refused Array.push_ne_empty houtlet
  unfold Writer.write
  dsimp only
  split
  · exact hkept.flushed
  · exact hkept

/-- A write that fails leaves rows that can never be written. -/
theorem isStuck_of_write {e : Failure} (h : w.write row = (after, .error e)) : after.IsStuck := by
  unfold Writer.write at h
  dsimp only at h
  split at h
  · exact isStuck_of_flush h
  · cases h

theorem IsStuck.finish (h : w.IsStuck) (f : File) : w.finish ≠ .ok f := by
  obtain ⟨after, e, he⟩ := h.flush
  unfold Writer.finish
  rw [he]
  exact nofun

/-! ## Rows of the writes that succeeded -/

/-- A writer that took rows and no others, or that is stuck. -/
def Carries (columns : List Column) (o : Options) (rows : List Row) (w : Writer) : Prop :=
  Took columns o rows w ∨ w.IsStuck

namespace Carries

theorem write (h : Carries columns o rows w) (hwrite : w.write row = (after, .ok ())) :
    Carries columns o (rows ++ [row]) after := by
  rcases h with htook | hstuck
  · exact .inl (htook.write hwrite)
  · have hafter := hstuck.write row
    rw [hwrite] at hafter
    exact .inr hafter

theorem flush (h : Carries columns o rows w) : Carries columns o rows w.flush.1 := by
  rcases h with htook | hstuck
  · match hflush : w.flush with
    | (after, .ok ()) => exact .inl (htook.flush hflush)
    | (after, .error e) => exact .inr (isStuck_of_flush hflush)
  · exact .inr hstuck.flushed

/-- What is finished was handed the rows of the writes that succeeded. -/
theorem finish (h : Carries columns o rows w) {f : File} (hfinish : w.finish = .ok f) :
    Makes columns o rows f := by
  rcases h with htook | hstuck
  · exact ⟨w, htook, hfinish⟩
  · exact absurd hfinish (hstuck.finish f)

end Carries

end BulkTransfer.Columnar.Writer
