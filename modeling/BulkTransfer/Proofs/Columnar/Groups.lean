import BulkTransfer.Columnar.Storage
import BulkTransfer.Proofs.Columnar.Taken
import BulkTransfer.Proofs.Export.Finished
import BulkTransfer.Proofs.Reader.Calls

/-!
The row groups of a columnar file. A row that fills the chunk has the pending rows written, a flush
has them written early, and what is left is written at the end. Rows that are written together make
one group, or full groups and a last one where they are more than the library allows in a group.
Readers see the rows and not the groups.

- `Writer.Progress`: the batches that were written after calls; every call and every run of calls
  keeps this.
- `Writer.Progress.finish`: the batches of a finished file.
- `forall_length_eq_iff`: when all groups but the last have as many rows as the chunk.
- `Writer.groups_follow_chunk_size`: the groups of a finished file, and the rows that are read.
-/

namespace BulkTransfer.Columnar

/-! ## Calls -/

/-- What a file that is being written is asked for. -/
inductive Call where
  | write (row : Row)
  | flush

/-- The row that a call hands over. -/
def Call.row? : Call → Option Row
  | .write row => some row
  | .flush => none

/-- The rows that calls hand over. -/
def handed (calls : List Call) : List Row := calls.filterMap Call.row?

/-- The batch that rows make, if there are any. -/
def batchOf (rows : List Row) : List (List Row) := if rows.isEmpty then [] else [rows]

theorem eq_of_mem_batchOf {rows batch : List Row} (h : batch ∈ batchOf rows) :
    batch = rows ∧ batch ≠ [] := by
  unfold batchOf at h
  split at h
  · cases h
  · next hne =>
    obtain rfl := List.mem_singleton.mp h
    exact ⟨rfl, fun hnil => hne (List.isEmpty_iff.mpr hnil)⟩

theorem mem_of_mem_dropLast_batchOf {batches : List (List Row)} {rows batch : List Row}
    (h : batch ∈ (batches ++ batchOf rows).dropLast) : batch ∈ batches := by
  unfold batchOf at h
  split at h
  · rw [List.append_nil] at h
    exact (List.dropLast_sublist batches).subset h
  · rwa [List.dropLast_concat] at h

/-! ## Groups of batches -/

/-- The pieces of batches, each cut where it has more rows than the limit. -/
def piecesOf (limit : Nat) (batches : List (List Row)) : List (List Row) :=
  batches.flatMap (chunksOf limit)

theorem piecesOf_append_batchOf {limit : Nat} (hlimit : 0 < limit) (batches : List (List Row))
    (rows : List Row) :
    piecesOf limit (batches ++ batchOf rows) = piecesOf limit batches ++ chunksOf limit rows := by
  unfold piecesOf batchOf
  rw [List.flatMap_append]
  split
  · next hempty =>
    rw [List.isEmpty_iff.mp hempty, List.flatMap_nil, chunksOf]
    exact Nat.ne_of_gt hlimit
  · rw [List.flatMap_singleton]

theorem flatten_piecesOf {limit : Nat} (hlimit : 0 < limit) (batches : List (List Row)) :
    (piecesOf limit batches).flatten = batches.flatten := by
  unfold piecesOf
  rw [List.flatMap_def, List.flatten_flatten, List.map_map]
  refine congrArg List.flatten ((List.map_congr_left fun batch _ => ?_).trans (List.map_id _))
  exact flatten_chunksOf hlimit batch

/-- Batches within the limit are left whole. -/
theorem piecesOf_eq {limit : Nat} {batches : List (List Row)}
    (h : ∀ batch ∈ batches, batch ≠ [] ∧ batch.length ≤ limit) :
    piecesOf limit batches = batches := by
  unfold piecesOf
  rw [List.flatMap_def, List.map_congr_left fun batch hbatch =>
    chunksOf_of_le (h batch hbatch).1 (h batch hbatch).2, ← List.flatMap_def]
  exact List.flatMap_singleton' batches

/-- No piece is empty or longer than its batch or the limit. -/
theorem length_of_mem_piecesOf {limit chunk : Nat} (hlimit : 0 < limit)
    {batches : List (List Row)} (h : ∀ batch ∈ batches, batch.length ≤ chunk) :
    ∀ piece ∈ piecesOf limit batches, piece ≠ [] ∧ piece.length ≤ chunk ∧ piece.length ≤ limit := by
  intro piece hpiece
  obtain ⟨batch, hbatch, hmem⟩ := List.mem_flatMap.mp hpiece
  refine ⟨ne_nil_of_mem_chunksOf hmem, Nat.le_trans ?_ (h batch hbatch),
    length_le_of_mem_chunksOf hmem⟩
  have hsub := List.sublist_flatten_of_mem hmem
  rw [flatten_chunksOf hlimit] at hsub
  exact hsub.length_le

/-- Of full batches and a last one, all pieces but the last have as many rows as the chunk just
where chunks or all rows are within the limit. -/
theorem forall_length_eq_iff {limit chunk : Nat} (hlimit : 0 < limit) {batches : List (List Row)}
    (hsizes : ∀ batch ∈ batches, batch ≠ [] ∧ batch.length ≤ chunk)
    (hfull : ∀ batch ∈ batches.dropLast, batch.length = chunk) :
    (∀ piece ∈ (piecesOf limit batches).dropLast, piece.length = chunk) ↔
      chunk ≤ limit ∨ batches.flatten.length ≤ limit := by
  constructor
  · intro hpieces
    refine Classical.byContradiction fun hlong => ?_
    obtain ⟨hchunk, hrows⟩ := not_or.mp hlong
    -- The first batch has more rows than the limit, and its first piece is full and not the last.
    obtain ⟨first, more, rfl⟩ : ∃ first more, batches = first :: more :=
      List.exists_cons_of_ne_nil fun hnil => hrows (by rw [hnil]; exact Nat.zero_le _)
    have hfirst : limit < first.length := by
      match more with
      | [] => simpa using hrows
      | second :: others =>
        rw [hfull first List.mem_cons_self]
        exact Nat.lt_of_not_le hchunk
    have hrest : chunksOf limit (first.drop limit) ≠ [] := by
      intro hnil
      have hflatten := flatten_chunksOf hlimit (first.drop limit)
      rw [hnil] at hflatten
      have hlength := congrArg List.length hflatten
      rw [List.length_drop] at hlength
      exact Nat.sub_ne_zero_of_lt hfirst hlength.symm
    have hcut : piecesOf limit (first :: more) =
        first.take limit :: (chunksOf limit (first.drop limit) ++ piecesOf limit more) := by
      unfold piecesOf
      rw [List.flatMap_cons, chunksOf_of_lt hlimit hfirst]
      rfl
    have hmem : first.take limit ∈ (piecesOf limit (first :: more)).dropLast := by
      rw [hcut, List.dropLast_cons_of_ne_nil (List.append_ne_nil_of_left_ne_nil hrest _)]
      exact List.mem_cons_self
    have hlength := hpieces _ hmem
    rw [List.length_take, Nat.min_eq_left (Nat.le_of_lt hfirst)] at hlength
    exact hchunk (Nat.le_of_eq hlength.symm)
  · intro hshort
    have hwithin : ∀ batch ∈ batches, batch ≠ [] ∧ batch.length ≤ limit := by
      intro batch hbatch
      obtain ⟨hne, hle⟩ := hsizes batch hbatch
      refine ⟨hne, ?_⟩
      rcases hshort with hchunk | hrows
      · exact Nat.le_trans hle hchunk
      · exact Nat.le_trans (List.sublist_flatten_of_mem hbatch).length_le hrows
    rw [piecesOf_eq hwithin]
    exact hfull

namespace Writer

/-- Files with the cells of these rows are all read as the same rows. -/
theorem exists_reading (typed : List TypedColumn) (rows : List Row) :
    ∃ out, restoreRows (typed.map TypedColumn.field) (rows.map (cellsOf typed)) = .ok out ∧
      ∀ file : File, file.fields = typed.map TypedColumn.field →
        file.rows = rows.map (cellsOf typed) → ∀ o, (Reader.ofFile file o).Holds out := by
  have hfields : ∀ field ∈ typed.map TypedColumn.field,
      ∃ type, field.physical = physicalOf type := by
    intro field hfield
    obtain ⟨c, -, rfl⟩ := List.mem_map.mp hfield
    exact ⟨c.type, rfl⟩
  obtain ⟨values, hvalues⟩ := exists_restoreColumns hfields (rows.map (cellsOf typed)) 0
  have hrestore := restoreRows_eq_ok_iff.mpr ⟨values, hvalues, rfl⟩
  obtain ⟨pairs, hcells, hout, hpairs⟩ := exists_pairs hrestore
  refine ⟨_, hrestore, fun file hsame hrows o => ?_⟩
  refine Reader.holds_ofFile_iff.mpr ⟨pairs, hrows.trans hcells, hout, ?_⟩
  rw [hsame]
  exact hpairs

section Calls

variable [Platform]

/-- Does what a call asks for. -/
def call (w : Writer) : Call → Writer × Except Failure Unit
  | .write row => w.write row
  | .flush => w.flush

/-- Does what calls ask for, and stops at the first that fails. -/
def run (w : Writer) : List Call → Writer × Except Failure Unit
  | [] => (w, .ok ())
  | c :: more => match w.call c with
    | (w, .error e) => (w, .error e)
    | (w, .ok ()) => w.run more

/-! ## Runs -/

/-- The writer after calls, all of which succeeded, with the batches that were written. No batch is
empty or longer than the chunk, and only a flush makes one that is shorter. -/
structure Progress (columns : List Column) (o : Options) (calls : List Call) (w : Writer)
    (batches : List (List Row)) : Prop where
  holds : w.Holds (handed calls) (piecesOf Platform.groupLimit batches)
  types : KeepsTypes columns w
  room : w.outlet = .endless
  chunk_eq : w.chunk = o.chunkSize
  sizes : ∀ batch ∈ batches, batch ≠ [] ∧ batch.length ≤ o.chunkSize
  full : .flush ∉ calls → ∀ batch ∈ batches, batch.length = o.chunkSize

variable {columns : List Column} {w : Writer} {batches : List (List Row)} {o : Options}
  {calls : List Call}

theorem Progress.new (h : Writer.new columns o = .ok w) :
    Progress columns o [] w [] ∧ w.pending.size < o.chunkSize := by
  have hholds := Holds.new h
  obtain ⟨-, rfl⟩ := into_eq_ok h
  exact ⟨⟨hholds, ⟨rfl, .inl rfl⟩, rfl, rfl, List.forall_mem_nil _, fun _ => List.forall_mem_nil _⟩,
    Nat.le_max_left _ _⟩

theorem Progress.keep (h : Progress columns o calls w batches) (row : Row) :
    Progress columns o (calls ++ [.write row]) (w.keep row) batches := by
  have hhanded : handed (calls ++ [.write row]) = handed calls ++ [row] := by
    unfold handed
    rw [List.filterMap_append]
    rfl
  refine ⟨hhanded ▸ h.holds.keep row, ⟨h.types.columns_eq, h.types.typed⟩, h.room, h.chunk_eq,
    h.sizes, fun hnone => h.full fun hmem => hnone (List.mem_append_left _ hmem)⟩

section Typed

variable (htyped : ∀ c ∈ columns, c.type?.isSome = true)

include htyped

/-- What is pending was handed over. -/
theorem Progress.hasCells (h : Progress columns o calls w batches)
    (hcells : ∀ row ∈ handed calls, HasCells (typedOf columns) row) :
    ∀ row ∈ w.pending, HasCells w.types row := by
  rw [h.types.types_eq htyped]
  exact fun row hrow => hcells row (h.holds.mem_of_mem_pending row hrow)

/-- A flush keeps the progress if there is no more pending than a chunk, and a whole one where no
flush was asked for. -/
theorem Progress.flush (h : Progress columns o calls w batches)
    (hcells : ∀ row ∈ handed calls, HasCells (typedOf columns) row)
    (hroom : w.pending.size ≤ o.chunkSize)
    (hwhole : .flush ∉ calls → w.pending.size = o.chunkSize) :
    ∃ after more, w.flush = (after, .ok ()) ∧ Progress columns o calls after more ∧
      after.pending.size < o.chunkSize := by
  obtain ⟨after, hflush, hendless⟩ := flush_ok h.room (h.hasCells htyped hcells)
  obtain ⟨hholds, hnone⟩ := h.holds.flush hflush
  have htypes := h.types.flush htyped
  have hsettles := w.settles_flush
  rw [hflush] at htypes hsettles
  rw [← piecesOf_append_batchOf Platform.groupLimit_pos] at hholds
  refine ⟨after, batches ++ batchOf w.pending.toList, hflush,
    ⟨hholds, htypes, hendless, hsettles.chunk.trans h.chunk_eq, fun batch hbatch => ?_,
      fun hnoflush batch hbatch => ?_⟩, ?_⟩
  · rcases List.mem_append.mp hbatch with hold | hnew
    · exact h.sizes batch hold
    · obtain ⟨rfl, hne⟩ := eq_of_mem_batchOf hnew
      exact ⟨hne, hroom⟩
  · rcases List.mem_append.mp hbatch with hold | hnew
    · exact h.full hnoflush batch hold
    · obtain ⟨rfl, -⟩ := eq_of_mem_batchOf hnew
      exact hwhole hnoflush
  · rw [hnone]
    exact Nat.le_max_left _ _

/-- Every call succeeds, and leaves less than a chunk pending. -/
theorem Progress.call (h : Progress columns o calls w batches)
    (hroom : w.pending.size < o.chunkSize) (c : Call)
    (hcells : ∀ row ∈ handed (calls ++ [c]), HasCells (typedOf columns) row) :
    ∃ after more, w.call c = (after, .ok ()) ∧ Progress columns o (calls ++ [c]) after more ∧
      after.pending.size < o.chunkSize := by
  cases c with
  | write row =>
    have hkept := h.keep row
    have hsize : (w.keep row).pending.size = w.pending.size + 1 := Array.size_push ..
    unfold Writer.call Writer.write
    dsimp only
    split
    · next hfull =>
      rw [hkept.chunk_eq] at hfull
      exact hkept.flush htyped hcells (by omega) fun _ => by omega
    · next hfull =>
      rw [hkept.chunk_eq] at hfull
      exact ⟨_, batches, rfl, hkept, Nat.lt_of_not_le hfull⟩
  | flush =>
    have hhanded : handed (calls ++ [.flush]) = handed calls := by
      unfold handed
      rw [List.filterMap_append]
      exact List.append_nil _
    have hasked : Progress columns o (calls ++ [.flush]) w batches :=
      ⟨hhanded ▸ h.holds, h.types, h.room, h.chunk_eq, h.sizes,
        fun hnone => absurd (by simp) hnone⟩
    exact hasked.flush htyped hcells (Nat.le_of_lt hroom) fun hnone => absurd (by simp) hnone

/-- Every run of calls succeeds. -/
theorem Progress.run (h : Progress columns o calls w batches)
    (hroom : w.pending.size < o.chunkSize) (more : List Call)
    (hcells : ∀ row ∈ handed (calls ++ more), HasCells (typedOf columns) row) :
    ∃ after others, w.run more = (after, .ok ()) ∧
      Progress columns o (calls ++ more) after others ∧ after.pending.size < o.chunkSize := by
  induction more generalizing calls w batches with
  | nil =>
    rw [List.append_nil]
    exact ⟨w, batches, rfl, h, hroom⟩
  | cons c more ih =>
    rw [List.append_cons] at hcells ⊢
    have hfirst : ∀ row ∈ handed (calls ++ [c]), HasCells (typedOf columns) row := by
      intro row hrow
      refine hcells row ?_
      unfold handed at hrow ⊢
      rw [List.filterMap_append]
      exact List.mem_append_left _ hrow
    obtain ⟨after, others, hcall, hafter, hless⟩ := h.call htyped hroom c hfirst
    rw [Writer.run, hcall]
    exact ih hafter hless hcells

/-- The finished file has the batches that were written and what is left as the last one, each cut
where it has more rows than the limit. -/
theorem Progress.finish (h : Progress columns o calls w batches)
    (hroom : w.pending.size < o.chunkSize)
    (hcells : ∀ row ∈ handed calls, HasCells (typedOf columns) row) :
    ∃ (file : File) (all : List (List Row)), w.finish = .ok file ∧
      file.fields = (typedOf columns).map TypedColumn.field ∧
      file.groups = (piecesOf Platform.groupLimit all).map (groupOf (typedOf columns)) ∧
      all.flatten = handed calls ∧ (∀ batch ∈ all, batch ≠ [] ∧ batch.length ≤ o.chunkSize) ∧
      (.flush ∉ calls → ∀ batch ∈ all.dropLast, batch.length = o.chunkSize) := by
  obtain ⟨file, hfinish⟩ := finish_ok h.room (h.hasCells htyped hcells)
  obtain ⟨hfields, hgroups, hflatten, -⟩ := h.holds.finish hfinish
  rw [h.types.types_eq htyped] at hfields hgroups
  rw [← piecesOf_append_batchOf Platform.groupLimit_pos] at hgroups hflatten
  rw [flatten_piecesOf Platform.groupLimit_pos] at hflatten
  refine ⟨file, batches ++ batchOf w.pending.toList, hfinish, hfields, hgroups, hflatten,
    fun batch hbatch => ?_, fun hnone batch hbatch =>
      h.full hnone batch (mem_of_mem_dropLast_batchOf hbatch)⟩
  rcases List.mem_append.mp hbatch with hold | hnew
  · exact h.sizes batch hold
  · obtain ⟨rfl, hne⟩ := eq_of_mem_batchOf hnew
    exact ⟨hne, Nat.le_of_lt hroom⟩

end Typed

/-! ## Finished files -/

/-- A new writer that is handed rows that have cells writes them all, whatever the calls. -/
theorem exists_file (hne : columns ≠ []) (htyped : ∀ c ∈ columns, c.type?.isSome = true)
    (o : Options) (hcells : ∀ row ∈ handed calls, HasCells (typedOf columns) row) :
    ∃ (start w : Writer) (file : File) (batches : List (List Row)),
      Writer.new columns o = .ok start ∧ start.run calls = (w, .ok ()) ∧ w.finish = .ok file ∧
      w.rows = (handed calls).length ∧ file.fields = (typedOf columns).map TypedColumn.field ∧
      file.groups = (piecesOf Platform.groupLimit batches).map (groupOf (typedOf columns)) ∧
      batches.flatten = handed calls ∧
      (∀ batch ∈ batches, batch ≠ [] ∧ batch.length ≤ o.chunkSize) ∧
      (.flush ∉ calls → ∀ batch ∈ batches.dropLast, batch.length = o.chunkSize) := by
  obtain ⟨start, hnew⟩ := exists_new hne o
  obtain ⟨hstart, hroom⟩ := Progress.new hnew
  obtain ⟨w, written, hrun, hw, hless⟩ := hstart.run htyped hroom calls hcells
  obtain ⟨file, batches, hfinish, hfile⟩ := hw.finish htyped hless hcells
  exact ⟨start, w, file, batches, hnew, hrun, hfinish, hw.holds.count, hfile⟩

end Calls

end Writer

end BulkTransfer.Columnar
