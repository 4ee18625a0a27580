import Mathlib.Data.List.Perm.Subperm
import BulkTransfer.Proofs.Partition.OpenFiles

/-!
Where the files of a partition are cut. A file that has grown to the size limit is finished before
the next row of its partition; so, where nothing is flushed early and all partitions have room, each
file ends with the row that makes it reach the limit. The sizes of rows decide this on any platform,
since nothing is written of a file until it is finished.

- `IsCut`: rows that are cut as soon as a part reaches a size.
- `Columnar.Writer.Buffers`: a file that has none of its rows flushed knows their size.
- `Writer.handed`: the rows that each file of each partition was handed.
- `Cuts.write`, `Cuts.run`: these are cut by size, whatever rows of other partitions come between.
- `size_cuts_partitions`: all of this, for every dataset that is being written.
-/

namespace BulkTransfer.Partition

/-! ## Rows cut by size -/

/-- The estimated size of rows. -/
def total (rows : List Row) : Nat := (rows.map Columnar.estimateRow).sum

theorem total_append (rows more : List Row) : total (rows ++ more) = total rows + total more := by
  unfold total
  rw [List.map_append, List.sum_append]

theorem total_le_of_prefix {rows whole : List Row} (h : rows <+: whole) :
    total rows ≤ total whole := by
  obtain ⟨more, rfl⟩ := h
  rw [total_append]
  omega

/-- Rows are cut into parts, each of which ends with the row that makes it reach a size; the last
one may not have reached it. -/
structure IsCut (limit : Nat) (rows : List Row) (parts : List (List Row)) : Prop where
  whole : parts.flatten = rows
  filled : [] ∉ parts
  /-- Every part but the last has reached the size. -/
  full : ∀ part ∈ parts.dropLast, limit ≤ total part
  /-- No part has reached it earlier. -/
  shortest : ∀ part ∈ parts, ∀ rows, rows <+: part → rows ≠ part → total rows < limit

namespace IsCut

variable {limit : Nat} {rows last : List Row} {parts before : List (List Row)}

theorem nil (limit : Nat) : IsCut limit [] [] :=
  ⟨rfl, List.not_mem_nil, List.forall_mem_nil _, List.forall_mem_nil _⟩

/-- The last part takes a row while it has not reached the size. -/
theorem grow (h : IsCut limit rows (before ++ [last])) (hless : total last < limit) (row : Row) :
    IsCut limit (rows ++ [row]) (before ++ [last ++ [row]]) where
  whole := by
    rw [← h.whole]
    simp
  filled := by
    intro hmem
    rcases List.mem_append.mp hmem with hbefore | hlast
    · exact h.filled (List.mem_append_left _ hbefore)
    · exact List.append_ne_nil_of_right_ne_nil last (List.cons_ne_nil row [])
        (List.mem_singleton.mp hlast).symm
  full := by
    have hfull := h.full
    rw [List.dropLast_concat] at hfull ⊢
    exact hfull
  shortest := by
    intro part hpart rows hprefix hne
    rcases List.mem_append.mp hpart with hbefore | hlast
    · exact h.shortest part (List.mem_append_left _ hbefore) rows hprefix hne
    · rw [List.mem_singleton] at hlast
      subst hlast
      have hshort := (List.prefix_concat_iff.mp hprefix).resolve_left hne
      have hle := total_le_of_prefix hshort
      omega

/-- The next part begins where the last one has reached the size. -/
theorem next (h : IsCut limit rows parts) (hlimit : 1 ≤ limit)
    (hfull : ∀ part, parts.getLast? = some part → limit ≤ total part) (row : Row) :
    IsCut limit (rows ++ [row]) (parts ++ [[row]]) where
  whole := by
    rw [List.flatten_append, h.whole, List.flatten_singleton]
  filled := by
    intro hmem
    rcases List.mem_append.mp hmem with hparts | hlast
    · exact h.filled hparts
    · exact absurd (List.mem_singleton.mp hlast).symm (List.cons_ne_nil row [])
  full := by
    intro part hpart
    rw [List.dropLast_concat] at hpart
    have hne := List.ne_nil_of_mem hpart
    rw [← List.dropLast_concat_getLast hne, List.mem_append, List.mem_singleton] at hpart
    rcases hpart with hbefore | hlast
    · exact h.full part hbefore
    · exact hfull part (hlast ▸ List.getLast?_eq_some_getLast hne)
  shortest := by
    intro part hpart rows hprefix hne
    rcases List.mem_append.mp hpart with hparts | hlast
    · exact h.shortest part hparts rows hprefix hne
    · rw [List.mem_singleton] at hlast
      subst hlast
      have hsplit : rows = [] ++ [row] ∨ rows <+: [] := List.prefix_concat_iff.mp hprefix
      rw [List.prefix_nil.mp (hsplit.resolve_left hne)]
      exact hlimit

theorem length_le (h : IsCut limit rows parts) {part : List Row} (hpart : part ∈ parts) :
    part.length ≤ rows.length := by
  rw [← h.whole]
  exact (List.sublist_flatten_of_mem hpart).length_le

theorem eq_nil (h : IsCut limit [] parts) : parts = [] := by
  cases parts with
  | nil => rfl
  | cons part more =>
    have hpart := List.flatten_eq_nil_iff.mp h.whole part List.mem_cons_self
    exact absurd (hpart ▸ List.mem_cons_self) h.filled

end IsCut

end BulkTransfer.Partition

/-! ## Files with no rows flushed -/

namespace BulkTransfer.Columnar.Writer

/-- All rows that a file was handed are pending: nothing was written, and their size is known. -/
structure Buffers (w : Writer) (chunk : Nat) (rows : List Row) : Prop where
  chunk : w.chunk = chunk
  unsettled : w.typed? = none
  pending : w.pending.toList = rows
  pendingSize : w.pendingSize = Partition.total rows
  count : w.rows = rows.length

theorem buffers_into {outlet : Outlet} {columns : List Column} {o : Options} {w : Writer}
    (h : into outlet columns o = .ok w) : w.Buffers o.chunkSize [] := by
  obtain ⟨-, rfl⟩ := into_eq_ok h
  exact ⟨rfl, rfl, rfl, rfl, rfl⟩

variable [Platform] {w w' : Writer} {chunk : Nat} {rows : List Row} {row : Row}

/-- Before anything is written the size is that of the rows, whatever the library writes. -/
theorem Buffers.size_eq (h : w.Buffers chunk rows) : w.size = Partition.total rows := by
  unfold size writtenSize
  rw [h.unsettled, h.pendingSize]
  exact Nat.zero_add _

/-- A row that does not fill the chunk stays pending. -/
theorem Buffers.write (h : w.Buffers chunk rows) (hroom : rows.length + 1 < chunk)
    (hwrite : w.write row = (w', .ok ())) : w'.Buffers chunk (rows ++ [row]) := by
  have hkept : (w.keep row).pending.toList = rows ++ [row] := by
    unfold keep
    rw [Array.toList_push, h.pending]
  have hless : ¬ (w.keep row).chunk ≤ (w.keep row).pending.size := by
    rw [← Array.length_toList, hkept, List.length_append, List.length_singleton]
    show ¬ w.chunk ≤ _
    rw [h.chunk]
    omega
  unfold Writer.write at hwrite
  dsimp only at hwrite
  rw [if_neg hless] at hwrite
  obtain ⟨rfl, -⟩ := Prod.mk.inj hwrite
  refine ⟨h.chunk, h.unsettled, hkept, ?_, ?_⟩
  · rw [Partition.total_append, ← h.pendingSize]
    rfl
  · rw [List.length_append, ← h.count]
    rfl

end BulkTransfer.Columnar.Writer

namespace BulkTransfer.Partition

open FileTree

/-! ## The rows of each file -/

/-- Parts of partitions where a row went to a new file of its partition, or to the last one. -/
def place (parts : Key → List (List Row)) (k : Key) (isNew : Bool) (row : Row) :
    Key → List (List Row) :=
  withParts parts k <|
    if isNew then parts k ++ [[row]]
    else (parts k).dropLast ++ [(parts k).getLastD [] ++ [row]]

theorem place_last {parts : Key → List (List Row)} {k : Key} {before : List (List Row)}
    {last : List Row} (h : parts k = before ++ [last]) (row : Row) :
    place parts k false row = withParts parts k (before ++ [last ++ [row]]) := by
  unfold place
  rw [if_neg Bool.false_ne_true, h, List.dropLast_concat, List.getLastD_concat]

/-! ## Cuts -/

/-- Rows were cut by size, and the open files have their last parts pending. -/
structure Cuts (start w : Writer) (rows : List Row) (parts : Key → List (List Row)) : Prop where
  recent : Recent start w (rows.map (Key.ofRow start.columns))
  evicted : w.evicted = 0
  cut : ∀ k, IsCut start.options.maxFileSize (rowsAt start.columns rows k) (parts k)
  buffers : ∀ e ∈ w.openFiles, ∃ before last, parts e.1 = before ++ [last] ∧
    e.2.writer.Buffers start.options.chunkSize last

theorem one_le_maxFileSize (o : Options) : 1 ≤ o.maxFileSize := Nat.le_max_left ..

section Cut

variable {start w : Writer} {rows : List Row} {parts : Key → List (List Row)} {row : Row}
  {k : Key}

/-- Where there is room for all partitions, each one that has rows has an open file, and there is
room for another one. -/
theorem Recent.spare {keys all : List Key} (h : Recent start w keys)
    (hall : ∀ l ∈ keys ++ [k], l ∈ all) (hroom : all.length ≤ start.options.maxOpenFiles)
    (hclosed : k ∉ w.openKeys) : k ∉ keys ∧ w.openFiles.length < w.options.maxOpenFiles := by
  have hlength : ∀ l : List Key, l.Nodup → (∀ k ∈ l, k ∈ all) →
      l.length ≤ start.options.maxOpenFiles := fun l hnodup hsub =>
    Nat.le_trans (hnodup.subperm hsub).length_le hroom
  have hsub : ∀ l ∈ byLastUse keys, l ∈ all := fun l hl =>
    hall l (List.mem_append_left _ (mem_byLastUse.mp hl))
  have hopen : w.openKeys = byLastUse keys := by
    rw [h.openKeys, List.take_of_length_le (hlength _ (nodup_byLastUse keys) hsub)]
  rw [hopen] at hclosed
  have hmore := hlength (k :: byLastUse keys)
    (List.nodup_cons.mpr ⟨hclosed, nodup_byLastUse keys⟩)
    (List.forall_mem_cons.mpr ⟨hall k (List.mem_append_right _ List.mem_cons_self), hsub⟩)
  rw [List.length_cons, ← hopen, length_openKeys] at hmore
  rw [h.same.options]
  exact ⟨fun hmem => hclosed (mem_byLastUse.mpr hmem), hmore⟩

namespace Cuts

/-- The parts of the partition of a row are cut as they should be, and those of others are as they
were. -/
theorem cut_withParts (h : Cuts start w rows parts) {l : List (List Row)}
    (hk : Key.ofRow start.columns row = k)
    (hl : IsCut start.options.maxFileSize (rowsAt start.columns rows k ++ [row]) l) (other : Key) :
    IsCut start.options.maxFileSize (rowsAt start.columns (rows ++ [row]) other)
      (withParts parts k l other) := by
  rw [rowsAt_concat, hk]
  by_cases hother : other = k
  · subst hother
    rw [if_pos rfl, withParts_self]
    exact hl
  · rw [if_neg (Ne.symm hother), withParts_of_ne hother, List.append_nil]
    exact h.cut other

/-- The open files of other partitions have their last parts pending. -/
theorem buffers_withParts (h : Cuts start w rows parts) {f : OpenFile}
    {left : List (Key × OpenFile)} {before : List (List Row)} {last : List Row}
    (hf : f.writer.Buffers start.options.chunkSize last)
    (hleft : ∀ e ∈ left, e ∈ w.openFiles ∧ e.1 ≠ k) :
    ∀ e ∈ (k, f) :: left, ∃ before' last',
      withParts parts k (before ++ [last]) e.1 = before' ++ [last'] ∧
        e.2.writer.Buffers start.options.chunkSize last' := by
  refine List.forall_mem_cons.mpr ⟨⟨before, last, withParts_self .., hf⟩, fun e he => ?_⟩
  obtain ⟨hmem, hne⟩ := hleft e he
  rw [withParts_of_ne hne]
  exact h.buffers e hmem

end Cuts

end Cut

section Platform

variable [Columnar.Platform]

/-! ## Runs -/

/-- The rows that the files of partitions were handed, file by file, where parts were there
before. -/
def Writer.handed (w : Writer) (parts : Key → List (List Row)) :
    List Row → Key → List (List Row)
  | [] => parts
  | row :: more =>
    (w.write row).1.handed
      (place parts (Key.ofRow w.columns row) (w.opens? row).isSome row) more

theorem run_write_cons {w w' : Writer} {row : Row} {more : List Row}
    (h : w.run ((row :: more).map .write) = (w', .ok ())) :
    ∃ w₁, w.write row = (w₁, .ok ()) ∧ w₁.run (more.map .write) = (w', .ok ()) := by
  rw [List.map_cons, Writer.run] at h
  split at h
  · cases h
  · next w₁ hcall => exact ⟨w₁, hcall, h⟩

/-- Over a bare root, the rows that the files were handed are those they hold. -/
theorem Accounts.handed {start w w' : Writer} {rows more : List Row}
    {parts : Key → List (List Row)} (hnames : ∀ c ∈ start.columns, '/' ∉ c.name.toList)
    (hne : start.columns ≠ []) (h : Accounts start w rows parts)
    (hrun : w.run (more.map .write) = (w', .ok ())) :
    Accounts start w' (rows ++ more) (w.handed parts more) := by
  induction more generalizing w rows parts with
  | nil =>
    obtain ⟨rfl, -⟩ := Prod.mk.inj hrun
    rw [List.append_nil]
    exact h
  | cons row more ih =>
    obtain ⟨w₁, hwrite, hmore⟩ := run_write_cons hrun
    rw [Writer.handed, hwrite, h.same.columns, List.append_cons]
    refine ih ?_ hmore
    rcases h.write hnames hne rfl hwrite with
      ⟨before, last, hparts, hopens, haccounts⟩ | ⟨hopens, haccounts⟩
    · rw [hopens, Option.isSome_none, place_last hparts]
      exact haccounts
    · rw [hopens, Option.isSome_some]
      exact haccounts

variable {start w w' : Writer} {rows : List Row} {parts : Key → List (List Row)} {row : Row}
  {k : Key}

namespace Cuts

/-- A file is full when its part has reached the size. -/
theorem isFull_iff (h : Cuts start w rows parts) {f : OpenFile} {before : List (List Row)}
    {last : List Row} (hfind : find? k w.openFiles = some f) (hparts : parts k = before ++ [last])
    (hbuffers : f.writer.Buffers start.options.chunkSize last) :
    w.isFull k = true ↔ start.options.maxFileSize ≤ total last := by
  have hne : last ≠ [] := by
    rintro rfl
    exact (h.cut k).filled (hparts ▸ List.mem_append_right _ List.mem_cons_self)
  have hpos := List.length_pos_iff.mpr hne
  unfold Writer.isFull
  rw [hfind]
  dsimp only
  rw [hbuffers.size_eq, hbuffers.count, h.recent.same.options, decide_eq_true hpos, Bool.true_and,
    decide_eq_true_iff]

/-- A row is handed to the file of its partition, or to the next one where the part has reached the
size. -/
theorem write (h : Cuts start w rows parts) {all : List Key}
    (hall : ∀ l ∈ (rows ++ [row]).map (Key.ofRow start.columns), l ∈ all)
    (hroom : all.length ≤ start.options.maxOpenFiles)
    (hchunk : rows.length + 1 < start.options.chunkSize) (hwrite : w.write row = (w', .ok ())) :
    Cuts start w' (rows ++ [row])
      (place parts (Key.ofRow start.columns row) (w.opens? row).isSome row) := by
  have hrecent := h.recent.write hwrite
  have hturn := (h.recent.turn hwrite).1
  rw [List.map_append, List.map_singleton] at hall
  have hspare := h.recent.spare hall hroom
  have hless : (rowsAt start.columns rows (Key.ofRow start.columns row)).length ≤ rows.length :=
    List.length_filter_le ..
  generalize hk : Key.ofRow start.columns row = k at hrecent hturn hspare hless ⊢
  have hkeys : (rows ++ [row]).map (Key.ofRow start.columns) =
      rows.map (Key.ofRow start.columns) ++ [k] := by
    rw [List.map_append, List.map_singleton, hk]
  rw [← hkeys] at hrecent
  have hevicted : w'.evicted = 0 := by
    refine (hturn.evicted_eq ?_).trans h.evicted
    by_cases hopen : k ∈ w.openKeys
    · exact .inl hopen
    · exact .inr (hspare hopen).2
  cases hturn with
  | @used f writer hfind hfull hwrite hfiles _ hopens =>
    obtain ⟨before, last, hparts, hbuffers⟩ := h.buffers (k, f) (mem_of_find? hfind)
    have hcut := h.cut k
    rw [hparts] at hcut
    have hshort : ¬ start.options.maxFileSize ≤ total last := by
      rw [← h.isFull_iff hfind hparts hbuffers, hfull]
      exact Bool.false_ne_true
    have hlast := hcut.length_le (List.mem_append_right _ List.mem_cons_self)
    rw [hopens, Option.isSome_none, place_last hparts]
    refine ⟨hrecent, hevicted, h.cut_withParts hk (hcut.grow (Nat.lt_of_not_le hshort) row), ?_⟩
    rw [hfiles]
    exact h.buffers_withParts (hbuffers.write (by omega) hwrite) fun e he => mem_remove.mp he
  | @opened f writer left hmakes hnew hwrite hfiles hopens =>
    rw [h.recent.same.options] at hnew
    have hfirst : ([] : List Row).length + 1 < start.options.chunkSize := by
      rw [List.length_nil]
      omega
    have hbuffers := (Columnar.Writer.buffers_into hnew).write hfirst hwrite
    -- The file before it is full, or there is none: the partition is new.
    have hnext : (∀ part, (parts k).getLast? = some part → start.options.maxFileSize ≤ total part) ∧
        ∀ e ∈ left, e ∈ w.openFiles ∧ e.1 ≠ k := by
      generalize w'.evicted = evicted at hmakes
      cases hmakes with
      | @rotated f' hfind hfull =>
        obtain ⟨before, last, hparts, hbuffers⟩ := h.buffers (k, f') (mem_of_find? hfind)
        refine ⟨fun part hpart => ?_, fun e he => mem_remove.mp he⟩
        rw [hparts, List.getLast?_concat] at hpart
        obtain rfl := Option.some.inj hpart
        exact (h.isFull_iff hfind hparts hbuffers).mp hfull
      | spare hfind _ =>
        have hclosed := find?_eq_none.mp hfind
        refine ⟨fun part hpart => ?_, fun e he => ⟨he, ?_⟩⟩
        · have hnone : rowsAt start.columns rows k = [] := by
            refine List.filter_eq_nil_iff.mpr fun row' hrow' => ?_
            rw [decide_eq_true_iff]
            exact fun heq => (hspare hclosed).1 (heq ▸ List.mem_map_of_mem hrow')
          have hcut := h.cut k
          rw [hnone] at hcut
          rw [hcut.eq_nil] at hpart
          cases hpart
        · rintro rfl
          exact hclosed (List.mem_map_of_mem he)
      | evicted hfind hfull =>
        have hless := (hspare (find?_eq_none.mp hfind)).2
        omega
    have hcut := (h.cut k).next (one_le_maxFileSize _) hnext.1 row
    rw [hopens, Option.isSome_some]
    refine ⟨hrecent, hevicted, h.cut_withParts hk hcut, ?_⟩
    rw [hfiles]
    exact h.buffers_withParts hbuffers hnext.2

/-- Rows of all partitions, in any order, are cut by size. -/
theorem run (h : Cuts start w rows parts) {all : List Key} {more : List Row}
    (hall : ∀ l ∈ (rows ++ more).map (Key.ofRow start.columns), l ∈ all)
    (hroom : all.length ≤ start.options.maxOpenFiles)
    (hchunk : (rows ++ more).length < start.options.chunkSize)
    (hrun : w.run (more.map .write) = (w', .ok ())) :
    Cuts start w' (rows ++ more) (w.handed parts more) := by
  induction more generalizing w rows parts with
  | nil =>
    obtain ⟨rfl, -⟩ := Prod.mk.inj hrun
    rw [List.append_nil]
    exact h
  | cons row more ih =>
    obtain ⟨w₁, hwrite, hmore⟩ := run_write_cons hrun
    have hfirst : ∀ l ∈ (rows ++ [row]).map (Key.ofRow start.columns), l ∈ all := by
      intro l hl
      refine hall l ?_
      rw [List.append_cons, List.map_append]
      exact List.mem_append_left _ hl
    rw [List.append_cons] at hall hchunk ⊢
    have hless : rows.length + 1 < start.options.chunkSize := by
      rw [List.length_append, List.length_append, List.length_singleton] at hchunk
      omega
    rw [Writer.handed, hwrite, h.recent.same.columns]
    exact ih (h.write hfirst hroom hless hwrite) hall hchunk hmore

end Cuts

/-- Where there is room for all partitions, nothing is flushed early and all calls succeed, the rows
of each partition are cut by size: every file but the last one ends with the row that makes it reach
the limit, and the last one had not reached it before its last row. The last file of each partition
is open and has its rows pending; over a bare root a close that succeeds leaves these files. -/
theorem size_cuts_partitions {tree made : FileTree} {root : String} {columns : List Column}
    {options : Options} {start w : Writer} {rows : List Row}
    (hcreate : Writer.create tree root columns options = (made, .ok start))
    (hkeys : (rows.map (Key.ofRow start.columns)).eraseDups.length ≤ options.maxOpenFiles)
    (hchunk : rows.length < options.chunkSize)
    (hrun : start.run (rows.map .write) = (w, .ok ())) :
    let parts := start.handed (fun _ => []) rows
    (∀ k, IsCut options.maxFileSize (rowsAt start.columns rows k) (parts k)) ∧
    w.evicted = 0 ∧
    (∀ k ∈ rows.map (Key.ofRow start.columns), ∃ f, (k, f) ∈ w.openFiles ∧
      (parts k).getLast? = some f.writer.pending.toList) ∧
    (IsBare tree (placeOf root) → (∀ c ∈ start.columns, '/' ∉ c.name.toList) →
      ∀ closed report, w.close = (closed, .ok report) → IsDataset start closed rows parts) := by
  intro parts
  obtain ⟨rfl, hfiles, hzero, hrecent⟩ := recent_create hcreate
  have hstart : Cuts start start [] fun _ => [] :=
    ⟨hrecent, hzero, fun _ => .nil _, hfiles ▸ List.forall_mem_nil _⟩
  have hall : ∀ l ∈ rows.map (Key.ofRow start.columns),
      l ∈ (rows.map (Key.ofRow start.columns)).eraseDups := fun l => List.mem_eraseDups.mpr
  have hcuts : Cuts start w rows parts := hstart.run hall hkeys hchunk hrun
  refine ⟨hcuts.cut, hcuts.evicted, fun k hk => ?_, fun hbare hnames closed report hclose => ?_⟩
  · have hopen : k ∈ w.openKeys := by
      by_contra hclosed
      refine (hcuts.recent.spare (fun l hl => hall l ?_) hkeys hclosed).1 hk
      rcases List.mem_append.mp hl with hmem | hlast
      · exact hmem
      · exact List.mem_singleton.mp hlast ▸ hk
    obtain ⟨f, hfind⟩ := mem_openKeys_iff.mp hopen
    obtain ⟨before, last, hparts, hbuffers⟩ := hcuts.buffers (k, f) (mem_of_find? hfind)
    refine ⟨f, mem_of_find? hfind, ?_⟩
    rw [hparts, List.getLast?_concat, hbuffers.pending]
  · obtain ⟨hne, hprogress⟩ := progress_create hbare hcreate
    have haccounts := hprogress.accounts.handed hnames hne hrun
    exact haccounts.close hnames (fun k => (hcuts.cut k).filled) hclose

end Platform

/-- Rows of nine bytes each and a limit of twenty: of the four rows of one partition three make the
first file, though a row of another partition comes between them. -/
theorem size_cuts_partitions_between :
    let columns : List Column := [⟨"k", some .text⟩, ⟨"v", some .int⟩]
    let options := Options.ofPairs [("PARTITION", "k"), ("MAX_FILE_SIZE", "20")]
    let rows : List Row := ["a", "b", "a", "a", "b", "a"].map fun k =>
      ⟨[("k", .text k), ("v", .int 1)]⟩
    ∃ start w closed report, (Writer.create .empty "d" columns options).2 = .ok start ∧
      start.run (rows.map .write) = (w, .ok ()) ∧ w.close = (closed, .ok report) ∧
      ∃ parts, IsDataset start closed rows parts ∧
        (∀ k, IsCut options.maxFileSize (rowsAt start.columns rows k) (parts k)) ∧
        (parts [("k", "a")]).map List.length = [3, 1] ∧
        (parts [("k", "b")]).map List.length = [2] := by
  intro columns options rows
  let start : Writer :=
    ⟨⟨[(["d"], .directory)]⟩, "d", [⟨"k", "k", none⟩], columns, options, [], [], 0, 0⟩
  have hcreate : Writer.create .empty "d" columns options = (start.tree, .ok start) := rfl
  have hparts : ((start.handed (fun _ => []) rows) [("k", "a")]).map List.length = [3, 1] ∧
      ((start.handed (fun _ => []) rows) [("k", "b")]).map List.length = [2] := by decide +kernel
  obtain ⟨⟨⟩, hrun⟩ :=
    exists_eq_ok (show (start.run (rows.map .write)).2.isOk = true by decide +kernel)
  obtain ⟨report, hclose⟩ :=
    exists_eq_ok (show (start.run (rows.map .write)).1.close.2.isOk = true by decide +kernel)
  generalize (start.run (rows.map .write)).1 = w at hrun hclose
  generalize w.close.1 = closed at hclose
  obtain ⟨hcut, -, -, hdataset⟩ :=
    size_cuts_partitions hcreate (by decide +kernel) (by decide +kernel) hrun
  exact ⟨start, w, closed, report, rfl, hrun, hclose, _,
    hdataset (by decide) (by decide) closed report hclose, hcut, hparts⟩

end BulkTransfer.Partition
