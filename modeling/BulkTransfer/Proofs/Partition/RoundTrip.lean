import BulkTransfer.Proofs.Delimited.RoundTrip
import BulkTransfer.Proofs.Partition.Discovery

/-!
A dataset that was written is read back. A filter selects whole parts, by the partition values of
their rows, and the parts that it selects are read one after the other.

- `IsDataset.exists_reader`: a dataset is opened, and has the rows of the selected parts left.
- `pieces_perm`, `rows_selectedKeys_perm`: these are the parts of the selected partitions, and their
  rows are the selected rows.
- `written_dataset_reads_back`: each selected row is read once, and no other.
-/

namespace BulkTransfer.Partition

open FileTree
open Columnar (TypedColumn typedOf)

/-! ## Parts and partitions -/

/-- The rows of a part. -/
def partAt (parts : Key → List (List Row)) (p : Key × Nat) : List Row := (parts p.1).getD p.2 []

/-- The numbers of the parts of partitions. -/
def indices (parts : Key → List (List Row)) (keys : List Key) : List (Key × Nat) :=
  keys.flatMap fun k => (List.range (parts k).length).map fun i => (k, i)

theorem mem_indices {parts : Key → List (List Row)} {keys : List Key} {k : Key} {i : Nat} :
    (k, i) ∈ indices parts keys ↔ k ∈ keys ∧ i < (parts k).length := by
  unfold indices
  rw [List.mem_flatMap]
  constructor
  · rintro ⟨l, hl, hmem⟩
    obtain ⟨j, hj, heq⟩ := List.mem_map.mp hmem
    obtain ⟨rfl, rfl⟩ := Prod.mk.inj heq
    exact ⟨hl, List.mem_range.mp hj⟩
  · rintro ⟨hk, hi⟩
    exact ⟨k, hk, List.mem_map_of_mem (List.mem_range.mpr hi)⟩

theorem nodup_indices (parts : Key → List (List Row)) {keys : List Key} (h : keys.Nodup) :
    (indices parts keys).Nodup := by
  unfold indices List.Nodup
  rw [List.pairwise_flatMap]
  constructor
  · intro k _
    refine List.pairwise_map.mpr (List.nodup_range.imp fun hne heq => hne ?_)
    exact (Prod.mk.inj heq).2
  · refine h.imp fun hne p hp q hq heq => hne ?_
    obtain ⟨i, -, rfl⟩ := List.mem_map.mp hp
    obtain ⟨j, -, rfl⟩ := List.mem_map.mp hq
    exact (Prod.mk.inj heq).1

/-- The parts by their numbers are the parts. -/
theorem map_partAt_indices (parts : Key → List (List Row)) (keys : List Key) :
    (indices parts keys).map (partAt parts) = keys.flatMap parts := by
  have hall : ∀ l : List (List Row), (List.range l.length).map (fun i => l.getD i []) = l := by
    intro l
    refine List.ext_getElem (by simp) fun i _ hi => ?_
    rw [List.getElem_map, List.getElem_range, List.getD_eq_getElem?_getD,
      List.getElem?_eq_getElem hi, Option.getD_some]
  unfold indices
  rw [List.map_flatMap]
  congr 1
  funext k
  rw [List.map_map]
  exact hall (parts k)

/-- The rows of different partitions are the rows with their keys. -/
theorem flatMap_rowsAt_perm (columns : List PartitionColumn) (rows : List Row) {keys : List Key}
    (h : keys.Nodup) :
    (keys.flatMap (rowsAt columns rows)).Perm
      (rows.filter fun row => Key.ofRow columns row ∈ keys) := by
  induction keys with
  | nil => simp
  | cons k more ih =>
    obtain ⟨hk, hmore⟩ := List.nodup_cons.mp h
    -- Of the rows with one of the keys, those with the first one are told from the others.
    have hsplit := List.filter_append_perm (fun row => decide (Key.ofRow columns row = k))
      (rows.filter fun row => Key.ofRow columns row ∈ k :: more)
    have hfirst : (rows.filter fun row => Key.ofRow columns row ∈ k :: more).filter
        (fun row => decide (Key.ofRow columns row = k)) = rowsAt columns rows k := by
      rw [List.filter_filter]
      refine List.filter_congr fun row _ => ?_
      by_cases hrow : Key.ofRow columns row = k <;> simp [hrow]
    have hothers : (rows.filter fun row => Key.ofRow columns row ∈ k :: more).filter
        (fun row => !decide (Key.ofRow columns row = k)) =
          rows.filter fun row => Key.ofRow columns row ∈ more := by
      rw [List.filter_filter]
      refine List.filter_congr fun row _ => ?_
      by_cases hrow : Key.ofRow columns row = k
      · simp [hrow, hk]
      · simp [hrow]
    rw [hfirst, hothers] at hsplit
    rw [List.flatMap_cons]
    exact ((ih hmore).append_left _).trans hsplit

/-! ## Files in front of stored rows -/

/-- The file that is being read has stored rows left, to which it adds no column. -/
structure Current.Leaves (typed : List TypedColumn) (current : Current) (left : List Row) :
    Prop where
  reader : Columnar.Reader.Leaves typed current.reader left
  whole : ∀ row ∈ left, complete current.extra row = row

namespace Reader

/-- A file can be opened, and has stored rows. -/
def Opens (typed : List TypedColumn) (tree : FileTree) (options : Options)
    (p : DataFile × List Row) : Prop :=
  ∃ current, openFile tree options p.1 = .ok current ∧ current.Leaves typed p.2

/-- Stored rows that are left in the current file and in those still to open. -/
structure Rest.Leaves (typed : List TypedColumn) (tree : FileTree) (options : Options)
    (rest : Rest) (left : List Row) : Prop where
  split : ∃ (now : List Row) (files : List (DataFile × List Row)),
    rest.pending = files.map Prod.fst ∧ (∀ p ∈ files, Opens typed tree options p) ∧
      left = now ++ files.flatMap Prod.snd ∧
      match rest.current? with
      | none => now = []
      | some current => current.Leaves typed now

variable {typed : List TypedColumn} (hnodup : (typed.map TypedColumn.name).Nodup)
  (hbuilt : ∀ c ∈ typed, c.type.isBuiltIn = true)

include hnodup hbuilt

theorem holds_of_leaves {current : Current} {left : List Row} (h : current.Leaves typed left) :
    current.Holds left := by
  refine ⟨left, h.reader.holds hnodup hbuilt, ?_⟩
  exact ((List.map_congr_left h.whole).trans (List.map_id left)).symm

/-- A dataset has exactly the stored rows of its current file and of those behind it left. -/
theorem Rest.Leaves.reads {r : Reader} {left : List Row}
    (h : (Rest.mk r.current? r.pending).Leaves typed r.tree r.options left) :
    (BulkTransfer.Reader.partitioned r).Reads (left.map .ok) := by
  obtain ⟨now, files, hpending, hfiles, hleft, hnow⟩ := h.split
  refine Rest.Holds.reads ⟨now, files, hpending, ?_, hleft, ?_⟩
  · intro p hp
    obtain ⟨current, hopen, hleaves⟩ := hfiles p hp
    exact ⟨current, hopen, holds_of_leaves hnodup hbuilt hleaves⟩
  · dsimp only at hnow ⊢
    cases hcurrent : r.current? with
    | none =>
      rw [hcurrent] at hnow
      exact hnow
    | some current =>
      rw [hcurrent] at hnow
      exact holds_of_leaves hnodup hbuilt hnow

end Reader

/-! ## Reading a dataset -/

section Dataset

variable [Columnar.Platform] {start : Writer} {tree : FileTree} {rows : List Row}
  {parts : Key → List (List Row)}
  (h : IsDataset start tree rows parts)

include h

/-- The directories of a part add no column. -/
theorem IsDataset.addsNothing (htold : AreTold start.columns)
    (hadds : ∀ c ∈ start.columns, AddsNothing start.dataColumns c.name) {k : Key} {i : Nat}
    (hi : i < (parts k).length) :
    ∀ p ∈ (fileOf start.root (k, i)).values, AddsNothing start.dataColumns p.1 := by
  have hkey := h.isKey hi
  rw [values_fileOf htold start.root hkey]
  obtain ⟨row, rfl⟩ := hkey
  intro p hp
  obtain ⟨q, hq, rfl⟩ := List.mem_map.mp hp
  obtain ⟨c, hc, rfl⟩ := List.mem_map.mp hq
  exact hadds c hc

variable (htypes : ∀ c ∈ start.dataColumns, ∃ type, c.type? = some type ∧ type.isBuiltIn = true)
  (hrows : ∀ row ∈ rows, row.Fits start.dataColumns)

include htypes hrows

/-- A part is opened as a file with the columns of the dataset and the rows of the part. -/
theorem IsDataset.ofPath {k : Key} {i : Nat} (hi : i < (parts k).length) (options : Options) :
    ∃ reader, Columnar.Reader.ofPath tree (partPath start.root k i) options = .ok reader ∧
      reader.columns = start.dataColumns ∧
      Columnar.Reader.Leaves (typedOf start.dataColumns) reader ((partAt parts (k, i)).map
        fun row => row.project (start.dataColumns.map Column.name)) := by
  have hpart : (parts k)[i]? = some (partAt parts (k, i)) := by
    unfold partAt
    rw [List.getD_eq_getElem?_getD, List.getElem?_eq_getElem hi, Option.getD_some]
  obtain ⟨f, hfile, hmakes⟩ := h.finished k i _ hpart
  have htyped : ∀ c ∈ start.dataColumns, c.type?.isSome = true := by
    intro c hc
    obtain ⟨type, htype, -⟩ := htypes c hc
    exact Option.isSome_iff_exists.mpr ⟨type, htype⟩
  have hfits : ∀ row ∈ partAt parts (k, i), row.Fits start.dataColumns := by
    intro row hrow
    have hmem : row ∈ (parts k).flatten :=
      List.mem_flatten_of_mem (List.mem_of_getElem? hpart) hrow
    rw [h.split] at hmem
    exact hrows row (mem_rowsAt.mp hmem).1
  have hstorable := hmakes.isStorable htyped hfits
  obtain ⟨hfields, hcells⟩ := hmakes.cells htyped
  have hleaves := Columnar.Reader.leaves_ofFile hstorable hfields hcells options
  rw [Columnar.names_typedOf] at hleaves
  refine ⟨Columnar.Reader.ofFile f options, ?_, ?_, hleaves⟩
  · unfold Columnar.Reader.ofPath
    rw [hfile.look]
  · show f.fields.map Columnar.Field.column = _
    rw [hfields, Columnar.columns_fields htypes]

variable (htold : AreTold start.columns)
  (hadds : ∀ c ∈ start.columns, AddsNothing start.dataColumns c.name)

include htold hadds

theorem IsDataset.opens {k : Key} {i : Nat} (hi : i < (parts k).length) (options : Options) :
    Reader.Opens (typedOf start.dataColumns) tree options (fileOf start.root (k, i),
      (partAt parts (k, i)).map fun row => row.project (start.dataColumns.map Column.name)) := by
  obtain ⟨reader, hopen, -, hleaves⟩ := h.ofPath htypes hrows hi options
  have hpath : Columnar.Reader.ofPath tree (fileOf start.root (k, i)).path options = .ok reader :=
    hopen
  refine ⟨⟨reader, (fileOf start.root (k, i)).extra⟩, ?_, hleaves, ?_⟩
  · unfold Reader.openFile
    rw [hpath]
  · intro row hrow
    obtain ⟨original, -, rfl⟩ := List.mem_map.mp hrow
    exact complete_project (h.addsNothing htold hadds hi) original

/-- A dataset with rows is opened by any filter, and has the rows of the selected parts left. -/
theorem IsDataset.exists_reader (hne : rows ≠ []) (hfault : pathFault? start.root = none)
    (options : Options) (filter : List (String × String)) :
    ∃ (r : Reader) (chosen : List (Key × Nat)),
      Reader.withFilter tree start.root options filter = .ok r ∧
      r.columns = start.dataColumns ∧ chosen.Nodup ∧
      (∀ k i, (k, i) ∈ chosen ↔ i < (parts k).length ∧ k.isSelected filter = true) ∧
      r.size = ⟨chosen.length, (chosen.map fun p => p.1.map Key.segment).eraseDups.length⟩ ∧
      (Reader.Rest.mk r.current? r.pending).Leaves (typedOf start.dataColumns) r.tree r.options
        ((chosen.map (partAt parts)).flatten.map
          fun row => row.project (start.dataColumns.map Column.name)) := by
  obtain ⟨first, others, hfiles, hnodup, hmem⟩ := h.discover htold.slash hne hfault
  let chosen := (first :: others).filter fun p => p.1.isSelected filter
  have hselected : (fileOf start.root first :: others.map (fileOf start.root)).filter
      (fun f => f.matchesFilter filter) = chosen.map (fileOf start.root) :=
    filter_fileOf htold start.root (fun p hp => h.isKey ((hmem p.1 p.2).mp hp)) filter
  have hchosen : ∀ k i, (k, i) ∈ chosen ↔ i < (parts k).length ∧ k.isSelected filter = true := by
    intro k i
    rw [List.mem_filter, hmem]
  have hfirst : first.2 < (parts first.1).length :=
    (hmem first.1 first.2).mp List.mem_cons_self
  have hdirectories : (chosen.map (fileOf start.root)).map (fun f => f.names.dropLast) =
      chosen.map fun p => p.1.map Key.segment := by
    rw [List.map_map]
    exact List.map_congr_left fun p _ => List.dropLast_concat
  obtain ⟨reader, hopen, hcolumns, -⟩ := h.ofPath htypes hrows hfirst options
  have hpath : Columnar.Reader.ofPath tree (fileOf start.root first).path options = .ok reader :=
    hopen
  refine ⟨⟨tree, options, start.dataColumns,
    ⟨chosen.length, (chosen.map fun p => p.1.map Key.segment).eraseDups.length⟩,
    chosen.map (fileOf start.root), none⟩, chosen, ?_, rfl, hnodup.sublist List.filter_sublist,
    hchosen, rfl, ?_⟩
  · unfold Reader.withFilter
    rw [hfiles]
    dsimp only
    rw [hpath, hselected, hdirectories, List.length_map]
    dsimp only
    rw [hcolumns, datasetColumns_eq (h.addsNothing htold hadds hfirst)]
  · refine ⟨[], chosen.map fun p => (fileOf start.root p, (partAt parts p).map fun row =>
      row.project (start.dataColumns.map Column.name)), ?_, ?_, ?_, rfl⟩
    · show chosen.map (fileOf start.root) = _
      rw [List.map_map]
      rfl
    · intro p hp
      obtain ⟨q, hq, rfl⟩ := List.mem_map.mp hp
      exact h.opens htypes hrows htold hadds ((hchosen q.1 q.2).mp hq).1 options
    · rw [List.nil_append, List.flatMap_map, List.map_flatten, List.map_map, List.flatMap_def]
      rfl

end Dataset

/-- The keys of the rows that a filter selects, each once. -/
def selectedKeys (columns : List PartitionColumn) (filter : List (String × String))
    (rows : List Row) : List Key :=
  ((rows.filter (isSelected columns filter)).map (Key.ofRow columns)).eraseDups

theorem mem_selectedKeys {columns : List PartitionColumn} {filter : List (String × String)}
    {rows : List Row} {k : Key} : k ∈ selectedKeys columns filter rows ↔
      k.isSelected filter = true ∧ ∃ row ∈ rows, Key.ofRow columns row = k := by
  unfold selectedKeys
  rw [List.mem_eraseDups, List.mem_map]
  constructor
  · rintro ⟨row, hrow, rfl⟩
    obtain ⟨hmem, hselected⟩ := List.mem_filter.mp hrow
    exact ⟨(isSelected_ofRow columns filter row).trans hselected, row, hmem, rfl⟩
  · rintro ⟨hselected, row, hmem, rfl⟩
    rw [isSelected_ofRow] at hselected
    exact ⟨row, List.mem_filter.mpr ⟨hmem, hselected⟩, rfl⟩

theorem nodup_selectedKeys (columns : List PartitionColumn) (filter : List (String × String))
    (rows : List Row) : (selectedKeys columns filter rows).Nodup :=
  nodup_eraseDups _

/-- The rows of the selected partitions are the selected rows. -/
theorem rows_selectedKeys_perm (columns : List PartitionColumn) (filter : List (String × String))
    (rows : List Row) : ((selectedKeys columns filter rows).flatMap (rowsAt columns rows)).Perm
      (rows.filter (isSelected columns filter)) := by
  refine (flatMap_rowsAt_perm columns rows (nodup_selectedKeys _ _ _)).trans (.of_eq ?_)
  refine List.filter_congr fun row hrow => ?_
  rw [Bool.eq_iff_iff, decide_eq_true_iff, mem_selectedKeys, isSelected_ofRow]
  exact ⟨And.left, fun hselected => ⟨hselected, row, hrow, rfl⟩⟩

section Chosen

variable [Columnar.Platform] {start : Writer} {tree : FileTree} {rows : List Row}
  {parts : Key → List (List Row)}
  (h : IsDataset start tree rows parts) {filter : List (String × String)}
  {chosen : List (Key × Nat)}
  (hchosen : ∀ k i, (k, i) ∈ chosen ↔ i < (parts k).length ∧ k.isSelected filter = true)

include h hchosen

theorem mem_chosen {k : Key} {i : Nat} : (k, i) ∈ chosen ↔
    k ∈ selectedKeys start.columns filter rows ∧ i < (parts k).length := by
  rw [hchosen, mem_selectedKeys]
  constructor
  · rintro ⟨hi, hselected⟩
    have hne : parts k ≠ [] := List.ne_nil_of_length_pos (Nat.zero_lt_of_lt hi)
    exact ⟨⟨hselected, (ne_nil_iff_exists (h.split k) (h.filled k)).mp hne⟩, hi⟩
  · rintro ⟨⟨hselected, -⟩, hi⟩
    exact ⟨hi, hselected⟩

/-- The selected parts are those of the selected keys. -/
theorem pieces_perm (hnodup : chosen.Nodup) : (chosen.map (partAt parts)).Perm
    ((selectedKeys start.columns filter rows).flatMap parts) := by
  rw [← map_partAt_indices]
  refine List.Perm.map _ ((List.perm_ext_iff_of_nodup hnodup
    (nodup_indices parts (nodup_selectedKeys _ _ _))).mpr ?_)
  rintro ⟨k, i⟩
  rw [mem_chosen h hchosen, mem_indices]

/-- The selected parts have as many directories as there are selected keys. -/
theorem length_directories : (chosen.map fun p => p.1.map Key.segment).eraseDups.length =
    (selectedKeys start.columns filter rows).length := by
  have hkeys : ((selectedKeys start.columns filter rows).map (List.map Key.segment)).Nodup := by
    refine List.pairwise_map.mpr (List.Pairwise.imp_of_mem ?_ (nodup_selectedKeys _ _ _))
    intro k l hk hl hne heq
    obtain ⟨-, row, -, rfl⟩ := mem_selectedKeys.mp hk
    obtain ⟨-, row', -, rfl⟩ := mem_selectedKeys.mp hl
    exact hne (Key.ofRow_inj heq)
  have hperm : (chosen.map fun p => p.1.map Key.segment).eraseDups.Perm
      ((selectedKeys start.columns filter rows).map (List.map Key.segment)) := by
    refine (List.perm_ext_iff_of_nodup (nodup_eraseDups _) hkeys).mpr fun names => ?_
    rw [List.mem_eraseDups, List.mem_map, List.mem_map]
    constructor
    · rintro ⟨p, hp, rfl⟩
      exact ⟨p.1, ((mem_chosen h hchosen).mp hp).1, rfl⟩
    · rintro ⟨k, hk, rfl⟩
      have hparts := (ne_nil_iff_exists (h.split k) (h.filled k)).mpr (mem_selectedKeys.mp hk).2
      exact ⟨(k, 0), (mem_chosen h hchosen).mpr ⟨hk, List.length_pos_iff.mpr hparts⟩, rfl⟩
  rw [hperm.length_eq, List.length_map]

end Chosen

/-! ## The round trip -/

theorem pathFault?_of_makeDirectories {tree made : FileTree} {path : String} (hne : path ≠ "")
    (h : tree.makeDirectories path = (made, none)) : pathFault? path = none := by
  unfold makeDirectories at h
  rw [Path.isEmpty_eq_false fun hnil => hne (String.toList_eq_nil_iff.mp hnil),
    if_neg Bool.false_ne_true] at h
  split at h
  · cases h
  · next hfault => exact hfault

/-- A dataset that was written from rows of canonical values is opened under every filter, and
reads each row that the filter selects once and no other: the parts of the selected partitions one
after the other, each in its order, with the columns of the table and no others. -/
theorem written_dataset_reads_back [Columnar.Platform] {tree made closed : FileTree}
    {root : String} {columns : List Column} {options : Options} {start w : Writer}
    {calls : List Call} {report : WriteReport} (hroot : root ≠ "")
    (hbare : IsBare tree (placeOf root))
    (hcreate : Writer.create tree root columns options = (made, .ok start))
    (hrun : start.run calls = (w, .ok ())) (hclose : w.close = (closed, .ok report))
    (htold : AreTold start.columns) (hnodup : (columns.map Column.name).Nodup)
    (htypes : ∀ c ∈ columns, ∃ type, c.type? = some type ∧ type.isBuiltIn = true)
    (hne : calls.filterMap Call.row? ≠ [])
    (hrows : ∀ row ∈ calls.filterMap Call.row?, row.Fits columns) (o : Options)
    (filter : List (String × String)) :
    let rows := calls.filterMap Call.row?
    let keys := selectedKeys start.columns filter rows
    ∃ (r : Reader) (parts : Key → List (List Row)) (pieces : List (List Row)),
      Reader.withFilter closed root o filter = .ok r ∧ r.columns = columns ∧
      IsDataset start closed rows parts ∧ pieces.Perm (keys.flatMap parts) ∧
      pieces.flatten.Perm (rows.filter (isSelected start.columns filter)) ∧
      r.size = ⟨pieces.length, keys.length⟩ ∧
      (BulkTransfer.Reader.partitioned r).Reads
        (Delimited.Reader.recordsOf columns pieces.flatten) := by
  obtain ⟨hcolumns, hstart⟩ := progress_create hbare hcreate
  obtain ⟨parts, hprogress⟩ := hstart.run htold.slash hcolumns hrun
  obtain ⟨hdataset, -⟩ := hprogress.close htold.slash hclose
  obtain ⟨hmade, partition, hpartition, rfl⟩ := create_eq_ok hcreate
  intro rows keys
  obtain ⟨r, chosen, hopen, hsame, hchosenNodup, hchosen, hsize, hleaves⟩ :=
    hdataset.exists_reader htypes hrows htold (addsNothing_of_columnsFor hpartition) hne
      (pathFault?_of_makeDirectories hroot hmade) o filter
  have hpieces : (chosen.map (partAt parts)).Perm (keys.flatMap parts) :=
    pieces_perm hdataset hchosen hchosenNodup
  refine ⟨r, parts, chosen.map (partAt parts), hopen, hsame, hdataset, hpieces, ?_, ?_, ?_⟩
  · have hflatten : (keys.flatMap parts).flatten = keys.flatMap (rowsAt partition rows) := by
      rw [List.flatMap_def, List.flatten_flatten, List.map_map, List.flatMap_def]
      exact congrArg List.flatten (List.map_congr_left fun k _ => hdataset.split k)
    exact hpieces.flatten.trans (hflatten ▸ rows_selectedKeys_perm partition filter rows)
  · rw [hsize, length_directories hdataset hchosen, List.length_map]
    rfl
  · have hreads := hleaves.reads (by rwa [Columnar.names_typedOf])
      (Columnar.isBuiltIn_typedOf htypes)
    rw [List.map_map] at hreads
    exact hreads

/-- A partition by a column and by the year of another: of three rows in three directories, two are
of the year that is asked for. -/
theorem written_dataset_reads_back_year :
    let columns : List Column := [⟨"k", some .text⟩, ⟨"t", some .timestamp⟩]
    let options := Options.ofPairs [("PARTITION", "k, t.year"), ("MAX_OPEN_FILES", "1")]
    let first : Row := ⟨[("t", .instant ⟨946684800, 0⟩), ("k", .text "a/=")]⟩
    let second : Row := ⟨[("k", .null), ("t", .instant ⟨946684801, 0⟩)]⟩
    let rows := [first, second, ⟨[("k", .text "a/=")]⟩]
    let filter := [("t.year", "2000")]
    ∃ start w closed report,
      (Writer.create .empty "d" columns options).2 = .ok start ∧
      start.run (rows.map .write) = (w, .ok ()) ∧ w.close = (closed, .ok report) ∧
      ∃ (r : Reader) (pieces : List (List Row)),
        Reader.withFilter closed "d" .empty filter = .ok r ∧ r.columns = columns ∧
        pieces.flatten.Perm [first, second] ∧ r.size = ⟨pieces.length, 2⟩ ∧
        (BulkTransfer.Reader.partitioned r).Reads
          (Delimited.Reader.recordsOf columns pieces.flatten) := by
  intro columns options first second rows filter
  let partition : List PartitionColumn := [⟨"k", "k", none⟩, ⟨"t.year", "t", some .year⟩]
  let start : Writer :=
    ⟨⟨[(["d"], .directory)]⟩, "d", partition, columns, options, [], [], 0, 0⟩
  have hcreate : Writer.create .empty "d" columns options = (start.tree, .ok start) := rfl
  obtain ⟨⟨⟩, hrun⟩ :=
    exists_eq_ok (show (start.run (rows.map .write)).2.isOk = true by decide +kernel)
  obtain ⟨report, hclose⟩ :=
    exists_eq_ok (show (start.run (rows.map .write)).1.close.2.isOk = true by decide +kernel)
  generalize (start.run (rows.map .write)).1 = w at hrun hclose
  generalize w.close.1 = closed at hclose
  have htypes : ∀ c ∈ columns, ∃ type, c.type? = some type ∧ type.isBuiltIn = true := by
    simp only [columns, List.mem_cons, List.not_mem_nil, or_false, forall_eq_or_imp, forall_eq]
    exact ⟨⟨_, rfl, rfl⟩, ⟨_, rfl, rfl⟩⟩
  have hrows : ∀ row ∈ rows, row.Fits columns := by
    intro row hrow c hc type htype
    simp only [rows, columns, List.mem_cons, List.not_mem_nil, or_false] at hrow hc
    rcases hrow with rfl | rfl | rfl <;> rcases hc with rfl | rfl <;>
      obtain rfl := Option.some.inj htype
    · exact .text rfl _
    · exact .instant (by decide)
    · exact .null _
    · exact .instant (by decide)
    · exact .text rfl _
    · exact .null _
  have hselected : rows.filter (isSelected partition filter) = [first, second] := by
    rw [List.filter_cons_of_pos (by decide +kernel), List.filter_cons_of_pos (by decide +kernel),
      List.filter_cons_of_neg (by decide +kernel), List.filter_nil]
  have hkeys : (selectedKeys partition filter rows).length = 2 := by decide +kernel
  obtain ⟨r, parts, pieces, hopen, hcolumns, -, -, hperm, hsize, hreads⟩ :=
    written_dataset_reads_back (by decide) (by decide) hcreate hrun hclose
      ⟨by decide, by decide, by decide⟩ (by decide) htypes (List.cons_ne_nil _ _) hrows .empty
      filter
  refine ⟨start, w, closed, report, rfl, hrun, hclose, r, pieces, hopen, hcolumns, ?_, ?_, hreads⟩
  · exact hselected ▸ hperm
  · exact hkeys ▸ hsize

/-- The empty path stands for the working directory where a dataset is written, and for nothing
where one is read: a dataset that was written below it is not found under it. -/
theorem written_dataset_without_path_not_found :
    let columns : List Column := [⟨"k", some .text⟩, ⟨"v", some .int⟩]
    let options := Options.ofPairs [("PARTITION", "k")]
    let rows : List Row := [⟨[("k", .text "a"), ("v", .int 1)]⟩]
    ∃ start w closed report,
      Writer.create .empty "" columns options = (.empty, .ok start) ∧ AreTold start.columns ∧
      (∀ row ∈ rows, row.Fits columns) ∧
      start.run (rows.map .write) = (w, .ok ()) ∧ w.close = (closed, .ok report) ∧
      start.opened (rows.map .write) = ["k=a/part-00000.parquet"] ∧
      ∀ o filter, Reader.withFilter closed "" o filter =
        .error (pathFailure "read_partition_dir" "" .notFound) := by
  intro columns options rows
  let start : Writer := ⟨.empty, "", [⟨"k", "k", none⟩], columns, options, [], [], 0, 0⟩
  have hopened : start.opened (rows.map .write) = ["k=a/part-00000.parquet"] := by decide +kernel
  obtain ⟨⟨⟩, hrun⟩ :=
    exists_eq_ok (show (start.run (rows.map .write)).2.isOk = true by decide +kernel)
  obtain ⟨report, hclose⟩ :=
    exists_eq_ok (show (start.run (rows.map .write)).1.close.2.isOk = true by decide +kernel)
  generalize (start.run (rows.map .write)).1 = w at hrun hclose
  generalize w.close.1 = closed at hclose
  have hrows : ∀ row ∈ rows, row.Fits columns := by
    intro row hrow c hc type htype
    simp only [rows, columns, List.mem_cons, List.not_mem_nil, or_false] at hrow hc
    rcases hrow with rfl
    rcases hc with rfl | rfl <;> obtain rfl := Option.some.inj htype
    · exact .text rfl _
    · exact .int rfl (by decide)
  exact ⟨start, w, closed, report, rfl, ⟨by decide, by decide, by decide⟩, hrows, hrun, hclose,
    hopened, fun o filter => rfl⟩

end BulkTransfer.Partition
