import BulkTransfer.Columnar.Storage
import BulkTransfer.Proofs.Partition.Writer

/-!
A dataset that was written to its end. Its files are the parts of its partitions; each partition
has its rows in their order, and the report tells the partitions that occurred.

- `IsDataset`: a tree holds rows as the finished parts of partitions, and no other files.
- `progress_create`: what is known of a dataset that was just opened.
- `finishAll_invariant`, `finishAll_frame`: finishing files keeps what finishing one of them does.
- `Accounts.close`: finishing the open files leaves the dataset.
- `parts_hold_rows_once`: calls and a close that succeed leave a dataset of the rows handed over.
-/

namespace BulkTransfer.Partition

open FileTree

theorem mem_rowsAt {columns : List PartitionColumn} {rows : List Row} {k : Key} {row : Row} :
    row ∈ rowsAt columns rows k ↔ row ∈ rows ∧ Key.ofRow columns row = k := by
  unfold rowsAt
  rw [List.mem_filter, decide_eq_true_iff]

/-- The partitions with parts are those of the rows. -/
theorem ne_nil_iff_exists {columns : List PartitionColumn} {rows : List Row} {k : Key}
    {parts : List (List Row)} (hsplit : parts.flatten = rowsAt columns rows k)
    (hfilled : [] ∉ parts) : parts ≠ [] ↔ ∃ row ∈ rows, Key.ofRow columns row = k := by
  constructor
  · intro hne
    obtain ⟨part, more, rfl⟩ := List.exists_cons_of_ne_nil hne
    obtain ⟨row, rest, rfl⟩ :=
      List.exists_cons_of_ne_nil fun hnil : part = [] => hfilled (hnil ▸ List.mem_cons_self)
    exact ⟨row, mem_rowsAt.mp (hsplit ▸ List.mem_cons_self)⟩
  · rintro ⟨row, hrow⟩ rfl
    have hmem := mem_rowsAt.mpr hrow
    rw [← hsplit] at hmem
    cases hmem

section Platform

variable [Columnar.Platform]

/-- A tree holds rows as the finished parts of partitions, and no other files. -/
structure IsDataset (start : Writer) (tree : FileTree) (rows : List Row)
    (parts : Key → List (List Row)) : Prop where
  /-- The parts of a partition hold its rows, in their order. -/
  split : ∀ k, (parts k).flatten = rowsAt start.columns rows k
  /-- Every part has a row. -/
  filled : ∀ k, [] ∉ parts k
  /-- Every part is a finished file that was handed the rows of the part. -/
  finished : ∀ k i part, (parts k)[i]? = some part → IsFinished start tree k i part
  /-- Every file below the root is a part. -/
  only : ∀ place names content, below? (placeOf start.root) place = some names →
    tree.node? place = some (.file content) →
      ∃ k i, i < (parts k).length ∧ names = partNames k i
  /-- Every place below the root has one entry. -/
  listed : IsListed (isBelow (placeOf start.root)) tree

theorem IsDataset.isKey {start : Writer} {tree : FileTree} {rows : List Row}
    {parts : Key → List (List Row)} (h : IsDataset start tree rows parts) {k : Key} {i : Nat}
    (hi : i < (parts k).length) : IsKey start.columns k := by
  have hne : parts k ≠ [] := List.ne_nil_of_length_pos (Nat.zero_lt_of_lt hi)
  obtain ⟨row, -, hrow⟩ := (ne_nil_iff_exists (h.split k) (h.filled k)).mp hne
  exact ⟨row, hrow⟩

/-! ## Opening -/

omit [Columnar.Platform] in
theorem columnsFor_ne_nil {columns : List Column} {options : Options}
    {partition : List PartitionColumn} (h : columnsFor columns options = .ok partition) :
    partition ≠ [] := by
  unfold columnsFor at h
  split at h
  · cases h
  · cases h
  · next hne _ =>
    split at h
    · cases h
    · obtain rfl := Except.ok.inj h
      exact hne

omit [Columnar.Platform] in
theorem create_eq_ok {tree made : FileTree} {root : String} {columns : List Column}
    {options : Options} {start : Writer}
    (h : Writer.create tree root columns options = (made, .ok start)) :
    tree.makeDirectories root = (made, none) ∧ ∃ partition,
      columnsFor columns options = .ok partition ∧
      start = ⟨made, root, partition, columns, options, [], [], 0, 0⟩ := by
  unfold Writer.create at h
  split at h
  · cases h
  · next partition hpartition =>
    split at h
    · cases h
    · next tree' hmade =>
      obtain ⟨rfl, hstart⟩ := Prod.mk.inj h
      obtain rfl := Except.ok.inj hstart
      exact ⟨hmade, partition, hpartition, rfl⟩

/-- A dataset that was just opened over a bare root has no parts. -/
theorem progress_create {tree made : FileTree} {root : String} {columns : List Column}
    {options : Options} {start : Writer} (hbare : IsBare tree (placeOf root))
    (h : Writer.create tree root columns options = (made, .ok start)) :
    start.columns ≠ [] ∧ Progress start start [] (fun _ => []) [] := by
  obtain ⟨hmade, partition, hpartition, rfl⟩ := create_eq_ok h
  have hstores := IsBare.stores ⟨made, root, partition, columns, options, [], [], 0, 0⟩ hbare
  have hmore := hstores.grown (grown_makeDirectories tree root)
    (hbare.isListed.makeDirectories root)
  rw [hmade] at hmore
  have haccounts : Accounts ⟨made, root, partition, columns, options, [], [], 0, 0⟩ _ []
      fun _ => [] :=
    ⟨⟨rfl, rfl, rfl, rfl⟩, hmore, List.Pairwise.nil, fun _ => rfl, fun _ => rfl, rfl⟩
  refine ⟨columnsFor_ne_nil hpartition, haccounts, fun _ => List.not_mem_nil, List.Pairwise.nil,
    fun path => ⟨fun hmem => absurd hmem List.not_mem_nil, ?_⟩⟩
  rintro ⟨k, i, hi, -⟩
  exact absurd hi (Nat.not_lt_zero i)

/-! ## Closing -/

theorem finishAll_eq_none {w w' : Writer} {first? : Option Failure} {files : List (Key × OpenFile)}
    (h : w.finishAll first? files = (w', none)) : first? = none := by
  induction files generalizing w first? with
  | nil => exact (Prod.mk.inj h).2
  | cons e more ih =>
    rw [Writer.finishAll] at h
    split at h
    · exact ih h
    · exact absurd (ih h) (by simp)

theorem Stores.of_perm {start : Writer} {tree : FileTree} {parts : Key → List (List Row)}
    {files files' : List (Key × OpenFile)} (h : Stores start tree parts files)
    (hperm : files.Perm files') : Stores start tree parts files' where
  nodup := (hperm.map Prod.fst).nodup_iff.mp h.nodup
  fills := fun e he => h.fills e (hperm.mem_iff.mpr he)
  unfinished := fun e he => h.unfinished e (hperm.mem_iff.mpr he)
  finished := fun k i part hpart hdone => h.finished k i part hpart
    (hdone.imp_right fun hmem hin => hmem ((hperm.map Prod.fst).mem_iff.mp hin))
  only := h.only
  keys := h.keys
  listed := h.listed

/-- What finishing the first of some files takes on to the others, finishing all of them takes to
the end. -/
theorem finishAll_invariant {P : Writer → List (Key × OpenFile) → Prop}
    (hstep : ∀ {w : Writer} {k : Key} {f : OpenFile} {more : List (Key × OpenFile)}
      {file : Columnar.File}, P w ((k, f) :: more) → f.writer.finish = .ok file →
        P { w with tree := w.tree.fill f.path (.columnar file) } more)
    {w w' : Writer} {files : List (Key × OpenFile)} (h : P w files)
    (hfinish : w.finishAll none files = (w', none)) : P w' [] := by
  induction files generalizing w with
  | nil =>
    obtain ⟨rfl, -⟩ := Prod.mk.inj hfinish
    exact h
  | cons e more ih =>
    rw [Writer.finishAll] at hfinish
    split at hfinish
    · next w₁ hone =>
      obtain ⟨file, hfile, rfl⟩ := finishFile_eq_ok hone
      exact ih (hstep h hfile) hfinish
    · exact absurd (finishAll_eq_none hfinish) (by simp)

/-- Files that are finished change the tree and nothing else. -/
theorem finishAll_frame {w w' : Writer} {files : List (Key × OpenFile)}
    (hfinish : w.finishAll none files = (w', none)) : ∃ tree, w' = { w with tree := tree } := by
  refine finishAll_invariant (P := fun v _ => ∃ tree, v = { w with tree := tree }) ?_ ⟨w.tree, rfl⟩
    hfinish
  rintro v k f more file ⟨tree, rfl⟩ -
  exact ⟨_, rfl⟩

/-- Finishing one file after the other finishes all parts. -/
theorem Stores.finishAll {start w w' : Writer} {parts : Key → List (List Row)}
    {files : List (Key × OpenFile)} (hnames : ∀ c ∈ start.columns, '/' ∉ c.name.toList)
    (h : Stores start w.tree parts files) (hfinish : w.finishAll none files = (w', none)) :
    Stores start w'.tree parts [] := by
  refine finishAll_invariant (P := fun v left => Stores start v.tree parts left) ?_ h hfinish
  intro v k f more file hv hfile
  have hmore := hv.finish hnames List.mem_cons_self hfile
  rwa [remove_head hv.nodup] at hmore

/-- The report of a dataset: its partitions in the order of their keys, with their rows and
parts. -/
def IsReport (start : Writer) (rows : List Row) (parts : Key → List (List Row))
    (report : WriteReport) : Prop :=
  ∃ keys : List Key, keys.Nodup ∧ keys.Pairwise (fun k l => k.isAtMost l = true) ∧
    (∀ k, k ∈ keys ↔ ∃ row ∈ rows, Key.ofRow start.columns row = k) ∧
    report.partitions = keys.map (fun k =>
      ⟨k.text, (rowsAt start.columns rows k).length, (parts k).length⟩) ∧
    report.rows = rows.length ∧ report.files = (keys.map fun k => (parts k).length).sum

omit [Columnar.Platform] in
/-- The partitions are told in the order of their keys, each with its tally. -/
theorem exists_partitionReports {w : Writer} (hnodup : (w.tallies.map Prod.fst).Nodup) :
    ∃ keys : List Key, keys.Nodup ∧ keys.Pairwise (fun k l => k.isAtMost l = true) ∧
      (∀ k, k ∈ keys ↔ find? k w.tallies ≠ none) ∧
      w.partitionReports = keys.map fun k =>
        ⟨k.text, ((find? k w.tallies).getD .zero).rows,
          ((find? k w.tallies).getD .zero).files⟩ := by
  let sorted := w.tallies.mergeSort fun a b => a.1.isAtMost b.1
  have hperm : sorted.Perm w.tallies := List.mergeSort_perm _ _
  have hsorted : sorted.Pairwise fun a b => a.1.isAtMost b.1 = true :=
    List.pairwise_mergeSort (fun a b c => Key.isAtMost_trans a.1 b.1 c.1)
      (fun a b => Key.isAtMost_total a.1 b.1) _
  refine ⟨sorted.map Prod.fst, ?_, hsorted.map _ fun _ _ => id, fun k => ?_, ?_⟩
  · exact (hperm.map Prod.fst).nodup_iff.mpr hnodup
  · rw [(hperm.map Prod.fst).mem_iff, ne_eq, find?_eq_none, Decidable.not_not]
  · rw [List.map_map]
    refine List.map_congr_left fun e he => ?_
    have htally : find? e.1 w.tallies = some e.2 :=
      find?_of_mem hnodup (hperm.mem_iff.mp he)
    rw [Function.comp_apply, htally, Option.getD_some]

theorem Progress.isReport {start w : Writer} {rows : List Row} {parts : Key → List (List Row)}
    {opened : List String} (h : Progress start w rows parts opened) (evicted : Nat) :
    IsReport start rows parts ⟨w.rows, (w.partitionReports.map PartitionReport.files).sum,
      w.partitionReports, evicted⟩ := by
  obtain ⟨keys, hnodup, hsorted, hkeys, hreports⟩ := exists_partitionReports h.accounts.tallyKeys
  have hpartitions : w.partitionReports = keys.map fun k =>
      ⟨k.text, (rowsAt start.columns rows k).length, (parts k).length⟩ := by
    rw [hreports]
    refine List.map_congr_left fun k _ => ?_
    rw [h.accounts.tallies, getD_tallyOf?, h.accounts.split]
  refine ⟨keys, hnodup, hsorted, fun k => ?_, hpartitions, h.accounts.count, ?_⟩
  · rw [hkeys, ← ne_nil_iff_exists (h.accounts.split k) (h.filled k), ne_eq, ne_eq,
      ← tallyOf?_eq_none, h.accounts.tallies]
  · dsimp only
    rw [hpartitions, List.map_map]
    rfl

theorem close_eq_ok {w : Writer} {tree : FileTree} {report : WriteReport}
    (h : w.close = (tree, .ok report)) :
    ∃ w', { w with openFiles := [] }.finishAll none w.openFiles.reverse = (w', none) ∧
      tree = w'.tree ∧ report = ⟨w'.rows, (w'.partitionReports.map PartitionReport.files).sum,
        w'.partitionReports, w'.evicted⟩ := by
  unfold Writer.close at h
  split at h
  · cases h
  · next w' hfinish =>
    obtain ⟨rfl, hreport⟩ := Prod.mk.inj h
    exact ⟨w', hfinish, rfl, (Except.ok.inj hreport).symm⟩

section Close

variable {start w : Writer} {rows : List Row} {parts : Key → List (List Row)}
  (hnames : ∀ c ∈ start.columns, '/' ∉ c.name.toList)

include hnames

/-- Finishing the open files leaves the dataset. -/
theorem Accounts.close (h : Accounts start w rows parts) (hfilled : ∀ k, [] ∉ parts k)
    {tree : FileTree} {report : WriteReport} (hclose : w.close = (tree, .ok report)) :
    IsDataset start tree rows parts := by
  obtain ⟨w', hfinish, rfl, -⟩ := close_eq_ok hclose
  have hopen := h.stores.of_perm (List.reverse_perm w.openFiles).symm
  have hstores : Stores start w'.tree parts [] :=
    Stores.finishAll (w := { w with openFiles := [] }) hnames hopen hfinish
  refine ⟨h.split, hfilled, fun k i part hpart => ?_, hstores.only, hstores.listed⟩
  exact hstores.finished k i part hpart (.inr List.not_mem_nil)

theorem Progress.close {opened : List String} (h : Progress start w rows parts opened)
    {tree : FileTree} {report : WriteReport} (hclose : w.close = (tree, .ok report)) :
    IsDataset start tree rows parts ∧ IsReport start rows parts report := by
  refine ⟨h.accounts.close hnames h.filled hclose, ?_⟩
  obtain ⟨w', hfinish, -, rfl⟩ := close_eq_ok hclose
  obtain ⟨tree', rfl⟩ := finishAll_frame hfinish
  exact h.isReport w.evicted

end Close

/-! ## The dataset -/

/-- Calls and a close that succeed, over a bare root, leave the rows handed over in the parts of
their partitions: each row in one part of its own partition, in order, and each part in a file that
was made once and that no other part has. The report lists the partitions that occurred. -/
theorem parts_hold_rows_once {tree made closed : FileTree} {root : String} {columns : List Column}
    {options : Options} {start w : Writer} {calls : List Call} {report : WriteReport}
    (hbare : IsBare tree (placeOf root))
    (hcreate : Writer.create tree root columns options = (made, .ok start))
    (hnames : ∀ c ∈ start.columns, '/' ∉ c.name.toList)
    (hrun : start.run calls = (w, .ok ())) (hclose : w.close = (closed, .ok report)) :
    let rows := calls.filterMap Call.row?
    ∃ parts : Key → List (List Row), IsDataset start closed rows parts ∧
      (start.opened calls).Nodup ∧
      (∀ path, path ∈ start.opened calls ↔ ∃ k i, i < (parts k).length ∧
        path = Path.join (Path.join root k.directory) (Writer.partName i)) ∧
      IsReport start rows parts report := by
  obtain ⟨hne, hstart⟩ := progress_create hbare hcreate
  obtain ⟨parts, hprogress⟩ := hstart.run hnames hne hrun
  obtain ⟨hdataset, hreport⟩ := hprogress.close hnames hclose
  obtain ⟨-, partition, -, rfl⟩ := create_eq_ok hcreate
  refine ⟨parts, hdataset, hprogress.nodup, fun path => ?_, hreport⟩
  have hpath : ∀ {k : Key} {i : Nat}, i < (parts k).length →
      partPath root k i = Path.join (Path.join root k.directory) (Writer.partName i) := by
    intro k i hi
    obtain ⟨row, rfl⟩ := hdataset.isKey hi
    exact partPath_eq_join hnames hne root row i
  refine (hprogress.mem_opened path).trans ⟨?_, ?_⟩
  · rintro ⟨k, i, hi, rfl⟩
    exact ⟨k, i, hi, hpath hi⟩
  · rintro ⟨k, i, hi, rfl⟩
    exact ⟨k, i, hi, (hpath hi).symm⟩

end Platform

theorem exists_eq_ok {σ α : Type} {step : σ × Except Failure α} (h : step.2.isOk = true) :
    ∃ a, step = (step.1, .ok a) := by
  match step, h with
  | (_, .ok a), _ => exact ⟨a, rfl⟩

/-- With room for one open file, the second partition has the first part of the other finished, and
the third row makes its second part. -/
theorem parts_hold_rows_once_evicted :
    let columns : List Column := [⟨"k", some .text⟩, ⟨"v", some .int⟩]
    let options := Options.ofPairs [("PARTITION", "k"), ("MAX_OPEN_FILES", "1")]
    let rows : List Row := [⟨[("k", .text "a"), ("v", .int 1)]⟩,
      ⟨[("k", .text "b/"), ("v", .int 2)]⟩, ⟨[("k", .text "a"), ("v", .int 3)]⟩]
    let calls := Call.flush :: rows.map .write
    ∃ start w closed report,
      (Writer.create .empty "d" columns options).2 = .ok start ∧ start.run calls = (w, .ok ()) ∧
      start.opened calls = ["d/k=a/part-00000.parquet", "d/k=b__SLASH__/part-00000.parquet",
        "d/k=a/part-00001.parquet"] ∧
      w.close = (closed, .ok report) ∧
      ∃ parts, IsDataset start closed rows parts ∧ IsReport start rows parts report := by
  intro columns options rows calls
  let start : Writer :=
    ⟨⟨[(["d"], .directory)]⟩, "d", [⟨"k", "k", none⟩], columns, options, [], [], 0, 0⟩
  have hcreate : Writer.create .empty "d" columns options = (start.tree, .ok start) := rfl
  have hopened : start.opened calls = ["d/k=a/part-00000.parquet",
      "d/k=b__SLASH__/part-00000.parquet", "d/k=a/part-00001.parquet"] := by decide +kernel
  obtain ⟨⟨⟩, hrun⟩ := exists_eq_ok (show (start.run calls).2.isOk = true by decide +kernel)
  obtain ⟨report, hclose⟩ :=
    exists_eq_ok (show (start.run calls).1.close.2.isOk = true by decide +kernel)
  generalize (start.run calls).1 = w at hrun hclose
  generalize w.close.1 = closed at hclose
  obtain ⟨parts, hdataset, -, -, hreport⟩ :=
    parts_hold_rows_once (by decide) hcreate (by decide) hrun hclose
  exact ⟨start, w, closed, report, rfl, hrun, hopened, hclose, parts, hdataset, hreport⟩

end BulkTransfer.Partition
