import BulkTransfer.Proofs.Partition.Attempts
import Mathlib.Algebra.Order.BigOperators.Group.List
import Mathlib.Algebra.Order.Ring.Nat
import Mathlib.Data.List.Basic

/-!
The report of a dataset some of whose calls failed. It tells the rows of the calls that succeeded,
and for each partition the parts that were begun. So it is truthful as long as a file could be made
for every part and no file with rows was given up: a part without a file is still counted, and so
are the rows of a file that could not be finished.

- `IsOutcome`, `Records.close`: what a close that succeeds leaves of the parts.
- `Tells`: the partitions, rows and files of the report, part by part.
- `IsTruthful`: the report against the files that were made and what can be read of them.
- `report_truthful_iff`: which runs, over any tree and with any failures, end in a truthful report.
-/

namespace BulkTransfer.Partition

open FileTree

/-! ## Lists in groups -/

/-- Things in groups by key, one group after the other, are the same things. -/
theorem perm_flatMap_filter {α : Type} {keys : List Key} (hnodup : keys.Nodup) (key : α → Key)
    {l : List α} (h : ∀ a ∈ l, key a ∈ keys) :
    (keys.flatMap fun k => l.filter fun a => key a = k).Perm l := by
  induction keys generalizing l with
  | nil =>
    match l with
    | [] => exact .refl _
    | a :: _ => exact absurd (h a List.mem_cons_self) List.not_mem_nil
  | cons k more ih =>
    obtain ⟨hk, hmore⟩ := List.nodup_cons.mp hnodup
    have hrest : ∀ a ∈ l.filter fun a => !decide (key a = k), key a ∈ more := by
      intro a ha
      obtain ⟨hmem, hne⟩ := List.mem_filter.mp ha
      exact (List.mem_cons.mp (h a hmem)).resolve_left (by simpa using hne)
    have hgroups : (more.flatMap fun j => l.filter fun a => key a = j) =
        more.flatMap fun j =>
          (l.filter fun a => !decide (key a = k)).filter fun a => key a = j := by
      refine List.flatMap_congr fun j hj => ?_
      rw [List.filter_filter]
      refine List.filter_congr fun a _ => ?_
      by_cases hkey : key a = j
      · have hne : j ≠ k := by
          rintro rfl
          exact hk hj
        simp [hkey, hne]
      · simp [hkey]
    rw [List.flatMap_cons, hgroups]
    exact ((ih hmore hrest).append_left _).trans (List.filter_append_perm _ l)

/-- Sums of which one bounds the other term by term are the same only where all terms are. -/
theorem sum_map_eq_iff {α : Type} {f g : α → Nat} {l : List α} (h : ∀ a ∈ l, f a ≤ g a) :
    (l.map f).sum = (l.map g).sum ↔ ∀ a ∈ l, f a = g a := by
  induction l with
  | nil => exact ⟨fun _ => List.forall_mem_nil _, fun _ => rfl⟩
  | cons a more ih =>
    obtain ⟨ha, hmore⟩ := List.forall_mem_cons.mp h
    have hle : (more.map f).sum ≤ (more.map g).sum := List.sum_le_sum hmore
    rw [List.forall_mem_cons, ← ih hmore, List.map_cons, List.map_cons, List.sum_cons,
      List.sum_cons]
    omega

/-! ## Closing -/

/-- A dataset has columns: those that it is partitioned by. -/
theorem columns_ne_nil_of_columnsFor {columns : List Column} {options : Options}
    {partition : List PartitionColumn} (h : columnsFor columns options = .ok partition) :
    columns ≠ [] := by
  have hne := columnsFor_ne_nil h
  rintro rfl
  unfold columnsFor at h
  split at h
  · cases h
  · cases h
  · next parsed _ _ =>
    split at h
    · cases h
    · next hsources =>
      obtain rfl := Except.ok.inj h
      obtain ⟨p, more, rfl⟩ := List.exists_cons_of_ne_nil hne
      cases hsources

/-- The report tells the partitions that were begun in the order of their keys, each with its rows
and with all its parts. -/
def Tells (start : Writer) (rows : List Row) (parts : Key → List Part) (report : WriteReport) :
    Prop :=
  ∃ keys : List Key, keys.Nodup ∧ keys.Pairwise (fun k l => k.isAtMost l = true) ∧
    (∀ k, k ∈ keys ↔ parts k ≠ []) ∧
    report.partitions = keys.map (fun k =>
      ⟨k.text, (rowsAt start.columns rows k).length, (parts k).length⟩) ∧
    report.rows = rows.length ∧ report.files = (keys.map fun k => (parts k).length).sum

section Platform

variable [Columnar.Platform]

/-- What a run has left of the rows that were written: parts that stand as their fates say, and no
other change of a file. -/
structure IsOutcome (start : Writer) (tree : FileTree) (rows : List Row)
    (made : List (Key × String)) (parts : Key → List Part) : Prop where
  /-- The parts of a partition hold its rows, in their order. -/
  split : ∀ k, (parts k).flatMap Part.rows = rowsAt start.columns rows k
  stands : ∀ k i part, (parts k)[i]? = some part →
    part.path = partPath start.root k i ∧ part.Stands start tree
  /-- The files that were made are those of the parts that are not missing. -/
  files : ∀ k, madeAt made k = ((parts k).filter Part.isMade).map Part.path
  others : ∀ place, place ∉ made.map (fun e => placeOf e.2) → ∀ content,
    tree.node? place = some (.file content) ↔ start.tree.node? place = some (.file content)

section Close

variable {start w w' : Writer} {rows : List Row} {made : List (Key × String)}
  {course : Key → Course}

/-- The order of the open files does not matter. -/
theorem Records.of_perm (h : Records start w rows made course) {files : List (Key × OpenFile)}
    (hperm : w.openFiles.Perm files) :
    Records start { w with openFiles := files } rows made course where
  same := ⟨h.same.root, h.same.columns, h.same.dataColumns, h.same.options⟩
  openKeys := (hperm.map Prod.fst).nodup_iff.mp h.openKeys
  tallyKeys := h.tallyKeys
  tracks := fun k => (h.tracks k).frame ((FileTree.Grown.refl _).sameBut [])
    (fun _ _ => List.not_mem_nil) (find?_of_perm k h.openKeys hperm) rfl
  split := h.split
  count := h.count
  files := h.files
  others := h.others

theorem Records.finishAll (hnames : ∀ c ∈ start.columns, '/' ∉ c.name.toList)
    {files : List (Key × OpenFile)}
    (h : Records start { w with openFiles := files } rows made course)
    (hfinish : w.finishAll none files = (w', none)) :
    ∃ course', Records start { w' with openFiles := [] } rows made course' := by
  refine finishAll_invariant (P := fun v left =>
    ∃ course', Records start { v with openFiles := left } rows made course') ?_ ⟨course, h⟩ hfinish
  rintro v k f more file ⟨course', hv⟩ hfile
  have hfind : find? k ((k, f) :: more) = some f := by rw [find?_cons, if_pos rfl]
  obtain ⟨course₁, hfinished⟩ := hv.finishFile hnames hfind v.evicted
  unfold Writer.finishFile at hfinished
  simp only [hfile, remove_head hv.openKeys] at hfinished
  exact ⟨course₁, hfinished⟩

/-- A close that succeeds leaves no part open, and tells all of them. -/
theorem Records.close (hnames : ∀ c ∈ start.columns, '/' ∉ c.name.toList)
    (h : Records start w rows made course) {tree : FileTree} {report : WriteReport}
    (hclose : w.close = (tree, .ok report)) :
    ∃ parts, IsOutcome start tree rows made parts ∧ Tells start rows parts report := by
  obtain ⟨w', hfinish, rfl, rfl⟩ := close_eq_ok hclose
  have hopen := h.of_perm (List.reverse_perm w.openFiles).symm
  obtain ⟨course', hclosed⟩ :=
    Records.finishAll (w := { w with openFiles := [] }) hnames hopen hfinish
  have hended : ∀ k, course' k = ⟨(course' k).ended, none⟩ := fun k => by
    rw [← (hclosed.tracks k).open?_eq_none rfl]
  have hrows : ∀ k, (course' k).ended.flatMap Part.rows = rowsAt start.columns rows k := by
    intro k
    rw [← hclosed.split, hended]
    exact (List.append_nil _).symm
  have hlength : ∀ k, (course' k).started = (course' k).ended.length := fun k =>
    Course.started_of_open?_eq_none ((hclosed.tracks k).open?_eq_none rfl)
  refine ⟨fun k => (course' k).ended, ⟨hrows, fun k => (hclosed.tracks k).ended, fun k => ?_,
    hclosed.others⟩, ?_⟩
  · rw [hclosed.files, hended]
    exact List.append_nil _
  · obtain ⟨keys, hnodup, hsorted, hkeys, hreports⟩ := exists_partitionReports hclosed.tallyKeys
    have hpartitions : w'.partitionReports = keys.map fun k =>
        ⟨k.text, (rowsAt start.columns rows k).length, (course' k).ended.length⟩ := by
      refine Eq.trans hreports (List.map_congr_left fun k _ => ?_)
      rw [(hclosed.tracks k).tally, Course.getD_tally?, hclosed.split, hlength]
    refine ⟨keys, hnodup, hsorted, fun k => ?_, hpartitions, hclosed.count, ?_⟩
    · rw [hkeys, (hclosed.tracks k).tally, ne_eq, Course.tally?_eq_none, hlength,
        List.length_eq_zero_iff]
    · dsimp only
      rw [hpartitions, List.map_map]
      rfl

end Close

/-! ## Truthful reports -/

/-- How many rows can be read of a file: none where it is not complete. -/
def rowsIn (tree : FileTree) (path : String) : Nat :=
  match tree.look path with
  | .ok (.file (.columnar f)) => f.rows.length
  | _ => 0

/-- A report tells the truth about the rows that were written and the files that were made. -/
structure IsTruthful (tree : FileTree) (rows : List Row) (made : List (Key × String))
    (report : WriteReport) : Prop where
  written : report.rows = rows.length
  readable : report.rows = (made.map fun e => rowsIn tree e.2).sum
  /-- The partitions told are those for which files were made, each with the number of these. -/
  partitions : ∃ keys : List Key, keys.Nodup ∧ (∀ k, k ∈ keys ↔ madeAt made k ≠ []) ∧
    report.partitions.map (fun p => (p.key, p.files)) =
      keys.map fun k => (k.text, (madeAt made k).length)

namespace Part

/-- A part that is what the report says: its file has its rows, or there are none to be missed. -/
def IsWhole (part : Part) : Prop := part.fate = .finished ∨ part.fate = .lost ∧ part.rows = []

/-- How many rows of a part can be read. -/
def readable (part : Part) : Nat := if part.fate = .finished then part.rows.length else 0

omit [Columnar.Platform] in
theorem readable_le (part : Part) : part.readable ≤ part.rows.length := by
  unfold readable
  split
  · exact Nat.le_refl _
  · exact Nat.zero_le _

variable {start : Writer} {tree : FileTree} {part : Part}

theorem Stands.rowsIn (h : part.Stands start tree) (hmade : part.isMade = true) :
    Partition.rowsIn tree part.path = part.readable := by
  obtain ⟨path, rows, fate⟩ := part
  unfold Partition.rowsIn
  cases fate with
  | finished =>
    obtain ⟨f, hfile, hmakes⟩ := h
    rw [hfile.look]
    exact hmakes.length_rows
  | lost =>
    rw [HasFile.look h]
    rfl
  | missing => cases hmade

theorem sum_rowsIn {parts : List Part} (h : ∀ part ∈ parts, part.Stands start tree) :
    ((parts.filter isMade).map fun part => Partition.rowsIn tree part.path).sum =
      (parts.map readable).sum := by
  induction parts with
  | nil => rfl
  | cons part more ih =>
    obtain ⟨hpart, hmore⟩ := List.forall_mem_cons.mp h
    rw [List.map_cons, List.sum_cons, ← ih hmore]
    by_cases hmade : part.isMade = true
    · rw [List.filter_cons_of_pos hmade, List.map_cons, List.sum_cons, hpart.rowsIn hmade]
    · have hmissing : part.fate ≠ .finished := by
        intro hfate
        rw [isMade, hfate] at hmade
        exact hmade rfl
      rw [List.filter_cons_of_neg hmade, readable, if_neg hmissing, Nat.zero_add]

theorem isWhole_iff (h : part.Stands start tree) :
    part.IsWhole ↔ part.isMade = true ∧ part.readable = part.rows.length := by
  obtain ⟨path, rows, fate⟩ := part
  unfold IsWhole isMade readable
  cases fate with
  | finished => simp
  | lost => simp [@eq_comm Nat 0]
  | missing => simp

end Part

namespace IsOutcome

variable {start : Writer} {tree : FileTree} {rows : List Row} {made : List (Key × String)}
  {parts : Key → List Part} {keys : List Key}

theorem stands_of_mem (h : IsOutcome start tree rows made parts) {k : Key} {part : Part}
    (hpart : part ∈ parts k) : part.Stands start tree := by
  obtain ⟨i, hi⟩ := List.getElem?_of_mem hpart
  exact (h.stands k i part hi).2

/-- The rows that were written are those of all parts. -/
theorem perm_rows (h : IsOutcome start tree rows made parts) (hnodup : keys.Nodup)
    (hkeys : ∀ k, k ∈ keys ↔ parts k ≠ []) :
    ((keys.flatMap parts).flatMap Part.rows).Perm rows := by
  have hgroups := perm_flatMap_filter hnodup (Key.ofRow start.columns) (l := rows)
    fun row hrow => (hkeys _).mpr fun hnil => by
      have hmem : row ∈ rowsAt start.columns rows (Key.ofRow start.columns row) :=
        mem_rowsAt.mpr ⟨hrow, rfl⟩
      rw [← h.split, hnil] at hmem
      cases hmem
  rw [List.flatMap_assoc]
  simp only [h.split]
  exact hgroups

/-- The files that were made are those of all parts that are not missing. -/
theorem perm_made (h : IsOutcome start tree rows made parts) (hnodup : keys.Nodup)
    (hkeys : ∀ k, k ∈ keys ↔ parts k ≠ []) :
    (((keys.flatMap parts).filter Part.isMade).map Part.path).Perm (made.map Prod.snd) := by
  have hgroups := perm_flatMap_filter hnodup Prod.fst (l := made)
    fun e he => (hkeys _).mpr fun hnil => by
      have hmem : e.2 ∈ madeAt made e.1 := mem_madeAt.mpr he
      rw [h.files, hnil] at hmem
      cases hmem
  have hmade := hgroups.map Prod.snd
  rw [List.map_flatMap] at hmade
  rw [List.filter_flatMap, List.map_flatMap]
  simp only [← h.files]
  exact hmade

/-- What can be read of the files that were made is what can be read of the parts. -/
theorem sum_rowsIn (h : IsOutcome start tree rows made parts) (hnodup : keys.Nodup)
    (hkeys : ∀ k, k ∈ keys ↔ parts k ≠ []) :
    (made.map fun e => rowsIn tree e.2).sum = ((keys.flatMap parts).map Part.readable).sum := by
  have hperm := ((h.perm_made hnodup hkeys).map (rowsIn tree)).sum_eq
  rw [List.map_map, List.map_map] at hperm
  have hstands : ∀ part ∈ keys.flatMap parts, part.Stands start tree := by
    intro part hpart
    obtain ⟨k, -, hmem⟩ := List.mem_flatMap.mp hpart
    exact h.stands_of_mem hmem
  exact hperm.symm.trans (Part.sum_rowsIn hstands)

/-- A report that tells all parts is truthful just when each part is whole. -/
theorem isTruthful_iff (h : IsOutcome start tree rows made parts) {report : WriteReport}
    (hreport : Tells start rows parts report) :
    IsTruthful tree rows made report ↔ ∀ k, ∀ part ∈ parts k, part.IsWhole := by
  obtain ⟨keys, hnodup, -, hkeys, hpartitions, hwritten, -⟩ := hreport
  have hmem : ∀ {k : Key} {part : Part}, part ∈ parts k → part ∈ keys.flatMap parts :=
    fun {k part} hpart => List.mem_flatMap.mpr ⟨k, (hkeys k).mpr (List.ne_nil_of_mem hpart), hpart⟩
  have hrows : report.rows = ((keys.flatMap parts).map fun part => part.rows.length).sum := by
    rw [hwritten, ← (h.perm_rows hnodup hkeys).length_eq, List.length_flatMap]
  have hreadable : report.rows = (made.map fun e => rowsIn tree e.2).sum ↔
      ∀ part ∈ keys.flatMap parts, part.readable = part.rows.length := by
    rw [h.sum_rowsIn hnodup hkeys, hrows, eq_comm]
    exact sum_map_eq_iff fun part _ => part.readable_le
  constructor
  · rintro ⟨-, hsum, keys', hnodup', hkeys', htold⟩
    -- the files told are the parts begun on one side, and the files made on the other
    have hfiles : (keys.flatMap parts).length = made.length := by
      have htold' := congrArg (fun l => (l.map Prod.snd).sum) htold
      have hgroups := perm_flatMap_filter hnodup' Prod.fst (l := made)
        fun e he => (hkeys' _).mpr (List.ne_nil_of_mem (mem_madeAt.mpr he))
      rw [hpartitions, List.map_map, List.map_map, List.map_map] at htold'
      rw [← hgroups.length_eq, List.length_flatMap, List.length_flatMap]
      refine htold'.trans (congrArg List.sum (List.map_congr_left fun k _ => ?_))
      exact List.length_map _
    have hall : ∀ part ∈ keys.flatMap parts, part.isMade = true := by
      rw [← List.length_filter_eq_length_iff, hfiles]
      have hlength := (h.perm_made hnodup hkeys).length_eq
      rw [List.length_map, List.length_map] at hlength
      exact hlength
    intro k part hpart
    exact (Part.isWhole_iff (h.stands_of_mem hpart)).mpr
      ⟨hall part (hmem hpart), hreadable.mp hsum part (hmem hpart)⟩
  · intro hwhole
    have hmade : ∀ k, madeAt made k = (parts k).map Part.path := by
      intro k
      rw [h.files, List.filter_eq_self.mpr]
      exact fun part hpart =>
        ((Part.isWhole_iff (h.stands_of_mem hpart)).mp (hwhole k part hpart)).1
    refine ⟨hwritten, hreadable.mpr fun part hpart => ?_, keys, hnodup, fun k => ?_, ?_⟩
    · obtain ⟨k, -, hpart⟩ := List.mem_flatMap.mp hpart
      exact ((Part.isWhole_iff (h.stands_of_mem hpart)).mp (hwhole k part hpart)).2
    · rw [hkeys, hmade, ne_eq, ne_eq, List.map_eq_nil_iff]
    · rw [hpartitions, List.map_map]
      refine List.map_congr_left fun k _ => ?_
      rw [hmade, List.length_map]
      rfl

end IsOutcome

/-! ## Runs -/

theorem records_create {tree opened : FileTree} {root : String} {columns : List Column}
    {options : Options} {start : Writer}
    (h : Writer.create tree root columns options = (opened, .ok start)) :
    start.columns ≠ [] ∧ start.dataColumns ≠ [] ∧
      Records start start [] [] fun _ => ⟨[], none⟩ := by
  obtain ⟨-, partition, hpartition, rfl⟩ := create_eq_ok h
  refine ⟨columnsFor_ne_nil hpartition, columns_ne_nil_of_columnsFor hpartition,
    ⟨rfl, rfl, rfl, rfl⟩, List.Pairwise.nil, List.Pairwise.nil, fun k => ?_, fun _ => rfl, rfl,
    fun _ => rfl, fun _ _ _ => Iff.rfl⟩
  exact ⟨rfl, nofun, rfl, fun hstarted => absurd rfl hstarted⟩

/-- Calls of which any may fail, over any tree, and then a close that succeeds: the report tells
the rows of the calls that succeeded and all parts that were begun. It is truthful just when every
part has its file and no part with rows was lost. Names of partition columns with a slash, which
could lead out of the root, are left aside. -/
theorem report_truthful_iff {tree opened closed : FileTree} {root : String}
    {columns : List Column} {options : Options} {start : Writer} {calls : List Call}
    {report : WriteReport}
    (hcreate : Writer.create tree root columns options = (opened, .ok start))
    (hnames : ∀ c ∈ start.columns, '/' ∉ c.name.toList)
    (hclose : (start.attempt calls).close = (closed, .ok report)) :
    let rows := start.accepted calls
    let made := start.made calls
    ∃ parts : Key → List Part, IsOutcome start closed rows made parts ∧
      Tells start rows parts report ∧
      (IsTruthful closed rows made report ↔ ∀ k, ∀ part ∈ parts k, part.IsWhole) := by
  intro rows made
  obtain ⟨hne, hdata, hstart⟩ := records_create hcreate
  obtain ⟨course, hrun⟩ := hstart.attempt hnames hdata hne calls
  obtain ⟨parts, houtcome, htells⟩ := hrun.close hnames hclose
  exact ⟨parts, houtcome, htells, houtcome.isTruthful_iff htells⟩

end Platform

/-- A file in the place of a partition's directory fails its row before a part is begun: the report
is truthful, and all parts are whole. -/
theorem report_truthful_iff_blocked :
    let columns : List Column := [⟨"k", some .text⟩, ⟨"v", some .int⟩]
    let options := Options.ofPairs [("PARTITION", "k")]
    let tree : FileTree := ⟨[(["d"], .directory), (["d", "k=a"], .file (.bytes []))]⟩
    let calls : List Call := [.write ⟨[("k", .text "a"), ("v", .int 1)]⟩,
      .write ⟨[("k", .text "b"), ("v", .int 2)]⟩]
    ∃ start closed,
      (Writer.create tree "d" columns options).2 = .ok start ∧
      (start.attempt calls).close = (closed, .ok ⟨1, 1, [⟨"k=b", 1, 1⟩], 0⟩) ∧
      IsTruthful closed (start.accepted calls) (start.made calls)
        ⟨1, 1, [⟨"k=b", 1, 1⟩], 0⟩ ∧
      ∃ parts : Key → List Part,
        IsOutcome start closed (start.accepted calls) (start.made calls) parts ∧
        ∀ k, ∀ part ∈ parts k, part.IsWhole := by
  intro columns options tree calls
  let start : Writer := ⟨tree, "d", [⟨"k", "k", none⟩], columns, options, [], [], 0, 0⟩
  have hcreate : Writer.create tree "d" columns options = (tree, .ok start) := rfl
  obtain ⟨report, hclose⟩ :=
    exists_eq_ok (show (start.attempt calls).close.2.isOk = true by decide +kernel)
  have hreport : (start.attempt calls).close.2.toOption = some ⟨1, 1, [⟨"k=b", 1, 1⟩], 0⟩ := by
    decide +kernel
  rw [hclose] at hreport
  obtain rfl : report = _ := Option.some.inj hreport
  have hmade : start.made calls = [([("k", "b")], "d/k=b/part-00000.parquet")] := by
    decide +kernel
  have htruthful : IsTruthful (start.attempt calls).close.1 (start.accepted calls)
      (start.made calls) ⟨1, 1, [⟨"k=b", 1, 1⟩], 0⟩ := by
    refine ⟨by decide +kernel, by decide +kernel, [[("k", "b")]], by decide, fun k => ?_, ?_⟩
    · rw [hmade, List.mem_singleton]
      simp [madeAt, @eq_comm _ k]
    · rw [hmade]
      decide +kernel
  obtain ⟨parts, houtcome, -, hiff⟩ := report_truthful_iff hcreate (by decide) hclose
  exact ⟨start, _, rfl, hclose, htruthful, parts, houtcome, hiff.mp htruthful⟩

/-- A directory in the place of a part fails its row after the part is begun: the report tells a
partition with a file, and no file was made. -/
theorem part_without_file_reported :
    let columns : List Column := [⟨"k", some .text⟩, ⟨"v", some .int⟩]
    let options := Options.ofPairs [("PARTITION", "k")]
    let tree : FileTree := ⟨[(["d"], .directory), (["d", "k=a"], .directory),
      (["d", "k=a", "part-00000.parquet"], .directory)]⟩
    let calls : List Call := [.write ⟨[("k", .text "a"), ("v", .int 1)]⟩]
    ∃ start closed,
      (Writer.create tree "d" columns options).2 = .ok start ∧
      (start.attempt calls).close = (closed, .ok ⟨0, 1, [⟨"k=a", 0, 1⟩], 0⟩) ∧
      start.made calls = [] ∧
      ¬ IsTruthful closed (start.accepted calls) (start.made calls)
        ⟨0, 1, [⟨"k=a", 0, 1⟩], 0⟩ := by
  intro columns options tree calls
  let start : Writer := ⟨tree, "d", [⟨"k", "k", none⟩], columns, options, [], [], 0, 0⟩
  obtain ⟨report, hclose⟩ :=
    exists_eq_ok (show (start.attempt calls).close.2.isOk = true by decide +kernel)
  have hreport : (start.attempt calls).close.2.toOption = some ⟨0, 1, [⟨"k=a", 0, 1⟩], 0⟩ := by
    decide +kernel
  rw [hclose] at hreport
  obtain rfl : report = _ := Option.some.inj hreport
  have hmade : start.made calls = [] := by decide +kernel
  refine ⟨start, _, rfl, hclose, hmade, fun htruthful => ?_⟩
  obtain ⟨keys, -, hkeys, htold⟩ := htruthful.partitions
  rw [hmade] at hkeys
  match keys with
  | [] => cases htold
  | k :: _ => exact (hkeys k).mp List.mem_cons_self rfl

/-- A file is finished so that another can be opened, and there is no room for its row: the row is
told, and cannot be read. -/
example :
    let _ : Columnar.Platform :=
      { Columnar.Storage.platform with outlet := fun _ => ⟨some 0, fun _ => ⟨"disk full", 0⟩⟩ }
    let options := Options.ofPairs [("PARTITION", "k"), ("MAX_OPEN_FILES", "1")]
    let columns : List Column := [⟨"k", some .text⟩, ⟨"v", some .int⟩]
    let start : Writer := ⟨.empty, "d", [⟨"k", "k", none⟩], columns, options, [], [], 0, 0⟩
    let calls : List Call := [.write ⟨[("k", .text "a"), ("v", .int 1)]⟩,
      .write ⟨[("k", .text "b"), ("v", .int 2)]⟩]
    (start.attempt calls).close.2.toOption = some ⟨1, 1, [⟨"k=a", 1, 1⟩], 1⟩ ∧
      ((start.made calls).map fun e => rowsIn (start.attempt calls).close.1 e.2) = [0] := by
  decide +kernel

end BulkTransfer.Partition
