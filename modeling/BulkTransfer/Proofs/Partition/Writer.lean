import BulkTransfer.Proofs.Partition.Parts

/-!
Writing a dataset, step by step. A row may fill the open file of its partition, or first have it
finished because it is full; it may need a new file, for which the file unused for longest is
finished. Through all of this the parts of each partition hold its rows in their order.

- `Accounts`: the files, the tallies and the rows written agree with the parts.
- `Accounts.write`: what a row does to the parts, and which file it makes.
- `Progress`: the parts after a sequence of calls, with the files made on the way.
- `Progress.run`: every sequence of calls that succeed keeps this.
-/

namespace BulkTransfer.Partition

open FileTree

/-! ## Calls -/

/-- What a dataset that is being written is asked for. -/
inductive Call where
  | write (row : Row)
  | flush

/-- The row that a call hands over. -/
def Call.row? : Call → Option Row
  | .write row => some row
  | .flush => none

namespace Writer

section Calls

variable [Columnar.Platform]

/-- Does what a call asks for. -/
def call (w : Writer) : Call → Writer × Except Failure Unit
  | .write row => w.write row
  | .flush => w.flush

/-- Does what calls ask for, and stops at the first that fails. -/
def run (w : Writer) : List Call → Writer × Except Failure Unit
  | [] => (w, .ok ())
  | c :: more => match w.call c with
    | (w, .error e) => (w, .error e)
    | (w, .ok ()) => w.run more

/-- The path of the file that is made for a row, if its partition has no open file with room. -/
def opens? (w : Writer) (row : Row) : Option String :=
  let key := Key.ofRow w.columns row
  let rotated := (w.rotate key).1
  match find? key rotated.openFiles with
  | some _ => none
  | none => match (rotated.evict.1.openPart key).2 with
    | .ok f => some f.path
    | .error _ => none

/-- The paths of the files that are made by calls, in order. -/
def opened (w : Writer) : List Call → List String
  | [] => []
  | .write row :: more => (w.opens? row).toList ++ (w.write row).1.opened more
  | .flush :: more => w.flush.1.opened more

end Calls

/-- What no call changes. -/
structure Continues (start w : Writer) : Prop where
  root : w.root = start.root
  columns : w.columns = start.columns
  dataColumns : w.dataColumns = start.dataColumns
  options : w.options = start.options

end Writer

/-! ## Tallies -/

/-- The tally of a partition with parts. -/
def tallyOf? (parts : List (List Row)) : Option Tally :=
  if parts.isEmpty then none else some ⟨parts.flatten.length, parts.length, parts.length⟩

theorem getD_tallyOf? (parts : List (List Row)) :
    (tallyOf? parts).getD .zero = ⟨parts.flatten.length, parts.length, parts.length⟩ := by
  unfold tallyOf?
  cases parts <;> rfl

theorem tallyOf?_concat (before : List (List Row)) (last : List Row) :
    tallyOf? (before ++ [last]) =
      some ⟨before.flatten.length + last.length, before.length + 1, before.length + 1⟩ := by
  unfold tallyOf?
  rw [if_neg (by simp)]
  simp

theorem tallyOf?_eq_none {parts : List (List Row)} : tallyOf? parts = none ↔ parts = [] := by
  unfold tallyOf?
  cases parts with
  | nil => exact ⟨fun _ => rfl, fun _ => rfl⟩
  | cons part more =>
    exact ⟨fun h => absurd h (Option.some_ne_none _), fun h => absurd h (List.cons_ne_nil part more)⟩

/-! ## Accounts -/

/-- The rows of a partition. -/
def rowsAt (columns : List PartitionColumn) (rows : List Row) (k : Key) : List Row :=
  rows.filter fun row => Key.ofRow columns row = k

theorem rowsAt_concat (columns : List PartitionColumn) (rows : List Row) (row : Row) (k : Key) :
    rowsAt columns (rows ++ [row]) k =
      rowsAt columns rows k ++ if Key.ofRow columns row = k then [row] else [] := by
  unfold rowsAt
  rw [List.filter_append, List.filter_cons, List.filter_nil]
  simp only [decide_eq_true_eq]

variable [Columnar.Platform]

/-- The files, the tallies and the rows written agree with the parts. -/
structure Accounts (start w : Writer) (rows : List Row) (parts : Key → List (List Row)) :
    Prop where
  same : start.Continues w
  stores : Stores start w.tree parts w.openFiles
  tallyKeys : (w.tallies.map Prod.fst).Nodup
  tallies : ∀ k, find? k w.tallies = tallyOf? (parts k)
  /-- The parts of a partition hold its rows, in their order. -/
  split : ∀ k, (parts k).flatten = rowsAt start.columns rows k
  count : w.rows = rows.length

section Steps

variable {start w w' : Writer} {rows : List Row} {parts : Key → List (List Row)}

theorem finishFile_eq_ok {f : OpenFile} (h : w.finishFile f = (w', .ok ())) :
    ∃ file, f.writer.finish = .ok file ∧
      w' = { w with tree := w.tree.fill f.path (.columnar file) } := by
  unfold Writer.finishFile at h
  split at h
  · cases h
  · next file hfile => exact ⟨file, hfile, (Prod.mk.inj h).1.symm⟩

theorem write_eq_ok {row : Row} (h : w.write row = (w', .ok ())) :
    ∃ w₁ w₂, w.rotate (Key.ofRow w.columns row) = (w₁, .ok ()) ∧
      w₁.ensureOpen (Key.ofRow w.columns row) = (w₂, .ok ()) ∧
      w₂.append (Key.ofRow w.columns row) row = (w', .ok ()) := by
  unfold Writer.write at h
  dsimp only at h
  split at h
  · cases h
  · next w₁ hrotate =>
    split at h
    · cases h
    · next w₂ hopen => exact ⟨w₁, w₂, hrotate, hopen, h⟩

theorem openPart_eq_ok {key : Key} {f : OpenFile} (h : w.openPart key = (w', .ok f)) :
    ∃ tree made, w.tree.makeDirectories (Path.join w.root key.directory) = (tree, none) ∧
      f.path = Path.join (Path.join w.root key.directory)
        (Writer.partName ((find? key w.tallies).getD .zero).nextPart) ∧
      tree.createFile f.path = .ok made ∧
      Columnar.Writer.into (Columnar.Platform.outlet f.path) w.dataColumns w.options =
        .ok f.writer ∧
      w' = { w with
        tree := made
        tallies := update key Tally.zero
          (fun t => { t with files := t.files + 1, nextPart := t.nextPart + 1 }) w.tallies } := by
  unfold Writer.openPart at h
  dsimp only at h
  split at h
  · cases h
  · next tree hdirectories =>
    split at h
    · cases h
    · next made hmade =>
      split at h
      · cases h
      · next writer hnew =>
        obtain ⟨rfl, hf⟩ := Prod.mk.inj h
        obtain rfl := Except.ok.inj hf
        exact ⟨tree, made, hdirectories, rfl, createFile_of_createExportFile hmade, hnew, rfl⟩

theorem append_eq_ok {key : Key} {row : Row} (h : w.append key row = (w', .ok ())) :
    ∃ f writer, find? key w.openFiles = some f ∧ f.writer.write row = (writer, .ok ()) ∧
      w' = { w with
        openFiles := (key, { f with writer }) :: remove key w.openFiles
        tallies := update key Tally.zero (fun t => { t with rows := t.rows + 1 }) w.tallies
        rows := w.rows + 1 } := by
  unfold Writer.append at h
  split at h
  · cases h
  · next f hfind =>
    dsimp only at h
    split at h
    · cases h
    · next hwrite => exact ⟨f, _, hfind, Prod.ext rfl hwrite, (Prod.mk.inj h).1.symm⟩

namespace Accounts

/-- Flushing the open files changes no part. -/
theorem flush (h : Accounts start w rows parts) (hflush : w.flush = (w', .ok ())) :
    Accounts start w' rows parts := by
  unfold Writer.flush at hflush
  obtain ⟨rfl, hok⟩ := Prod.mk.inj hflush
  exact ⟨⟨h.same.root, h.same.columns, h.same.dataColumns, h.same.options⟩,
    h.stores.flush (Prod.ext rfl hok), h.tallyKeys, h.tallies, h.split, h.count⟩

/-- A row that the open file of its partition takes is the last one of the last part. -/
theorem append (h : Accounts start w rows parts) {row : Row} {k : Key}
    (hk : Key.ofRow start.columns row = k) {before : List (List Row)} {last : List Row}
    (hparts : parts k = before ++ [last]) (happend : w.append k row = (w', .ok ())) :
    Accounts start w' (rows ++ [row]) (withParts parts k (before ++ [last ++ [row]])) := by
  obtain ⟨f, writer, hfind, hwrite, rfl⟩ := append_eq_ok happend
  refine ⟨⟨h.same.root, h.same.columns, h.same.dataColumns, h.same.options⟩,
    h.stores.append (mem_of_find? hfind) hparts hwrite, nodup_update _ _ _ h.tallyKeys, ?_, ?_, ?_⟩
  · intro l
    dsimp only
    rw [find?_update]
    by_cases hl : l = k
    · subst hl
      rw [if_pos rfl, withParts_self, h.tallies, hparts, tallyOf?_concat, tallyOf?_concat,
        List.length_append]
      rfl
    · rw [if_neg hl, withParts_of_ne hl, h.tallies]
  · intro l
    rw [rowsAt_concat, ← h.split]
    by_cases hl : l = k
    · subst hl
      rw [withParts_self, hparts, if_pos hk]
      simp
    · rw [withParts_of_ne hl, hk, if_neg (Ne.symm hl), List.append_nil]
  · dsimp only
    rw [h.count, List.length_append]
    rfl

variable (hnames : ∀ c ∈ start.columns, '/' ∉ c.name.toList)

include hnames

/-- A file that is finished is no longer open. -/
theorem finishFile (h : Accounts start w rows parts) {k : Key} {f : OpenFile}
    (hf : (k, f) ∈ w.openFiles) {evicted : Nat}
    (hfinish : { w with openFiles := remove k w.openFiles, evicted := evicted }.finishFile f =
      (w', .ok ())) : Accounts start w' rows parts ∧ w'.openFiles = remove k w.openFiles := by
  obtain ⟨file, hfile, rfl⟩ := finishFile_eq_ok hfinish
  exact ⟨⟨⟨h.same.root, h.same.columns, h.same.dataColumns, h.same.options⟩,
    h.stores.finish hnames hf hfile, h.tallyKeys, h.tallies, h.split, h.count⟩, rfl⟩

theorem rotate (h : Accounts start w rows parts) {k : Key}
    (hrotate : w.rotate k = (w', .ok ())) : Accounts start w' rows parts := by
  unfold Writer.rotate at hrotate
  split at hrotate
  · next f hfind =>
    split at hrotate
    · exact (h.finishFile hnames (mem_of_find? hfind) hrotate).1
    · obtain ⟨rfl, -⟩ := Prod.mk.inj hrotate
      exact h
  · obtain ⟨rfl, -⟩ := Prod.mk.inj hrotate
    exact h

theorem evict (h : Accounts start w rows parts) (hevict : w.evict = (w', .ok ())) :
    Accounts start w' rows parts ∧
      ∀ k, k ∉ w.openFiles.map Prod.fst → k ∉ w'.openFiles.map Prod.fst := by
  unfold Writer.evict at hevict
  split at hevict
  · obtain ⟨rfl, -⟩ := Prod.mk.inj hevict
    exact ⟨h, fun _ => id⟩
  · split at hevict
    · next key f hlast =>
      rw [← remove_getLast h.stores.nodup hlast] at hevict
      obtain ⟨haccounts, hfiles⟩ :=
        h.finishFile hnames (List.mem_of_getLast? hlast) hevict
      refine ⟨haccounts, fun k hk hmem => hk ?_⟩
      rw [hfiles] at hmem
      exact (mem_keys_remove.mp hmem).1
    · obtain ⟨rfl, -⟩ := Prod.mk.inj hevict
      exact ⟨h, fun _ => id⟩

/-- A new file is the next part of its partition. -/
theorem openPart (h : Accounts start w rows parts) (hne : start.columns ≠ []) {row : Row} {k : Key}
    (hk : Key.ofRow start.columns row = k) (hclosed : k ∉ w.openFiles.map Prod.fst)
    {f : OpenFile} (hopen : w.openPart k = (w', .ok f)) :
    f.path = partPath start.root k (parts k).length ∧
      Accounts start { w' with openFiles := (k, f) :: w'.openFiles } rows
        (withParts parts k (parts k ++ [[]])) := by
  obtain ⟨tree, made, hdirectories, hpath, hmade, hnew, rfl⟩ := openPart_eq_ok hopen
  have hpart : f.path = partPath start.root k (parts k).length := by
    rw [hpath, h.tallies, getD_tallyOf?, h.same.root, ← hk, partPath_eq_join hnames hne]
  have hgrown := h.stores.grown (grown_makeDirectories _ _)
    (h.stores.listed.makeDirectories (Path.join w.root k.directory))
  rw [hdirectories] at hgrown
  rw [h.same.dataColumns, h.same.options] at hnew
  rw [hpart] at hmade
  have hstores := hgrown.openPart hnames ⟨row, hk⟩ hclosed hmade hnew
  rw [← hpart] at hstores
  refine ⟨hpart, ⟨h.same.root, h.same.columns, h.same.dataColumns, h.same.options⟩, hstores,
    nodup_update _ _ _ h.tallyKeys, ?_, ?_, h.count⟩
  · intro l
    dsimp only
    rw [find?_update]
    by_cases hl : l = k
    · subst hl
      rw [if_pos rfl, withParts_self, h.tallies, getD_tallyOf?, tallyOf?_concat]
      rfl
    · rw [if_neg hl, withParts_of_ne hl, h.tallies]
  · intro l
    rw [← h.split]
    by_cases hl : l = k
    · subst hl
      rw [withParts_self, List.flatten_append, List.flatten_singleton, List.append_nil]
    · rw [withParts_of_ne hl]

/-- A partition with an open file keeps it, and one without gets its next part. -/
theorem ensureOpen (h : Accounts start w rows parts) (hne : start.columns ≠ []) {row : Row}
    {k : Key} (hk : Key.ofRow start.columns row = k) (hopen : w.ensureOpen k = (w', .ok ())) :
    (∃ f, find? k w.openFiles = some f ∧ w' = w) ∨
      (find? k w.openFiles = none ∧
        (∃ f, (w.evict.1.openPart k).2 = .ok f ∧
          f.path = partPath start.root k (parts k).length) ∧
        Accounts start w' rows (withParts parts k (parts k ++ [[]]))) := by
  unfold Writer.ensureOpen at hopen
  split at hopen
  · next f hfind => exact .inl ⟨f, hfind, (Prod.mk.inj hopen).1.symm⟩
  · next hnone =>
    split at hopen
    · cases hopen
    · next w₁ hevict =>
      obtain ⟨haccounts, hclosed⟩ := h.evict hnames hevict
      split at hopen
      · cases hopen
      · next w₂ f hpart =>
        obtain ⟨rfl, -⟩ := Prod.mk.inj hopen
        obtain ⟨hpath, hafter⟩ :=
          haccounts.openPart hnames hne hk (hclosed k (find?_eq_none.mp hnone)) hpart
        refine .inr ⟨hnone, ⟨f, ?_, hpath⟩, hafter⟩
        rw [hevict, hpart]

/-- A row goes to the end of the last part of its partition, or is the first one of a new part, the
file of which is made for it. -/
theorem write (h : Accounts start w rows parts) (hne : start.columns ≠ []) {row : Row} {k : Key}
    (hk : Key.ofRow start.columns row = k) (hwrite : w.write row = (w', .ok ())) :
    (∃ before last, parts k = before ++ [last] ∧ w.opens? row = none ∧
      Accounts start w' (rows ++ [row]) (withParts parts k (before ++ [last ++ [row]]))) ∨
    (w.opens? row = some (partPath start.root k (parts k).length) ∧
      Accounts start w' (rows ++ [row]) (withParts parts k (parts k ++ [[row]]))) := by
  obtain ⟨w₁, w₂, hrotate, hopen, happend⟩ := write_eq_ok hwrite
  have hkey : Key.ofRow w.columns row = k := by rw [h.same.columns, hk]
  rw [hkey] at hrotate hopen happend
  have hrotated := h.rotate hnames hrotate
  unfold Writer.opens?
  dsimp only
  rw [hkey, hrotate]
  rcases hrotated.ensureOpen hnames hne hk hopen with
    ⟨f, hfind, rfl⟩ | ⟨hnone, ⟨f, hpart, hpath⟩, haccounts⟩
  · obtain ⟨before, last, hparts, -⟩ := hrotated.stores.fills (k, f) (mem_of_find? hfind)
    refine .inl ⟨before, last, hparts, ?_, hrotated.append hk hparts happend⟩
    rw [hfind]
  · refine .inr ⟨?_, ?_⟩
    · rw [hnone, hpart]
      exact congrArg some hpath
    · have hafter := haccounts.append hk (withParts_self parts k _) happend
      rw [withParts_withParts] at hafter
      exact hafter

end Accounts

end Steps

/-! ## Runs -/

/-- What has become of the rows after calls: no part is empty, and the files made on the way are
those of the parts, each made once. -/
structure Progress (start w : Writer) (rows : List Row) (parts : Key → List (List Row))
    (opened : List String) : Prop where
  accounts : Accounts start w rows parts
  filled : ∀ k, [] ∉ parts k
  nodup : opened.Nodup
  mem_opened : ∀ path, path ∈ opened ↔
    ∃ k i, i < (parts k).length ∧ path = partPath start.root k i

section Runs

variable {start w w' : Writer} {rows : List Row} {parts : Key → List (List Row)}
  {opened : List String} (hnames : ∀ c ∈ start.columns, '/' ∉ c.name.toList)
  (hne : start.columns ≠ [])

namespace Progress

include hnames hne

theorem write (h : Progress start w rows parts opened) {row : Row}
    (hwrite : w.write row = (w', .ok ())) :
    ∃ parts', Progress start w' (rows ++ [row]) parts' (opened ++ (w.opens? row).toList) := by
  rcases h.accounts.write hnames hne rfl hwrite with
    ⟨before, last, hparts, hopens, haccounts⟩ | ⟨hopens, haccounts⟩
  · have hlength := length_withParts_last hparts (last ++ [row])
    refine ⟨_, haccounts, fun l hmem => ?_, ?_, fun path => ?_⟩
    · by_cases hl : l = Key.ofRow start.columns row
      · subst hl
        rw [withParts_self, List.mem_append, List.mem_singleton] at hmem
        rcases hmem with hbefore | hlast
        · exact h.filled _ (hparts ▸ List.mem_append_left _ hbefore)
        · exact List.append_ne_nil_of_right_ne_nil last (List.cons_ne_nil row []) hlast.symm
      · rw [withParts_of_ne hl] at hmem
        exact h.filled l hmem
    · rw [hopens, Option.toList_none, List.append_nil]
      exact h.nodup
    · rw [hopens, Option.toList_none, List.append_nil, h.mem_opened]
      simp only [hlength]
  · refine ⟨_, haccounts, fun l hmem => ?_, ?_, fun path => ?_⟩
    · by_cases hl : l = Key.ofRow start.columns row
      · subst hl
        rw [withParts_self, List.mem_append, List.mem_singleton] at hmem
        rcases hmem with hbefore | hlast
        · exact h.filled _ hbefore
        · cases hlast
      · rw [withParts_of_ne hl] at hmem
        exact h.filled l hmem
    · rw [hopens, Option.toList_some, List.nodup_append]
      refine ⟨h.nodup, List.pairwise_singleton _ _, ?_⟩
      rintro path hpath _ hnew rfl
      obtain ⟨l, i, hi, hold⟩ := (h.mem_opened path).mp hpath
      rw [List.mem_singleton, hold] at hnew
      have hl := h.accounts.stores.keys l (List.ne_nil_of_length_pos (Nat.zero_lt_of_lt hi))
      obtain ⟨rfl, rfl⟩ := placeOf_partPath_inj hnames hl ⟨row, rfl⟩ (congrArg placeOf hnew)
      exact Nat.lt_irrefl _ hi
    · rw [hopens, Option.toList_some, List.mem_append, List.mem_singleton, h.mem_opened]
      simp only [lt_length_withParts_concat]
      constructor
      · rintro (⟨l, i, hi, rfl⟩ | rfl)
        · exact ⟨l, i, .inl hi, rfl⟩
        · exact ⟨_, _, .inr ⟨rfl, rfl⟩, rfl⟩
      · rintro ⟨l, i, hi | ⟨rfl, rfl⟩, rfl⟩
        · exact .inl ⟨l, i, hi, rfl⟩
        · exact .inr rfl

/-- Calls that succeed hand over their rows, and make files of their own. -/
theorem run (h : Progress start w rows parts opened) {calls : List Call}
    (hrun : w.run calls = (w', .ok ())) :
    ∃ parts', Progress start w' (rows ++ calls.filterMap Call.row?) parts'
      (opened ++ w.opened calls) := by
  induction calls generalizing w rows parts opened with
  | nil =>
    obtain ⟨rfl, -⟩ := Prod.mk.inj hrun
    rw [List.filterMap_nil, Writer.opened, List.append_nil, List.append_nil]
    exact ⟨parts, h⟩
  | cons c more ih =>
    rw [Writer.run] at hrun
    split at hrun
    · cases hrun
    · next w₁ hcall =>
      match c with
      | .write row =>
        obtain ⟨parts', hwrite⟩ := h.write hnames hne hcall
        have hafter := ih hwrite hrun
        rw [List.append_assoc, List.append_assoc] at hafter
        have hlog : w.opened (.write row :: more) = (w.opens? row).toList ++ w₁.opened more := by
          rw [Writer.opened]
          exact congrArg (fun p => _ ++ Writer.opened p more) (congrArg Prod.fst hcall)
        rw [hlog]
        exact hafter
      | .flush =>
        have hafter := ih ⟨h.accounts.flush hcall, h.filled, h.nodup, h.mem_opened⟩ hrun
        have hlog : w.opened (.flush :: more) = w₁.opened more := by
          rw [Writer.opened]
          exact congrArg (fun p => Writer.opened p more) (congrArg Prod.fst hcall)
        rw [hlog]
        exact hafter

end Progress

end Runs

end BulkTransfer.Partition
