import BulkTransfer.Proofs.Columnar.Stuck
import BulkTransfer.Proofs.Partition.Written

/-!
What becomes of the parts of one partition while some calls fail. A number that is given out to a
part stays given out: the file of the part may be finished, may be lost because it cannot be
finished, or may be missing because it cannot be made.

- `Part`, `Part.Stands`: a part that is no longer written, and what its fate says of the tree.
- `Course`: the parts of a partition, with the rows of the open one; `Course.begun`, `Course.take`
  and `Course.stop` are all that happens to it.
- `Tracks`: a course tells the files and the tally of its partition.
- `Tracks.frame`: what happens elsewhere leaves a partition as it is.
-/

namespace BulkTransfer.Partition

open FileTree

/-! ## Courses -/

/-- What has become of a part that is no longer written. -/
inductive Fate where
  /-- The file is complete. -/
  | finished
  /-- The file was made, and could not be finished. -/
  | lost
  /-- No file could be made. -/
  | missing
  deriving DecidableEq

/-- A part that is no longer written, with the rows that were written to it. -/
structure Part where
  path : String
  rows : List Row
  fate : Fate

/-- Whether a file was made for a part. -/
def Part.isMade (part : Part) : Bool := part.fate != .missing

section Platform

variable [Columnar.Platform]

/-- A part stands in a tree as its fate says. -/
def Part.Stands (start : Writer) (tree : FileTree) (part : Part) : Prop :=
  match part.fate with
  | .finished => ∃ f, tree.HasFile part.path (.columnar f) ∧
      Columnar.Writer.Makes start.dataColumns start.options part.rows f
  | .lost => tree.HasFile part.path (.bytes [])
  | .missing => part.rows = []

theorem Part.Stands.sameBut {start : Writer} {tree tree' : FileTree} {part : Part}
    (h : part.Stands start tree) {places : List Place} (hsame : tree.SameBut places tree')
    (hplace : placeOf part.path ∉ places) : part.Stands start tree' := by
  obtain ⟨path, rows, fate⟩ := part
  cases fate with
  | finished =>
    obtain ⟨f, hfile, hmakes⟩ := h
    exact ⟨f, hsame.hasFile hfile hplace, hmakes⟩
  | lost => exact hsame.hasFile h hplace
  | missing => exact h

end Platform

/-- The parts of a partition that are no longer written, and the rows of the open one. -/
structure Course where
  ended : List Part
  open? : Option (List Row)

namespace Course

/-- The rows of all parts. -/
def rows (c : Course) : List Row := c.ended.flatMap Part.rows ++ c.open?.getD []

/-- The number of parts begun. -/
def started (c : Course) : Nat := c.ended.length + c.open?.toList.length

/-- The paths of the parts that have files. -/
def made (root : String) (k : Key) (c : Course) : List String :=
  (c.ended.filter Part.isMade).map Part.path ++
    c.open?.toList.map fun _ => partPath root k c.ended.length

/-- The tally of a partition that was begun. -/
def tally? (c : Course) : Option Tally :=
  if c.started = 0 then none else some ⟨c.rows.length, c.started, c.started⟩

/-- The next part is open, and has no rows. -/
def begun (c : Course) : Course := { c with open? := some [] }

/-- The open part has one more row. -/
def take (c : Course) (row : Row) : Course := { c with open? := some (c.open?.getD [] ++ [row]) }

/-- The open part is no longer written; where none is open, the next one never was. -/
def stop (c : Course) (path : String) (fate : Fate) : Course :=
  ⟨c.ended ++ [⟨path, c.open?.getD [], fate⟩], none⟩

variable {c : Course} {root : String} {k : Key} {taken : List Row}

theorem started_of_open?_eq_none (h : c.open? = none) : c.started = c.ended.length := by
  rw [started, h]
  rfl

theorem started_of_open?_eq_some (h : c.open? = some taken) : c.started = c.ended.length + 1 := by
  rw [started, h]
  rfl

theorem getD_tally? (c : Course) :
    c.tally?.getD .zero = ⟨c.rows.length, c.started, c.started⟩ := by
  unfold tally?
  split
  · next hzero =>
    obtain ⟨hended, hopen⟩ := Nat.add_eq_zero_iff.mp hzero
    unfold rows
    rw [hzero, List.length_eq_zero_iff.mp hended, List.length_append,
      Option.toList_eq_nil_iff.mp (List.length_eq_zero_iff.mp hopen)]
    rfl
  · rfl

theorem tally?_eq_some (h : c.started ≠ 0) :
    c.tally? = some ⟨c.rows.length, c.started, c.started⟩ := if_neg h

theorem tally?_eq_none : c.tally? = none ↔ c.started = 0 := by
  unfold tally?
  split
  · next hzero => exact ⟨fun _ => hzero, fun _ => rfl⟩
  · next hne => exact ⟨nofun, fun hzero => absurd hzero hne⟩

theorem rows_begun (h : c.open? = none) : c.begun.rows = c.rows := by
  unfold rows begun
  rw [h]
  rfl

theorem made_begun (h : c.open? = none) :
    c.begun.made root k = c.made root k ++ [partPath root k c.ended.length] := by
  unfold made begun
  rw [h]
  simp

theorem rows_take (h : c.open? = some taken) (row : Row) : (c.take row).rows = c.rows ++ [row] := by
  unfold rows take
  rw [h, List.append_assoc]
  rfl

theorem made_take (h : c.open? = some taken) (row : Row) :
    (c.take row).made root k = c.made root k := by
  unfold made take
  rw [h]
  rfl

theorem rows_stop (c : Course) (path : String) (fate : Fate) :
    (c.stop path fate).rows = c.rows := by
  unfold rows stop
  rw [List.flatMap_append, List.flatMap_singleton, Option.getD_none, List.append_nil]

theorem started_stop (c : Course) (path : String) (fate : Fate) :
    (c.stop path fate).started = c.ended.length + 1 := by
  unfold started stop
  rw [List.length_append]
  rfl

/-- A file that was made stays one, whether it is finished or lost. -/
theorem made_stop (hopen : c.open? = some taken) {fate : Fate}
    (hfate : fate ≠ .missing) :
    (c.stop (partPath root k c.ended.length) fate).made root k = c.made root k := by
  have hmade : Part.isMade ⟨partPath root k c.ended.length, c.open?.getD [], fate⟩ = true :=
    bne_iff_ne.mpr hfate
  unfold made stop
  rw [List.filter_append, List.filter_cons_of_pos hmade, hopen]
  simp

/-- A part without a file adds none. -/
theorem made_stop_missing (hopen : c.open? = none) (path : String) :
    (c.stop path .missing).made root k = c.made root k := by
  unfold made stop
  rw [List.filter_append, List.filter_cons_of_neg (by simp [Part.isMade]), List.filter_nil,
    List.append_nil, hopen]
  rfl

end Course

/-! ## Partitions -/

variable [Columnar.Platform]

/-- The open file of a partition has taken rows; or there is no open file. -/
def HasOpen (start w : Writer) (k : Key) (n : Nat) : Option (List Row) → Prop
  | none => find? k w.openFiles = none
  | some rows => ∃ f, find? k w.openFiles = some f ∧ f.path = partPath start.root k n ∧
      w.tree.HasFile f.path (.bytes []) ∧
      Columnar.Writer.Carries start.dataColumns start.options rows f.writer

/-- A course tells the files and the tally of a partition. -/
structure Tracks (start w : Writer) (k : Key) (c : Course) : Prop where
  current : HasOpen start w k c.ended.length c.open?
  ended : ∀ i part, c.ended[i]? = some part →
    part.path = partPath start.root k i ∧ part.Stands start w.tree
  tally : find? k w.tallies = c.tally?
  key : c.started ≠ 0 → IsKey start.columns k

namespace Tracks

variable {start w w' : Writer} {k : Key} {c : Course}

/-- The rows of the open file, where there is one. -/
theorem exists_rows (h : Tracks start w k c) {f : OpenFile} (hf : find? k w.openFiles = some f) :
    ∃ rows, c.open? = some rows ∧ f.path = partPath start.root k c.ended.length ∧
      w.tree.HasFile f.path (.bytes []) ∧
      Columnar.Writer.Carries start.dataColumns start.options rows f.writer := by
  have hcurrent := h.current
  match hopen : c.open? with
  | none =>
    rw [hopen, HasOpen, hf] at hcurrent
    cases hcurrent
  | some rows =>
    rw [hopen] at hcurrent
    obtain ⟨g, hg, hopened⟩ := hcurrent
    rw [hf] at hg
    obtain rfl := Option.some.inj hg
    exact ⟨rows, rfl, hopened⟩

theorem open?_eq_none (h : Tracks start w k c) (hnone : find? k w.openFiles = none) :
    c.open? = none := by
  have hcurrent := h.current
  match hopen : c.open? with
  | none => rfl
  | some rows =>
    rw [hopen] at hcurrent
    obtain ⟨f, hf, -⟩ := hcurrent
    rw [hnone] at hf
    cases hf

/-- All files of a partition are files of its parts. -/
theorem exists_of_mem_made (h : Tracks start w k c) {path : String}
    (hpath : path ∈ c.made start.root k) : ∃ n, path = partPath start.root k n := by
  unfold Course.made at hpath
  rcases List.mem_append.mp hpath with hended | hopen
  · obtain ⟨part, hpart, rfl⟩ := List.mem_map.mp hended
    obtain ⟨i, hi⟩ := List.getElem?_of_mem (List.mem_filter.mp hpart).1
    exact ⟨i, (h.ended i part hi).1⟩
  · obtain ⟨rows, -, rfl⟩ := List.mem_map.mp hopen
    exact ⟨_, rfl⟩

/-- A change of other files, open files and tallies leaves a partition as it is. -/
theorem frame (h : Tracks start w k c) {places : List Place}
    (htree : w.tree.SameBut places w'.tree)
    (hplaces : ∀ i, c.started ≠ 0 → placeOf (partPath start.root k i) ∉ places)
    (hfiles : find? k w'.openFiles = find? k w.openFiles)
    (htally : find? k w'.tallies = find? k w.tallies) : Tracks start w' k c := by
  refine ⟨?_, fun i part hpart => ?_, htally.trans h.tally, h.key⟩
  · have hcurrent := h.current
    match hopen : c.open? with
    | none =>
      rw [hopen] at hcurrent
      exact hfiles.trans hcurrent
    | some rows =>
      rw [hopen] at hcurrent
      obtain ⟨f, hf, hpath, hfile, hcarries⟩ := hcurrent
      have hstarted : c.started ≠ 0 := by
        rw [Course.started_of_open?_eq_some hopen]
        exact Nat.succ_ne_zero _
      exact ⟨f, hfiles.trans hf, hpath, htree.hasFile hfile (hpath ▸ hplaces _ hstarted), hcarries⟩
  · obtain ⟨hpath, hstands⟩ := h.ended i part hpart
    have hstarted : c.started ≠ 0 := by
      have hlt := (List.getElem?_eq_some_iff.mp hpart).1
      unfold Course.started
      omega
    exact ⟨hpath, hstands.sameBut htree (hpath ▸ hplaces i hstarted)⟩

/-- Parts that are no longer written stand while the next one changes. -/
theorem ended_sameBut (hnames : ∀ c ∈ start.columns, '/' ∉ c.name.toList)
    (h : Tracks start w k c) (hk : IsKey start.columns k) {tree : FileTree}
    (htree : w.tree.SameBut [placeOf (partPath start.root k c.ended.length)] tree) (i : Nat)
    (part : Part) (hpart : c.ended[i]? = some part) :
    part.path = partPath start.root k i ∧ part.Stands start tree := by
  obtain ⟨hpath, hstands⟩ := h.ended i part hpart
  refine ⟨hpath, hstands.sameBut htree fun hmem => ?_⟩
  rw [List.mem_singleton, hpath] at hmem
  obtain ⟨-, rfl⟩ := placeOf_partPath_inj hnames hk hk hmem
  exact Nat.lt_irrefl _ (List.getElem?_eq_some_iff.mp hpart).1

/-- One more part that is no longer written. -/
theorem stop {fate : Fate} {path : String} (hpath : path = partPath start.root k c.ended.length)
    (hended : ∀ i part, c.ended[i]? = some part →
      part.path = partPath start.root k i ∧ part.Stands start w.tree)
    (hstands : Part.Stands start w.tree ⟨path, c.open?.getD [], fate⟩)
    (hclosed : find? k w.openFiles = none)
    (htally : find? k w.tallies =
      some ⟨c.rows.length, c.ended.length + 1, c.ended.length + 1⟩)
    (hk : IsKey start.columns k) : Tracks start w k (c.stop path fate) := by
  refine ⟨hclosed, fun i part hpart => ?_, ?_, fun _ => hk⟩
  · rw [Course.stop, List.getElem?_append] at hpart
    split at hpart
    · exact hended i part hpart
    · next hi =>
      rw [List.getElem?_singleton] at hpart
      split at hpart
      · obtain rfl : i = c.ended.length := by omega
        obtain rfl := Option.some.inj hpart
        exact ⟨hpath, hstands⟩
      · cases hpart
  · rw [htally, Course.tally?_eq_some, Course.rows_stop, Course.started_stop]
    rw [Course.started_stop]
    exact Nat.succ_ne_zero _

end Tracks

end BulkTransfer.Partition
