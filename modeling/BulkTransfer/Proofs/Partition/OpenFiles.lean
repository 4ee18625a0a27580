import BulkTransfer.Proofs.Partition.Written

/-!
The open files of a dataset that is being written: those of the partitions written last, as many as
there is room for, the one written last first. A row whose partition has an open file uses it, or
has it replaced where it is full; any other row opens a file, for which the file unused for longest
is finished if there is no room. Which files are full depends on the platform, and nothing else does.

- `Turn`, `turn_of_write`: what a row does to the open files.
- `Turn.openKeys_eq`: the partition of the row comes to the front.
- `Turn.count`: a row adds the file that is opened for it to those open and finished.
- `Recent.run`: after any calls the open files are those written last, and the counts add up.
- `open_files_are_last_used`: all of this, for every dataset that is being written.
-/

namespace BulkTransfer.Partition

namespace Writer

/-- The keys of the open files, the one used last first. -/
def openKeys (w : Writer) : List Key := w.openFiles.map Prod.fst

theorem Continues.trans {start w w' : Writer} (h : start.Continues w) (h' : w.Continues w') :
    start.Continues w' :=
  ⟨h'.root.trans h.root, h'.columns.trans h.columns, h'.dataColumns.trans h.dataColumns,
    h'.options.trans h.options⟩

/-- How many files are finished by calls because they are full. -/
def rotations [Columnar.Platform] (w : Writer) : List Call → Nat
  | [] => 0
  | .write row :: more =>
    (if w.isFull (Key.ofRow w.columns row) then 1 else 0) + (w.write row).1.rotations more
  | .flush :: more => w.flush.1.rotations more

end Writer

/-! ## Keys of open files -/

theorem one_le_maxOpenFiles (o : Options) : 1 ≤ o.maxOpenFiles := Nat.le_max_left ..

theorem map_fst_remove (k : Key) (l : List (Key × OpenFile)) :
    (remove k l).map Prod.fst = (l.map Prod.fst).filter (· != k) := by
  unfold remove
  rw [List.filter_map]
  rfl

theorem not_mem_keys_dropLast {k : Key} {l : List (Key × OpenFile)} (h : find? k l = none) :
    k ∉ l.dropLast.map Prod.fst := by
  intro hmem
  obtain ⟨e, he, rfl⟩ := List.mem_map.mp hmem
  exact find?_eq_none.mp h (List.mem_map_of_mem (List.dropLast_subset _ he))

theorem length_remove_lt {k : Key} {f : OpenFile} {l : List (Key × OpenFile)}
    (h : find? k l = some f) : (remove k l).length < l.length :=
  List.length_filter_lt_length_iff_exists.mpr ⟨(k, f), mem_of_find? h, by simp⟩

theorem length_openKeys (w : Writer) : w.openKeys.length = w.openFiles.length := List.length_map _

theorem mem_openKeys_iff {w : Writer} {k : Key} :
    k ∈ w.openKeys ↔ ∃ f, find? k w.openFiles = some f := by
  rw [Writer.openKeys, ← Option.ne_none_iff_exists', ne_eq, find?_eq_none, Decidable.not_not]

/-! ## The order of use -/

/-- Keys, each once, the one that comes last first. -/
def byLastUse (keys : List Key) : List Key := keys.reverse.eraseDups

theorem nodup_byLastUse (keys : List Key) : (byLastUse keys).Nodup := nodup_eraseDups _

theorem mem_byLastUse {keys : List Key} {k : Key} : k ∈ byLastUse keys ↔ k ∈ keys := by
  rw [byLastUse, List.mem_eraseDups, List.mem_reverse]

/-- A key that is used once more comes to the front. -/
theorem byLastUse_concat (keys : List Key) (k : Key) :
    byLastUse (keys ++ [k]) = k :: (byLastUse keys).filter (· != k) := by
  rw [byLastUse, List.reverse_append, List.reverse_singleton, List.singleton_append,
    List.eraseDups_cons, byLastUse, eraseDups_filter]
  rfl

/-- Of different keys as many as there is room for, one at most is dropped by its name; so those
that stay in front can be cut off before or after. -/
theorem take_filter_take {l : List Key} (h : l.Nodup) (k : Key) (room : Nat) :
    ((l.take (room + 1)).filter (· != k)).take room = (l.filter (· != k)).take room := by
  induction l generalizing room with
  | nil => rw [List.take_nil]
  | cons a more ih =>
    obtain ⟨hnew, hmore⟩ := List.nodup_cons.mp h
    rw [List.take_succ_cons]
    by_cases ha : a = k
    · subst ha
      have hkeep : ∀ l : List Key, a ∉ l → l.filter (· != a) = l := fun l hl =>
        List.filter_eq_self.mpr fun b hb => bne_iff_ne.mpr fun heq => hl (heq ▸ hb)
      rw [List.filter_cons_of_neg (by simp), List.filter_cons_of_neg (by simp),
        hkeep _ fun hmem => hnew (List.mem_of_mem_take hmem), hkeep _ hnew, List.take_take,
        Nat.min_self]
    · rw [List.filter_cons_of_pos (by simp [ha]), List.filter_cons_of_pos (by simp [ha])]
      cases room with
      | zero => rfl
      | succ room => rw [List.take_succ_cons, List.take_succ_cons, ih hmore]

theorem take_cons_filter_take {l : List Key} (h : l.Nodup) (k : Key) {room : Nat}
    (hroom : 1 ≤ room) :
    (k :: (l.take room).filter (· != k)).take room = (k :: l.filter (· != k)).take room := by
  obtain ⟨n, rfl⟩ : ∃ n, room = n + 1 := ⟨room - 1, by omega⟩
  rw [List.take_succ_cons, List.take_succ_cons, take_filter_take h]

/-- With room for one open file, that of the partition used last is open. -/
theorem byLastUse_take_one {keys : List Key} {k : Key} (h : keys.getLast? = some k) :
    (byLastUse keys).take 1 = [k] := by
  obtain ⟨before, rfl⟩ := List.getLast?_eq_some_iff.mp h
  rw [byLastUse_concat, List.take_succ_cons, List.take_zero]

/-- The open files are those of the partitions used last, as many as there is room for. -/
structure Recent (start w : Writer) (keys : List Key) : Prop where
  same : start.Continues w
  openKeys : w.openKeys = (byLastUse keys).take start.options.maxOpenFiles

namespace Recent

variable {start w : Writer} {keys : List Key}

theorem nodup (h : Recent start w keys) : w.openKeys.Nodup :=
  h.openKeys ▸ (nodup_byLastUse keys).sublist (List.take_sublist _ _)

theorem length_eq (h : Recent start w keys) :
    w.openFiles.length = min start.options.maxOpenFiles (byLastUse keys).length := by
  rw [← length_openKeys, h.openKeys, List.length_take]

theorem length_le (h : Recent start w keys) : w.openFiles.length ≤ w.options.maxOpenFiles := by
  rw [h.length_eq, h.same.options]
  exact Nat.min_le_left ..

end Recent

theorem recent_create {tree made : FileTree} {root : String} {columns : List Column}
    {options : Options} {start : Writer}
    (h : Writer.create tree root columns options = (made, .ok start)) :
    start.options = options ∧ start.openFiles = [] ∧ start.evicted = 0 ∧ Recent start start [] := by
  obtain ⟨-, partition, -, rfl⟩ := create_eq_ok h
  exact ⟨rfl, rfl, rfl, ⟨rfl, rfl, rfl, rfl⟩, List.take_nil.symm⟩

section Platform

variable [Columnar.Platform]

/-! ## What a row does to the open files -/

/-- The open files that stay where another one is opened, and how many were finished for room. -/
inductive MakesRoom (w : Writer) (k : Key) : List (Key × OpenFile) → Nat → Prop where
  /-- The file of the partition is full. -/
  | rotated {f : OpenFile} (hfind : find? k w.openFiles = some f) (hfull : w.isFull k = true) :
    MakesRoom w k (remove k w.openFiles) w.evicted
  /-- The partition has no open file, and there is room for one. -/
  | spare (hfind : find? k w.openFiles = none)
      (hroom : w.openFiles.length < w.options.maxOpenFiles) : MakesRoom w k w.openFiles w.evicted
  /-- The partition has no open file, and the one unused for longest is finished. -/
  | evicted (hfind : find? k w.openFiles = none)
      (hroom : w.options.maxOpenFiles ≤ w.openFiles.length) :
    MakesRoom w k w.openFiles.dropLast (w.evicted + 1)

/-- What a row of a partition does to the open files. -/
inductive Turn (w : Writer) (k : Key) (row : Row) (w' : Writer) : Prop where
  /-- The open file of the partition takes the row. -/
  | used {f : OpenFile} {writer : Columnar.Writer} (hfind : find? k w.openFiles = some f)
      (hfull : w.isFull k = false) (hwrite : f.writer.write row = (writer, .ok ()))
      (hfiles : w'.openFiles = (k, { f with writer }) :: remove k w.openFiles)
      (hevicted : w'.evicted = w.evicted) (hopens : w.opens? row = none)
  /-- A new file takes the row. -/
  | opened {f : OpenFile} {writer : Columnar.Writer} {left : List (Key × OpenFile)}
      (hroom : MakesRoom w k left w'.evicted)
      (hnew : Columnar.Writer.into (Columnar.Platform.outlet f.path) w.dataColumns w.options =
        .ok f.writer)
      (hwrite : f.writer.write row = (writer, .ok ()))
      (hfiles : w'.openFiles = (k, { f with writer }) :: left)
      (hopens : w.opens? row = some f.path)

section Steps

variable {w w' : Writer} {k : Key} {row : Row}

theorem isFull_of_find?_eq_none (h : find? k w.openFiles = none) : w.isFull k = false := by
  unfold Writer.isFull
  rw [h]

theorem rotate_eq_ok (h : w.rotate k = (w', .ok ())) :
    (w.isFull k = false ∧ w' = w) ∨
      ∃ f file, find? k w.openFiles = some f ∧ w.isFull k = true ∧
        w' = { w with
          tree := w.tree.fill f.path (.columnar file), openFiles := remove k w.openFiles } := by
  unfold Writer.rotate at h
  split at h
  · next f hfind =>
    split at h
    · next hfull =>
      obtain ⟨file, -, rfl⟩ := finishFile_eq_ok h
      exact .inr ⟨f, file, hfind, hfull, rfl⟩
    · next hfull => exact .inl ⟨Bool.eq_false_iff.mpr hfull, (Prod.mk.inj h).1.symm⟩
  · next hfind => exact .inl ⟨isFull_of_find?_eq_none hfind, (Prod.mk.inj h).1.symm⟩

/-- A file is finished for room only where there is none. -/
theorem evict_eq_ok (h : w.evict = (w', .ok ())) :
    (w.openFiles.length < w.options.maxOpenFiles ∧ w' = w) ∨
      (w.options.maxOpenFiles ≤ w.openFiles.length ∧ ∃ tree,
        w' = { w with
          tree := tree, openFiles := w.openFiles.dropLast, evicted := w.evicted + 1 }) := by
  unfold Writer.evict at h
  split at h
  · next hroom => exact .inl ⟨hroom, (Prod.mk.inj h).1.symm⟩
  · next hroom =>
    right
    have hle := Nat.le_of_not_lt hroom
    split at h
    · next f hlast =>
      obtain ⟨file, -, rfl⟩ := finishFile_eq_ok h
      exact ⟨hle, _, rfl⟩
    · next hnil =>
      have hone := one_le_maxOpenFiles w.options
      rw [List.getLast?_eq_none_iff.mp hnil] at hle
      exact absurd (Nat.le_trans hone hle) (by decide)

theorem ensureOpen_eq_ok (h : w.ensureOpen k = (w', .ok ())) :
    ((∃ f, find? k w.openFiles = some f) ∧ w' = w) ∨
      (find? k w.openFiles = none ∧ ∃ w₁ w₂ f, w.evict = (w₁, .ok ()) ∧
        w₁.openPart k = (w₂, .ok f) ∧ w' = { w₂ with openFiles := (k, f) :: w₂.openFiles }) := by
  unfold Writer.ensureOpen at h
  split at h
  · next f hfind => exact .inl ⟨⟨f, hfind⟩, (Prod.mk.inj h).1.symm⟩
  · next hfind =>
    split at h
    · cases h
    · next w₁ hevict =>
      split at h
      · cases h
      · next w₂ f hpart => exact .inr ⟨hfind, w₁, w₂, f, hevict, hpart, (Prod.mk.inj h).1.symm⟩

/-- A file that was just opened takes the row, and stands in front of those that are left. -/
theorem append_opened {f : OpenFile} {left : List (Key × OpenFile)}
    (hleft : k ∉ left.map Prod.fst)
    (h : { w with openFiles := (k, f) :: left }.append k row = (w', .ok ())) :
    ∃ writer, f.writer.write row = (writer, .ok ()) ∧
      w'.openFiles = (k, { f with writer }) :: left ∧ w'.evicted = w.evicted ∧ w.Continues w' := by
  obtain ⟨g, writer, hfind, hwrite, rfl⟩ := append_eq_ok h
  have hg : some f = some g := by
    rw [← hfind, find?_cons, if_pos rfl]
  obtain rfl := Option.some.inj hg
  have hremove : remove k ((k, f) :: left) = left := by
    rw [show remove k ((k, f) :: left) = remove k left from List.filter_cons_of_neg (by simp),
      remove_of_not_mem hleft]
  exact ⟨writer, hwrite, congrArg ((k, { f with writer }) :: ·) hremove, rfl, rfl, rfl, rfl, rfl⟩

/-- A row whose partition has no open file opens one, where there is room or in place of the one
unused for longest. -/
theorem opened_of_ensureOpen (hfind : find? k w.openFiles = none) {w₁ : Writer}
    (hopen : w.ensureOpen k = (w₁, .ok ())) (happend : w₁.append k row = (w', .ok ())) :
    ∃ f writer left, MakesRoom w k left w'.evicted ∧
      Columnar.Writer.into (Columnar.Platform.outlet f.path) w.dataColumns w.options =
        .ok f.writer ∧
      f.writer.write row = (writer, .ok ()) ∧ w'.openFiles = (k, { f with writer }) :: left ∧
      (w.evict.1.openPart k).2 = .ok f ∧ w.Continues w' := by
  rcases ensureOpen_eq_ok hopen with ⟨⟨f, hsome⟩, -⟩ | ⟨-, w₂, w₃, f, hevict, hpart, rfl⟩
  · rw [hfind] at hsome
    cases hsome
  · obtain ⟨tree, made, -, -, -, hnew, rfl⟩ := openPart_eq_ok hpart
    rw [hevict, hpart]
    rcases evict_eq_ok hevict with ⟨hroom, rfl⟩ | ⟨hroom, tree', rfl⟩
    · obtain ⟨writer, hwrite, hfiles, hevicted, hsame⟩ :=
        append_opened (find?_eq_none.mp hfind) happend
      exact ⟨f, writer, _, hevicted ▸ .spare hfind hroom, hnew, hwrite, hfiles, rfl, hsame.root,
        hsame.columns, hsame.dataColumns, hsame.options⟩
    · obtain ⟨writer, hwrite, hfiles, hevicted, hsame⟩ :=
        append_opened (not_mem_keys_dropLast hfind) happend
      exact ⟨f, writer, _, hevicted ▸ .evicted hfind hroom, hnew, hwrite, hfiles, rfl, hsame.root,
        hsame.columns, hsame.dataColumns, hsame.options⟩

theorem opens?_of_find?_eq_some (hk : Key.ofRow w.columns row = k) {w₁ : Writer} {f : OpenFile}
    (hrotate : w.rotate k = (w₁, .ok ())) (hfind : find? k w₁.openFiles = some f) :
    w.opens? row = none := by
  unfold Writer.opens?
  dsimp only
  rw [hk, hrotate, hfind]

theorem opens?_of_find?_eq_none (hk : Key.ofRow w.columns row = k) {w₁ : Writer} {f : OpenFile}
    (hrotate : w.rotate k = (w₁, .ok ())) (hfind : find? k w₁.openFiles = none)
    (hpart : (w₁.evict.1.openPart k).2 = .ok f) : w.opens? row = some f.path := by
  unfold Writer.opens?
  dsimp only
  rw [hk, hrotate, hfind, hpart]

/-- What a row that is written does to the open files, of which there are no more than allowed. -/
theorem turn_of_write (hlength : w.openFiles.length ≤ w.options.maxOpenFiles)
    (h : w.write row = (w', .ok ())) :
    Turn w (Key.ofRow w.columns row) row w' ∧ w.Continues w' := by
  obtain ⟨w₁, w₂, hrotate, hopen, happend⟩ := write_eq_ok h
  generalize hk : Key.ofRow w.columns row = k at hrotate hopen happend ⊢
  rcases rotate_eq_ok hrotate with ⟨hfull, rfl⟩ | ⟨f, file, hfind, hfull, rfl⟩
  · rcases ensureOpen_eq_ok hopen with ⟨⟨f, hfind⟩, rfl⟩ | ⟨hfind, -⟩
    · obtain ⟨g, writer, hg, hwrite, rfl⟩ := append_eq_ok happend
      rw [hfind] at hg
      obtain rfl := Option.some.inj hg
      have hopens := opens?_of_find?_eq_some hk hrotate hfind
      exact ⟨.used hfind hfull hwrite rfl rfl hopens, rfl, rfl, rfl, rfl⟩
    · obtain ⟨f, writer, left, hroom, hnew, hwrite, hfiles, hpart, hsame⟩ :=
        opened_of_ensureOpen hfind hopen happend
      have hopens := opens?_of_find?_eq_none hk hrotate hfind hpart
      exact ⟨.opened hroom hnew hwrite hfiles hopens, hsame⟩
  · have hnone := find?_remove_self k w.openFiles
    obtain ⟨f', writer, left, hroom, hnew, hwrite, hfiles, hpart, hsame⟩ :=
      opened_of_ensureOpen hnone hopen happend
    have hopens := opens?_of_find?_eq_none hk hrotate hnone hpart
    refine ⟨.opened ?_ hnew hwrite hfiles hopens, hsame.root, hsame.columns, hsame.dataColumns,
      hsame.options⟩
    -- The file that was finished has left room for the next one.
    have hless := length_remove_lt hfind
    generalize w'.evicted = evicted at hroom
    cases hroom with
    | rotated hsome _ => exact absurd (hnone.symm.trans hsome) (by simp)
    | spare _ _ => exact .rotated hfind hfull
    | evicted _ hroom =>
      dsimp only at hroom
      omega

end Steps

section Turns

variable {w w' : Writer} {k : Key} {row : Row}

/-- The partition of the row comes to the front, and those for which there is no room are left
out. -/
theorem Turn.openKeys_eq (h : Turn w k row w')
    (hlength : w.openFiles.length ≤ w.options.maxOpenFiles) :
    w'.openKeys = (k :: w.openKeys.filter (· != k)).take w.options.maxOpenFiles := by
  have hmoved : ∀ {f}, find? k w.openFiles = some f →
      (k :: (remove k w.openFiles).map Prod.fst).length ≤ w.options.maxOpenFiles := by
    intro f hfind
    have hless := length_remove_lt hfind
    rw [List.length_cons, List.length_map]
    omega
  have hkeep : find? k w.openFiles = none → w.openKeys.filter (· != k) = w.openKeys := by
    intro hfind
    rw [Writer.openKeys, ← map_fst_remove, remove_of_not_mem (find?_eq_none.mp hfind)]
  cases h with
  | used hfind _ _ hfiles _ _ =>
    rw [Writer.openKeys, hfiles, List.map_cons, map_fst_remove, List.take_of_length_le]
    · rfl
    · rw [Writer.openKeys, ← map_fst_remove]
      exact hmoved hfind
  | @opened f writer left hroom _ _ hfiles _ =>
    rw [Writer.openKeys, hfiles, List.map_cons]
    generalize w'.evicted = evicted at hroom
    cases hroom with
    | rotated hfind _ =>
      rw [map_fst_remove, List.take_of_length_le]
      · rfl
      · rw [Writer.openKeys, ← map_fst_remove]
        exact hmoved hfind
    | spare hfind hroom =>
      rw [hkeep hfind, List.take_of_length_le]
      · rfl
      · rw [Writer.openKeys, List.length_cons, List.length_map]
        exact hroom
    | evicted hfind hroom =>
      obtain ⟨n, hn⟩ : ∃ n, w.options.maxOpenFiles = n + 1 :=
        ⟨_, (Nat.sub_add_cancel (one_le_maxOpenFiles w.options)).symm⟩
      have hall : w.openFiles.length - 1 = n := by omega
      rw [hkeep hfind, hn, List.take_succ_cons, List.dropLast_eq_take, hall, Writer.openKeys,
        List.map_take]

/-- The file unused for longest is finished, and one is opened in its place. -/
def Evicts (w : Writer) (k : Key) (row : Row) (w' : Writer) : Prop :=
  ∃ kept oldest, w.openKeys = kept ++ [oldest] ∧ w'.openKeys = k :: kept ∧
    w'.evicted = w.evicted + 1 ∧ (w.opens? row).isSome = true

theorem Turn.evicts (h : Turn w k row w') (hclosed : k ∉ w.openKeys)
    (hfull : w.options.maxOpenFiles ≤ w.openFiles.length) : Evicts w k row w' := by
  cases h with
  | used hfind _ _ _ _ _ => exact absurd (mem_openKeys_iff.mpr ⟨_, hfind⟩) hclosed
  | @opened f writer left hroom _ _ hfiles hopens =>
    have hopened : (w.opens? row).isSome = true := by rw [hopens, Option.isSome_some]
    generalize hcount : w'.evicted = evicted at hroom
    cases hroom with
    | rotated hfind _ => exact absurd (mem_openKeys_iff.mpr ⟨_, hfind⟩) hclosed
    | spare _ hroom => omega
    | evicted _ _ =>
      have hone := one_le_maxOpenFiles w.options
      have hne : w.openKeys ≠ [] := by
        refine List.ne_nil_of_length_pos ?_
        rw [Writer.openKeys, List.length_map]
        omega
      refine ⟨w.openKeys.dropLast, w.openKeys.getLast hne,
        (List.dropLast_concat_getLast hne).symm, ?_, hcount, hopened⟩
      rw [Writer.openKeys, hfiles, List.map_cons, List.map_dropLast]
      rfl

/-- A row whose partition has an open file, or for which there is room, evicts none. -/
theorem Turn.evicted_eq (h : Turn w k row w')
    (hkept : k ∈ w.openKeys ∨ w.openFiles.length < w.options.maxOpenFiles) :
    w'.evicted = w.evicted := by
  cases h with
  | used _ _ _ _ hevicted _ => exact hevicted
  | opened hroom _ _ _ _ =>
    generalize w'.evicted = evicted at hroom
    cases hroom with
    | rotated _ _ => rfl
    | spare _ _ => rfl
    | evicted hfind hroom =>
      rcases hkept with hmem | hless
      · exact absurd hmem (find?_eq_none.mp hfind)
      · omega

/-- Files that are open or were finished for room or because they are full: a row adds the one that
is opened for it. -/
theorem Turn.count (h : Turn w k row w') (hnodup : w.openKeys.Nodup) :
    w'.openFiles.length + w'.evicted + (if w.isFull k then 1 else 0) =
      w.openFiles.length + w.evicted + (w.opens? row).toList.length := by
  have hremove : ∀ {f}, find? k w.openFiles = some f →
      (remove k w.openFiles).length + 1 = w.openFiles.length := by
    intro f hfind
    have hmem := mem_openKeys_iff.mpr ⟨f, hfind⟩
    have hpos := List.length_pos_of_mem hmem
    have herase : ((remove k w.openFiles).map Prod.fst).length = w.openKeys.length - 1 := by
      rw [map_fst_remove, ← Writer.openKeys, ← hnodup.erase_eq_filter,
        List.length_erase_of_mem hmem]
    rw [List.length_map, Writer.openKeys, List.length_map] at herase
    rw [Writer.openKeys, List.length_map] at hpos
    omega
  cases h with
  | used hfind hfull _ hfiles hevicted hopens =>
    rw [hfiles, hevicted, hopens, hfull, List.length_cons, hremove hfind]
    rfl
  | opened hroom _ _ hfiles hopens =>
    rw [hfiles, hopens, List.length_cons, Option.toList_some, List.length_singleton]
    generalize w'.evicted = evicted at hroom
    cases hroom with
    | rotated hfind hfull => rw [hfull, hremove hfind, if_pos rfl]
    | spare hfind _ =>
      rw [isFull_of_find?_eq_none hfind, if_neg Bool.false_ne_true]
      omega
    | evicted hfind hroom =>
      have hone := one_le_maxOpenFiles w.options
      rw [isFull_of_find?_eq_none hfind, if_neg Bool.false_ne_true, List.length_dropLast]
      omega

theorem flush_eq_ok (h : w.flush = (w', .ok ())) :
    w.Continues w' ∧ w'.openKeys = w.openKeys ∧ w'.evicted = w.evicted := by
  unfold Writer.flush at h
  obtain ⟨rfl, hok⟩ := Prod.mk.inj h
  exact ⟨⟨rfl, rfl, rfl, rfl⟩, (flushFiles_eq_ok (Prod.ext rfl hok)).1, rfl⟩

end Turns

/-! ## Runs -/

/-- The keys of the rows that calls hand over, in order. -/
def keysOf (columns : List PartitionColumn) (calls : List Call) : List Key :=
  (calls.filterMap Call.row?).map (Key.ofRow columns)

section Runs

variable {start w w' : Writer} {keys : List Key}

namespace Recent

theorem turn (h : Recent start w keys) {row : Row} (hwrite : w.write row = (w', .ok ())) :
    Turn w (Key.ofRow start.columns row) row w' ∧ w.Continues w' :=
  h.same.columns ▸ turn_of_write h.length_le hwrite

theorem write (h : Recent start w keys) {row : Row} (hwrite : w.write row = (w', .ok ())) :
    Recent start w' (keys ++ [Key.ofRow start.columns row]) := by
  obtain ⟨hturn, hsame⟩ := h.turn hwrite
  refine ⟨h.same.trans hsame, ?_⟩
  rw [hturn.openKeys_eq h.length_le, h.openKeys, h.same.options,
    take_cons_filter_take (nodup_byLastUse keys) _ (one_le_maxOpenFiles _), byLastUse_concat]

theorem flush (h : Recent start w keys) (hflush : w.flush = (w', .ok ())) :
    Recent start w' keys := by
  obtain ⟨hsame, hkeys, -⟩ := flush_eq_ok hflush
  exact ⟨h.same.trans hsame, hkeys.trans h.openKeys⟩

/-- After any calls the open files are those of the partitions used last. Those that were opened
on the way are still open, or were finished for room or because they were full. -/
theorem run (h : Recent start w keys) {calls : List Call} (hrun : w.run calls = (w', .ok ())) :
    Recent start w' (keys ++ keysOf start.columns calls) ∧
      w'.openFiles.length + w'.evicted + w.rotations calls =
        w.openFiles.length + w.evicted + (w.opened calls).length := by
  induction calls generalizing w keys with
  | nil =>
    obtain ⟨rfl, -⟩ := Prod.mk.inj hrun
    exact ⟨(List.append_nil keys).symm ▸ h, rfl⟩
  | cons c more ih =>
    rw [Writer.run] at hrun
    split at hrun
    · cases hrun
    · next w₁ hcall =>
      cases c with
      | write row =>
        obtain ⟨hafter, hcount⟩ := ih (h.write hcall) hrun
        have hturn := (h.turn hcall).1.count h.nodup
        have hnext : (w.write row).1 = w₁ := congrArg Prod.fst hcall
        rw [List.append_assoc] at hafter
        rw [Writer.rotations, Writer.opened, hnext, List.length_append, h.same.columns]
        exact ⟨hafter, by omega⟩
      | flush =>
        obtain ⟨hafter, hcount⟩ := ih (h.flush hcall) hrun
        obtain ⟨-, hkeys, hevicted⟩ := flush_eq_ok hcall
        have hlength := congrArg List.length hkeys
        have hnext : w.flush.1 = w₁ := congrArg Prod.fst hcall
        rw [length_openKeys, length_openKeys] at hlength
        rw [Writer.rotations, Writer.opened, hnext]
        exact ⟨hafter, by omega⟩

end Recent

end Runs

theorem evicted_close {w : Writer} {tree : FileTree} {report : WriteReport}
    (h : w.close = (tree, .ok report)) : report.evicted = w.evicted := by
  obtain ⟨w', hfinish, -, rfl⟩ := close_eq_ok h
  obtain ⟨tree', rfl⟩ := finishAll_frame hfinish
  rfl

/-- After any calls that succeed the open files are those of the partitions used last, in the order
of their last use and as many as there is room for. A flush evicts no file, and a row only where its
partition has no open file and there is no room for one; then it is the file unused for longest.
With room for one file this happens whenever the partition changes. The files opened are those that
were evicted, those that were full and those still open. -/
theorem open_files_are_last_used {tree made : FileTree} {root : String} {columns : List Column}
    {options : Options} {start w : Writer} {calls : List Call}
    (hcreate : Writer.create tree root columns options = (made, .ok start))
    (hrun : start.run calls = (w, .ok ())) :
    let keys := keysOf start.columns calls
    let room := options.maxOpenFiles
    w.openKeys = (byLastUse keys).take room ∧
    w.openFiles.length = min room (byLastUse keys).length ∧
    (∀ w', w.flush = (w', .ok ()) → w'.openKeys = w.openKeys ∧ w'.evicted = w.evicted) ∧
    (∀ row w', w.write row = (w', .ok ()) →
      let k := Key.ofRow start.columns row
      (k ∉ w.openKeys ∧ w.openFiles.length = room → Evicts w k row w') ∧
      (k ∈ w.openKeys ∨ w.openFiles.length < room → w'.evicted = w.evicted) ∧
      (room = 1 → ∀ last, keys.getLast? = some last → last ≠ k → Evicts w k row w')) ∧
    (start.opened calls).length = w.evicted + start.rotations calls + w.openFiles.length ∧
    ∀ closed report, w.close = (closed, .ok report) → report.evicted = w.evicted := by
  intro keys room
  obtain ⟨rfl, hfiles, hzero, hstart⟩ := recent_create hcreate
  obtain ⟨hrecent, hcount⟩ := hstart.run hrun
  rw [List.nil_append] at hrecent
  refine ⟨hrecent.openKeys, hrecent.length_eq, fun w' hflush => (flush_eq_ok hflush).2, ?_, ?_,
    fun closed report => evicted_close⟩
  · intro row w' hwrite k
    have hturn := (hrecent.turn hwrite).1
    have hevicts : k ∉ w.openKeys ∧ w.openFiles.length = room → Evicts w k row w' := by
      rintro ⟨hclosed, hlength⟩
      refine hturn.evicts hclosed (Nat.le_of_eq ?_)
      rw [hlength, hrecent.same.options]
    refine ⟨hevicts, fun hkept => hturn.evicted_eq ?_, fun hone last hlast hne => ?_⟩
    · rw [hrecent.same.options]
      exact hkept
    · have hkeys : w.openKeys = [last] := by
        rw [hrecent.openKeys, show start.options.maxOpenFiles = 1 from hone]
        exact byLastUse_take_one hlast
      refine hevicts ⟨?_, ?_⟩
      · rw [hkeys, List.mem_singleton]
        exact Ne.symm hne
      · rw [← length_openKeys, hkeys, hone]
        rfl
  · rw [hfiles, hzero] at hcount
    rw [List.length_nil] at hcount
    omega

end Platform

/-- With room for two open files and files that are full after one row, the third row has the file
of its partition replaced, and the last one has that of the second row finished. -/
theorem open_files_are_last_used_evicted :
    let columns : List Column := [⟨"k", some .text⟩, ⟨"v", some .int⟩]
    let options := Options.ofPairs
      [("PARTITION", "k"), ("MAX_OPEN_FILES", "2"), ("MAX_FILE_SIZE", "9")]
    let rows : List Row := ["a", "b", "a", "c"].map fun k => ⟨[("k", .text k), ("v", .int 1)]⟩
    let calls := rows.map Call.write ++ [.flush]
    ∃ start w, (Writer.create .empty "d" columns options).2 = .ok start ∧
      start.run calls = (w, .ok ()) ∧ w.openKeys = [[("k", "c")], [("k", "a")]] ∧
      (start.opened calls).length = 4 ∧ start.rotations calls = 1 ∧ w.evicted = 1 := by
  intro columns options rows calls
  let start : Writer :=
    ⟨⟨[(["d"], .directory)]⟩, "d", [⟨"k", "k", none⟩], columns, options, [], [], 0, 0⟩
  have hcreate : Writer.create .empty "d" columns options = (start.tree, .ok start) := rfl
  obtain ⟨⟨⟩, hrun⟩ := exists_eq_ok (show (start.run calls).2.isOk = true by decide +kernel)
  generalize (start.run calls).1 = w at hrun
  obtain ⟨hkeys, hlength, -, -, hcount, -⟩ := open_files_are_last_used hcreate hrun
  have hopened : (start.opened calls).length = 4 := by decide +kernel
  have hrotations : start.rotations calls = 1 := by decide +kernel
  have hrecent : byLastUse (keysOf start.columns calls) =
      [[("k", "c")], [("k", "a")], [("k", "b")]] := by decide +kernel
  have hroom : options.maxOpenFiles = 2 := by decide +kernel
  rw [hrecent, hroom] at hkeys hlength
  rw [hopened, hrotations, hlength] at hcount
  exact ⟨start, w, rfl, hrun, hkeys, hopened, hrotations, by simpa using hcount.symm⟩

end BulkTransfer.Partition
