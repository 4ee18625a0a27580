import BulkTransfer.Proofs.Partition.Course
import Mathlib.Logic.Function.Basic

/-!
Writing a dataset while calls may fail, step by step. Over an arbitrary tree, and whatever fails,
the tallies count the parts begun and the rows of the calls that succeeded.

- `Writer.attempt`, `Writer.accepted`, `Writer.made`: a run with its failures, the rows of the calls
  that succeeded and the files that were made.
- `Records`: the courses of all partitions tell the files, the tallies and the rows.
- `Records.change`: the frame of all steps, which touch one partition and leave all others alone.
- `Records.write`, `Records.attempt`: every call keeps the records, and so does every run.
-/

namespace BulkTransfer.Partition

open FileTree

/-! ## Runs with failures -/

namespace Writer

variable [Columnar.Platform]

/-- Does what calls ask for, and goes on where one fails. -/
def attempt (w : Writer) : List Call → Writer
  | [] => w
  | c :: more => (w.call c).1.attempt more

/-- The row itself, if it is written, and nothing if this fails. -/
def taken (w : Writer) (row : Row) : List Row :=
  match (w.write row).2 with
  | .ok () => [row]
  | .error _ => []

/-- The rows that are written by calls, in order. -/
def accepted (w : Writer) : List Call → List Row
  | [] => []
  | .write row :: more => w.taken row ++ (w.write row).1.accepted more
  | .flush :: more => w.flush.1.accepted more

/-- The path of the file that is made for a partition, if it has no open file and one can be
made. -/
def partMade? (w : Writer) (key : Key) : Option String :=
  match find? key w.openFiles with
  | some _ => none
  | none => match w.evict with
    | (_, .error _) => none
    | (w, .ok ()) => match (w.openPart key).2 with
      | .ok f => some f.path
      | .error _ => none

/-- The path of the file that is made for a row, if it comes to that. -/
def makes? (w : Writer) (row : Row) : Option String :=
  let key := Key.ofRow w.columns row
  match w.rotate key with
  | (_, .error _) => none
  | (w, .ok ()) => w.partMade? key

/-- The files that are made by calls, with their partitions, in order. -/
def made (w : Writer) : List Call → List (Key × String)
  | [] => []
  | .write row :: more =>
    (w.makes? row).toList.map (Key.ofRow w.columns row, ·) ++ (w.write row).1.made more
  | .flush :: more => w.flush.1.made more

end Writer

/-- The files of a partition. -/
def madeAt (made : List (Key × String)) (k : Key) : List String :=
  (made.filter fun e => e.1 = k).map Prod.snd

theorem madeAt_append (made more : List (Key × String)) (k : Key) :
    madeAt (made ++ more) k = madeAt made k ++ madeAt more k := by
  unfold madeAt
  rw [List.filter_append, List.map_append]

theorem madeAt_self (k : Key) (paths : List String) : madeAt (paths.map (k, ·)) k = paths := by
  unfold madeAt
  rw [List.filter_eq_self.mpr (by simp), List.map_map]
  exact List.map_id paths

theorem madeAt_of_ne {k l : Key} (h : l ≠ k) (paths : List String) :
    madeAt (paths.map (k, ·)) l = [] := by
  unfold madeAt
  rw [List.filter_eq_nil_iff.mpr (by simp [Ne.symm h])]
  rfl

theorem mem_madeAt {made : List (Key × String)} {k : Key} {path : String} :
    path ∈ madeAt made k ↔ (k, path) ∈ made := by
  unfold madeAt
  constructor
  · intro h
    obtain ⟨⟨l, p⟩, he, rfl⟩ := List.mem_map.mp h
    obtain ⟨hmem, hkey⟩ := List.mem_filter.mp he
    obtain rfl : l = k := of_decide_eq_true hkey
    exact hmem
  · exact fun h => List.mem_map_of_mem (List.mem_filter.mpr ⟨h, decide_eq_true rfl⟩)

theorem rowsAt_append (columns : List PartitionColumn) (rows more : List Row) (k : Key) :
    rowsAt columns (rows ++ more) k = rowsAt columns rows k ++ rowsAt columns more k :=
  List.filter_append ..

theorem nodup_keys_cons_remove {k : Key} {f : OpenFile} {files : List (Key × OpenFile)}
    (h : (files.map Prod.fst).Nodup) : (((k, f) :: remove k files).map Prod.fst).Nodup :=
  List.nodup_cons.mpr ⟨fun hmem => (mem_keys_remove.mp hmem).2 rfl, nodup_remove k h⟩

theorem find?_cons_remove_of_ne {k : Key} {f : OpenFile} {files : List (Key × OpenFile)} (l : Key)
    (h : l ≠ k) : find? l ((k, f) :: remove k files) = find? l files := by
  rw [find?_cons, if_neg (Ne.symm h), find?_remove_of_ne h]

/-! ## Datasets -/

/-- A step changes the open file and the tally of one partition and no others. -/
structure Touches (k : Key) (w w' : Writer) : Prop where
  same : w.Continues w'
  openKeys : (w.openFiles.map Prod.fst).Nodup → (w'.openFiles.map Prod.fst).Nodup
  tallyKeys : (w.tallies.map Prod.fst).Nodup → (w'.tallies.map Prod.fst).Nodup
  openFiles : ∀ l, l ≠ k → find? l w'.openFiles = find? l w.openFiles
  tallies : ∀ l, l ≠ k → find? l w'.tallies = find? l w.tallies

variable [Columnar.Platform]

/-- The courses of all partitions tell the files, the tallies and the rows. -/
structure Records (start w : Writer) (rows : List Row) (made : List (Key × String))
    (course : Key → Course) : Prop where
  same : start.Continues w
  openKeys : (w.openFiles.map Prod.fst).Nodup
  tallyKeys : (w.tallies.map Prod.fst).Nodup
  tracks : ∀ k, Tracks start w k (course k)
  /-- The parts of a partition hold its rows, in their order. -/
  split : ∀ k, (course k).rows = rowsAt start.columns rows k
  count : w.rows = rows.length
  files : ∀ k, madeAt made k = (course k).made start.root k
  /-- Files that were not made are as they were. -/
  others : ∀ place, place ∉ made.map (fun e => placeOf e.2) → ∀ content,
    w.tree.node? place = some (.file content) ↔ start.tree.node? place = some (.file content)

section Steps

variable {start w w' : Writer} {rows : List Row} {made : List (Key × String)}
  {course : Key → Course} {k : Key}

/-- Making room opens no file. -/
theorem find?_evict_eq_none (h : find? k w.openFiles = none) :
    find? k w.evict.1.openFiles = none := by
  unfold Writer.evict
  split
  · exact h
  · split
    · unfold Writer.finishFile
      split
      all_goals
        rw [find?_eq_none] at h ⊢
        exact fun hmem => h ((List.dropLast_sublist _).map Prod.fst |>.subset hmem)
    · exact h

/-- Making a file fails before or after the part has its number. -/
theorem openPart_eq_error (hdata : w.dataColumns ≠ []) {e : Failure}
    (h : w.openPart k = (w', .error e)) : ∃ tree, FileTree.Grown w.tree tree ∧
      (w' = { w with tree := tree } ∨ w' = { w with
        tree := tree
        tallies := update k Tally.zero
          (fun t => { t with files := t.files + 1, nextPart := t.nextPart + 1 }) w.tallies }) := by
  have hgrown := grown_makeDirectories w.tree (Path.join w.root k.directory)
  unfold Writer.openPart at h
  dsimp only at h
  split at h
  · next tree fault hdirectories =>
    rw [hdirectories] at hgrown
    exact ⟨tree, hgrown, .inl (Prod.mk.inj h).1.symm⟩
  · next tree hdirectories =>
    rw [hdirectories] at hgrown
    split at h
    · exact ⟨tree, hgrown, .inr (Prod.mk.inj h).1.symm⟩
    · split at h
      · next hnew =>
        -- a dataset has columns, so that its files can be begun
        rw [Columnar.Writer.into, if_neg (fun hempty => hdata (List.isEmpty_iff.mp hempty))] at hnew
        cases hnew
      · cases h

theorem append_eq_error {row : Row} {e : Failure} (h : w.append k row = (w', .error e)) :
    w' = w ∨ ∃ f writer e, find? k w.openFiles = some f ∧
      f.writer.write row = (writer, .error e) ∧
      w' = { w with openFiles := (k, { f with writer }) :: remove k w.openFiles } := by
  unfold Writer.append at h
  split at h
  · exact .inl (Prod.mk.inj h).1.symm
  · next f hfind =>
    dsimp only at h
    split at h
    · next hwrite => exact .inr ⟨f, _, _, hfind, Prod.ext rfl hwrite, (Prod.mk.inj h).1.symm⟩
    · cases h

/-- After a flush, also one that fails, every open file is as it was or flushed. -/
theorem find?_flushFiles (files : List (Key × OpenFile)) :
    (Writer.flushFiles files).1.map Prod.fst = files.map Prod.fst ∧
      ∀ k f, find? k files = some f → ∃ writer,
        find? k (Writer.flushFiles files).1 = some { f with writer } ∧
        (writer = f.writer ∨ writer = f.writer.flush.1) := by
  induction files with
  | nil => exact ⟨rfl, nofun⟩
  | cons e more ih =>
    obtain ⟨key, g⟩ := e
    have hcons : ∀ {rest : List (Key × OpenFile)}, (∀ k f, find? k more = some f → ∃ writer,
        find? k rest = some { f with writer } ∧ (writer = f.writer ∨ writer = f.writer.flush.1)) →
        ∀ k f, find? k ((key, g) :: more) = some f → ∃ writer,
          find? k ((key, { g with writer := g.writer.flush.1 }) :: rest) = some { f with writer } ∧
          (writer = f.writer ∨ writer = f.writer.flush.1) := by
      intro rest hrest k f hf
      rw [find?_cons] at hf ⊢
      split at hf
      · next hkey =>
        obtain rfl := Option.some.inj hf
        exact ⟨_, if_pos hkey, .inr rfl⟩
      · next hkey =>
        rw [if_neg hkey]
        exact hrest k f hf
    rw [Writer.flushFiles]
    split
    · next hflush =>
      rw [hflush] at hcons
      exact ⟨rfl, hcons fun k f hf => ⟨f.writer, hf, .inl rfl⟩⟩
    · next hflush =>
      rw [hflush] at hcons
      exact ⟨congrArg (key :: ·) ih.1, hcons ih.2⟩

namespace Records

variable (hnames : ∀ c ∈ start.columns, '/' ∉ c.name.toList)

include hnames in
/-- The frame of all steps: what is known of one partition afterwards, and that the step changed no
files but those of its parts, gives the records of all. -/
theorem change (h : Records start w rows made course) (hk : IsKey start.columns k)
    (htouches : Touches k w w') {c : Course} (htracks : Tracks start w' k c)
    (htree : w.tree.SameBut ((c.made start.root k).map placeOf) w'.tree) (more : List Row)
    (hmore : ∀ row ∈ more, Key.ofRow start.columns row = k)
    (hrows : c.rows = (course k).rows ++ more) (hcount : w'.rows = w.rows + more.length)
    (paths : List String)
    (hmade : c.made start.root k = (course k).made start.root k ++ paths) :
    Records start w' (rows ++ more) (made ++ paths.map (k, ·)) (Function.update course k c) := by
  refine ⟨?_, htouches.openKeys h.openKeys, htouches.tallyKeys h.tallyKeys, fun l => ?_,
    fun l => ?_, ?_, fun l => ?_, fun place hplace content => ?_⟩
  · exact ⟨htouches.same.root.trans h.same.root, htouches.same.columns.trans h.same.columns,
      htouches.same.dataColumns.trans h.same.dataColumns,
      htouches.same.options.trans h.same.options⟩
  · by_cases hl : l = k
    · subst hl
      rw [Function.update_self]
      exact htracks
    · rw [Function.update_of_ne hl]
      refine (h.tracks l).frame htree (fun i hstarted hmem => ?_) (htouches.openFiles l hl)
        (htouches.tallies l hl)
      obtain ⟨path, hpath, hplace⟩ := List.mem_map.mp hmem
      obtain ⟨n, rfl⟩ := htracks.exists_of_mem_made hpath
      exact hl (placeOf_partPath_inj hnames hk ((h.tracks l).key hstarted) hplace).1.symm
  · rw [rowsAt_append]
    by_cases hl : l = k
    · subst hl
      rw [Function.update_self, hrows, h.split]
      refine congrArg _ (List.filter_eq_self.mpr fun row hrow => ?_).symm
      exact decide_eq_true (hmore row hrow)
    · have hnone : rowsAt start.columns more l = [] :=
        List.filter_eq_nil_iff.mpr fun row hrow => by
          rw [hmore row hrow, decide_eq_true_iff]
          exact Ne.symm hl
      rw [Function.update_of_ne hl, h.split, hnone, List.append_nil]
  · rw [hcount, h.count, List.length_append]
  · rw [madeAt_append]
    by_cases hl : l = k
    · subst hl
      rw [Function.update_self, hmade, h.files, madeAt_self]
    · rw [Function.update_of_ne hl, h.files, madeAt_of_ne hl, List.append_nil]
  · rw [List.map_append, List.mem_append, not_or] at hplace
    refine (htree.file_iff place (fun hmem => ?_) content).trans (h.others place hplace.1 content)
    obtain ⟨path, hpath, rfl⟩ := List.mem_map.mp hmem
    rw [hmade, ← h.files] at hpath
    rcases List.mem_append.mp hpath with hold | hnew
    · exact hplace.1 (List.mem_map.mpr ⟨(k, path), mem_madeAt.mp hold, rfl⟩)
    · exact hplace.2 (List.mem_map.mpr ⟨(k, path), List.mem_map_of_mem hnew, rfl⟩)

/-! ## Steps -/

/-- More directories change nothing that is recorded. -/
theorem grown (h : Records start w rows made course) {tree : FileTree}
    (hgrown : FileTree.Grown w.tree tree) :
    Records start { w with tree := tree } rows made course where
  same := ⟨h.same.root, h.same.columns, h.same.dataColumns, h.same.options⟩
  openKeys := h.openKeys
  tallyKeys := h.tallyKeys
  tracks := fun k => (h.tracks k).frame (hgrown.sameBut []) (fun _ _ => List.not_mem_nil) rfl rfl
  split := h.split
  count := h.count
  files := h.files
  others := fun place hplace content =>
    (hgrown.file_iff place content).trans (h.others place hplace content)

section

include hnames

/-- A step that writes no row and makes no file. -/
theorem settle (h : Records start w rows made course) (hk : IsKey start.columns k)
    (htouches : Touches k w w') {c : Course} (htracks : Tracks start w' k c)
    (htree : w.tree.SameBut ((c.made start.root k).map placeOf) w'.tree)
    (hrows : c.rows = (course k).rows) (hcount : w'.rows = w.rows)
    (hmade : c.made start.root k = (course k).made start.root k) :
    ∃ course', Records start w' rows made course' := by
  have hchange := h.change hnames hk htouches htracks htree [] (List.forall_mem_nil _)
    (hrows.trans (List.append_nil _).symm) hcount [] (hmade.trans (List.append_nil _).symm)
  rw [List.append_nil, List.map_nil, List.append_nil] at hchange
  exact ⟨_, hchange⟩

/-- A file that is given up is finished or lost, as its writer has it. -/
theorem finishFile (h : Records start w rows made course) {f : OpenFile}
    (hf : find? k w.openFiles = some f) (evicted : Nat) :
    ∃ course', Records start
      ({ w with openFiles := remove k w.openFiles, evicted := evicted }.finishFile f).1 rows made
      course' := by
  have htracks := h.tracks k
  obtain ⟨taken, hopen, hpath, hfile, hcarries⟩ := htracks.exists_rows hf
  have hstarted := Course.started_of_open?_eq_some hopen
  have hk : IsKey start.columns k := htracks.key (by omega)
  have htally : find? k w.tallies = some ⟨(course k).rows.length, (course k).ended.length + 1,
      (course k).ended.length + 1⟩ := by
    rw [htracks.tally, Course.tally?_eq_some (by omega), hstarted]
  have hmade : f.path ∈ (course k).made start.root k := by
    unfold Course.made
    rw [hopen, hpath]
    exact List.mem_append_right _ List.mem_cons_self
  have htouches : ∀ tree, Touches k w
      { w with openFiles := remove k w.openFiles, evicted := evicted, tree := tree } := fun tree =>
    ⟨⟨rfl, rfl, rfl, rfl⟩, nodup_remove k, id, fun l hl => find?_remove_of_ne hl _, fun _ _ => rfl⟩
  -- the part stops either way, and only a file that is finished changes in the tree
  unfold Writer.finishFile
  split
  · refine h.settle hnames hk (htouches w.tree) (c := (course k).stop f.path .lost) ?_
      ((FileTree.Grown.refl _).sameBut _) (Course.rows_stop ..) rfl
      (hpath ▸ Course.made_stop hopen nofun)
    exact .stop hpath htracks.ended hfile (find?_remove_self k _) htally hk
  · next file hfinish =>
    have hsame := sameBut_put hfile.hasDirectory (.file (.columnar file))
    have hstop : ((course k).stop f.path .finished).made start.root k =
        (course k).made start.root k := hpath ▸ Course.made_stop hopen nofun
    refine h.settle hnames hk (htouches _) (c := (course k).stop f.path .finished) ?_
      (hsame.mono ?_) (Course.rows_stop ..) rfl hstop
    · refine .stop hpath ?_ ⟨file, hfile.put _, ?_⟩ (find?_remove_self k _) htally hk
      · rw [hpath] at hsame
        rw [hpath]
        exact htracks.ended_sameBut hnames hk hsame
      · rw [hopen]
        exact hcarries.finish hfinish
    · intro place hplace
      obtain rfl := List.mem_singleton.mp hplace
      exact List.mem_map_of_mem (hstop ▸ hmade)

theorem rotate (h : Records start w rows made course) (k : Key) :
    ∃ course', Records start (w.rotate k).1 rows made course' := by
  unfold Writer.rotate
  split
  · next f hf =>
    split
    · exact h.finishFile hnames hf w.evicted
    · exact ⟨course, h⟩
  · exact ⟨course, h⟩

theorem evict (h : Records start w rows made course) :
    ∃ course', Records start w.evict.1 rows made course' := by
  unfold Writer.evict
  split
  · exact ⟨course, h⟩
  · split
    · next l f hlast =>
      have hf : find? l w.openFiles = some f :=
        find?_of_mem h.openKeys (List.mem_of_getLast? hlast)
      rw [← remove_getLast h.openKeys hlast]
      exact h.finishFile hnames hf (w.evicted + 1)
    · exact ⟨course, h⟩

/-- A part whose file cannot be made is counted if it was given its number. -/
theorem openPart_error (h : Records start w rows made course) (hdata : start.dataColumns ≠ [])
    (hk : IsKey start.columns k) (hnone : find? k w.openFiles = none) {e : Failure}
    (hpart : w.openPart k = (w', .error e)) : ∃ course', Records start w' rows made course' := by
  obtain ⟨tree, hgrown, rfl | rfl⟩ := openPart_eq_error (h.same.dataColumns ▸ hdata) hpart
  · exact ⟨course, h.grown hgrown⟩
  · have htracks := (h.grown hgrown).tracks k
    have hopen := htracks.open?_eq_none hnone
    have hstarted := Course.started_of_open?_eq_none hopen
    refine h.settle hnames hk
      (c := (course k).stop (partPath start.root k (course k).ended.length) .missing)
      ⟨⟨rfl, rfl, rfl, rfl⟩, id, nodup_update _ _ _, fun _ _ => rfl, fun l hl => ?_⟩ ?_
      (hgrown.sameBut _) (Course.rows_stop ..) rfl (Course.made_stop_missing hopen _)
    · rw [find?_update, if_neg hl]
    · refine .stop rfl htracks.ended (by rw [hopen]; rfl) hnone ?_ hk
      rw [find?_update, if_pos rfl, (h.tracks k).tally, Course.getD_tally?, hstarted]

/-- A new file is the next part of its partition. -/
theorem openPart (h : Records start w rows made course) (hne : start.columns ≠ [])
    (hk : IsKey start.columns k) (hnone : find? k w.openFiles = none) {f : OpenFile}
    (hpart : w.openPart k = (w', .ok f)) :
    ∃ course', Records start { w' with openFiles := (k, f) :: w'.openFiles } rows
      (made ++ [(k, f.path)]) course' := by
  have htracks := h.tracks k
  have hopen := htracks.open?_eq_none hnone
  have hstarted := Course.started_of_open?_eq_none hopen
  obtain ⟨tree, created, hdirectories, hpath, hcreated, hnew, hafter⟩ := openPart_eq_ok hpart
  have hnumber : f.path = partPath start.root k (course k).ended.length := by
    obtain ⟨row, rfl⟩ := hk
    rw [hpath, htracks.tally, Course.getD_tally?, h.same.root, hstarted,
      partPath_eq_join hnames hne]
  have hsame : w.tree.SameBut [placeOf f.path] created := by
    obtain ⟨hroom, rfl⟩ := createFile_eq_ok hcreated
    have hgrown := grown_makeDirectories w.tree (Path.join w.root k.directory)
    rw [hdirectories] at hgrown
    exact (hgrown.sameBut _).trans (sameBut_put hroom.free _)
  have hmade : (course k).begun.made start.root k = (course k).made start.root k ++ [f.path] := by
    rw [Course.made_begun hopen, hnumber]
  have htouches : Touches k w { w' with openFiles := (k, f) :: w'.openFiles } := by
    subst hafter
    refine ⟨⟨rfl, rfl, rfl, rfl⟩,
      fun hnodup => List.nodup_cons.mpr ⟨find?_eq_none.mp hnone, hnodup⟩, nodup_update _ _ _,
      fun l hl => ?_, fun l hl => ?_⟩
    · rw [find?_cons, if_neg (Ne.symm hl)]
    · rw [find?_update, if_neg hl]
  have hnext : Tracks start { w' with openFiles := (k, f) :: w'.openFiles } k
      (course k).begun := by
    subst hafter
    rw [h.same.dataColumns, h.same.options] at hnew
    refine ⟨⟨f, ?_, hnumber, hasFile_of_createFile hcreated, .inl (.new hnew)⟩,
      htracks.ended_sameBut hnames hk (hnumber ▸ hsame), ?_, fun _ => hk⟩
    · rw [find?_cons, if_pos rfl]
    · rw [find?_update, if_pos rfl, htracks.tally, Course.getD_tally?, hstarted,
        Course.tally?_eq_some (c := (course k).begun) (Nat.succ_ne_zero _),
        Course.rows_begun hopen]
      rfl
  have htree : w.tree.SameBut (((course k).made start.root k ++ [f.path]).map placeOf) w'.tree := by
    subst hafter
    refine hsame.mono fun place hplace => ?_
    obtain rfl := List.mem_singleton.mp hplace
    exact List.mem_map_of_mem (List.mem_append_right _ List.mem_cons_self)
  have hcount : w'.rows = w.rows := by rw [hafter]
  have hchange := h.change hnames hk htouches hnext (hmade ▸ htree) [] (List.forall_mem_nil _)
    ((Course.rows_begun hopen).trans (List.append_nil _).symm) hcount [f.path] hmade
  rw [List.append_nil] at hchange
  exact ⟨_, hchange⟩

/-- A partition without an open file may get one, and the file that is made for it is recorded. -/
theorem ensureOpen (h : Records start w rows made course) (hdata : start.dataColumns ≠ [])
    (hne : start.columns ≠ []) (hk : IsKey start.columns k) :
    ∃ course', Records start (w.ensureOpen k).1 rows
      (made ++ (w.partMade? k).toList.map (k, ·)) course' := by
  unfold Writer.ensureOpen Writer.partMade?
  match hfind : find? k w.openFiles with
  | some f =>
    simp only [Option.toList_none, List.map_nil, List.append_nil]
    exact ⟨course, h⟩
  | none =>
    obtain ⟨course₁, hevicted⟩ := h.evict hnames
    have hclosed := find?_evict_eq_none hfind
    match hevict : w.evict with
    | (w₁, .error e) =>
      rw [hevict] at hevicted
      simp only [Option.toList_none, List.map_nil, List.append_nil]
      exact ⟨course₁, hevicted⟩
    | (w₁, .ok ()) =>
      rw [hevict] at hevicted hclosed
      match hpart : w₁.openPart k with
      | (w₂, .error e) =>
        simp only [hpart, Option.toList_none, List.map_nil, List.append_nil]
        exact hevicted.openPart_error hnames hdata hk hclosed hpart
      | (w₂, .ok f) =>
        simp only [hpart]
        exact hevicted.openPart hnames hne hk hclosed hpart

/-- A row that the open file takes is one more row of its part. -/
theorem append (h : Records start w rows made course) {row : Row}
    (hkey : Key.ofRow start.columns row = k) (happend : w.append k row = (w', .ok ())) :
    ∃ course', Records start w' (rows ++ [row]) made course' := by
  obtain ⟨f, writer, hf, hwrite, hafter⟩ := append_eq_ok happend
  have htracks := h.tracks k
  obtain ⟨taken, hopen, hpath, hfile, hcarries⟩ := htracks.exists_rows hf
  have htouches : Touches k w w' := by
    subst hafter
    refine ⟨⟨rfl, rfl, rfl, rfl⟩, nodup_keys_cons_remove, nodup_update _ _ _,
      find?_cons_remove_of_ne, fun l hl => ?_⟩
    rw [find?_update, if_neg hl]
  have hnext : Tracks start w' k ((course k).take row) := by
    subst hafter
    refine ⟨⟨{ f with writer }, ?_, hpath, hfile, ?_⟩, htracks.ended, ?_, fun _ => ⟨row, hkey⟩⟩
    · rw [find?_cons, if_pos rfl]
    · rw [hopen]
      exact hcarries.write hwrite
    · rw [find?_update, if_pos rfl, htracks.tally, Course.getD_tally?,
        Course.tally?_eq_some (c := (course k).take row) (Nat.succ_ne_zero _),
        Course.rows_take hopen, List.length_append, Course.started_of_open?_eq_some hopen]
      rfl
  have htree : FileTree.Grown w.tree w'.tree := by
    rw [hafter]
    exact .refl _
  have hcount : w'.rows = w.rows + 1 := by rw [hafter]
  have hchange := h.change hnames ⟨row, hkey⟩ htouches hnext (htree.sameBut _) [row]
    (fun r hr => List.mem_singleton.mp hr ▸ hkey) (Course.rows_take hopen row) hcount []
    ((Course.made_take hopen row).trans (List.append_nil _).symm)
  rw [List.map_nil, List.append_nil] at hchange
  exact ⟨_, hchange⟩

/-- A row that the open file cannot store leaves it stuck. -/
theorem append_error (h : Records start w rows made course) (hk : IsKey start.columns k) {row : Row}
    {e : Failure} (happend : w.append k row = (w', .error e)) :
    ∃ course', Records start w' rows made course' := by
  obtain rfl | ⟨f, writer, e, hf, hwrite, rfl⟩ := append_eq_error happend
  · exact ⟨course, h⟩
  · have htracks := h.tracks k
    obtain ⟨taken, hopen, hpath, hfile, -⟩ := htracks.exists_rows hf
    refine h.settle hnames hk (c := course k)
      ⟨⟨rfl, rfl, rfl, rfl⟩, nodup_keys_cons_remove, id, find?_cons_remove_of_ne, fun _ _ => rfl⟩
      ⟨?_, htracks.ended, htracks.tally, htracks.key⟩ ((FileTree.Grown.refl _).sameBut _) rfl rfl
      rfl
    rw [hopen]
    refine ⟨{ f with writer }, ?_, hpath, hfile, .inr (Columnar.Writer.isStuck_of_write hwrite)⟩
    rw [find?_cons, if_pos rfl]

/-- Every row, written or not, is recorded with the file that is made for it. -/
theorem write (h : Records start w rows made course) (hdata : start.dataColumns ≠ [])
    (hne : start.columns ≠ []) (row : Row) :
    ∃ course', Records start (w.write row).1 (rows ++ w.taken row)
      (made ++ (w.makes? row).toList.map (Key.ofRow w.columns row, ·)) course' := by
  have hcolumns := h.same.columns
  have hk : IsKey start.columns (Key.ofRow w.columns row) := ⟨row, by rw [hcolumns]⟩
  obtain ⟨course₁, hrotated⟩ := h.rotate hnames (Key.ofRow w.columns row)
  unfold Writer.taken Writer.write Writer.makes?
  match hrotate : w.rotate (Key.ofRow w.columns row) with
  | (w₁, .error e) =>
    rw [hrotate] at hrotated
    simp only [hrotate, Option.toList_none, List.map_nil, List.append_nil]
    exact ⟨course₁, hrotated⟩
  | (w₁, .ok ()) =>
    rw [hrotate] at hrotated
    obtain ⟨course₂, hopened⟩ := hrotated.ensureOpen hnames hdata hne hk
    match hopen : w₁.ensureOpen (Key.ofRow w.columns row) with
    | (w₂, .error e) =>
      rw [hopen] at hopened
      simp only [hrotate, hopen, List.append_nil]
      exact ⟨course₂, hopened⟩
    | (w₂, .ok ()) =>
      rw [hopen] at hopened
      match happend : w₂.append (Key.ofRow w.columns row) row with
      | (w₃, .error e) =>
        simp only [hrotate, hopen, happend, List.append_nil]
        exact hopened.append_error hnames hk happend
      | (w₃, .ok ()) =>
        simp only [hrotate, hopen, happend]
        exact hopened.append hnames (by rw [hcolumns]) happend

end

/-- Flushing changes no part, whether it succeeds or fails. -/
theorem flush (h : Records start w rows made course) :
    Records start w.flush.1 rows made course := by
  obtain ⟨hkeys, hfiles⟩ := find?_flushFiles w.openFiles
  refine ⟨⟨h.same.root, h.same.columns, h.same.dataColumns, h.same.options⟩, ?_, h.tallyKeys,
    fun k => ⟨?_, (h.tracks k).ended, (h.tracks k).tally, (h.tracks k).key⟩, h.split, h.count,
    h.files, h.others⟩
  · exact hkeys ▸ h.openKeys
  · match hfind : find? k w.openFiles with
    | none =>
      rw [(h.tracks k).open?_eq_none hfind]
      exact find?_eq_none.mpr (hkeys ▸ find?_eq_none.mp hfind)
    | some f =>
      obtain ⟨taken, hopen, hpath, hfile, hcarries⟩ := (h.tracks k).exists_rows hfind
      obtain ⟨writer, hflushed, hwriter⟩ := hfiles k f hfind
      rw [hopen]
      refine ⟨{ f with writer }, hflushed, hpath, hfile, ?_⟩
      rcases hwriter with rfl | rfl
      · exact hcarries
      · exact hcarries.flush

include hnames in
/-- Every run is recorded, whatever fails in it. -/
theorem attempt (h : Records start w rows made course) (hdata : start.dataColumns ≠ [])
    (hne : start.columns ≠ []) (calls : List Call) :
    ∃ course', Records start (w.attempt calls) (rows ++ w.accepted calls) (made ++ w.made calls)
      course' := by
  induction calls generalizing w rows made course with
  | nil =>
    rw [Writer.attempt, Writer.accepted, Writer.made, List.append_nil, List.append_nil]
    exact ⟨course, h⟩
  | cons c more ih =>
    cases c with
    | write row =>
      obtain ⟨course', hwrite⟩ := h.write hnames hdata hne row
      rw [Writer.attempt, Writer.accepted, Writer.made, ← List.append_assoc, ← List.append_assoc]
      exact ih hwrite
    | flush =>
      rw [Writer.attempt, Writer.accepted, Writer.made]
      exact ih h.flush

end Records

end Steps

end BulkTransfer.Partition
