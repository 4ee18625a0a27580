import BulkTransfer.Export
import BulkTransfer.Proofs.Columnar.Stuck
import BulkTransfer.Proofs.Partition.Attempts
import BulkTransfer.Proofs.Partition.OpenFiles
import BulkTransfer.Proofs.Partition.Written

/-!
The files of a writer that was closed. Whatever rows were written before, every file is as it was
or finished with the rows it took.

- `Columnar.Writer.Makes.exists_holds`: a finished columnar file can be read to its end.
- `Partition.Finishes`: in a dataset that is being written, every file is as it was, finished with
  all rows it took, or open.
- `Writer.Finishes`: a writer of any format after rows, all of which were written.
- `Writer.Finishes.close`: what it leaves.
-/

namespace BulkTransfer

open FileTree

/-- The content of a file that was finished after rows: text has all of them, and a columnar file
those that its writer was handed. -/
def FileFormat.Finished [Columnar.Platform] (format : FileFormat) (columns : List Column)
    (o : Options) (rows : List Row) (content : Content) : Prop :=
  match format with
  | .delimited =>
    content = .bytes (rows.foldl Delimited.Writer.write (.new columns o)).output
  | .json => content = .bytes (rows.foldl JsonLines.Writer.write (.new columns)).output
  | .columnar => ∃ taken file, taken.Sublist rows ∧
      Columnar.Writer.Makes columns o taken file ∧ content = .columnar file

theorem FileTree.file_of_fill {t : FileTree} {path : String} {content other : Content}
    {place : Place} (h : (t.fill path content).node? place = some (.file other)) :
    other = content ∨ placeOf path ≠ place ∧ t.node? place = some (.file other) := by
  by_cases hplace : place = placeOf path
  · subst hplace
    by_cases hroot : placeOf path = [] ∨ placeOf path = ["/"]
    · rw [node?, if_pos hroot] at h
      cases h
    · obtain ⟨hne, hslash⟩ := not_or.mp hroot
      have hself := node?_put_self hne hslash t (.file content)
      rw [fill, hself] at h
      exact .inl (Node.file.inj (Option.some.inj h)).symm
  · rw [fill, node?_put_of_ne hplace] at h
    exact .inr ⟨Ne.symm hplace, h⟩

/-! ## Columnar files -/

namespace Columnar

theorem exists_mapM {one : Cell → Except String Value} (h : ∀ c, ∃ v, one c = .ok v)
    (cells : List Cell) : ∃ values, cells.mapM one = .ok values := by
  induction cells with
  | nil => exact ⟨[], rfl⟩
  | cons c more ih =>
    obtain ⟨v, hv⟩ := h c
    obtain ⟨values, hvalues⟩ := ih
    refine ⟨v :: values, ?_⟩
    rw [List.mapM_cons, hv, hvalues]
    rfl

theorem exists_restore_scalar {type : ColumnType} (h : type.isComposite = false)
    (type? : Option ColumnType) (c : Cell) : ∃ v, restore (physicalOf type) type? c = .ok v := by
  refine ⟨restoreScalar (physicalOf type) type? c, ?_⟩
  cases type <;> first | (cases c <;> rfl) | cases h

theorem exists_restore_list {e : ColumnType} (h : e.isComposite = false)
    (type? : Option ColumnType) (c : Cell) :
    ∃ v, restore (.list (physicalOf e)) type? c = .ok v := by
  cases c with
  | list cells =>
    obtain ⟨items, hitems⟩ :=
      exists_mapM (exists_restore_scalar h (type?.bind ColumnType.element?)) cells
    refine ⟨if isSet type? then .set items else .list items, ?_⟩
    rw [restore, restoreAll_physicalOf, hitems]
    rfl
  | _ => exact ⟨_, rfl⟩

theorem exists_restore_map {k e : ColumnType} (hk : k.isComposite = false)
    (he : e.isComposite = false) (type? : Option ColumnType) (c : Cell) :
    ∃ v, restore (.map (physicalOf k) (physicalOf e)) type? c = .ok v := by
  cases c with
  | map entries =>
    obtain ⟨keys, hkeys⟩ :=
      exists_mapM (exists_restore_scalar hk (entryTypes type?).1) (entries.map Prod.fst)
    obtain ⟨values, hvalues⟩ :=
      exists_mapM (exists_restore_scalar he (entryTypes type?).2) (entries.map Prod.snd)
    refine ⟨.map (keys.zip values), ?_⟩
    rw [restore, restoreAll_physicalOf, restoreAll_physicalOf, hkeys, hvalues]
    rfl
  | _ => exact ⟨_, rfl⟩

/-- Cells of any shape are restored under the layout of a declared type. -/
theorem exists_restore (type : ColumnType) (type? : Option ColumnType) (c : Cell) :
    ∃ v, restore (physicalOf type) type? c = .ok v := by
  have htext : ∃ v, restore .utf8 type? c = .ok v :=
    @exists_restore_scalar .text rfl type? c
  have hitems : ∀ e : ColumnType, ∃ v,
      restore (if e.isComposite then .utf8 else .list (physicalOf e)) type? c = .ok v := by
    intro e
    split
    · exact htext
    · next h => exact exists_restore_list (Bool.not_eq_true _ ▸ h) type? c
  cases type with
  | list e => exact hitems e
  | set e => exact hitems e
  | vector e _ => exact hitems e
  | map k e =>
    show ∃ v, restore (if k.isComposite || e.isComposite then .utf8
      else .map (physicalOf k) (physicalOf e)) type? c = .ok v
    split
    · exact htext
    · next h =>
      obtain ⟨hk, he⟩ := Bool.or_eq_false_iff.mp (Bool.not_eq_true _ ▸ h)
      exact exists_restore_map hk he type? c
  | tuple _ => exact htext
  | userDefined _ => exact htext
  | _ => exact exists_restore_scalar rfl type? c

theorem exists_restoreColumns {fields : List Field}
    (h : ∀ f ∈ fields, ∃ type, f.physical = physicalOf type) (rows : List (List Cell))
    (index : Nat) : ∃ columns, restoreColumns rows index fields = .ok columns := by
  induction fields generalizing index with
  | nil => exact ⟨[], rfl⟩
  | cons f more ih =>
    obtain ⟨⟨type, htype⟩, hmore⟩ := List.forall_mem_cons.mp h
    obtain ⟨columns, hcolumns⟩ := ih hmore (index + 1)
    obtain ⟨values, hvalues⟩ := exists_mapM (exists_restore type f.column.type?)
      (rows.map fun r => r.getD index .null)
    have hone : restoreColumn f (rows.map fun r => r.getD index .null) = .ok values := by
      rw [restoreColumn_eq_ok_iff, htype]
      exact ⟨isReadable_physicalOf type, hvalues⟩
    refine ⟨values :: columns, ?_⟩
    rw [restoreColumns, hone, hcolumns]
    rfl

/-- A file that was finished can be read to its end, in chunks of any size. -/
theorem Writer.Makes.exists_holds [Platform] {columns : List Column} {o : Options}
    {rows : List Row} {f : File} (h : Makes columns o rows f) :
    ∃ left, left.length = rows.length ∧ ∀ o', (Reader.ofFile f o').Holds left := by
  have hlength := h.length_rows
  obtain ⟨typed, htyped, -, -, -⟩ := h.exists_cells
  have hfields : ∀ field ∈ f.fields, ∃ type, field.physical = physicalOf type := by
    rw [htyped]
    intro field hfield
    obtain ⟨c, -, rfl⟩ := List.mem_map.mp hfield
    exact ⟨c.type, rfl⟩
  obtain ⟨values, hvalues⟩ := exists_restoreColumns hfields f.rows 0
  obtain ⟨pairs, hcells, hrows, hpairs⟩ :=
    exists_pairs (restoreRows_eq_ok_iff.mpr ⟨values, hvalues, rfl⟩)
  refine ⟨pairs.map Prod.snd, ?_, fun o' =>
    Reader.holds_ofFile_iff.mpr ⟨pairs, hcells, rfl, hpairs⟩⟩
  rw [← hlength, hcells, List.length_map, List.length_map]

end Columnar

theorem FileFormat.Finished.exists_holds [Columnar.Platform] {format : FileFormat}
    {columns : List Column} {o : Options} {rows : List Row} {file : Columnar.File}
    (h : format.Finished columns o rows (.columnar file)) :
    ∃ left, ∀ o', (Columnar.Reader.ofFile file o').Holds left := by
  cases format with
  | delimited => nomatch h
  | json => nomatch h
  | columnar =>
    obtain ⟨taken, f, -, hmakes, heq⟩ := h
    obtain rfl := Content.columnar.inj heq
    obtain ⟨left, -, hholds⟩ := hmakes.exists_holds
    exact ⟨left, hholds⟩

/-! ## Datasets -/

namespace Partition

section Finishes

variable [Columnar.Platform]

/-- The writer of an open file has taken some of the rows. -/
def OpenFile.Takes (columns : List Column) (o : Options) (rows : List Row) (f : OpenFile) : Prop :=
  ∃ taken, Columnar.Writer.Took columns o taken f.writer ∧ taken.Sublist rows

/-- A dataset after rows, all of which were written: every file that is not as it was before is
finished or open. -/
structure Finishes (before : FileTree) (columns : List Column) (o : Options) (rows : List Row)
    (w : Writer) : Prop where
  dataColumns : w.dataColumns = columns
  options : w.options = o
  openKeys : (w.openFiles.map Prod.fst).Nodup
  takes : ∀ e ∈ w.openFiles, e.2.Takes columns o rows
  files : ∀ place content, w.tree.node? place = some (.file content) →
    before.node? place = some (.file content) ∨
      FileFormat.Finished .columnar columns o rows content ∨
      ∃ e ∈ w.openFiles, placeOf e.2.path = place

variable {before : FileTree} {columns : List Column} {o : Options} {rows : List Row}
  {w w' : Writer} {k : Key}

theorem OpenFile.Takes.finish {f : OpenFile} (h : f.Takes columns o rows) {file : Columnar.File}
    (hfinish : f.writer.finish = .ok file) :
    FileFormat.Finished .columnar columns o rows (.columnar file) := by
  obtain ⟨taken, htook, hsublist⟩ := h
  exact ⟨taken, file, hsublist, ⟨f.writer, htook, hfinish⟩, rfl⟩

theorem Finishes.finishFile (h : Finishes before columns o rows w) {f : OpenFile}
    (hf : (k, f) ∈ w.openFiles) {evicted : Nat}
    (hfinish : { w with openFiles := remove k w.openFiles, evicted := evicted }.finishFile f =
      (w', .ok ())) : Finishes before columns o rows w' := by
  obtain ⟨file, hfile, rfl⟩ := finishFile_eq_ok hfinish
  refine ⟨h.dataColumns, h.options, nodup_remove k h.openKeys,
    fun e he => h.takes e (mem_remove.mp he).1, fun place content hnode => ?_⟩
  rcases file_of_fill hnode with rfl | ⟨hne, hold⟩
  · exact .inr (.inl ((h.takes (k, f) hf).finish hfile))
  · rcases h.files place content hold with hsame | hdone | ⟨⟨l, g⟩, he, hplace⟩
    · exact .inl hsame
    · exact .inr (.inl hdone)
    · have hkey : l ≠ k := by
        rintro rfl
        have hfg : some f = some g := (find?_of_mem h.openKeys hf).symm.trans
          (find?_of_mem h.openKeys he)
        obtain rfl := Option.some.inj hfg
        exact hne hplace
      exact .inr (.inr ⟨(l, g), mem_remove.mpr ⟨he, hkey⟩, hplace⟩)

theorem Finishes.rotate (h : Finishes before columns o rows w)
    (hrotate : w.rotate k = (w', .ok ())) : Finishes before columns o rows w' := by
  unfold Writer.rotate at hrotate
  split at hrotate
  · next f hfind =>
    split at hrotate
    · exact h.finishFile (mem_of_find? hfind) hrotate
    · obtain ⟨rfl, -⟩ := Prod.mk.inj hrotate
      exact h
  · obtain ⟨rfl, -⟩ := Prod.mk.inj hrotate
    exact h

theorem Finishes.evict (h : Finishes before columns o rows w)
    (hevict : w.evict = (w', .ok ())) : Finishes before columns o rows w' := by
  unfold Writer.evict at hevict
  split at hevict
  · obtain ⟨rfl, -⟩ := Prod.mk.inj hevict
    exact h
  · split at hevict
    · next key f hlast =>
      rw [← remove_getLast h.openKeys hlast] at hevict
      exact h.finishFile (List.mem_of_getLast? hlast) hevict
    · obtain ⟨rfl, -⟩ := Prod.mk.inj hevict
      exact h

/-- A file that is made is open, and has taken nothing yet. -/
theorem Finishes.openPart (h : Finishes before columns o rows w)
    (hclosed : k ∉ w.openFiles.map Prod.fst) {f : OpenFile}
    (hopen : w.openPart k = (w', .ok f)) :
    Finishes before columns o rows { w' with openFiles := (k, f) :: w'.openFiles } := by
  obtain ⟨tree, made, hdirectories, -, hmade, hnew, rfl⟩ := openPart_eq_ok hopen
  have hgrown : FileTree.Grown w.tree tree := by
    have hall := grown_makeDirectories w.tree (Path.join w.root k.directory)
    rwa [hdirectories] at hall
  obtain ⟨-, rfl⟩ := createFile_eq_ok hmade
  rw [h.dataColumns, h.options] at hnew
  refine ⟨h.dataColumns, h.options, List.nodup_cons.mpr ⟨hclosed, h.openKeys⟩,
    List.forall_mem_cons.mpr ⟨⟨[], .new hnew, List.nil_sublist _⟩, h.takes⟩,
    fun place content hnode => ?_⟩
  by_cases hplace : placeOf f.path = place
  · exact .inr (.inr ⟨(k, f), List.mem_cons_self, hplace⟩)
  · rw [node?_put_of_ne (Ne.symm hplace), hgrown.file_iff] at hnode
    rcases h.files place content hnode with hsame | hdone | ⟨e, he, heq⟩
    · exact .inl hsame
    · exact .inr (.inl hdone)
    · exact .inr (.inr ⟨e, List.mem_cons_of_mem _ he, heq⟩)

theorem Finishes.ensureOpen (h : Finishes before columns o rows w)
    (hopen : w.ensureOpen k = (w', .ok ())) : Finishes before columns o rows w' := by
  rcases ensureOpen_eq_ok hopen with ⟨-, rfl⟩ | ⟨hfind, w₁, w₂, f, hevict, hpart, rfl⟩
  · exact h
  · have hclosed := find?_evict_eq_none hfind
    rw [hevict] at hclosed
    exact (h.evict hevict).openPart (find?_eq_none.mp hclosed) hpart

/-- The row goes to the open file of its partition. -/
theorem Finishes.append (h : Finishes before columns o rows w) {row : Row}
    (happend : w.append k row = (w', .ok ())) : Finishes before columns o (rows ++ [row]) w' := by
  obtain ⟨f, writer, hfind, hwrite, rfl⟩ := append_eq_ok happend
  have hmore : rows.Sublist (rows ++ [row]) := List.sublist_append_left rows [row]
  refine ⟨h.dataColumns, h.options, nodup_keys_cons_remove h.openKeys,
    List.forall_mem_cons.mpr ⟨?_, fun e he => ?_⟩, fun place content hnode => ?_⟩
  · obtain ⟨taken, htook, hsublist⟩ := h.takes (k, f) (mem_of_find? hfind)
    exact ⟨taken ++ [row], htook.write hwrite, hsublist.append_right [row]⟩
  · obtain ⟨taken, htook, hsublist⟩ := h.takes e (mem_remove.mp he).1
    exact ⟨taken, htook, hsublist.trans hmore⟩
  · rcases h.files place content hnode with hsame | ⟨taken, file, hsublist, hdone⟩ |
      ⟨⟨l, g⟩, he, hplace⟩
    · exact .inl hsame
    · exact .inr (.inl ⟨taken, file, hsublist.trans hmore, hdone⟩)
    · by_cases hkey : l = k
      · subst hkey
        obtain rfl := Option.some.inj (hfind.symm.trans (find?_of_mem h.openKeys he))
        exact .inr (.inr ⟨_, List.mem_cons_self, hplace⟩)
      · exact .inr (.inr ⟨(l, g), List.mem_cons_of_mem _ (mem_remove.mpr ⟨he, hkey⟩), hplace⟩)

theorem Finishes.write (h : Finishes before columns o rows w) {row : Row}
    (hwrite : w.write row = (w', .ok ())) : Finishes before columns o (rows ++ [row]) w' := by
  obtain ⟨w₁, w₂, hrotate, hopen, happend⟩ := write_eq_ok hwrite
  exact ((h.rotate hrotate).ensureOpen hopen).append happend

/-- A dataset that is closed has no open file. -/
theorem Finishes.finishAll {files : List (Key × OpenFile)}
    (h : Finishes before columns o rows { w with openFiles := files })
    (hfinish : w.finishAll none files = (w', none)) :
    Finishes before columns o rows { w' with openFiles := [] } := by
  refine finishAll_invariant (P := fun v left =>
    Finishes before columns o rows { v with openFiles := left }) ?_ h hfinish
  intro v k f more file hv hfile
  have hremoved : { v with openFiles := remove k ((k, f) :: more) }.finishFile f =
      ({ v with
          openFiles := remove k ((k, f) :: more)
          tree := v.tree.fill f.path (.columnar file) }, .ok ()) := by
    unfold Writer.finishFile
    rw [hfile]
  have hfinished := hv.finishFile (w := { v with openFiles := (k, f) :: more })
    List.mem_cons_self hremoved
  rwa [remove_head hv.openKeys] at hfinished

theorem Finishes.close (h : Finishes before columns o rows w) {tree : FileTree}
    {report : WriteReport} (hclose : w.close = (tree, .ok report)) {place : Place}
    {content : Content} (hnode : tree.node? place = some (.file content)) :
    before.node? place = some (.file content) ∨
      FileFormat.Finished .columnar columns o rows content := by
  obtain ⟨w', hfinish, rfl, -⟩ := close_eq_ok hclose
  have hperm := (List.reverse_perm w.openFiles).symm
  have hopen : Finishes before columns o rows { w with openFiles := w.openFiles.reverse } :=
    ⟨h.dataColumns, h.options, (hperm.map Prod.fst).nodup_iff.mp h.openKeys,
      fun e he => h.takes e (hperm.mem_iff.mpr he), fun place content hnode =>
        (h.files place content hnode).imp_right (Or.imp_right fun ⟨e, he, hplace⟩ =>
          ⟨e, hperm.mem_iff.mp he, hplace⟩)⟩
  have hclosed := Finishes.finishAll (w := { w with openFiles := [] }) hopen hfinish
  rcases hclosed.files place content hnode with hsame | hdone | ⟨e, he, -⟩
  · exact .inl hsame
  · exact .inr hdone
  · nomatch he

end Finishes

end Partition

/-! ## Writers -/

/-- A file that was made and filled is the only one that changed. -/
theorem FileTree.file_of_fill_made {before made : FileTree} {path : String}
    (hmade : before.createFile path = .ok made) {content other : Content} {place : Place}
    (h : (made.fill path content).node? place = some (.file other)) :
    before.node? place = some (.file other) ∨ other = content := by
  obtain ⟨-, rfl⟩ := createFile_eq_ok hmade
  rcases file_of_fill h with rfl | ⟨hne, hold⟩
  · exact .inr rfl
  · rw [node?_put_of_ne (Ne.symm hne)] at hold
    exact .inl hold

namespace Writer

theorem file_of_deliver {before tree : FileTree} {sink : Sink}
    (hmade : prepare before sink = .ok tree) {b : Bytes} {place : Place} {content : Content}
    (h : (deliver tree sink b).tree.node? place = some (.file content)) :
    before.node? place = some (.file content) ∨ content = .bytes b := by
  cases sink with
  | stream =>
    obtain rfl := Except.ok.inj hmade
    exact .inl h
  | path path => exact file_of_fill_made (createFile_of_createExportFile hmade) h

section Finishes

variable [Columnar.Platform]

/-- A writer after rows, all of which were written. -/
inductive Finishes (before : FileTree) (sink : Sink) (columns : List Column) (o : Options)
    (rows : List Row) : FileFormat → Writer → Prop where
  | delimited {tree : FileTree} {w : Delimited.Writer} (hmade : prepare before sink = .ok tree)
      (hw : rows.foldl Delimited.Writer.write (.new columns o) = w) :
      Finishes before sink columns o rows .delimited (.delimited tree sink w)
  | json {tree : FileTree} {w : JsonLines.Writer} (hmade : prepare before sink = .ok tree)
      (hw : rows.foldl JsonLines.Writer.write (.new columns) = w) :
      Finishes before sink columns o rows .json (.json tree sink w)
  | columnar {tree : FileTree} {path : String} {w : Columnar.Writer} (hsink : sink = .path path)
      (hmade : before.createFile path = .ok tree) (htook : Columnar.Writer.Took columns o rows w) :
      Finishes before sink columns o rows .columnar (.columnar tree path w)
  | partitioned {root : String} {w : Partition.Writer} (hsink : sink = .path root)
      (h : Partition.Finishes before columns o rows w) :
      Finishes before sink columns o rows .columnar (.partitioned w)

variable {before made : FileTree} {format : FileFormat} {sink : Sink} {columns : List Column}
  {o : Options} {rows : List Row} {w w' : Writer}

theorem finishes_create (h : create before format sink columns o = (made, .ok w)) :
    Finishes before sink columns o [] format w := by
  unfold create at h
  split at h
  · nomatch h
  · next path =>
    split at h
    · unfold createColumnar at h
      split at h
      · nomatch h
      · next tree hmade =>
        split at h
        · nomatch h
        · next start hnew =>
          cases h
          exact .columnar rfl (createFile_of_createExportFile hmade) (.new hnew)
    · split at h
      · next tree start hcreate =>
        cases h
        obtain ⟨hmade, partition, -, rfl⟩ := Partition.create_eq_ok hcreate
        have hgrown : FileTree.Grown before made := by
          have hall := grown_makeDirectories before path
          rwa [hmade] at hall
        refine .partitioned rfl ⟨rfl, rfl, List.nodup_nil, List.forall_mem_nil _,
          fun place content hnode => .inl ((hgrown.file_iff place content).mp hnode)⟩
      · nomatch h
  · split at h
    · nomatch h
    · next tree hmade =>
      cases h
      exact .delimited hmade rfl
  · split at h
    · nomatch h
    · next tree hmade =>
      cases h
      exact .json hmade rfl

theorem Finishes.write (h : Finishes before sink columns o rows format w) {row : Row}
    (hwrite : w.write row = (w', .ok ())) :
    Finishes before sink columns o (rows ++ [row]) format w' := by
  cases h with
  | delimited hmade hw =>
    obtain ⟨rfl, -⟩ := Prod.mk.inj hwrite
    exact .delimited hmade (by rw [List.foldl_append, hw]; rfl)
  | json hmade hw =>
    obtain ⟨rfl, -⟩ := Prod.mk.inj hwrite
    exact .json hmade (by rw [List.foldl_append, hw]; rfl)
  | columnar hsink hmade htook =>
    obtain ⟨rfl, hok⟩ := Prod.mk.inj hwrite
    exact .columnar hsink hmade (htook.write (Prod.ext rfl hok))
  | partitioned hsink h =>
    obtain ⟨rfl, hok⟩ := Prod.mk.inj hwrite
    exact .partitioned hsink (h.write (Prod.ext rfl hok))

theorem Finishes.writeAll {more : List Row} (h : Finishes before sink columns o rows format w)
    (hwrite : w.writeAll more = (w', .ok ())) :
    Finishes before sink columns o (rows ++ more) format w' := by
  induction more generalizing rows w with
  | nil =>
    obtain ⟨rfl, -⟩ := Prod.mk.inj hwrite
    rw [List.append_nil]
    exact h
  | cons row more ih =>
    rw [Writer.writeAll] at hwrite
    split at hwrite
    · next w₁ hone =>
      have hrest := ih (h.write hone) hwrite
      rwa [List.append_assoc] at hrest
    · nomatch hwrite

/-- A writer that was closed has left finished files, or finished text in its stream. -/
theorem Finishes.close (h : Finishes before sink columns o rows format w) {written : Written}
    {report : WriteReport} (hclose : w.close = (written, .ok report)) :
    (∀ place content, written.tree.node? place = some (.file content) →
      before.node? place = some (.file content) ∨ format.Finished columns o rows content) ∧
    (sink = .stream → format.Finished columns o rows (.bytes written.stream)) := by
  cases h with
  | delimited hmade hw =>
    obtain ⟨rfl, -⟩ := Prod.mk.inj hclose
    subst hw
    exact ⟨fun place content hnode => file_of_deliver hmade hnode, fun hsink => hsink ▸ rfl⟩
  | json hmade hw =>
    obtain ⟨rfl, -⟩ := Prod.mk.inj hclose
    subst hw
    exact ⟨fun place content hnode => file_of_deliver hmade hnode, fun hsink => hsink ▸ rfl⟩
  | columnar hsink hmade htook =>
    unfold Writer.close at hclose
    dsimp only at hclose
    split at hclose
    · nomatch hclose
    · next file hfinish =>
      obtain ⟨rfl, -⟩ := Prod.mk.inj hclose
      refine ⟨fun place content hnode => ?_, fun hstream => nomatch hsink.symm.trans hstream⟩
      exact (file_of_fill_made hmade hnode).imp_right fun heq =>
        ⟨rows, file, List.Sublist.refl rows, ⟨_, htook, hfinish⟩, heq⟩
  | @partitioned root w hsink h =>
    obtain ⟨rfl, hok⟩ := Prod.mk.inj hclose
    exact ⟨fun place content hnode => h.close (Prod.ext rfl hok) hnode,
      fun hstream => nomatch hsink.symm.trans hstream⟩

end Finishes

end Writer

end BulkTransfer
