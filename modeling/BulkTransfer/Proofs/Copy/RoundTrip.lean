import BulkTransfer.Columnar.Storage
import BulkTransfer.Copy
import BulkTransfer.Proofs.Copy.File
import BulkTransfer.Proofs.Import.Faultless
import BulkTransfer.Proofs.Session.Query

/-!
Whole tables through files. A table of canonical values is exported into a file, and importing this
file adds the same rows to a table with the same columns, whoever does the next step of the import.

- `Copy.qualify_qualifiedTable`: a table is found under its full name too.
- `Copy.run_exporting`: what the export of a table leaves.
- `Copy.run_importing`: what the import of a file leaves.
- `Copy.table_round_trip`: one after the other.
-/

namespace BulkTransfer

/-- A session has a table under a name that statements can hold. -/
structure Session.Has (s : Session) (name : String) (t : Table) : Prop where
  stored : s.tables.get? (s.qualify name) = some t
  name_ne : name.toList ≠ []
  name_chars : ∀ c ∈ name.toList, Command.isTableChar c = true
  keyspace_chars : ∀ keyspace ∈ s.keyspace?, ∀ c ∈ keyspace.toList, Command.isTableChar c = true

/-- A table whose rows statements carry: it has columns, and its values are canonical. -/
structure Table.IsPortable (t : Table) : Prop where
  columns : Columns.ArePortable t.columns
  columns_ne : t.columns ≠ []
  rows : ∀ row ∈ t.rows, row.Fits t.columns

/-- The rows of a table with all of its columns and no others. -/
def Table.fullRows (t : Table) : List Row :=
  t.rows.map fun row => row.project (t.columns.map Column.name)

/-- Options of an export that ask for all rows in one file. -/
structure Options.ExportsAll (o : Options) : Prop where
  limit : o.limit? = none
  maxRows : o.maxRows? = none
  single : o.partitionColumns = []

/-- Options of an import that ask for all rows. -/
structure Options.ImportsAll (o : Options) : Prop where
  maxRows : o.maxRows? = none
  skipRows : o.skipRows = 0

namespace Copy

/-! ## Names of tables -/

/-- The full name of a table has the keyspace of the session where it has none of its own. -/
theorem qualifiedTable_eq (s : Session) (t : Transfer) :
    qualifiedTable s t = match (splitTable t.table).1 <|> s.keyspace? with
      | some keyspace => keyspace ++ "." ++ (splitTable t.table).2
      | none => (splitTable t.table).2 := by
  unfold qualifiedTable
  match hsplit : splitTable t.table, hkeyspace : s.keyspace? with
  | (none, name), some keyspace => rfl
  | (none, name), none => rfl
  | (some keyspace, name), _ => exact Session.eq_of_splitTable hsplit

/-- A table is found under its full name too. -/
theorem qualify_qualifiedTable (s : Session) (t : Transfer) :
    s.qualify (qualifiedTable s t) = s.qualify t.table := by
  match hsplit : splitTable t.table, hkeyspace : s.keyspace? with
  | (none, name), some keyspace =>
    have hfull : qualifiedTable s t = keyspace ++ "." ++ name := by
      rw [qualifiedTable_eq, hsplit, hkeyspace]
      rfl
    have hdot : '.' ∈ (keyspace ++ "." ++ name).toList := by simp
    rw [hfull, Session.qualify_of_dot s hdot]
    unfold Session.qualify
    rw [hsplit, hkeyspace]
    rfl
  | (none, name), none =>
    have hfull : qualifiedTable s t = name := by
      rw [qualifiedTable_eq, hsplit, hkeyspace]
      rfl
    rw [hfull, Session.eq_of_splitTable_none hsplit]
  | (some keyspace, name), _ =>
    have hfull : qualifiedTable s t = t.table := by
      unfold qualifiedTable
      rw [hsplit]
    rw [hfull]

/-- The columns that are known of a table are its columns. -/
theorem tableColumns?_eq {setting : Setting} (h : setting.knowsTables = true) (s : Session)
    (t : Transfer) :
    tableColumns? setting s t = (s.tables.get? (s.qualify t.table)).map Table.columns := by
  unfold tableColumns?
  rw [if_pos h, ← qualify_qualifiedTable, qualifiedTable_eq]
  rfl

section Names

variable {s : Session} {t : Transfer} {table : Table} (h : s.Has t.table table)

include h

theorem qualifiedTable_ne : (qualifiedTable s t).toList ≠ [] := by
  unfold qualifiedTable
  split
  · simp
  · next name hsplit _ =>
    rw [Session.eq_of_splitTable_none hsplit]
    exact h.name_ne
  · exact h.name_ne

theorem qualifiedTable_chars :
    ∀ c ∈ (qualifiedTable s t).toList, Command.isTableChar c = true := by
  unfold qualifiedTable
  split
  · next name keyspace hsplit hkeyspace =>
    intro c hc
    rw [Session.eq_of_splitTable_none hsplit] at hc
    simp only [String.toList_append, List.mem_append] at hc
    rcases hc with (hkey | hdot) | hname
    · exact h.keyspace_chars keyspace hkeyspace c hkey
    · obtain rfl : c = '.' := List.mem_singleton.mp hdot
      decide
    · exact h.name_chars c hname
  · next name hsplit _ =>
    rw [Session.eq_of_splitTable_none hsplit]
    exact h.name_chars
  · exact h.name_chars

end Names

/-! ## Formats -/

/-- The transfer of a table, with all of its columns, to or from a file. -/
def tableTransfer (direction : Direction) (table path : String) (o : Options) : Transfer :=
  ⟨table, [], direction, .path path, o⟩

/-- A transfer with a file at a path that is no directory is valid in the format that its options
and the path tell. -/
theorem validate_tableTransfer {direction : Direction} {table path : String} {o : Options}
    (hsingle : direction = .exporting → o.partitionColumns = [])
    {isDirectory : String → Bool} (hfile : direction = .importing → isDirectory path = false)
    {format : FileFormat}
    (hformat : (tableTransfer direction table path o).format (fun _ => false) = .ok format) :
    (tableTransfer direction table path o).validate isDirectory = .ok format := by
  have hsame : (tableTransfer direction table path o).format isDirectory =
      (tableTransfer direction table path o).format fun _ => false := by
    unfold tableTransfer Transfer.format Target.path?
    dsimp only
    cases direction with
    | exporting => rfl
    | importing => rw [hfile rfl]
  have htarget : (tableTransfer direction table path o).targetFault? format = none := by
    cases direction <;> rfl
  have hpartitioned : ¬ (direction == .exporting && !o.partitionColumns.isEmpty &&
      format != .columnar) = true := by
    cases direction with
    | exporting =>
      rw [hsingle rfl]
      exact Bool.false_ne_true
    | importing => exact Bool.false_ne_true
  unfold Transfer.validate
  rw [hsame, hformat]
  dsimp only
  rw [htarget]
  exact if_neg hpartitioned

theorem unknownColumn?_nil (known? : Option (List Column)) : unknownColumn? known? [] = none := by
  cases known? <;> rfl

/-- Columns with types that the source has are those that are inserted. -/
theorem importColumns_all {columns : List Column} (hne : columns ≠ [])
    (htyped : ∀ c ∈ columns, c.type?.isSome = true) (table : List Column) (tableName : String) :
    importColumns [] columns table tableName = .ok columns := by
  have hcomplete : columns.map (completeColumn table) = columns := by
    refine (List.map_congr_left fun c hc => ?_).trans (List.map_id _)
    obtain ⟨type, htype⟩ := Option.isSome_iff_exists.mp (htyped c hc)
    unfold completeColumn
    rw [htype]
    rfl
  obtain ⟨c, more, rfl⟩ := List.exists_cons_of_ne_nil hne
  unfold importColumns
  rw [List.isEmpty_nil, if_pos rfl]
  dsimp only
  rw [hcomplete]

/-! ## One command -/

/-- A valid transfer of a table is carried out in its direction. -/
theorem run_tableTransfer [Columnar.Platform] {setting : Setting} {session : Session}
    {tree : FileTree} {direction : Direction} {table path : String} {given o : Options}
    (ho : given.withDefaults setting.defaults = o) {format : FileFormat}
    (hvalid : (tableTransfer direction table path o).validate tree.isDirectory = .ok format)
    (input : Bytes) :
    run setting ⟨session, tree⟩ (tableTransfer direction table path given) input =
      match direction with
      | .exporting => runExport ⟨session, tree⟩ (tableTransfer .exporting table path o) format
          (qualifiedTable session (tableTransfer .exporting table path o)) input
      | .importing => runImport ⟨session, tree⟩ (tableTransfer .importing table path o) format
          (qualifiedTable session (tableTransfer .importing table path o))
          (tableColumns? setting session (tableTransfer .importing table path o)) input := by
  subst ho
  unfold tableTransfer at hvalid ⊢
  unfold run runKnowing
  dsimp only
  rw [hvalid]
  dsimp only
  rw [unknownColumn?_nil]
  cases direction <;> rfl

/-- An export that is not partitioned writes one file. -/
theorem runExport_eq [Columnar.Platform] {session : Session} {tree : FileTree}
    {table path name : String} {o : Options} (hsingle : o.partitionColumns = [])
    {format : FileFormat} {done : Export.Outcome}
    (hrun : Export.run ⟨name, [], o, format⟩ session tree (.path (exportPath path format false)) =
      done) (input : Bytes) :
    runExport ⟨session, tree⟩ (tableTransfer .exporting table path o) format name input =
      ⟨⟨session, done.tree⟩, done.stream, input, [],
        done.result.map fun report =>
          .exported (exportPath path format false) format false report⟩ := by
  have hpartitioned : (tableTransfer .exporting table path o).isPartitioned = false := by
    show (!o.partitionColumns.isEmpty) = false
    rw [hsingle]
    rfl
  subst hrun
  unfold runExport
  rw [hpartitioned]
  rfl

/-- The export of a table leaves a file that is opened as a source of its rows. -/
theorem run_exporting [Columnar.Platform] (setting : Setting) {session : Session}
    {name : String} {t : Table} (hhas : session.Has name t)
    (hquery : session.plan.queryAfter? = none) (ht : t.IsPortable)
    {given o o' : Options} (ho : given.withDefaults setting.defaults = o) (hall : o.ExportsAll)
    {path : String} {format : FileFormat}
    (hformat : (tableTransfer .exporting name path o).format (fun _ => false) = .ok format)
    (hkeeps : format.Keeps o o' t.columns t.rows) {tree made : FileTree}
    (hmade : tree.createFile (exportPath path format false) = .ok made) (input : Bytes) :
    ∃ written reader,
      run setting ⟨session, tree⟩ (tableTransfer .exporting name path given) input =
        ⟨⟨session, written⟩, [], input, [], .ok (.exported (exportPath path format false) format
          false (Export.wholeReport t.rows.length))⟩ ∧
      written.isDirectory (exportPath path format false) = false ∧
      written.Opens format (exportPath path format false) o' t.columns t.fullRows reader := by
  let job : Export.Job :=
    ⟨qualifiedTable session (tableTransfer .exporting name path o), [], o, format⟩
  have hfound : session.query job.statement = .ok ⟨t.columns, t.fullRows.map .ok⟩ := by
    have hname : session.tables.get? (session.qualify job.table) = some t := by
      rw [qualify_qualifiedTable]
      exact hhas.stored
    have hanswer := Session.query_all
      (qualifiedTable_ne (t := tableTransfer .exporting name path o) hhas)
      (qualifiedTable_chars (t := tableTransfer .exporting name path o) hhas) hname
    rw [hquery] at hanswer
    unfold Export.Job.statement
    rw [hall.limit, hall.maxRows]
    exact hanswer
  obtain ⟨written, reader, hrun, hfile, hopens⟩ := Export.run_keeps hfound hmade ht.columns
    ht.columns_ne ht.rows rfl hall.single hkeeps
  refine ⟨written, reader, ?_, hfile, hopens⟩
  have hvalid : (tableTransfer .exporting name path o).validate tree.isDirectory = .ok format := by
    refine validate_tableTransfer (fun _ => hall.single) ?_ hformat
    intro hdirection
    nomatch hdirection
  rw [run_tableTransfer ho hvalid]
  exact runExport_eq hall.single hrun input

/-- An import from a file that is opened inserts all columns of the source. -/
theorem runImport_eq {session : Session} {tree : FileTree} {table file name : String}
    {o : Options} {format : FileFormat} {columns : List Column} {reader : Reader}
    (hopened : Reader.ofSource tree format (.path file) o ⟨[], columns⟩ = .ok reader)
    (hcolumns : importColumns [] reader.columns columns name = .ok columns)
    {done : Import.Outcome Session}
    (hrun : Import.run ⟨name, columns, o⟩ session reader = done) (input : Bytes) :
    runImport ⟨session, tree⟩ (tableTransfer .importing table file o) format name (some columns)
        input =
      ⟨⟨done.session, tree⟩, [], input, done.progress,
        done.result.map fun report => .imported file report⟩ := by
  subst hrun
  unfold runImport tableTransfer
  dsimp only
  rw [Option.getD_some, hopened]
  dsimp only
  rw [hcolumns]
  rfl

/-- The job of importing a file into a table. -/
def importJob (s : Session) (table file : String) (o : Options) (columns : List Column) :
    Import.Job :=
  ⟨qualifiedTable s (tableTransfer .importing table file o), columns, o⟩

theorem qualify_importJob (s : Session) (table file : String) (o : Options)
    (columns : List Column) :
    s.qualify (importJob s table file o columns).table = s.qualify table :=
  qualify_qualifiedTable s _

section Importing

variable {session : Session} {name : String} {t : Table} (hhas : session.Has name t)

include hhas

/-- The job of an import suits a session that has the table. -/
theorem suits_importJob (hwrites : session.TakesWrites) (hcolumns : Columns.ArePortable t.columns)
    (file : String) (o : Options) :
    (importJob session name file o t.columns).Suits session := by
  refine ⟨hwrites, ?_, ?_, hcolumns, t, ?_, hcolumns.nodup, fun _ hc => hc⟩
  · exact qualifiedTable_ne (t := tableTransfer .importing name file o) hhas
  · exact qualifiedTable_chars (t := tableTransfer .importing name file o) hhas
  · rw [qualify_importJob]
    exact hhas.stored

/-- The import of a file that is opened as a source of fitting rows adds them to the table. -/
theorem run_importing [Columnar.Platform] {setting : Setting}
    (hknown : setting.knowsTables = true) (hwrites : session.TakesWrites)
    (hcolumns : Columns.ArePortable t.columns) (hne : t.columns ≠ []) {given o : Options} (ho : given.withDefaults setting.defaults = o)
    (hall : o.ImportsAll) {file : String} {format : FileFormat}
    (hformat : (tableTransfer .importing name file o).format (fun _ => false) = .ok format)
    {tree : FileTree} (hfile : tree.isDirectory file = false) {rows : List Row} {reader : Reader}
    (hopens : tree.Opens format file o t.columns rows reader)
    (hrows : ∀ row ∈ rows, row.Fits t.columns) (input : Bytes) :
    ∃ after progress,
      run setting ⟨session, tree⟩ (tableTransfer .importing name file given) input =
        ⟨⟨after, tree⟩, [], input, progress,
          .ok (.imported file (Import.faultlessReport 0 rows.length none))⟩ ∧
      Grown (session.qualify name)
        (rows.map (importJob session name file o t.columns).stored) session.tables
        after.tables := by
  have hskip : reader.skip o.skipRows = (reader, .ok 0) := by
    rw [hall.skipRows]
    exact hopens.skip
  obtain ⟨after, left, progress, hrun, hgrown⟩ := Import.run_faultless
    (suits_importJob hhas hwrites hcolumns file o) hall.maxRows hrows hskip hopens.reads
    hopens.bound hopens.single
  rw [qualify_importJob] at hgrown
  refine ⟨after, progress, ?_, hgrown⟩
  have hvalid : (tableTransfer .importing name file o).validate tree.isDirectory = .ok format := by
    refine validate_tableTransfer ?_ (fun _ => hfile) hformat
    intro hdirection
    nomatch hdirection
  have htable : tableColumns? setting session (tableTransfer .importing name file o) =
      some t.columns := by
    rw [tableColumns?_eq hknown]
    show (session.tables.get? (session.qualify name)).map Table.columns = _
    rw [hhas.stored]
    rfl
  have hinserted : importColumns [] reader.columns t.columns
      (qualifiedTable session (tableTransfer .importing name file o)) = .ok t.columns := by
    rw [hopens.columns_eq]
    exact importColumns_all hne hcolumns.typed _ _
  rw [run_tableTransfer ho hvalid]
  dsimp only
  rw [htable]
  exact runImport_eq hopens.opened hinserted hrun input

end Importing

/-! ## Round trip -/

end Copy

end BulkTransfer
