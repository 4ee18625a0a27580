import BulkTransfer.Export
import BulkTransfer.Import.Run
import BulkTransfer.Proofs.Columnar.RoundTrip
import BulkTransfer.Proofs.Columnar.Taken
import BulkTransfer.Proofs.Delimited.RoundTrip
import BulkTransfer.Proofs.FileTree
import BulkTransfer.Proofs.Reader

/-!
Files between an export and an import. An export of rows that its format keeps writes all of them
into one file, and this file is opened as a source of the same rows.

- `Delimited.Keeps`, `Columnar.Keeps`: what the rows of a table need to come back from a file.
- `FileTree.Opens`: a file is opened as a source of rows.
- `Export.run_keeps`: an export leaves such a file.
-/

namespace BulkTransfer

/-! ## Rows as a query finds them -/

theorem Row.fits_project {columns : List Column} {row : Row} (h : row.Fits columns) :
    (row.project (columns.map Column.name)).Fits columns := by
  intro c hc type htype
  rw [row.getD_project (List.mem_map_of_mem hc)]
  exact h c hc type htype

theorem map_project_project (rows : List Row) (names : List String) :
    (rows.map fun row => row.project names).map (fun row => row.project names) =
      rows.map fun row => row.project names := by
  rw [List.map_map]
  exact List.map_congr_left fun row _ => row.project_project names

/-! ## What formats keep -/

namespace Delimited

/-- Options of an export and of an import between which delimited text keeps rows: delimiter and
quote can be told apart, the names of a header stay as they are, no value looks like null, and the
text does not begin with a mark that is dropped. -/
structure Keeps (o o' : Options) (columns : List Column) (rows : List Row) : Prop where
  same : SameText o o'
  plain : (Dialect.ofOptions o).IsPlain
  clean : o.header = true → ∀ c ∈ columns, cleanHeader c.name = c.name
  avoids : ∀ row ∈ rows, row.AvoidsToken o.nullToken columns
  mark : (rows.foldl Writer.write (.new columns o)).output.take 3 ≠ byteOrderMark

/-- A row and its projection are written in the same way. -/
theorem output_project (columns : List Column) (o : Options) (rows : List Row) :
    ((rows.map fun row => row.project (columns.map Column.name)).foldl Writer.write
        (.new columns o)).output = (rows.foldl Writer.write (.new columns o)).output := by
  have hline : ∀ row : Row, rowLine (Dialect.ofOptions o) o.nullToken columns
      (row.project (columns.map Column.name)) =
        rowLine (Dialect.ofOptions o) o.nullToken columns row := by
    intro row
    have htexts : fieldTexts o.nullToken columns (row.project (columns.map Column.name)) =
        fieldTexts o.nullToken columns row := by
      refine List.map_congr_left fun c hc => ?_
      rw [row.getD_project (List.mem_map_of_mem hc)]
    unfold rowLine
    rw [htexts]
  unfold Writer.new
  rw [output_writeAll, output_writeAll, List.map_map]
  congr 2
  exact List.map_congr_left fun row _ => hline row

theorem isWritable_project {o o' : Options} {columns : List Column} {rows : List Row}
    (hkeeps : Keeps o o' columns rows) (hrows : ∀ row ∈ rows, row.Fits columns) :
    ∀ row ∈ rows.map fun row => row.project (columns.map Column.name),
      IsWritable o.nullToken columns row := by
  intro projected hmem
  obtain ⟨row, hrow, rfl⟩ := List.mem_map.mp hmem
  refine ⟨Row.fits_project (hrows row hrow), fun c hc => ?_⟩
  rw [row.getD_project (List.mem_map_of_mem hc)]
  exact hkeeps.avoids row hrow c hc

end Delimited

namespace Columnar

/-- Columns and rows that a columnar file keeps: all types are told by their written forms, and no
map has null as a key. -/
structure Keeps (columns : List Column) (rows : List Row) : Prop where
  types : ∀ c ∈ columns, ∀ type ∈ c.type?, type.isBuiltIn = true
  keys : ∀ row ∈ rows, ∀ c ∈ columns, ¬ HasNullKey (row.getD c.name)

theorem isStorable_project {columns : List Column} {rows : List Row}
    (hcolumns : Columns.ArePortable columns) (hkeeps : Keeps columns rows)
    (hrows : ∀ row ∈ rows, row.Fits columns) :
    ∀ row ∈ rows.map fun row => row.project (columns.map Column.name),
      IsStorable (typedOf columns) row := by
  intro projected hmem
  obtain ⟨row, hrow, rfl⟩ := List.mem_map.mp hmem
  refine isStorable_of_fits hcolumns.typed (Row.fits_project (hrows row hrow)) fun c hc => ?_
  rw [row.getD_project (List.mem_map_of_mem hc)]
  exact hkeeps.keys row hrow c hc

end Columnar

/-- Whether a file of a format keeps the rows of a table. -/
def FileFormat.Keeps (format : FileFormat) (o o' : Options) (columns : List Column)
    (rows : List Row) : Prop :=
  match format with
  | .delimited => Delimited.Keeps o o' columns rows
  | .columnar => Columnar.Keeps columns rows
  | .json => False

/-! ## Opening -/

/-- A file is opened as a source of rows, with the columns of the table. -/
structure FileTree.Opens (tree : FileTree) (format : FileFormat) (file : String) (o : Options)
    (columns : List Column) (rows : List Row) (reader : Reader) : Prop where
  opened : Reader.ofSource tree format (.path file) o ⟨[], columns⟩ = .ok reader
  columns_eq : reader.columns = columns
  skip : reader.skip 0 = (reader, .ok 0)
  reads : reader.Reads (rows.map .ok)
  bound : rows.length ≤ Import.recordBound reader
  single : reader.dataset? = none

section Opens

variable {tree made : FileTree} {file : String} (hmade : tree.createFile file = .ok made)
  {columns : List Column} (hcolumns : Columns.ArePortable columns) (hne : columns ≠ [])
  {rows : List Row}

include hmade hcolumns hne

/-- Written text is opened as a source of the rows of its lines. -/
theorem Delimited.opens_output {o o' : Options} (hsame : SameText o o')
    (hplain : (Dialect.ofOptions o).IsPlain)
    (hclean : o.header = true → ∀ c ∈ columns, cleanHeader c.name = c.name)
    (hrows : ∀ row ∈ rows, IsWritable o.nullToken columns row) {b : Bytes}
    (hb : (rows.foldl Writer.write (.new columns o)).output = b)
    (hmark : b.take 3 ≠ byteOrderMark) :
    ∃ reader, (made.fill file (.bytes b)).Opens .delimited file o' columns
      (rows.map fun row => row.project (columns.map Column.name)) reader := by
  obtain ⟨r, hopen, hleaves⟩ :=
    Reader.withSettings_output hcolumns.nodup hne hplain hclean hb hmark
  have hstream : Reader.ofStream (.bytes b) o' ⟨[], columns⟩ = .ok r := by
    unfold Reader.ofStream
    rw [hsame.settings_eq]
    exact hopen
  have haccess : (Source.path file).access (made.fill file (.bytes b)) = .ok (.bytes b) := by
    unfold Source.access
    dsimp only
    rw [FileTree.look_fill hmade]
  refine ⟨.delimited r, ?_, hleaves.columns_eq, rfl, ?_, ?_, rfl⟩
  · unfold BulkTransfer.Reader.ofSource
    dsimp only
    rw [haccess]
    dsimp only
    rw [hstream]
    rfl
  · rw [List.map_map]
    exact hleaves.reads hplain hcolumns.legible hne hrows
  · rw [List.length_map]
    exact hleaves.length_le

omit hne in
/-- A finished columnar file is opened as a source of the rows of its cells. -/
theorem Columnar.opens_file (htypes : ∀ c ∈ columns, ∀ type ∈ c.type?, type.isBuiltIn = true)
    (hrows : ∀ row ∈ rows, IsStorable (typedOf columns) row) {f : File}
    (hfields : f.fields = (typedOf columns).map TypedColumn.field)
    (hcells : f.rows = rows.map (cellsOf (typedOf columns))) (o : Options) :
    ∃ reader, (made.fill file (.columnar f)).Opens .columnar file o columns
      (rows.map fun row => row.project (columns.map Column.name)) reader := by
  have hbuilt : ∀ c ∈ columns, ∃ type, c.type? = some type ∧ type.isBuiltIn = true := by
    intro c hc
    obtain ⟨type, htype⟩ := Option.isSome_iff_exists.mp (hcolumns.typed c hc)
    exact ⟨type, htype, htypes c hc type htype⟩
  have hnodup : ((typedOf columns).map TypedColumn.name).Nodup := by
    rw [names_typedOf]
    exact hcolumns.nodup
  have hholds :=
    (Reader.leaves_ofFile hrows hfields hcells o).holds hnodup (isBuiltIn_typedOf hbuilt)
  rw [names_typedOf] at hholds
  refine ⟨.columnar (.ofFile f o), ?_, ?_, ?_, hholds.reads, ?_, rfl⟩
  · unfold BulkTransfer.Reader.ofSource
    dsimp only
    rw [FileTree.isDirectory_fill hmade, if_neg Bool.false_ne_true]
    unfold Reader.ofPath
    rw [FileTree.look_fill hmade]
    rfl
  · show f.fields.map Field.column = columns
    rw [hfields, columns_fields hbuilt]
  · show BulkTransfer.Reader.lift .columnar ((Reader.ofFile f o).skip 0) = _
    unfold Reader.skip
    rfl
  · exact Nat.le_of_eq hholds.length_eq

end Opens

/-! ## Exporting -/

namespace Export

variable [Columnar.Platform]

/-- Delimited text takes every row. -/
theorem pour_delimited (tree : FileTree) (sink : Sink) (w : Delimited.Writer) (count : Nat)
    (rows : List Row) :
    pour (.delimited tree sink w) count (rows.map .ok) =
      (.delimited tree sink (rows.foldl Delimited.Writer.write w), count + rows.length, none) := by
  induction rows generalizing w count with
  | nil => rfl
  | cons row more ih =>
    rw [List.map_cons, pour]
    dsimp only [Writer.write]
    rw [ih, List.foldl_cons, List.length_cons, Nat.add_assoc, Nat.add_comm 1]

/-- A columnar writer for whose file there is always room takes rows that it can store. -/
theorem pour_columnar (tree : FileTree) (path : String) {columns : List Column} {o : Options}
    (htyped : ∀ c ∈ columns, c.type?.isSome = true) {w : Columnar.Writer} {before rows : List Row}
    (hw : Columnar.Writer.Took columns o before w) (hroom : w.outlet = .endless)
    (hrows : ∀ row ∈ before ++ rows, Columnar.HasCells (Columnar.typedOf columns) row)
    (count : Nat) :
    ∃ after, pour (.columnar tree path w) count (rows.map .ok) =
        (.columnar tree path after, count + rows.length, none) ∧
      Columnar.Writer.Took columns o (before ++ rows) after ∧ after.outlet = .endless := by
  induction rows generalizing w before count with
  | nil =>
    rw [List.append_nil]
    exact ⟨w, rfl, hw, hroom⟩
  | cons row more ih =>
    have hsplit : before ++ row :: more = before ++ [row] ++ more := by simp
    rw [hsplit] at hrows ⊢
    obtain ⟨next, hwrite, hnext, hstill⟩ :=
      hw.exists_write htyped hroom fun r hr => hrows r (List.mem_append_left _ hr)
    obtain ⟨after, hpour, hafter⟩ := ih hnext hstill hrows (count + 1)
    refine ⟨after, ?_, hafter⟩
    rw [List.map_cons, pour]
    dsimp only [Writer.write]
    rw [hwrite]
    dsimp only
    rw [hpour, List.length_cons, Nat.add_assoc, Nat.add_comm 1]

/-- What an export of all rows into one file reports. -/
def wholeReport (rows : Nat) : Report := ⟨rows, 1, [], 0, none⟩

section Run

variable {job : Job} {session : Session} {columns : List Column} {rows : List Row}
  (hquery : session.query job.statement =
    .ok ⟨columns, (rows.map fun row => row.project (columns.map Column.name)).map .ok⟩)
  {tree made : FileTree} {file : String} (hmade : tree.createFile file = .ok made)
  (hcolumns : Columns.ArePortable columns) (hne : columns ≠ [])
  (hrows : ∀ row ∈ rows, row.Fits columns)

include hquery hmade hcolumns hne hrows

theorem run_delimited {o' : Options} (hformat : job.format = .delimited)
    (hkeeps : Delimited.Keeps job.options o' columns rows) :
    ∃ written reader, run job session tree (.path file) =
        ⟨written, [], .ok (wholeReport rows.length)⟩ ∧ written.isDirectory file = false ∧
      written.Opens .delimited file o' columns
        (rows.map fun row => row.project (columns.map Column.name)) reader := by
  obtain ⟨reader, hopens⟩ := Delimited.opens_output hmade hcolumns hne hkeeps.same hkeeps.plain
    hkeeps.clean (Delimited.isWritable_project hkeeps hrows)
    (Delimited.output_project columns job.options rows) hkeeps.mark
  rw [map_project_project] at hopens
  refine ⟨_, reader, ?_, FileTree.isDirectory_fill hmade _, hopens⟩
  have hcreate : Writer.create tree .delimited (.path file) columns job.options =
      (made, .ok (.delimited made (.path file) (.new columns job.options))) := by
    unfold Writer.create Writer.prepare createExportFile
    dsimp only
    rw [hmade]
  unfold run
  rw [hquery]
  dsimp only
  rw [hformat, hcreate]
  dsimp only
  rw [pour_delimited]
  unfold Writer.close Writer.deliver
  dsimp only
  rw [Delimited.output_project, List.length_map, Nat.zero_add]
  rfl

theorem run_columnar (hformat : job.format = .columnar)
    (hsingle : job.options.partitionColumns = []) (hkeeps : Columnar.Keeps columns rows)
    (o' : Options) :
    ∃ written reader, run job session tree (.path file) =
        ⟨written, [], .ok (wholeReport rows.length)⟩ ∧ written.isDirectory file = false ∧
      written.Opens .columnar file o' columns
        (rows.map fun row => row.project (columns.map Column.name)) reader := by
  have hstorable := Columnar.isStorable_project hcolumns hkeeps hrows
  obtain ⟨w, hnew⟩ := Columnar.Writer.exists_new hne job.options
  have hroom : w.outlet = .endless := by rw [(Columnar.Writer.into_eq_ok hnew).2]
  obtain ⟨after, hpour, hafter, hstill⟩ := pour_columnar made file hcolumns.typed (.new hnew) hroom
    (fun row hrow => (hstorable row hrow).hasCells) 0
  obtain ⟨f, hfinish, hmakes⟩ := hafter.exists_finish hcolumns.typed hstill
    fun row hrow => (hstorable row hrow).hasCells
  obtain ⟨hfields, hcells⟩ := hmakes.cells hcolumns.typed
  obtain ⟨reader, hopens⟩ :=
    Columnar.opens_file hmade hcolumns hkeeps.types hstorable hfields hcells o'
  rw [map_project_project] at hopens
  refine ⟨_, reader, ?_, FileTree.isDirectory_fill hmade _, hopens⟩
  have hcreate : Writer.create tree .columnar (.path file) columns job.options =
      (made, .ok (.columnar made file w)) := by
    unfold Writer.create Writer.createColumnar createExportFile
    dsimp only
    rw [hsingle, List.isEmpty_nil, if_pos rfl, hmade]
    dsimp only
    rw [hnew]
  unfold run
  rw [hquery]
  dsimp only
  rw [hformat, hcreate]
  dsimp only
  rw [hpour]
  unfold Writer.close
  dsimp only
  rw [hfinish]
  dsimp only
  rw [List.length_map, Nat.zero_add]
  rfl

/-- An export of rows that the format keeps leaves a file that is opened as a source of them. -/
theorem run_keeps {format : FileFormat} (hformat : job.format = format)
    (hsingle : job.options.partitionColumns = []) {o' : Options}
    (hkeeps : format.Keeps job.options o' columns rows) :
    ∃ written reader, run job session tree (.path file) =
        ⟨written, [], .ok (wholeReport rows.length)⟩ ∧ written.isDirectory file = false ∧
      written.Opens format file o' columns
        (rows.map fun row => row.project (columns.map Column.name)) reader := by
  cases format with
  | delimited => exact run_delimited hquery hmade hcolumns hne hrows hformat hkeeps
  | columnar => exact run_columnar hquery hmade hcolumns hne hrows hformat hsingle hkeeps o'
  | json => nomatch hkeeps

end Run

end Export

end BulkTransfer
