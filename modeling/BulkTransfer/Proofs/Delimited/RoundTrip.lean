import BulkTransfer.Delimited.Writer
import BulkTransfer.Proofs.Delimited.Cursor
import BulkTransfer.Proofs.Delimited.Record
import BulkTransfer.Proofs.Session.Insert

/-!
Delimited text that was written from rows of canonical values is read back as these rows, a row for
each line and a column for each field.

- `Row.AvoidsToken`: no value is written like null.
- `fillRow_fieldTexts`: the row of the fields that were written.
- `Reader.Leaves`: a reader in front of written lines.
- `Reader.Leaves.reads`: every reading takes rows off these lines.
- `Reader.withSettings_output`: opening what a writer wrote gives such a reader.
- `written_rows_read_back`: so the rows come back, from the first to the last.
-/

namespace BulkTransfer

open Value

/-- No value of a row but null is written as the token for null. -/
def Row.AvoidsToken (token : String) (columns : List Column) (r : Row) : Prop :=
  ∀ c ∈ columns, r.getD c.name ≠ .null → (r.getD c.name).field token c.name c.type? ≠ token

/-- Columns that fields tell apart and do not take for sets, and whose types are known. -/
structure Columns.AreLegible (columns : List Column) : Prop where
  nodup : (columns.map Column.name).Nodup
  not_set : ∀ c ∈ columns, isSetColumn c.name = false
  typed : ∀ c ∈ columns, c.type?.isSome = true

theorem Columns.ArePortable.legible {columns : List Column} (h : ArePortable columns) :
    AreLegible columns := ⟨h.nodup, h.not_set, h.typed⟩

namespace Delimited

/-! ## One row -/

/-- The fields of a row. -/
def fieldTexts (token : String) (columns : List Column) (row : Row) : List String :=
  columns.map fun c => (row.getD c.name).field token c.name c.type?

/-- The line of a row. -/
def rowLine (d : Dialect) (token : String) (columns : List Column) (row : Row) : Bytes :=
  d.encodeRecord ((fieldTexts token columns row).map Bytes.ofText)

theorem decodeFields_ofText (index : Nat) (texts : List String) :
    decodeFields index (texts.map Bytes.ofText) = .ok texts := by
  induction texts generalizing index with
  | nil => rfl
  | cons s more ih => rw [List.map_cons, decodeFields, Bytes.toText?_ofText, ih]

/-- The value of a field that was written. -/
theorem fieldValue_field {c : Column} (hset : isSetColumn c.name = false) {type : ColumnType}
    (htype : c.type? = some type) {v : Value} (h : Canonical type v) {token : String}
    (htoken : v ≠ .null → v.field token c.name c.type? ≠ token) :
    Reader.fieldValue token c (v.field token c.name c.type?) = .ok v := by
  unfold Reader.fieldValue
  by_cases hnull : v = .null
  · subst hnull
    exact if_pos rfl
  · rw [if_neg (htoken hnull), htype, Literal.ofField_field hset h hnull]

/-- The fields of a row make the row again, behind columns that are already there. -/
theorem fillRow_fieldTexts {token : String} {columns : List Column} {row : Row}
    (hread : ∀ c ∈ columns, Reader.fieldValue token c
      ((row.getD c.name).field token c.name c.type?) = .ok (row.getD c.name))
    {before : Row} (hnodup : (before.columns ++ columns.map Column.name).Nodup) :
    Reader.fillRow token columns (fieldTexts token columns row) before =
      .ok ⟨before.fields ++ columns.map fun c => (c.name, row.getD c.name)⟩ := by
  induction columns generalizing before with
  | nil =>
    rw [List.map_nil, List.append_nil]
    rfl
  | cons c columns ih =>
    have hnew : c.name ∉ before.columns := by
      rw [List.nodup_append] at hnodup
      intro hmem
      exact hnodup.2.2 _ hmem _ List.mem_cons_self rfl
    have hinsert : before.insert c.name (row.getD c.name) =
        ⟨before.fields ++ [(c.name, row.getD c.name)]⟩ := by
      unfold Row.insert
      rw [Row.put_of_not_mem _ hnew]
    have hnodup' : ((⟨before.fields ++ [(c.name, row.getD c.name)]⟩ : Row).columns ++
        columns.map Column.name).Nodup := by
      simpa [Row.columns] using hnodup
    have hmore := ih (fun d hd => hread d (List.mem_cons_of_mem c hd)) hnodup'
    unfold fieldTexts at hmore ⊢
    rw [List.map_cons, Reader.fillRow, hread c List.mem_cons_self]
    dsimp only
    rw [hinsert, hmore, List.append_assoc, List.map_cons, List.singleton_append]

section Rows

variable {d : Dialect} {token : String} {columns : List Column}

/-- Rows whose lines can be read back. -/
structure IsWritable (token : String) (columns : List Column) (row : Row) : Prop where
  fits : row.Fits columns
  avoids : row.AvoidsToken token columns

/-- A record with the fields of a row is the row. -/
theorem convert_fieldTexts (hcolumns : Columns.AreLegible columns) {row : Row}
    (hrow : IsWritable token columns row) {r : Reader} (htoken : r.nullToken = token)
    (hr : r.columns = columns) :
    r.convert (fieldTexts token columns row) = .ok (row.project (columns.map Column.name)) := by
  have hread : ∀ c ∈ columns, Reader.fieldValue token c
      ((row.getD c.name).field token c.name c.type?) = .ok (row.getD c.name) := by
    intro c hc
    obtain ⟨type, htype, hvalue⟩ := hrow.fits.canonical hc (hcolumns.typed c hc)
    exact fieldValue_field (hcolumns.not_set c hc) htype hvalue (hrow.avoids c hc)
  have hnodup : (Row.empty.columns ++ columns.map Column.name).Nodup := hcolumns.nodup
  have hfill := fillRow_fieldTexts hread hnodup
  unfold Reader.convert
  rw [hr, if_neg (by simp [fieldTexts]), htoken, hfill]
  simp [Row.empty, Row.project, Function.comp_def]

/-! ## Reading lines -/

namespace Reader

/-- A line that was written from texts is read as these texts. -/
theorem nextBytes?_of_line (hd : d.IsPlain) {r : Reader} (hr : r.dialect = d)
    {texts : List String} (hne : texts ≠ []) {rest : Bytes}
    (h : r.remaining = d.encodeRecord (texts.map Bytes.ofText) ++ rest) :
    r.nextBytes? =
      ({ r with rest := rest, lines := r.lines + 1 }, some (texts.map Bytes.ofText)) := by
  have hfields : texts.map Bytes.ofText ≠ [] := by simpa using hne
  unfold nextBytes?
  rw [hr, h, Dialect.nextRecord?_encodeRecord hd hfields]

theorem next_of_bytes {r after : Reader} (hr : r.unreadable = false) {texts : List String}
    (h : r.nextBytes? = (after, some (texts.map Bytes.ofText))) :
    r.next = (after, .fields texts) := by
  unfold Reader.next
  rw [hr, if_neg Bool.false_ne_true, h]
  dsimp only
  rw [decodeFields_ofText]

/-- A reader in front of the lines of rows, of which no byte is taken for a leading mark. -/
structure Leaves (d : Dialect) (token : String) (columns : List Column) (r : Reader)
    (rows : List Row) : Prop where
  dialect_eq : r.dialect = d
  nullToken_eq : r.nullToken = token
  columns_eq : r.columns = columns
  readable : r.unreadable = false
  rest_eq : r.rest = (rows.map (rowLine d token columns)).flatten
  mark : r.lines = 0 → dropMark r.rest = r.rest
  exhausted : r.exhausted = true → rows = []

theorem Leaves.not_exhausted {r : Reader} {row : Row} {rows : List Row}
    (h : Leaves d token columns r (row :: rows)) : ¬ r.exhausted = true := by
  intro hex
  exact List.cons_ne_nil row rows (h.exhausted hex)

theorem Leaves.remaining_eq {r : Reader} {rows : List Row} (h : Leaves d token columns r rows) :
    r.remaining = r.rest := by
  unfold remaining
  split
  · next hlines => exact h.mark hlines
  · rfl

theorem Leaves.nextBytes?_nil {r : Reader} (h : Leaves d token columns r []) :
    r.nextBytes? = ({ r with rest := [] }, none) := by
  unfold nextBytes?
  rw [h.remaining_eq, h.rest_eq]
  rfl

/-- The next line is the one of the first row. -/
theorem Leaves.nextBytes?_cons (hd : d.IsPlain) (hne : columns ≠ []) {r : Reader} {row : Row}
    {rows : List Row} (h : Leaves d token columns r (row :: rows)) :
    ∃ after, r.nextBytes? =
        (after, some ((fieldTexts token columns row).map Bytes.ofText)) ∧
      ∀ position, Leaves d token columns { after with position := position } rows := by
  have htexts : fieldTexts token columns row ≠ [] := by simpa [fieldTexts] using hne
  have hrest : r.remaining = d.encodeRecord ((fieldTexts token columns row).map Bytes.ofText) ++
      (rows.map (rowLine d token columns)).flatten := by
    rw [h.remaining_eq, h.rest_eq, List.map_cons, List.flatten_cons]
    rfl
  refine ⟨_, nextBytes?_of_line hd h.dialect_eq htexts hrest, fun position => ?_⟩
  exact ⟨h.dialect_eq, h.nullToken_eq, h.columns_eq, h.readable, rfl, fun hzero => (nomatch hzero),
      fun hex => absurd hex h.not_exhausted⟩

/-- The rows of lines, as readers hand them out. -/
def recordsOf (columns : List Column) (rows : List Row) : List Record :=
  rows.map fun row => .ok (row.project (columns.map Column.name))

/-- The steps of a reader in front of written lines take the rows of these lines. -/
theorem Leaves.remains (hd : d.IsPlain) (hcolumns : Columns.AreLegible columns)
    (hne : columns ≠ []) {rows : List Row}
    (hrows : ∀ row ∈ rows, IsWritable token columns row) {r : Reader}
    (h : Leaves d token columns r rows) : Stepwise.Remains take r (recordsOf columns rows) := by
  induction rows generalizing r with
  | nil =>
    cases hex : r.exhausted with
    | true => exact Stepwise.remains_nil isSource hex
    | false =>
      have hnext : r.next = ({ r with rest := [] }, .noMore) := by
        unfold Reader.next
        rw [if_neg (by rw [h.readable]; exact Bool.false_ne_true), h.nextBytes?_nil]
      have htake : r.take = ({ r with rest := [], exhausted := true }, .ok none) := by
        unfold take
        rw [if_neg (by rw [hex]; exact Bool.false_ne_true), hnext]
      exact .nil htake
  | cons row rows ih =>
    obtain ⟨after, hbytes, hafter⟩ := h.nextBytes?_cons hd hne
    have hnext := next_of_bytes h.readable hbytes
    have hleaves := hafter (after.position + 1)
    have hconvert := convert_fieldTexts hcolumns (hrows row List.mem_cons_self)
      hleaves.nullToken_eq hleaves.columns_eq
    have htake : r.take = ({ after with position := after.position + 1 },
        .ok (some (.ok (row.project (columns.map Column.name))))) := by
      unfold take
      rw [if_neg h.not_exhausted, hnext]
      dsimp only
      rw [hconvert]
      rfl
    exact .cons htake (ih (fun q hq => hrows q (List.mem_cons_of_mem row hq)) hleaves)

theorem Leaves.readRecords (hd : d.IsPlain) (hcolumns : Columns.AreLegible columns)
    (hne : columns ≠ []) {rows : List Row}
    (hrows : ∀ row ∈ rows, IsWritable token columns row) {r : Reader}
    (h : Leaves d token columns r rows) (max : Nat) :
    ∃ after, r.readRecords max = (after, .ok ((rows.take max).map
        fun row => .ok (row.project (columns.map Column.name)))) ∧
      Stepwise.Remains take after (recordsOf columns (rows.drop max)) ∧
      (rows.length < max → after.exhausted = true) := by
  obtain ⟨after, hread, hafter, hfull⟩ :=
    (h.remains hd hcolumns hne hrows).readLoop isSource max
  unfold recordsOf at hread hafter hfull ⊢
  rw [List.length_map] at hfull
  rw [readRecords_eq, List.map_take, List.map_drop]
  exact ⟨after, hread, hafter, hfull⟩

/-- A reader in front of written lines has the rows of these lines left. -/
theorem Leaves.reads (hd : d.IsPlain) (hcolumns : Columns.AreLegible columns)
    (hne : columns ≠ []) {rows : List Row}
    (hrows : ∀ row ∈ rows, IsWritable token columns row) {r : Reader}
    (h : Leaves d token columns r rows) :
    (BulkTransfer.Reader.delimited r).Reads (recordsOf columns rows) :=
  (h.remains hd hcolumns hne hrows).reads isSource

/-- There are at least as many bytes as lines. -/
theorem Leaves.length_le {rows : List Row} {r : Reader} (h : Leaves d token columns r rows) :
    rows.length ≤ r.rest.length := by
  rw [h.rest_eq]
  clear h
  induction rows with
  | nil => exact Nat.le_refl _
  | cons row more ih =>
    have hpos : 0 < (rowLine d token columns row).length :=
      List.length_pos_iff.mpr (Dialect.encodeRecord_ne_nil _)
    rw [List.map_cons, List.flatten_cons, List.length_append, List.length_cons]
    omega

end Reader

end Rows

/-! ## Whole files -/

/-- The header line, where there is one. -/
def headerLine (columns : List Column) (settings : Settings) : Bytes :=
  if settings.header then
    settings.dialect.encodeRecord (columns.map fun c => Bytes.ofText c.name)
  else []

/-- Where a writer puts the line of each row behind what it has written, it puts the lines of all
rows there. -/
theorem output_foldl {ω : Type} (write : ω → Row → ω) (output : ω → Bytes) (line : ω → Row → Bytes)
    (hline : ∀ w row, line (write w row) = line w)
    (hwrite : ∀ w row, output (write w row) = output w ++ line w row) (w : ω) (rows : List Row) :
    output (rows.foldl write w) = output w ++ (rows.map (line w)).flatten := by
  induction rows generalizing w with
  | nil => exact (List.append_nil _).symm
  | cons row more ih =>
    rw [List.foldl_cons, ih, hline, hwrite, List.append_assoc, List.map_cons, List.flatten_cons]

/-- What is written of rows: the header and the lines. -/
theorem output_writeAll (columns : List Column) (settings : Settings) (rows : List Row) :
    (rows.foldl Writer.write (.withSettings columns settings)).output =
      headerLine columns settings ++
        (rows.map (rowLine settings.dialect settings.nullToken columns)).flatten := by
  have hwrite : ∀ (w : Writer) row, (w.write row).output = w.output ++ w.lineOf row := by
    intro w row
    simp [Writer.output, Writer.write]
  have hlines : ∀ row, (Writer.withSettings columns settings).lineOf row =
      rowLine settings.dialect settings.nullToken columns row := by
    intro row
    unfold rowLine fieldTexts
    rw [List.map_map]
    rfl
  have hstart : (Writer.withSettings columns settings).output = headerLine columns settings := by
    unfold Writer.output Writer.withSettings headerLine
    split <;> simp
  have hfold := output_foldl Writer.write Writer.output Writer.lineOf (fun _ _ => rfl) hwrite
    (.withSettings columns settings) rows
  rw [hfold, hstart, funext hlines]

/-- Options that spell delimited text in the same way. -/
structure SameText (o o' : Options) : Prop where
  header : o'.header = o.header
  dialect : Dialect.ofOptions o' = Dialect.ofOptions o
  nullToken : o'.nullToken = o.nullToken

theorem SameText.settings_eq {o o' : Options} (h : SameText o o') :
    Settings.ofOptions o' = Settings.ofOptions o := by
  unfold Settings.ofOptions
  rw [h.header, h.dialect, h.nullToken]

theorem knownOrUntyped_names {columns : List Column} (h : (columns.map Column.name).Nodup) :
    (columns.map Column.name).map (Column.knownOrUntyped columns) = columns := by
  rw [List.map_map]
  refine (List.map_congr_left fun c hc => ?_).trans (List.map_id _)
  unfold Function.comp Column.knownOrUntyped
  rw [Column.find?_of_mem h hc]
  rfl

/-- What was written is opened by the columns of the table, in front of the lines. -/
theorem Reader.withSettings_output {columns : List Column}
    (hcolumns : (columns.map Column.name).Nodup) (hne : columns ≠ []) {settings : Settings}
    (hd : settings.dialect.IsPlain)
    (hclean : settings.header = true → ∀ c ∈ columns, cleanHeader c.name = c.name)
    {rows : List Row} {b : Bytes}
    (hb : (rows.foldl Writer.write (.withSettings columns settings)).output = b)
    (hmark : b.take 3 ≠ byteOrderMark) :
    ∃ r, withSettings (.bytes b) settings ⟨[], columns⟩ = .ok r ∧
      Leaves settings.dialect settings.nullToken columns r rows := by
  have hnames : columns.map Column.name ≠ [] := by simpa using hne
  obtain ⟨name, more, hcons⟩ := List.exists_cons_of_ne_nil hnames
  have hdrop : dropMark b = b := if_neg hmark
  rw [output_writeAll] at hb
  unfold headerLine at hb
  unfold withSettings
  dsimp only
  by_cases hheader : settings.header = true
  · rw [if_pos hheader] at hb ⊢
    let fresh : Reader := ⟨settings.dialect, settings.nullToken, [], b, b, 0, 0, false, false⟩
    have hrest : fresh.remaining =
        settings.dialect.encodeRecord ((columns.map Column.name).map Bytes.ofText) ++
          (rows.map (rowLine settings.dialect settings.nullToken columns)).flatten := by
      show dropMark b = _
      rw [hdrop, ← hb, List.map_map]
      rfl
    have hnext := next_of_bytes (r := fresh) rfl (nextBytes?_of_line hd rfl hnames hrest)
    have hcleaned : (columns.map Column.name).map cleanHeader = columns.map Column.name := by
      rw [List.map_map]
      exact List.map_congr_left fun c hc => hclean hheader c hc
    have hpick : pickNames [] (columns.map Column.name) (columns.map Column.name) =
        columns.map Column.name := by
      unfold pickNames
      simp
    rw [hnext]
    dsimp only
    rw [hcleaned, hpick, hcons]
    dsimp only
    rw [← hcons, knownOrUntyped_names hcolumns]
    exact ⟨_, rfl, rfl, rfl, rfl, rfl, rfl, fun hzero => (nomatch hzero), fun hex => (nomatch hex)⟩
  · rw [if_neg hheader] at hb ⊢
    have hpick : pickNames [] [] (columns.map Column.name) = columns.map Column.name := rfl
    dsimp only
    rw [hpick, hcons]
    dsimp only
    rw [← hcons, knownOrUntyped_names hcolumns]
    exact ⟨_, rfl, rfl, rfl, rfl, rfl, hb.symm, fun _ => hdrop, fun hex => (nomatch hex)⟩

/-- Rows of canonical values are read back from the text that is written of them, whatever bytes
delimit and quote its fields: a batch that is not full has them all, in their order, and ends the
text, and smaller batches take them off the front one after the other. -/
theorem written_rows_read_back {columns : List Column} (hne : columns ≠ [])
    (hcolumns : Columns.AreLegible columns) {settings : Settings}
    (hplain : settings.dialect.IsPlain)
    (hclean : settings.header = true → ∀ c ∈ columns, cleanHeader c.name = c.name)
    {rows : List Row} (hrows : ∀ row ∈ rows, row.Fits columns)
    (havoids : ∀ row ∈ rows, row.AvoidsToken settings.nullToken columns) {output : Bytes}
    (houtput : (rows.foldl Writer.write (.withSettings columns settings)).output = output)
    (hmark : output.take 3 ≠ byteOrderMark) :
    ∃ r, Reader.withSettings (.bytes output) settings ⟨[], columns⟩ = .ok r ∧
      r.columns = columns ∧
      (∀ max, rows.length < max →
        ∃ after, r.readBatch max = (after, .ok ⟨Reader.recordsOf columns rows, true⟩)) ∧
      (BulkTransfer.Reader.delimited r).Reads (Reader.recordsOf columns rows) := by
  obtain ⟨r, hopen, hleaves⟩ :=
    Reader.withSettings_output hcolumns.nodup hne hplain hclean houtput hmark
  have hwritable : ∀ row ∈ rows, IsWritable settings.nullToken columns row :=
    fun row hrow => ⟨hrows row hrow, havoids row hrow⟩
  refine ⟨r, hopen, hleaves.columns_eq, ?_, hleaves.reads hplain hcolumns hne hwritable⟩
  intro max hmax
  obtain ⟨after, hread, -, hfull⟩ := hleaves.readRecords hplain hcolumns hne hwritable max
  rw [List.take_of_length_le (Nat.le_of_lt hmax)] at hread
  refine ⟨after, ?_⟩
  unfold Reader.readBatch
  rw [hread]
  dsimp only
  rw [hfull hmax]
  rfl

/-- A delimiter that is a part of a letter and a quote that literals use too, with a text that holds
both and the ends of two lines, an empty text, and a row without a list. -/
theorem written_rows_read_back_any_bytes :
    let columns : List Column := [⟨"note", some .text⟩, ⟨"parts", some (.list .text)⟩]
    let settings : Settings := ⟨⟨0xc3, 0x27, none⟩, true, "null"⟩
    let parts := list [text "it's", null]
    let rows : List Row := [⟨[("parts", parts), ("note", text "é'\r\n")]⟩, ⟨[("note", text "")]⟩]
    let output := (rows.foldl Writer.write (.withSettings columns settings)).output
    ∃ r, Reader.withSettings (.bytes output) settings ⟨[], columns⟩ = .ok r ∧
      r.columns = columns ∧
      ∃ after, r.readBatch 3 = (after, .ok
        ⟨[.ok ⟨[("note", text "é'\r\n"), ("parts", parts)]⟩,
          .ok ⟨[("note", text ""), ("parts", null)]⟩], true⟩) := by
  intro columns settings parts rows output
  have hcolumns : Columns.AreLegible columns := by
    refine ⟨?_, ?_, ?_⟩ <;> decide +kernel
  have hplain : settings.dialect.IsPlain := by
    constructor <;> decide
  have hclean : settings.header = true → ∀ c ∈ columns, cleanHeader c.name = c.name := by
    intro _
    decide +kernel
  have hparts : Canonical (.list .text) parts :=
    .list (List.forall_mem_cons.mpr ⟨.text rfl _, List.forall_mem_singleton.mpr (.null _)⟩)
  have hrows : ∀ row ∈ rows, row.Fits columns := by
    intro row hrow c hc type htype
    simp only [rows, columns, List.mem_cons, List.not_mem_nil, or_false] at hrow hc
    rcases hrow with rfl | rfl <;> rcases hc with rfl | rfl <;> obtain rfl := Option.some.inj htype
    · exact .text rfl _
    · exact hparts
    · exact .text rfl _
    · exact .null _
  have havoids : ∀ row ∈ rows, row.AvoidsToken settings.nullToken columns := by
    intro row hrow c hc hnull
    simp only [rows, columns, List.mem_cons, List.not_mem_nil, or_false] at hrow hc
    rcases hrow with rfl | rfl <;> rcases hc with rfl | rfl
    · decide +kernel
    · decide +kernel
    · decide +kernel
    · exact absurd rfl hnull
  have hmark : output.take 3 ≠ byteOrderMark := by decide +kernel
  obtain ⟨r, hopen, hr, hread, -⟩ := written_rows_read_back (List.cons_ne_nil _ _) hcolumns hplain
    hclean hrows havoids rfl hmark
  exact ⟨r, hopen, hr, hread 3 (by decide)⟩

end Delimited

end BulkTransfer
