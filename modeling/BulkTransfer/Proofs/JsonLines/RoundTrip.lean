import BulkTransfer.JsonLines.Writer
import BulkTransfer.Proofs.Delimited.RoundTrip
import BulkTransfer.Proofs.JsonLines.Cursor
import BulkTransfer.Proofs.Value.Json

/-!
Lines of JSON that were written from rows of canonical values are read back as these rows.

- `rowOf_objectOf`: the object of a row is read as the row.
- `nextLine_line`: a written line is taken off the front.
- `Reader.Leaves`: a reader in front of written lines.
- `Reader.Leaves.reads`: every reading takes rows off these lines.
- `written_lines_read_back`: so the rows come back, from the first to the last.
-/

namespace BulkTransfer.JsonLines

open Value Text

/-! ## One row -/

/-- The fields of the object of a row, in the order of the columns. -/
def fieldsOf (columns : List Column) (row : Row) : List (String × Json) :=
  columns.map fun c => (c.name, (row.getD c.name).toJson)

theorem objectText_eq (columns : List Column) (row : Row) :
    Writer.objectText columns row = (Json.object (fieldsOf columns row)).render := by
  rw [Json.render]
  rfl

/-- Columns that objects tell apart and whose types restore their values. -/
structure Columns.AreJson (columns : List Column) : Prop where
  nodup : (columns.map Column.name).Nodup
  typed : ∀ c ∈ columns, ∃ type, c.type? = some type ∧ type.IsJson (Json.maxNesting - 1)

/-- Rows whose lines can be read back. -/
structure IsWritable (columns : List Column) (row : Row) : Prop where
  fits : row.Fits columns
  ordered : ∀ c ∈ columns, (row.getD c.name).HasOrderedKeys

section Rows

variable {columns : List Column} {row : Row}

/-- The object of a row is read from its text. -/
theorem parse_objectText (hcolumns : Columns.AreJson columns) (hrow : IsWritable columns row) :
    Json.parse (Writer.objectText columns row) =
      .ok (.object (Keyed.ofPairs (fieldsOf columns row))) := by
  rw [objectText_eq]
  refine Json.parse_object ?_
  intro f hf
  obtain ⟨c, hc, rfl⟩ := List.mem_map.mp hf
  obtain ⟨type, htype, hjson⟩ := hcolumns.typed c hc
  exact isReadable_toJson hjson (hrow.fits c hc type htype) (hrow.ordered c hc)

/-- The values that an object has for the columns are put into the row one after the other. -/
theorem fillRow_fields {fields : List (String × Json)} {columns : List Column}
    (hread : ∀ c ∈ columns, ∃ j, Keyed.get? c.name fields = some j ∧
      valueOf j c.type? = .ok (row.getD c.name)) (before : Row) :
    fillRow fields columns before =
      .ok ((columns.map fun c => (c.name, row.getD c.name)).foldl
        (fun r p => r.insert p.1 p.2) before) := by
  induction columns generalizing before with
  | nil => rfl
  | cons c columns ih =>
    obtain ⟨j, hget, hvalue⟩ := hread c List.mem_cons_self
    rw [fillRow, hget]
    dsimp only
    rw [hvalue]
    exact ih (fun d hd => hread d (List.mem_cons_of_mem c hd)) _

/-- The object of a row is read as the row. -/
theorem rowOf_objectOf (hcolumns : Columns.AreJson columns) (hrow : IsWritable columns row) :
    rowOf columns (.ok (.object (Keyed.ofPairs (fieldsOf columns row)))) =
      .ok (row.project (columns.map Column.name)) := by
  have hnames : ((fieldsOf columns row).map Prod.fst).Nodup := by
    rw [fieldsOf, List.map_map]
    exact hcolumns.nodup
  have hread : ∀ c ∈ columns, ∃ j, Keyed.get? c.name (Keyed.ofPairs (fieldsOf columns row)) =
      some j ∧ valueOf j c.type? = .ok (row.getD c.name) := by
    intro c hc
    obtain ⟨type, htype, hjson⟩ := hcolumns.typed c hc
    have hmem : (c.name, (row.getD c.name).toJson) ∈ fieldsOf columns row :=
      List.mem_map_of_mem hc
    refine ⟨_, Keyed.get?_ofPairs hnames hmem, ?_⟩
    rw [htype]
    exact valueOf_toJson hjson (hrow.fits c hc type htype) (hrow.ordered c hc)
  have hnodup : ((columns.map fun c => (c.name, row.getD c.name)).map Prod.fst).Nodup := by
    rw [List.map_map]
    exact hcolumns.nodup
  rw [rowOf, fillRow_fields hread]
  refine congrArg Except.ok ((Row.ofFields_of_nodup hnodup).trans ?_)
  rw [Row.project, List.map_map]
  rfl

end Rows

/-! ## Lines -/

theorem newline_not_mem_escapeChar (c : Char) : '\n' ∉ Json.escapeChar c := by
  have hhex : ∀ n < 16, '\n' ≠ Json.hexDigit n := by decide
  unfold Json.escapeChar
  repeat' split
  all_goals first | decide | skip
  · next hcontrol =>
    simp only [List.mem_cons, List.not_mem_nil, or_false, not_or]
    exact ⟨by decide, by decide, by decide, by decide, hhex _ (by omega), hhex _ (by omega)⟩
  · next hline _ _ _ _ _ =>
    rw [List.mem_singleton]
    exact Ne.symm hline

theorem newline_not_mem_quote (s : String) : '\n' ∉ Json.quote s := by
  rw [Json.quote]
  simp only [List.cons_append, List.mem_cons, List.mem_append, List.not_mem_nil, or_false,
    List.mem_flatMap, not_or, not_exists, not_and]
  exact ⟨by decide, fun c _ => newline_not_mem_escapeChar c, by decide⟩

/-- Parts without line feeds have none with commas between them. -/
theorem newline_not_mem_parts {β : Type} {f : β → List Char} {more : List β}
    (h : ∀ b ∈ more, '\n' ∉ f b) : '\n' ∉ more.flatMap fun b => ',' :: f b := by
  intro hmem
  obtain ⟨b, hb, hpart⟩ := List.mem_flatMap.mp hmem
  rcases List.mem_cons.mp hpart with hcomma | hinner
  · exact absurd hcomma (by decide)
  · exact h b hb hinner

theorem newline_not_mem_object {fields : List (String × Json)}
    (h : ∀ f ∈ fields, '\n' ∉ f.2.render) : '\n' ∉ (Json.object fields).render := by
  have hfield : ∀ f ∈ fields, '\n' ∉ Json.fieldText f := by
    intro f hf
    rw [Json.fieldText, List.mem_append, List.mem_cons, not_or, not_or]
    exact ⟨newline_not_mem_quote f.1, by decide, h f hf⟩
  have hfields : '\n' ∉ Json.renderFields fields := by
    cases fields with
    | nil => exact List.not_mem_nil
    | cons f more =>
      rw [Json.renderFields_cons, List.mem_append, not_or]
      exact ⟨hfield f List.mem_cons_self,
        newline_not_mem_parts fun g hg => hfield g (List.mem_cons_of_mem f hg)⟩
  rw [Json.render, List.cons_append, List.mem_cons, List.mem_append, List.mem_singleton, not_or,
    not_or]
  exact ⟨by decide, hfields, by decide⟩

/-- No line feed stands in the written form of a value. -/
theorem newline_not_mem_render {room : Nat} {j : Json} (h : j.IsReadable room) :
    '\n' ∉ j.render := by
  induction h with
  | null => decide
  | bool room b =>
    cases b with
    | true => decide
    | false => decide
  | @int room i =>
    have hdigits : '\n' ∉ Integer.digits i.natAbs := fun hmem =>
      absurd (Integer.isDigit_digits _ _ hmem) (by decide)
    rw [Json.render, Integer.render]
    split
    · rw [List.mem_cons, not_or]
      exact ⟨by decide, hdigits⟩
    · exact hdigits
  | string room s =>
    rw [Json.render]
    exact newline_not_mem_quote s
  | @array room items h ih =>
    have hitems : '\n' ∉ Json.renderItems items := by
      cases items with
      | nil => exact List.not_mem_nil
      | cons j more =>
        rw [Json.renderItems_cons, List.mem_append, not_or]
        exact ⟨ih j List.mem_cons_self,
          newline_not_mem_parts fun k hk => ih k (List.mem_cons_of_mem j hk)⟩
    rw [Json.render, List.cons_append, List.mem_cons, List.mem_append, List.mem_singleton, not_or,
      not_or]
    exact ⟨by decide, hitems, by decide⟩
  | object _ h ih => exact newline_not_mem_object ih

/-- A line that neither starts nor ends with a blank is taken off the front. -/
theorem nextLine_line {s : List Char} (hne : s ≠ []) (hfirst : ∀ c ∈ s.head?, isBlank c = false)
    (hlast : ∀ c ∈ s.getLast?, isBlank c = false) (hno : '\n' ∉ s) (rest : Bytes) :
    nextLine (Bytes.ofText (String.ofList (s ++ ['\n'])) ++ rest) =
      (rest, .ok (some (String.ofList s))) := by
  have htake := Bytes.takeLine_ofText hno rest
  have hbytes : Bytes.ofText (String.ofList (s ++ ['\n'])) ++ rest ≠ [] := by
    rw [Bytes.ofText_ofList, List.flatMap_append]
    simp [String.utf8EncodeChar]
  have htrim : trim (s ++ ['\n']) = s := by
    have hnewline : ∀ c ∈ ['\n'], isBlank c = true := List.all_eq_true.mp (by decide)
    exact dropEnds_append (List.forall_mem_nil _) hnewline hfirst hlast hne
  have hdrop : dropLineEnd (s ++ ['\n']) = s := by
    have hnewline : ∀ c ∈ ['\n'], (c == '\r' || c == '\n') = true :=
      List.all_eq_true.mp (by decide)
    have hreverse : s.reverse.dropWhile (fun c => c == '\r' || c == '\n') = s.reverse := by
      obtain ⟨c, more, hcons⟩ := List.exists_cons_of_ne_nil (List.reverse_ne_nil_iff.mpr hne)
      have hblank : isBlank c = false := by
        apply hlast
        rw [← List.head?_reverse, hcons]
        rfl
      rw [hcons]
      refine List.dropWhile_cons_of_neg ?_
      rw [Bool.or_eq_true, beq_iff_eq, beq_iff_eq]
      rintro (rfl | rfl) <;> exact absurd hblank (by decide)
    rw [dropLineEnd, List.reverse_append]
    show (List.dropWhile (fun c => c == '\r' || c == '\n') s.reverse).reverse = s
    rw [hreverse, List.reverse_reverse]
  obtain ⟨b, more, hcons⟩ := List.exists_cons_of_ne_nil hbytes
  rw [hcons] at htake ⊢
  rw [nextLine, htake]
  dsimp only
  rw [Bytes.toText?_ofText]
  dsimp only
  rw [String.toList_ofList, htrim, List.isEmpty_eq_false_iff.mpr hne, if_neg Bool.false_ne_true,
    hdrop]

/-- The line of a row. -/
def rowLine (columns : List Column) (row : Row) : Bytes :=
  Bytes.ofText (String.ofList (Writer.objectText columns row ++ ['\n']))

section Lines

variable {columns : List Column} {row : Row}

/-- The line of a row is taken off the front. -/
theorem nextLine_rowLine (hcolumns : Columns.AreJson columns) (hrow : IsWritable columns row)
    (rest : Bytes) :
    nextLine (rowLine columns row ++ rest) =
      (rest, .ok (some (String.ofList (Writer.objectText columns row)))) := by
  have hne : Writer.objectText columns row ≠ [] := List.cons_ne_nil _ _
  refine nextLine_line hne ?_ ?_ ?_ rest
  · rintro c ⟨⟩
    decide
  · intro c hc
    rw [Writer.objectText, List.getLast?_concat] at hc
    obtain rfl := Option.some.inj hc
    decide
  · rw [objectText_eq]
    refine newline_not_mem_object ?_
    intro f hf
    obtain ⟨d, hd, rfl⟩ := List.mem_map.mp hf
    obtain ⟨type, htype, hjson⟩ := hcolumns.typed d hd
    exact newline_not_mem_render
      (isReadable_toJson hjson (hrow.fits d hd type htype) (hrow.ordered d hd))

/-- The line of a row is read as the row. -/
theorem rowOf_parseLine (hcolumns : Columns.AreJson columns) (hrow : IsWritable columns row) :
    rowOf columns (parseLine (String.ofList (Writer.objectText columns row))) =
      .ok (row.project (columns.map Column.name)) := by
  rw [parseLine, String.toList_ofList, parse_objectText hcolumns hrow]
  exact rowOf_objectOf hcolumns hrow

end Lines

/-! ## Reading lines -/

namespace Reader

variable {columns : List Column}

/-- A reader in front of the lines of rows, of which it may have taken some already. -/
structure Leaves (columns : List Column) (r : Reader) (rows : List Row) : Prop where
  columns_eq : r.columns = columns
  items_eq : r.items = []
  lines : ∃ taken more, rows = taken ++ more ∧
    r.pending = taken.map (fun row => String.ofList (Writer.objectText columns row)) ∧
    r.rest = (more.map (rowLine columns)).flatten
  exhausted : r.exhausted = true → rows = []

theorem Leaves.not_exhausted {r : Reader} {row : Row} {rows : List Row}
    (h : Leaves columns r (row :: rows)) : r.exhausted = false := by
  rw [Bool.eq_false_iff]
  intro hex
  exact List.cons_ne_nil row rows (h.exhausted hex)

theorem next_of_pending {r : Reader} (hitems : r.items = []) {line : String} {more : List String}
    (h : r.pending = line :: more) :
    r.next = ({ r with pending := more }, .ok (some (parseLine line))) := by
  unfold next
  simp only [hitems, h]

theorem next_of_nextLine {r : Reader} (hitems : r.items = []) (hpending : r.pending = [])
    (hex : r.exhausted = false) {rest : Bytes} {line? : Option String}
    (h : nextLine r.rest = (rest, .ok line?)) :
    r.next = ({ r with rest := rest, exhausted := line?.isNone }, .ok (line?.map parseLine)) := by
  unfold next
  simp only [hitems, hpending, hex, Bool.false_eq_true, if_false, h]
  cases line? <;> rfl

/-- The next line is the one of the first row. -/
theorem Leaves.next_cons (hcolumns : Columns.AreJson columns) {r : Reader} {row : Row}
    {rows : List Row} (hrow : IsWritable columns row) (h : Leaves columns r (row :: rows)) :
    ∃ after, r.next =
        (after, .ok (some (parseLine (String.ofList (Writer.objectText columns row))))) ∧
      ∀ position, Leaves columns { after with position := position } rows := by
  obtain ⟨taken, more, hrows, hpending, hrest⟩ := h.lines
  have hex : ∀ {rows : List Row}, r.exhausted = true → rows = [] := by
    intro rows hex
    rw [h.not_exhausted] at hex
    cases hex
  cases taken with
  | cons first taken =>
    obtain ⟨rfl, rfl⟩ := List.cons.inj hrows
    refine ⟨_, next_of_pending h.items_eq hpending, fun position => ?_⟩
    exact ⟨h.columns_eq, h.items_eq, ⟨taken, more, rfl, rfl, hrest⟩, hex⟩
  | nil =>
    obtain rfl : row :: rows = more := hrows
    have hline := nextLine_rowLine hcolumns hrow (rows.map (rowLine columns)).flatten
    rw [← List.flatten_cons, ← List.map_cons, ← hrest] at hline
    refine ⟨_, next_of_nextLine h.items_eq hpending h.not_exhausted hline, fun position => ?_⟩
    exact ⟨h.columns_eq, h.items_eq, ⟨[], rows, rfl, hpending, rfl⟩, fun hdone =>
      absurd hdone Bool.false_ne_true⟩

/-- Behind the last line nothing is found. -/
theorem Leaves.next_nil {r : Reader} (h : Leaves columns r []) :
    ∃ after, r.next = (after, .ok none) := by
  obtain ⟨taken, more, hrows, hpending, hrest⟩ := h.lines
  obtain ⟨rfl, rfl⟩ := List.append_eq_nil_iff.mp hrows.symm
  rw [List.map_nil] at hpending
  cases hex : r.exhausted with
  | true =>
    refine ⟨r, ?_⟩
    unfold next
    simp only [h.items_eq, hpending, hex, if_true]
  | false =>
    have hline : nextLine r.rest = ([], .ok none) := by
      rw [hrest, List.map_nil, List.flatten_nil, nextLine]
    exact ⟨_, next_of_nextLine h.items_eq hpending hex hline⟩

/-- The steps of a reader in front of written lines take the rows of these lines. -/
theorem Leaves.remains (hcolumns : Columns.AreJson columns) {rows : List Row}
    (hrows : ∀ row ∈ rows, IsWritable columns row) {r : Reader} (h : Leaves columns r rows) :
    Stepwise.Remains take r (Delimited.Reader.recordsOf columns rows) := by
  induction rows generalizing r with
  | nil =>
    obtain ⟨after, hnext⟩ := h.next_nil
    have htake : r.take = (after, .ok none) := by
      unfold take
      rw [hnext]
    exact .nil htake
  | cons row rows ih =>
    obtain ⟨after, hnext, hafter⟩ := h.next_cons hcolumns (hrows row List.mem_cons_self)
    have hleaves := hafter (after.position + 1)
    have hrow : rowOf after.columns
        (parseLine (String.ofList (Writer.objectText columns row))) =
          .ok (row.project (columns.map Column.name)) := by
      rw [(hafter after.position).columns_eq]
      exact rowOf_parseLine hcolumns (hrows row List.mem_cons_self)
    have htake : r.take = ({ after with position := after.position + 1 },
        .ok (some (.ok (row.project (columns.map Column.name))))) := by
      unfold take recordOf
      rw [hnext]
      dsimp only
      rw [hrow]
    exact .cons htake (ih (fun q hq => hrows q (List.mem_cons_of_mem row hq)) hleaves)

theorem Leaves.readRecords (hcolumns : Columns.AreJson columns) {rows : List Row}
    (hrows : ∀ row ∈ rows, IsWritable columns row) {r : Reader} (h : Leaves columns r rows)
    (max : Nat) :
    ∃ after, r.readRecords max = (after, .ok (Delimited.Reader.recordsOf columns (rows.take max))) ∧
      Stepwise.Remains take after (Delimited.Reader.recordsOf columns (rows.drop max)) ∧
      (rows.length < max → after.isDone = true) := by
  obtain ⟨after, hread, hafter, hdone⟩ := (h.remains hcolumns hrows).readLoop isSource max
  unfold Delimited.Reader.recordsOf at hread hafter hdone ⊢
  rw [List.length_map] at hdone
  rw [readRecords_eq, List.map_take, List.map_drop]
  exact ⟨after, hread, hafter, hdone⟩

/-- A reader in front of written lines has the rows of these lines left. -/
theorem Leaves.reads (hcolumns : Columns.AreJson columns) {rows : List Row}
    (hrows : ∀ row ∈ rows, IsWritable columns row) {r : Reader} (h : Leaves columns r rows) :
    (BulkTransfer.Reader.json r).Reads (Delimited.Reader.recordsOf columns rows) :=
  (h.remains hcolumns hrows).reads isSource

end Reader

/-! ## Whole files -/

/-- What is written of rows: the lines of the rows. -/
theorem output_writeAll (columns : List Column) (rows : List Row) :
    (rows.foldl Writer.write (.new columns)).output = (rows.map (rowLine columns)).flatten := by
  have hwrite : ∀ (w : Writer) row, (w.write row).output = w.output ++ w.lineOf row := by
    intro w row
    simp [Writer.output, Writer.write]
  exact Delimited.output_foldl Writer.write Writer.output Writer.lineOf (fun _ _ => rfl) hwrite
    (.new columns) rows

/-- What was written is opened by the columns of the table, in front of the lines. -/
theorem Reader.ofStream_lines {columns : List Column} (hcolumns : Columns.AreJson columns)
    (hne : columns ≠ []) {rows : List Row} (hrows : ∀ row ∈ rows, IsWritable columns row) :
    ∃ r, ofStream (.bytes (rows.map (rowLine columns)).flatten) ⟨[], columns⟩ = .ok r ∧
      Leaves columns r rows := by
  have hnames : columns.map Column.name ≠ [] := by simpa using hne
  have hknown := Delimited.knownOrUntyped_names hcolumns.nodup
  have hopen : ∀ r : Reader, ofBytes (rows.map (rowLine columns)).flatten = .ok r →
      ofStream (.bytes (rows.map (rowLine columns)).flatten) ⟨[], columns⟩ =
        .ok { r with columns := columns } := by
    intro r hr
    unfold ofStream
    dsimp only
    rw [hr]
    simp only [List.isEmpty_nil, Bool.not_true, Bool.false_eq_true, if_false,
      List.isEmpty_eq_false_iff.mpr hne, Bool.not_false, if_true,
      List.isEmpty_eq_false_iff.mpr hnames, Bool.false_and, hknown]
  cases rows with
  | nil =>
    have hbytes : ofBytes ([].map (rowLine columns)).flatten = .ok ⟨[], [], [], [], 0, true⟩ := by
      rw [List.map_nil, List.flatten_nil, ofBytes, nextLine]
    exact ⟨_, hopen _ hbytes, rfl, rfl, ⟨[], [], rfl, rfl, rfl⟩, fun _ => rfl⟩
  | cons row rows =>
    have hline := nextLine_rowLine hcolumns (hrows row List.mem_cons_self)
      (rows.map (rowLine columns)).flatten
    have hbytes : ofBytes ((row :: rows).map (rowLine columns)).flatten =
        .ok ⟨[], (rows.map (rowLine columns)).flatten,
          [String.ofList (Writer.objectText columns row)], [], 0, false⟩ := by
      rw [List.map_cons, List.flatten_cons, ofBytes, hline]
      dsimp only
      rw [String.toList_ofList, Writer.objectText, List.cons_append,
        trimStart_eq_self (by decide)]
      rfl
    exact ⟨_, hopen _ hbytes, rfl, rfl, ⟨[row], rows, rfl, rfl, rfl⟩, fun hex =>
      absurd hex Bool.false_ne_true⟩

/-- Rows of canonical values are read back from the lines that are written of them: a batch that is
not full has them all, in their order, and ends the text, and smaller batches take them off the
front one after the other. -/
theorem written_lines_read_back {columns : List Column} (hne : columns ≠ [])
    (hcolumns : Columns.AreJson columns) {rows : List Row}
    (hrows : ∀ row ∈ rows, row.Fits columns)
    (hordered : ∀ row ∈ rows, ∀ c ∈ columns, (row.getD c.name).HasOrderedKeys) {output : Bytes}
    (houtput : (rows.foldl Writer.write (.new columns)).output = output) :
    ∃ r, Reader.ofStream (.bytes output) ⟨[], columns⟩ = .ok r ∧ r.columns = columns ∧
      (∀ max, rows.length < max → ∃ after, r.readBatch max =
        (after, .ok ⟨Delimited.Reader.recordsOf columns rows, true⟩)) ∧
      (BulkTransfer.Reader.json r).Reads (Delimited.Reader.recordsOf columns rows) := by
  have hwritable : ∀ row ∈ rows, IsWritable columns row := fun row hrow =>
    ⟨hrows row hrow, hordered row hrow⟩
  obtain ⟨r, hopen, hleaves⟩ := Reader.ofStream_lines hcolumns hne hwritable
  rw [output_writeAll] at houtput
  subst houtput
  refine ⟨r, hopen, hleaves.columns_eq, ?_, hleaves.reads hcolumns hwritable⟩
  intro max hmax
  obtain ⟨after, hread, -, hdone⟩ := hleaves.readRecords hcolumns hwritable max
  rw [List.take_of_length_le (Nat.le_of_lt hmax)] at hread
  refine ⟨after, ?_⟩
  unfold Reader.readBatch
  rw [hread]
  dsimp only
  rw [hdone hmax]

/-- Maps with numbers and with texts for keys, bytes in pairs in a set, and a row without any. -/
theorem written_lines_read_back_maps :
    let columns : List Column := [⟨"counts", some (.map .int (.list .text))⟩,
      ⟨"names", some (.map .text .boolean)⟩, ⟨"parts", some (.set (.tuple [.blob, .bigint]))⟩]
    let counts := map [(int 2, list [text "a\n\"", null]), (int (-1), list [])]
    let names := map [(text "0x", bool true), (text "[", null)]
    let parts := set [tuple [bytes [0, 255], int (-9223372036854775808)]]
    let rows : List Row :=
      [⟨[("parts", parts), ("names", names), ("counts", counts)]⟩, ⟨[]⟩]
    let output := (rows.foldl Writer.write (.new columns)).output
    ∃ r, Reader.ofStream (.bytes output) ⟨[], columns⟩ = .ok r ∧ r.columns = columns ∧
      ∃ after, r.readBatch 3 = (after, .ok
        ⟨[.ok ⟨[("counts", counts), ("names", names), ("parts", parts)]⟩,
          .ok ⟨[("counts", null), ("names", null), ("parts", null)]⟩], true⟩) := by
  intro columns counts names parts rows output
  have hcolumns : Columns.AreJson columns := by
    refine ⟨by decide, ?_⟩
    intro c hc
    simp only [columns, List.mem_cons, List.not_mem_nil, or_false] at hc
    rcases hc with rfl | rfl | rfl
    · exact ⟨_, rfl, .otherKeys (show 124 + 2 = _ from rfl) rfl rfl (.list (.scalar 123 rfl))⟩
    · exact ⟨_, rfl, .textKeys (show 125 + 1 = _ from rfl) rfl (.scalar 125 rfl)⟩
    · refine ⟨_, rfl, .mapless (.set (.tuple fun t ht => ?_))⟩
      simp only [List.mem_cons, List.not_mem_nil, or_false] at ht
      rcases ht with rfl | rfl <;> exact .scalar 124 rfl
  have hcounts : Canonical (.map .int (.list .text)) counts := by
    refine .map ?_ ?_ <;> simp only [List.forall_mem_cons]
    · exact ⟨.int rfl (by decide), .int rfl (by decide), List.forall_mem_nil _⟩
    · refine ⟨.list ?_, .list (List.forall_mem_nil _), List.forall_mem_nil _⟩
      simp only [List.forall_mem_cons]
      exact ⟨.text rfl _, .null _, List.forall_mem_nil _⟩
  have hnames : Canonical (.map .text .boolean) names := by
    refine .map ?_ ?_ <;> simp only [List.forall_mem_cons]
    · exact ⟨.text rfl _, .text rfl _, List.forall_mem_nil _⟩
    · exact ⟨.bool true, .null _, List.forall_mem_nil _⟩
  have hparts : Canonical (.set (.tuple [.blob, .bigint])) parts := by
    refine .set (List.forall_mem_singleton.mpr (.tuple rfl ?_))
    simp only [List.zip_cons_cons, List.zip_nil_left, List.forall_mem_cons]
    exact ⟨.bytes _, .int rfl (by decide), List.forall_mem_nil _⟩
  have hrows : ∀ row ∈ rows, row.Fits columns := by
    intro row hrow c hc type htype
    simp only [rows, columns, List.mem_cons, List.not_mem_nil, or_false] at hrow hc
    rcases hrow with rfl | rfl <;> rcases hc with rfl | rfl | rfl <;>
      obtain rfl := Option.some.inj htype
    · exact hcounts
    · exact hnames
    · exact hparts
    all_goals exact .null _
  have hordered : ∀ row ∈ rows, ∀ c ∈ columns, (row.getD c.name).HasOrderedKeys := by
    intro row hrow c hc
    simp only [rows, columns, List.mem_cons, List.not_mem_nil, or_false] at hrow hc
    rcases hrow with rfl | rfl <;> rcases hc with rfl | rfl | rfl
    · refine ⟨by simp, List.pairwise_pair.mpr ?_⟩
      rintro s t ⟨⟩
    · refine ⟨by simp, List.pairwise_pair.mpr ?_⟩
      rintro s t ⟨⟩ ⟨⟩
      decide
    all_goals trivial
  obtain ⟨r, hopen, hr, hread, -⟩ :=
    written_lines_read_back (List.cons_ne_nil _ _) hcolumns hrows hordered rfl
  exact ⟨r, hopen, hr, hread 3 (by decide)⟩

end BulkTransfer.JsonLines
