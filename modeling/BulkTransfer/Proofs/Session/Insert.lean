import BulkTransfer.Proofs.Literal.RoundTrip
import BulkTransfer.Proofs.Session.Growth
import BulkTransfer.Proofs.Session.Names

/-!
Statements that insert rows of canonical values. Whatever their texts hold, the statement is read
as the table, the names and the literals of which it was made, and the row is added to the table.

- `Columns.ArePortable`, `Row.Fits`: tables and rows that statements carry.
- `Statement.insertion?_pieces`: the pieces of a statement.
- `Literal.parseValues_literals`: the values of a statement.
- `Session.execute_insert`: the statement adds the row.
-/

namespace BulkTransfer

open Text Text.Pattern Value

/-- Columns whose names statements can list and do not take for sets, and whose types are known. -/
structure Columns.ArePortable (columns : List Column) : Prop where
  nodup : (columns.map Column.name).Nodup
  listable : ∀ c ∈ columns, Statement.IsListable c.name
  not_set : ∀ c ∈ columns, isSetColumn c.name = false
  typed : ∀ c ∈ columns, c.type?.isSome = true

/-- A row has a canonical value, or none, in each of the columns. -/
def Row.Fits (columns : List Column) (r : Row) : Prop :=
  ∀ c ∈ columns, ∀ type ∈ c.type?, Canonical type (r.getD c.name)

theorem Row.Fits.canonical {columns : List Column} {row : Row} (h : row.Fits columns) {c : Column}
    (hc : c ∈ columns) (htyped : c.type?.isSome = true) :
    ∃ type, c.type? = some type ∧ Canonical type (row.getD c.name) := by
  obtain ⟨type, htype⟩ := Option.isSome_iff_exists.mp htyped
  exact ⟨type, htype, h c hc type htype⟩

/-! ## The pieces of a statement -/

namespace Statement

/-- A statement is read as the pieces of which it was made. -/
theorem insertion?_pieces {table names : List Char} (hne : table ≠ [])
    (htable : ∀ c ∈ table, Command.isTableChar c = true) (hnames : ')' ∉ names)
    (literals : List Char) :
    insertion? ("INSERT INTO ".toList ++ (table ++ ' ' :: '(' ::
        (names ++ ')' :: ' ' :: ("VALUES".toList ++ ' ' :: '(' :: (literals ++ [')']))))) =
      some ⟨table, names, '(' :: literals ++ [')']⟩ := by
  have hfirst : ∀ rest : List Char, ∀ c ∈ (table ++ rest).head?, isBlank c = false := by
    intro rest c hc
    obtain ⟨d, more, rfl⟩ := List.exists_cons_of_ne_nil hne
    obtain rfl : d = c := Option.some.inj hc
    exact isBlank_of_isTableChar (htable d List.mem_cons_self)
  have hrun : ∀ c ∈ names, (c != ')') = true := by
    intro c hc
    rw [bne_iff_ne]
    rintro rfl
    exact hnames hc
  have hword : ∀ c ∈ "VALUES".toList, isKeyLetter c c = true := List.all_eq_true.mp (by decide)
  have hvalues : matchValues (fun values => ⟨table, names, values⟩) ('(' :: (literals ++ [')'])) =
      some ⟨table, names, '(' :: literals ++ [')']⟩ := by
    unfold matchValues
    rw [mark, if_pos rfl]
    exact greedy_concat rfl rfl
  rw [insertion?_append, greedy_of_stop (hfirst _)]
  refine greedySome_append hne htable (by simp; decide) ?_
  refine blanks_space (by simp; decide) ?_
  rw [mark, if_pos rfl]
  refine greedy_append hrun (by simp) ?_
  rw [mark, if_pos rfl]
  refine blanks_space (by simp; decide) ?_
  rw [keyword_append hword]
  exact blanks_space (by simp; decide) hvalues

theorem toList_columnLiteral (row : Row) (c : Column) :
    (columnLiteral row c).toList = literal c.name c.type? (row.getD c.name) := by
  unfold columnLiteral Row.getD
  cases row.get? c.name with
  | none => rw [Option.getD_none, literal]
  | some v => exact String.toList_ofList

end Statement

/-! ## The values of a statement -/

namespace Literal

/-- The value and the literal of a row in a column. -/
def columnPart (row : Row) (c : Column) : Value × List Char :=
  (row.getD c.name, literal c.name c.type? (row.getD c.name))

/-- The literals of columns behind the first ones are read back by the types at their places. -/
theorem readsEach_columns {row : Row} {levels size : Nat} (before : List (Option ColumnType))
    {columns : List Column} (h : ∀ c ∈ columns, ∃ type, c.type? = some type ∧
      ReadsBack c.name type (row.getD c.name))
    (hlen : ∀ c ∈ columns, (columnPart row c).2.length ≤ levels) :
    ReadsEach (fun i => readValue levels size ((before ++ columns.map Column.type?).getD i none))
      before.length (columns.map (columnPart row)) := by
  induction columns generalizing before with
  | nil => trivial
  | cons c columns ih =>
    obtain ⟨type, htype, hread⟩ := h c List.mem_cons_self
    have hlevels := hlen c List.mem_cons_self
    have hplace : (before ++ (c :: columns).map Column.type?).getD before.length none =
        some type := by
      simp [htype]
    unfold columnPart at hlevels
    rw [htype] at hlevels
    rw [List.map_cons]
    refine ⟨fun rest hr => ?_, ?_⟩
    · show readValue levels size
        ((before ++ (c :: columns).map Column.type?).getD before.length none)
        (literal c.name c.type? (row.getD c.name) ++ rest) = _
      rw [hplace, htype]
      exact hread levels size rest hlevels hr
    · have hmore := ih (before ++ [c.type?]) (fun d hd => h d (List.mem_cons_of_mem c hd))
        fun d hd => hlen d (List.mem_cons_of_mem c hd)
      rw [List.length_append, List.append_assoc, List.singleton_append] at hmore
      exact hmore

/-- The values of a statement are those of the row. -/
theorem parseValues_literals {columns : List Column} (hcolumns : Columns.ArePortable columns)
    {row : Row} (hrow : row.Fits columns) :
    parseValues
        ('(' :: commaSeparated (columns.map fun c => (columnPart row c).2) ++ [')'])
        (columns.map Column.type?) =
      .ok (columns.map fun c => row.getD c.name) := by
  let text := '(' :: commaSeparated (columns.map fun c => (columnPart row c).2) ++ [')']
  have hlen : ∀ c ∈ columns, (columnPart row c).2.length ≤ text.length + 1 := by
    intro c hc
    have := length_le_of_mem (List.mem_map_of_mem (f := fun c => (columnPart row c).2) hc)
    simp only [text, List.length_append, List.length_cons]
    omega
  have hparts : ReadsEach
      (fun i => readValue (text.length + 1) (Bytes.lengthOf text)
        ((columns.map Column.type?).getD i none)) 0 (columns.map (columnPart row)) := by
    refine readsEach_columns [] (fun c hc => ?_) hlen
    obtain ⟨type, htype, hvalue⟩ := hrow.canonical hc (hcolumns.typed c hc)
    exact ⟨type, htype, readsBack_of_canonical (hcolumns.not_set c hc) hvalue⟩
  have hstart : ∀ p ∈ columns.map (columnPart row), StartsOpen p.2 := by
    intro p hp
    obtain ⟨c, hc, rfl⟩ := List.mem_map.mp hp
    obtain ⟨type, htype, hvalue⟩ := hrow.canonical hc (hcolumns.typed c hc)
    unfold columnPart
    rw [htype]
    exact startsOpen_literal c.name hvalue
  have hread := readSequence_commaSeparated (.inr (.inr rfl))
    (fun i s => readValue_blank _ _ _ s) [] hparts hstart
  have hopen : expect (Bytes.lengthOf text) '(' text =
      .ok (commaSeparated ((columns.map (columnPart row)).map Prod.snd) ++ [')']) := by
    unfold expect
    rw [show trimStart text = text from trimStart_eq_self (by decide)]
    simp [text, Function.comp_def]
  have hvalues : (columns.map (columnPart row)).map Prod.fst =
      columns.map fun c => row.getD c.name := by
    simp [columnPart, Function.comp_def]
  rw [hvalues] at hread
  unfold parseValues
  simp only [text] at hopen hread
  simp only [hopen, hread, bind, Except.bind, pure, Except.pure]
  simp [finish, trimStart]

end Literal

/-! ## The row of a statement -/

namespace Session

/-- Names that find columns of a table select these columns. -/
theorem selectColumns_names {table columns : List Column}
    (h : ∀ c ∈ columns, Column.find? table c.name = some c) :
    selectColumns table (columns.map Column.name) = .ok columns := by
  induction columns with
  | nil => rfl
  | cons c columns ih =>
    rw [List.map_cons, selectColumns, h c List.mem_cons_self]
    dsimp only
    rw [ih fun d hd => h d (List.mem_cons_of_mem c hd)]

/-- A session that fails no write because it was asked to. -/
def TakesWrites (s : Session) : Prop := s.plan.allWrites = false ∧ s.plan.writesWith = []

theorem plannedFault?_eq_none {s : Session} (h : s.TakesWrites) (text : String) :
    s.plannedFault? text = none := by
  unfold plannedFault?
  rw [h.1, h.2]
  rfl

/-- A statement that inserts a row of canonical values adds it to the table that it names, with the
columns of the statement and null in those that the row lacks. -/
theorem execute_insert {s : Session} {table : String} (hne : table.toList ≠ [])
    (htable : ∀ c ∈ table.toList, Command.isTableChar c = true) {t : Table}
    (ht : s.tables.get? (s.qualify table) = some t) {columns : List Column}
    (hcolumns : Columns.ArePortable columns)
    (hfind : ∀ c ∈ columns, Column.find? t.columns c.name = some c)
    {row : Row} (hrow : row.Fits columns)
    (hs : s.plannedFault? (Statement.insert (Statement.insertStart table columns) columns row) =
      none) :
    s.execute (Statement.insert (Statement.insertStart table columns) columns row) =
      ({ s with statements := s.statements + 1 }.push (s.qualify table) t
        (row.project (columns.map Column.name)), .ok ()) := by
  have hlistable : ∀ n ∈ columns.map Column.name, Statement.IsListable n := by
    intro n hn
    obtain ⟨c, hc, rfl⟩ := List.mem_map.mp hn
    exact hcolumns.listable c hc
  have hliterals : (joined ", " (columns.map (Statement.columnLiteral row))).toList =
      Literal.commaSeparated (columns.map fun c => (Literal.columnPart row c).2) := by
    unfold joined Literal.commaSeparated Literal.columnPart
    rw [String.toList_ofList, List.map_map]
    simp [Function.comp_def, Statement.toList_columnLiteral]
  have hpieces := Statement.insertion?_pieces hne htable
    (Statement.close_not_mem_nameList fun n hn => (hlistable n hn).no_close)
    (Literal.commaSeparated (columns.map fun c => (Literal.columnPart row c).2))
  have htypes : typesOf t.columns (columns.map Column.name) = .ok (columns.map Column.type?) := by
    unfold typesOf
    rw [selectColumns_names hfind]
    rfl
  have hzip := Row.ofFields_zip row hcolumns.nodup
  rw [List.map_map] at hzip
  have hinsertion : s.insertion
      (Statement.insert (Statement.insertStart table columns) columns row) =
        .ok (s.qualify table, t, row.project (columns.map Column.name)) := by
    unfold insertion
    rw [hs, Statement.toList_insert, hliterals, hpieces]
    dsimp only
    rw [String.ofList_toList, table?_of_get? ht,
      Statement.names_nameList_iff.mpr fun n hn => (hlistable n hn).isSelectable]
    dsimp only
    rw [htypes]
    dsimp only
    rw [Literal.parseValues_literals hcolumns hrow]
    dsimp only
    rw [← hzip]
    rfl
  unfold execute
  rw [hinsertion]

end Session

end BulkTransfer
