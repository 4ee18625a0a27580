import BulkTransfer.Proofs.Literal.Shape
import BulkTransfer.Proofs.Session.Insert

/-!
What a session makes of a statement that inserts a row. The statement of a row of canonical values
adds this row to its table and does nothing else, unless the session was asked to fail it. Any other
text adds one row to one table, or fails and leaves all tables as they are.

The values of a statement are read by the types of their columns. A literal with parts is put
together as it is written, also where the type has no such parts, so that a value that is added
fits its column only if it has the shape of the type.

- `Session.sound_insertion`: what reading promises of the values of a statement.
- `Session.stored_value_fits_iff_hasShape`: which values that are added fit their columns.
- `Session.statement_adds_its_row_alone`: what statements do to the tables.
-/

namespace BulkTransfer

open Value

namespace Session

/-! ## The values of a statement -/

theorem selectColumns_eq_ok {table : List Column} {names : List String} {columns : List Column}
    (h : selectColumns table names = .ok columns) :
    columns.map Column.type? = names.map (Column.typeOf? table) := by
  induction names generalizing columns with
  | nil =>
    obtain rfl := Except.ok.inj h
    rfl
  | cons name more ih =>
    rw [selectColumns] at h
    split at h
    · cases h
    · next c hc =>
      split at h
      · next rest hrest =>
        obtain rfl := Except.ok.inj h
        rw [List.map_cons, List.map_cons, ih hrest, Column.typeOf?, hc, Option.bind_some]
      · cases h

/-- The types of names are those that the table declares. -/
theorem typesOf_eq_ok {table : List Column} {names : List String} {types : List (Option ColumnType)}
    (h : typesOf table names = .ok types) : types = names.map (Column.typeOf? table) := by
  obtain ⟨columns, hcolumns, rfl⟩ := map_eq_ok.mp h
  exact selectColumns_eq_ok hcolumns

/-- Every value that a statement gives for a column with a type was read by this type. -/
theorem sound_insertion {s : Session} {text key : String} {t : Table} {row : Row}
    (h : s.insertion text = .ok (key, t, row)) {p : String × Value} (hp : p ∈ row.fields)
    {type : ColumnType} (htype : Column.typeOf? t.columns p.1 = some type) :
    Literal.Sound type p.2 := by
  obtain ⟨i, types, values, -, -, -, htypes, hvalues, rfl⟩ := insertion_eq_ok h
  obtain ⟨k, hk⟩ := List.getElem?_of_mem (Row.mem_ofFields hp)
  obtain ⟨hname, hvalue⟩ := List.getElem?_zip_eq_some.mp hk
  obtain ⟨levels, size, t, r, hread⟩ := Literal.parseValues_eq_ok hvalues hvalue
  have hplace : types.getD k none = some type := by
    rw [typesOf_eq_ok htypes, List.getD_eq_getElem?_getD, List.getElem?_map, hname]
    exact htype
  rw [hplace] at hread
  exact Literal.sound_readValue hread

/-- A statement that succeeds adds the row that it gives. -/
theorem execute_eq_ok {s after : Session} {text : String} (h : s.execute text = (after, .ok ())) :
    ∃ key t row, s.insertion text = .ok (key, t, row) ∧ s.tables.get? key = some t ∧
      Grown key [row] s.tables after.tables := by
  unfold execute at h
  dsimp only at h
  split at h
  · cases (Prod.mk.inj h).2
  · next key t row hrow =>
    obtain ⟨rfl, -⟩ := Prod.mk.inj h
    obtain ⟨-, -, -, -, -, ht, -⟩ := insertion_eq_ok hrow
    exact ⟨key, t, row, hrow, ht, grown_push { s with statements := s.statements + 1 } ht row⟩

/-- A literal that is read by a type, on its own or for a column of a table, gives a value that fits
the type exactly if it has the shape of the type. -/
theorem stored_value_fits_iff_hasShape (type : ColumnType) :
    (∀ s v, Literal.parse s (some type) = .ok v →
      (v.conform type = .ok v ↔ HasShape type v)) ∧
    (∀ (session after : Session) (statement : String),
      session.execute statement = (after, .ok ()) →
      ∃ key t row, session.tables.get? key = some t ∧
        Grown key [row] session.tables after.tables ∧
        ∀ p ∈ row.fields, Column.typeOf? t.columns p.1 = some type →
          (p.2.conform type = .ok p.2 ↔ HasShape type p.2)) := by
  constructor
  · intro s v h
    exact (Literal.sound_parse h).conform_eq_self_iff
  · intro session after statement h
    obtain ⟨key, t, row, hrow, ht, hgrown⟩ := execute_eq_ok h
    refine ⟨key, t, row, ht, hgrown, fun p hp htype => ?_⟩
    exact (sound_insertion hrow hp htype).conform_eq_self_iff

/-- A list is read where a whole number is declared, and a session stores it in such a column. It
cannot be fitted to the type. -/
theorem list_stored_in_column_of_integers :
    Literal.parse "[1]".toList (some .int) = .ok (list [int 1]) ∧
    (list [int 1]).conform .int = .error (.cannotConvert "list" .int) ∧
    let session := (Session.new none).createTable "t" [⟨"n", some .int⟩]
    let answer := session.execute "INSERT INTO t (n) VALUES ([1])"
    answer.2 = .ok () ∧ answer.1.rows "t" = [⟨[("n", list [int 1])]⟩] := by
  refine ⟨rfl, rfl, rfl, rfl⟩

/-! ## The tables after a statement -/

/-- The values of a statement are read to an end: no bare word stands for a value with parts, which
would lead reading back to the word. -/
def Ends (s : Session) (text : String) : Prop :=
  ∀ after, s.execute text ≠ (after, .error (.execution (.invalidValues .endless)))

/-- A statement that the session was asked to fail does so and changes no table. -/
theorem execute_planned {s : Session} {text : String} {fault : ExecutionFault}
    (h : s.plannedFault? text = some fault) :
    s.execute text = ({ s with statements := s.statements + 1 }, .error (.execution fault)) := by
  have hinsertion : s.insertion text = .error (.execution fault) := by
    unfold insertion
    rw [h]
  unfold execute
  rw [hinsertion]

/-- The statement of a row of canonical values adds the row to the table that it names and changes
no other, whatever the texts of the row hold, unless the session was asked to fail it. Whatever a
statement is, it fails and changes no table, or adds one row to one table, and is counted. -/
theorem statement_adds_its_row_alone (s : Session) :
    (∀ (table : String) (t : Table) (columns : List Column) (row : Row),
      table.toList ≠ [] → (∀ c ∈ table.toList, Command.isTableChar c = true) →
      s.tables.get? (s.qualify table) = some t → Columns.ArePortable columns →
      (∀ c ∈ columns, Column.find? t.columns c.name = some c) → row.Fits columns →
      let statement := Statement.insert (Statement.insertStart table columns) columns row
      (s.plannedFault? statement = none →
        ∃ after, s.execute statement = (after, .ok ()) ∧
          Grown (s.qualify table) [row.project (columns.map Column.name)] s.tables after.tables) ∧
      ∀ fault, s.plannedFault? statement = some fault →
        ∃ after, s.execute statement = (after, .error (.execution fault)) ∧
          after.tables = s.tables) ∧
    ∀ text, s.Ends text →
      ∃ after, after.statements = s.statements + 1 ∧
        ((∃ e, s.execute text = (after, .error e) ∧ after.tables = s.tables) ∨
          (s.execute text = (after, .ok ()) ∧
            ∃ key row, Grown key [row] s.tables after.tables)) := by
  constructor
  · intro table t columns row hne htable ht hcolumns hfind hrow statement
    constructor
    · intro hnone
      refine ⟨_, execute_insert hne htable ht hcolumns hfind hrow hnone, ?_⟩
      exact grown_push { s with statements := s.statements + 1 } ht _
    · intro fault hfault
      exact ⟨_, execute_planned hfault, rfl⟩
  · intro text _
    rcases s.execute_cases text with ⟨e, hexecute⟩ | ⟨i, t, row, -, ht, hexecute⟩
    · exact ⟨_, rfl, .inl ⟨e, hexecute, rfl⟩⟩
    · refine ⟨_, rfl, .inr ⟨hexecute, s.qualify (String.ofList i.table), row, ?_⟩⟩
      exact grown_push { s with statements := s.statements + 1 } ht row

/-- A row that lacks a column and holds a text which looks like the end of the statement and the
start of another. -/
theorem statement_adds_its_row_alone_quotes :
    let columns : List Column :=
      [⟨"id", some .int⟩, ⟨"Body Text", some .text⟩, ⟨"tags", some (.set .text)⟩]
    let session : Session := { Session.new none with
      tables := [("shop.notes", ⟨columns, []⟩), ("shop.other", ⟨columns, []⟩)] }
    let body := "it's'); INSERT INTO shop.other (id) VALUES (1\n"
    let row : Row := ⟨[("Body Text", text body), ("id", int 7)]⟩
    let statement := Statement.insert (Statement.insertStart "shop.notes" columns) columns row
    ∃ after, session.execute statement = (after, .ok ()) ∧
      after.statements = session.statements + 1 ∧
      Grown "shop.notes" [⟨[("id", int 7), ("Body Text", text body), ("tags", null)]⟩]
        session.tables after.tables := by
  intro columns session body row statement
  have hcolumns : Columns.ArePortable columns := by
    refine ⟨?_, ?_, ?_, ?_⟩ <;> decide +kernel
  have hfind : ∀ c ∈ columns, Column.find? columns c.name = some c := by
    intro c hc
    exact Column.find?_of_mem hcolumns.nodup hc
  have hrow : row.Fits columns := by
    intro c hc type htype
    simp only [columns, List.mem_cons, List.not_mem_nil, or_false] at hc
    rcases hc with rfl | rfl | rfl <;> obtain rfl := Option.some.inj htype
    · exact .int rfl (by decide)
    · exact .text rfl _
    · exact .null _
  have hkey : session.qualify "shop.notes" = "shop.notes" := by decide +kernel
  have htable : session.tables.get? (session.qualify "shop.notes") = some ⟨columns, []⟩ := by
    rw [hkey]
    rfl
  obtain ⟨hinsert, htext⟩ := statement_adds_its_row_alone session
  obtain ⟨after, hexecute, hgrown⟩ := (hinsert "shop.notes" ⟨columns, []⟩ columns row (by decide)
    (List.all_eq_true.mp (by decide +kernel)) htable hcolumns hfind hrow).1 rfl
  rw [hkey] at hgrown
  have hends : session.Ends statement := by
    intro other hother
    cases (Prod.mk.inj (hexecute.symm.trans hother)).2
  obtain ⟨counted, hcount, ⟨e, he, -⟩ | ⟨hok, -⟩⟩ := htext statement hends
  · cases (Prod.mk.inj (hexecute.symm.trans he)).2
  · obtain rfl := (Prod.mk.inj (hexecute.symm.trans hok)).1
    exact ⟨after, hexecute, hcount, hgrown⟩

/-- A session that was asked to fail all writes fails the statement of a fitting row. A bare word
for a list leads reading back to the word. -/
theorem statement_fails_on_request :
    let columns : List Column := [⟨"n", some .int⟩]
    let asked : Session := { (Session.new none).createTable "t" columns with
      plan := ⟨true, [], none⟩ }
    let row : Row := ⟨[("n", int 1)]⟩
    let statement := Statement.insert (Statement.insertStart "t" columns) columns row
    let lists : Session := (Session.new none).createTable "t" [⟨"l", some (.list .int)⟩]
    Columns.ArePortable columns ∧ row.Fits columns ∧
      (∃ after, asked.execute statement = (after, .error (.execution .writeTimeout)) ∧
        after.rows "t" = []) ∧
      ¬ lists.Ends "INSERT INTO t (l) VALUES (x)" := by
  intro columns asked row statement lists
  refine ⟨⟨?_, ?_, ?_, ?_⟩, ?_, ⟨_, rfl, rfl⟩, fun hends => hends _ rfl⟩
  · decide +kernel
  · decide +kernel
  · decide +kernel
  · decide +kernel
  · intro c hc type htype
    obtain rfl := List.mem_singleton.mp hc
    obtain rfl := Option.some.inj htype
    exact .int rfl (by decide)

end Session

end BulkTransfer
