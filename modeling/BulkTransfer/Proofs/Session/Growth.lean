import BulkTransfer.Proofs.Import.Trace

/-!
What writes do to tables in memory. A statement adds one row to one table or changes nothing, and
all statements of one job name the same table, whatever their values hold.

- `Session.execute_cases`: a statement fails and changes no table, or adds a row to one.
- `Statement.table_insertion?`: the table that the statements of a job name.
- `grown_replay`: after statements of a job its table has grown by as many rows as succeeded.
-/

namespace BulkTransfer

open Text Text.Pattern

/-! ## One statement -/

/-- The tables are the same but for the one of a key, behind whose rows these are added. -/
structure Grown (key : String) (added : List Row) (before after : Keyed Table) : Prop where
  others (name : String) (h : name ≠ key) : after.get? name = before.get? name
  target : after.get? key = (before.get? key).map fun t =>
    { t with newestRows := added.reverse ++ t.newestRows }
  exists_target (h : added ≠ []) : (before.get? key).isSome = true

/-- The rows that are added stand behind those that the table had. -/
theorem Grown.rows_target {key : String} {added : List Row} {before after : Keyed Table}
    (h : Grown key added before after) {t : Table} (ht : before.get? key = some t) :
    (after.get? key).map Table.rows = some (t.rows ++ added) := by
  rw [h.target, ht]
  unfold Table.rows
  simp

theorem Grown.refl (key : String) (tables : Keyed Table) : Grown key [] tables tables := by
  refine ⟨fun _ _ => rfl, ?_, fun h => absurd rfl h⟩
  cases tables.get? key <;> rfl

theorem Grown.trans {key : String} {first second : List Row} {a b c : Keyed Table}
    (h : Grown key first a b) (h' : Grown key second b c) : Grown key (first ++ second) a c := by
  refine ⟨?_, ?_, ?_⟩
  · intro name hname
    rw [h'.others name hname, h.others name hname]
  · rw [h'.target, h.target]
    cases a.get? key with
    | none => rfl
    | some t => simp [List.append_assoc]
  · intro hne
    by_cases hfirst : first = []
    · have hsome := h'.exists_target (by simpa [hfirst] using hne)
      rw [h.target, Option.isSome_map] at hsome
      exact hsome
    · exact h.exists_target hfirst

namespace Session

theorem table?_of_get? {s : Session} {table : String} {t : Table}
    (h : s.tables.get? (s.qualify table) = some t) :
    s.table? table = .ok (s.qualify table, t) := by
  unfold table?
  dsimp only
  rw [h]

theorem grown_push (s : Session) {key : String} {t : Table} (h : s.tables.get? key = some t)
    (row : Row) : Grown key [row] s.tables (s.push key t row).tables := by
  unfold push
  refine ⟨?_, ?_, ?_⟩
  · intro name hname
    exact Keyed.get?_insert_of_ne hname _ _
  · rw [Keyed.get?_insert_self, h]
    rfl
  · intro _
    rw [h]
    rfl

theorem table?_eq_ok {s : Session} {table key : String} {t : Table}
    (h : s.table? table = .ok (key, t)) : key = s.qualify table ∧ s.tables.get? key = some t := by
  unfold table? at h
  dsimp only at h
  split at h
  · next found hfound =>
    simp only [Except.ok.injEq, Prod.mk.injEq] at h
    obtain ⟨rfl, rfl⟩ := h
    exact ⟨rfl, hfound⟩
  · nomatch h

/-- The pieces of which a write is made: the table that its statement names, and the row of the
values that are read by the types of the columns. -/
theorem insertion_eq_ok {s : Session} {text key : String} {t : Table} {row : Row}
    (h : s.insertion text = .ok (key, t, row)) :
    ∃ i types values, Statement.insertion? text.toList = some i ∧
      key = s.qualify (String.ofList i.table) ∧ s.tables.get? key = some t ∧
      typesOf t.columns (Statement.names i.columns) = .ok types ∧
      Literal.parseValues i.values types = .ok values ∧
      row = Row.ofFields ((Statement.names i.columns).zip values) := by
  unfold insertion at h
  split at h
  · nomatch h
  · split at h
    · nomatch h
    · next i hi =>
      dsimp only at h
      split at h
      · nomatch h
      · next k table hk =>
        split at h
        · nomatch h
        · next types htypes =>
          split at h
          · nomatch h
          · next values hvalues =>
            simp only [Except.ok.injEq, Prod.mk.injEq] at h
            obtain ⟨rfl, rfl, rfl⟩ := h
            obtain ⟨rfl, hfound⟩ := table?_eq_ok hk
            exact ⟨i, types, values, hi, rfl, hfound, htypes, hvalues, rfl⟩

/-- A statement fails and changes no table, or succeeds and adds one row to the table it names. -/
theorem execute_cases (s : Session) (text : String) :
    (∃ e, s.execute text = ({ s with statements := s.statements + 1 }, .error e)) ∨
    (∃ i t row, Statement.insertion? text.toList = some i ∧
      s.tables.get? (s.qualify (String.ofList i.table)) = some t ∧
      s.execute text =
        ({ s with statements := s.statements + 1 }.push (s.qualify (String.ofList i.table)) t row,
          .ok ())) := by
  unfold execute
  dsimp only
  match h : s.insertion text with
  | .error e => exact .inl ⟨e, rfl⟩
  | .ok (key, t, row) =>
    obtain ⟨i, -, -, hi, rfl, ht, -⟩ := insertion_eq_ok h
    exact .inr ⟨i, t, row, hi, ht, rfl⟩

end Session

/-! ## The table of a job -/

namespace Statement

/-- The characters that a statement for a table is taken to name it by: the first run of them. For
a table name these are all of it. -/
def targetName (table : List Char) : List Char :=
  (table.dropWhile isBlank).takeWhile Command.isTableChar

/-- The codes of blanks. -/
def blankCodes : List Nat :=
  List.range' 0x9 5 ++ List.range' 0x2000 11 ++
    [0x20, 0x85, 0xa0, 0x1680, 0x2028, 0x2029, 0x202f, 0x205f, 0x3000]

theorem toNat_mem_blankCodes {c : Char} (h : isBlank c = true) : c.toNat ∈ blankCodes := by
  simp only [isBlank, Bool.or_eq_true, Bool.and_eq_true, beq_iff_eq, decide_eq_true_eq] at h
  simp only [blankCodes, List.mem_append, List.mem_range'_1, List.mem_cons, List.not_mem_nil,
    or_false]
  omega

theorem isTableChar_of_isBlank {c : Char} (h : isBlank c = true) :
    Command.isTableChar c = false := by
  have hall : ∀ n ∈ blankCodes, Command.isTableChar (Char.ofNat n) = false := by decide +kernel
  have hc := hall c.toNat (toNat_mem_blankCodes h)
  rwa [Char.ofNat_toNat] at hc

theorem isBlank_of_isTableChar {c : Char} (h : Command.isTableChar c = true) :
    isBlank c = false := by
  rw [Bool.eq_false_iff]
  intro hblank
  rw [isTableChar_of_isBlank hblank] at h
  nomatch h

theorem targetName_eq_self {table : List Char}
    (h : ∀ c ∈ table, Command.isTableChar c = true) : targetName table = table := by
  unfold targetName
  have hdrop : table.dropWhile isBlank = table := by
    cases table with
    | nil => rfl
    | cons c rest =>
      refine List.dropWhile_cons_of_neg ?_
      rw [isBlank_of_isTableChar (h c List.mem_cons_self)]
      exact Bool.false_ne_true
  have htake : (table ++ []).takeWhile Command.isTableChar =
      table ++ [].takeWhile Command.isTableChar := List.takeWhile_append_of_pos h
  rw [List.append_nil, List.takeWhile_nil, List.append_nil] at htake
  rw [hdrop, htake]

/-- What follows the table in a statement does not change the table that is read. -/
theorem targetName_append (table more : List Char) :
    targetName (table ++ ' ' :: '(' :: more) = targetName table := by
  have hstop : ∀ run : List Char,
      (run ++ ' ' :: '(' :: more).takeWhile Command.isTableChar =
        run.takeWhile Command.isTableChar := by
    intro run
    induction run with
    | nil => exact List.takeWhile_cons_of_neg (by decide)
    | cons c rest ih => rw [List.cons_append, List.takeWhile_cons, List.takeWhile_cons, ih]
  unfold targetName
  induction table with
  | nil =>
    rw [List.nil_append, List.dropWhile_cons_of_pos (by decide),
      List.dropWhile_cons_of_neg (by decide), List.takeWhile_cons_of_neg (by decide)]
    rfl
  | cons c rest ih =>
    by_cases hc : isBlank c = true
    · rw [List.cons_append, List.dropWhile_cons_of_pos hc, List.dropWhile_cons_of_pos hc, ih]
    · rw [List.cons_append, List.dropWhile_cons_of_neg hc, List.dropWhile_cons_of_neg hc]
      exact hstop (c :: rest)

/-- The run of a table name between blanks and what cannot stand in one is the whole name. -/
theorem targetName_run {blank run behind : List Char} (hblank : ∀ c ∈ blank, isBlank c = true)
    (hne : run ≠ []) (hrun : ∀ c ∈ run, Command.isTableChar c = true)
    (hstop : ∀ c ∈ behind.head?, Command.isTableChar c = false) :
    targetName (blank ++ (run ++ behind)) = run := by
  obtain ⟨c, rest, rfl⟩ := List.exists_cons_of_ne_nil hne
  have hc : ¬ isBlank c = true := by
    rw [isBlank_of_isTableChar (hrun c List.mem_cons_self)]
    exact Bool.false_ne_true
  unfold targetName
  rw [List.dropWhile_append_of_pos hblank, List.cons_append, List.dropWhile_cons_of_neg hc,
    ← List.cons_append, List.takeWhile_append_of_pos hrun]
  cases behind with
  | nil => exact List.append_nil _
  | cons d more =>
    have hd : ¬ Command.isTableChar d = true := by
      rw [hstop d rfl]
      exact Bool.false_ne_true
    rw [List.takeWhile_cons_of_neg hd, List.append_nil]

/-- The statements of a job name its table, whatever follows it. -/
theorem table_insertion? {table more : List Char} {i : Insertion}
    (h : insertion? ("INSERT INTO ".toList ++ (table ++ ' ' :: '(' :: more)) = some i) :
    i.table = targetName table := by
  rw [insertion?_append] at h
  obtain ⟨blank, rest, hsplit, hblank, h⟩ := greedy_eq_some h
  obtain ⟨gap, behind, rfl, hne, hrun, hgap, -⟩ := matchTable_eq_some h
  have hstop : ∀ c ∈ (gap ++ '(' :: behind).head?, Command.isTableChar c = false := by
    intro c hc
    cases gap with
    | nil =>
      obtain rfl : '(' = c := Option.some.inj hc
      decide
    | cons d more =>
      obtain rfl : d = c := Option.some.inj hc
      exact isTableChar_of_isBlank (hgap d List.mem_cons_self)
  rw [← targetName_append table more, hsplit]
  exact (targetName_run hblank hne hrun hstop).symm

theorem toList_insert (table : String) (columns : List Column) (row : Row) :
    (insert (insertStart table columns) columns row).toList =
      "INSERT INTO ".toList ++ (table.toList ++ ' ' :: '(' ::
        ((nameList (columns.map Column.name)).toList ++ ')' :: ' ' ::
          ("VALUES".toList ++ ' ' :: '(' ::
            ((joined ", " (columns.map (columnLiteral row))).toList ++ [')'])))) := by
  simp only [insert, insertStart, String.toList_append, List.append_assoc]
  rfl

end Statement

/-! ## Statements of a job -/

/-- A session over tables in memory. A write that succeeds is done by the tables; the session may
fail others for reasons of its own, and these leave the tables as they are. -/
class OverMemory (σ : Type) extends WriteSession σ where
  memory : σ → Session
  execute_ok {s after : σ} {text : String} (h : execute s text = (after, .ok ())) :
    (memory s).execute text = (memory after, .ok ())
  execute_error {s after : σ} {text : String} {e : Failure}
      (h : execute s text = (after, .error e)) :
    (memory after).tables = (memory s).tables ∧ (memory after).keyspace? = (memory s).keyspace?

instance : OverMemory Session where
  memory := id
  execute_ok h := h
  execute_error {s after text e} h := by
    rcases s.execute_cases text with ⟨e', heq⟩ | ⟨i, t, row, -, -, heq⟩
    · obtain ⟨rfl, -⟩ := Prod.mk.inj (h.symm.trans heq)
      exact ⟨rfl, rfl⟩
    · nomatch (Prod.mk.inj (h.symm.trans heq)).2

namespace Import

variable {σ : Type} [OverMemory σ]

/-- The key of the table that the statements of a job name. -/
def Job.targetKey (job : Job) (session : Session) : String :=
  session.qualify (String.ofList (Statement.targetName job.table.toList))

theorem targetKey_eq_qualify {job : Job}
    (h : ∀ c ∈ job.table.toList, Command.isTableChar c = true) (session : Session) :
    job.targetKey session = session.qualify job.table := by
  unfold Job.targetKey
  rw [Statement.targetName_eq_self h, String.ofList_toList]

theorem targetKey_congr (job : Job) {s t : Session} (h : t.keyspace? = s.keyspace?) :
    job.targetKey t = job.targetKey s := by
  unfold Job.targetKey Session.qualify
  rw [h]

theorem text_statement (job : Job) (record : Nat) (row : Row) :
    ∃ more, (job.statement record row).text.toList =
      "INSERT INTO ".toList ++ (job.table.toList ++ ' ' :: '(' :: more) := by
  exact ⟨_, Statement.toList_insert job.table job.columns row⟩

/-- A statement of a job adds one row to the table of the job, or none. -/
theorem grown_execute (job : Job) (record : Nat) (row : Row) (session : σ) :
    let answer := WriteSession.execute session (job.statement record row).text
    (OverMemory.memory answer.1).keyspace? = (OverMemory.memory session).keyspace? ∧
      ∃ added, added.length = (if answer.2.isOk then 1 else 0) ∧
        Grown (job.targetKey (OverMemory.memory session)) added
          (OverMemory.memory session).tables (OverMemory.memory answer.1).tables := by
  intro answer
  match hanswer : WriteSession.execute session (job.statement record row).text with
  | (after, .error e) =>
    obtain ⟨htables, hkeyspace⟩ := OverMemory.execute_error hanswer
    have heq : answer = (after, .error e) := hanswer
    rw [heq]
    refine ⟨hkeyspace, [], rfl, ?_⟩
    rw [htables]
    exact .refl _ _
  | (after, .ok ()) =>
    have hmemory := OverMemory.execute_ok hanswer
    have heq : answer = (after, .ok ()) := hanswer
    rw [heq]
    rcases (OverMemory.memory session).execute_cases (job.statement record row).text with
      ⟨e, hexec⟩ | ⟨i, t, added, hi, ht, hexec⟩
    · nomatch (Prod.mk.inj (hmemory.symm.trans hexec)).2
    · have hafter := (Prod.mk.inj (hmemory.symm.trans hexec)).1
      obtain ⟨more, htext⟩ := text_statement job record row
      rw [htext] at hi
      have hkey := Statement.table_insertion? hi
      rw [hkey] at ht hafter
      rw [hafter]
      refine ⟨rfl, [added], rfl, ?_⟩
      exact Session.grown_push { OverMemory.memory session with statements := _ } ht added

/-- After statements of a job its table has grown by as many rows as succeeded, and no other table
has changed. -/
theorem grown_replay {job : Job} {statements : List WriteStatement}
    (h : ∀ s ∈ statements, ∃ record row, s = job.statement record row) (session : σ) :
    ∃ added, added.length = successes session statements ∧
      Grown (job.targetKey (OverMemory.memory session)) added (OverMemory.memory session).tables
        (OverMemory.memory (replay session statements)).tables := by
  induction statements generalizing session with
  | nil => exact ⟨[], rfl, .refl _ _⟩
  | cons s more ih =>
    obtain ⟨record, row, rfl⟩ := h s List.mem_cons_self
    obtain ⟨hkeyspace, first, hfirst, hgrown⟩ := grown_execute job record row session
    obtain ⟨second, hsecond, hrest⟩ :=
      ih (fun t ht => h t (List.mem_cons_of_mem _ ht))
        (WriteSession.execute session (job.statement record row).text).1
    rw [targetKey_congr job hkeyspace] at hrest
    refine ⟨first ++ second, ?_, hgrown.trans hrest⟩
    rw [List.length_append, hfirst, hsecond]
    rfl

/-- The statements of a job all come from rows. -/
theorem exists_row_of_mem_statements {job : Job} {before : Nat} {records : List Record}
    {s : WriteStatement} (h : s ∈ job.statements before records) :
    ∃ record row, s = job.statement record row := by
  induction records generalizing before with
  | nil => nomatch h
  | cons r more ih =>
    cases r with
    | ok row =>
      rcases List.mem_cons.mp h with rfl | hmore
      · exact ⟨before + 1, row, rfl⟩
      · exact ih hmore
    | error e => exact ih h

end Import

end BulkTransfer
