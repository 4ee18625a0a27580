import BulkTransfer.Proofs.Import.Sequential
import BulkTransfer.Proofs.Session.Insert

/-!
Imports of rows that fit their table. No write fails, so the budget stays as it was, and whoever
does the next step the table has grown by exactly the rows when the import is over.

- `RunState.Unspent`: a budget without errors was never judged.
- `grown_inserts`: statements of fitting rows add these rows, in their order.
- `RunState.faultless_over`: what holds of every interleaving that is over.
- `run_faultless`: what holds of the import as it is run.
-/

namespace BulkTransfer.Import

variable {σ : Type}

namespace RunState

/-! ## A budget without errors -/

/-- While no error is counted, the budget is the one of the start, and no worker has an error to
judge. -/
def Unspent (job : Job) (s : RunState σ) : Prop :=
  s.producer.ledger.budget.parseErrors = 0 → s.producer.ledger.budget.insertErrors = 0 →
    s.producer.ledger.budget = Budget.new job.options.maxParseErrors job.options.maxInsertErrors ∧
      ∀ error left, .judging error left ∉ s.workers

theorem Unspent.start (job : Job) (session : σ) (reader : Reader) :
    Unspent job (.start job session reader) := by
  refine fun _ _ => ⟨rfl, ?_⟩
  intro error left hmem
  nomatch List.eq_of_mem_replicate hmem

/-- The producer changes the budget only when it counts a parse error. -/
theorem ProducerStep.ledger_cases {job : Job} {skipped : Nat} {s t : RunState σ}
    (h : ProducerStep job skipped s t) :
    t.producer.ledger = s.producer.ledger ∨ t.producer.ledger.budget.parseErrors ≠ 0 := by
  have htake : ∀ record, (s.producer.take job skipped record).ledger = s.producer.ledger ∨
      (s.producer.take job skipped record).ledger.budget.parseErrors ≠ 0 := by
    intro record
    cases record with
    | ok row => exact .inl rfl
    | error failure =>
      obtain ⟨budget, stopped, heq, hparse, -⟩ := s.producer.take_error job skipped failure
      rw [heq]
      refine .inr ?_
      dsimp only
      omega
  cases h with
  | stop => exact htake _
  | fill => exact htake _
  | take =>
    rw [Producer.ledger_noteProgress]
    exact htake _
  | hand =>
    rw [Producer.ledger_noteProgress]
    exact .inl rfl
  | _ => exact .inl rfl

theorem Unspent.step [WriteSession σ] {job : Job} {skipped : Nat} {s t : RunState σ}
    {actor : Actor} (h : Unspent job s) (hs : s.step? job skipped actor = some t) :
    Unspent job t := by
  have hset : ∀ {index : Nat} {w : Worker}, (∀ error left, .judging error left ∉ s.workers) →
      (∀ error left, w ≠ .judging error left) →
      ∀ error left, .judging error left ∉ s.workers.set index w := by
    intro index w hworkers hw error left hmem
    rcases List.mem_or_eq_of_mem_set hmem with hold | hnew
    · exact hworkers error left hold
    · exact hw error left hnew.symm
  intro hparse hinsert
  cases actor with
  | producer =>
    obtain ⟨hworkers, -⟩ := (producerStep hs).frame
    rcases (producerStep hs).ledger_cases with heq | hspent
    · rw [heq] at hparse hinsert
      rw [heq, hworkers]
      exact h hparse hinsert
    · exact absurd hparse hspent
  | worker index =>
    cases workerStep hs with
    | takeBatch hw hq =>
      obtain ⟨hbudget, hworkers⟩ := h hparse hinsert
      exact ⟨hbudget, hset hworkers fun _ _ heq => nomatch heq⟩
    | finish hw =>
      obtain ⟨hbudget, hworkers⟩ := h hparse hinsert
      exact ⟨hbudget, hset hworkers fun _ _ heq => nomatch heq⟩
    | @attempt statement left hw =>
      rcases s.producer.ledger.attempt_cases statement with ⟨_, _, heq⟩ | ⟨_, _, _, _, heq⟩
      · rw [heq] at hparse hinsert ⊢
        obtain ⟨hbudget, hworkers⟩ := h hparse hinsert
        exact ⟨hbudget, hset hworkers fun _ _ heq => nomatch heq⟩
      · rw [heq] at hinsert
        nomatch hinsert
    | @judge error left hw =>
      -- an error is judged only when it is counted
      have hparse' : s.producer.ledger.budget.parseErrors = 0 :=
        (Budget.parseErrors_note _ _ _ _).symm.trans hparse
      have hinsert' : s.producer.ledger.budget.insertErrors = 0 :=
        (Budget.insertErrors_note _ _ _ _).symm.trans hinsert
      exact absurd (List.mem_of_getElem? hw) ((h hparse' hinsert').2 error left)

theorem unspent_follow? [WriteSession σ] {job : Job} {skipped : Nat} {session : σ}
    {reader : Reader} {actors : List Actor} {s : RunState σ}
    (hrun : (RunState.start job session reader).follow? job skipped actors = some s) :
    Unspent job s := by
  have hstep : ∀ (past : History) (s t : RunState σ) (actor : Actor), Unspent job s →
      s.step? job skipped actor = some t → Unspent job t := fun _ _ _ _ h hs => h.step hs
  have hstart : Unspent job (.start job session reader) := .start job session reader
  exact @follow?_induction σ _ job skipped (fun _ s => Unspent job s) hstep actors ⟨[], [], []⟩
    _ s hstart hrun

/-! ## Sources of one file -/

theorem ProducerStep.dataset? {job : Job} {skipped : Nat} {s t : RunState σ}
    (h : ProducerStep job skipped s t) (hs : s.reader.dataset? = none) :
    t.reader.dataset? = none := by
  have hread : ∀ {reader : Reader} {outcome : Except Failure ReadBatch},
      s.reader.readBatch (s.producer.wanted job) = (reader, outcome) → reader.dataset? = none := by
    intro reader outcome hr
    have hnone := Reader.dataset?_readBatch hs (s.producer.wanted job)
    rwa [hr] at hnone
  cases h with
  | read _ _ hr => exact hread hr
  | unreadable _ _ hr => exact hread hr
  | _ => exact hs

/-- A source that is not a dataset is none at the end. -/
theorem dataset?_follow? [WriteSession σ] {job : Job} {skipped : Nat} {session : σ}
    {reader : Reader} (hreader : reader.dataset? = none) {actors : List Actor} {s : RunState σ}
    (hrun : (RunState.start job session reader).follow? job skipped actors = some s) :
    s.reader.dataset? = none := by
  have hstep : ∀ (past : History) (s t : RunState σ) (actor : Actor), s.reader.dataset? = none →
      s.step? job skipped actor = some t → t.reader.dataset? = none := by
    intro _ s t actor hnone hs
    cases actor with
    | producer => exact (producerStep hs).dataset? hnone
    | worker index => cases workerStep hs <;> exact hnone
  exact @follow?_induction σ _ job skipped (fun _ s => s.reader.dataset? = none) hstep actors
    ⟨[], [], []⟩ _ s hreader hrun

end RunState

/-! ## Statements of fitting rows -/

/-- The statement of a row and its number. -/
def Job.numbered (job : Job) (p : Row × Nat) : WriteStatement := job.statement p.2 p.1

theorem statements_ok (job : Job) (before : Nat) (rows : List Row) :
    job.statements before (rows.map .ok) = (rows.zipIdx (before + 1)).map job.numbered := by
  induction rows generalizing before with
  | nil => rfl
  | cons row more ih =>
    rw [List.map_cons, Job.statements, ih, List.zipIdx_cons, List.map_cons]
    rfl

theorem map_fst_zipIdx {β : Type} (f : Row → β) (rows : List Row) (before : Nat) :
    (rows.zipIdx before).map (fun p => f p.1) = rows.map f := by
  induction rows generalizing before with
  | nil => rfl
  | cons row more ih => rw [List.zipIdx_cons, List.map_cons, ih, List.map_cons]

theorem failures_ok (rows : List Row) : failures (rows.map .ok) = 0 := by
  induction rows with
  | nil => rfl
  | cons row more ih =>
    unfold failures at ih ⊢
    rw [List.map_cons, List.countP_cons_of_neg (by simp [Except.isOk, Except.toBool])]
    exact ih

/-- A job that writes into a table of a session: columns that statements can list, all of them
columns of the table. -/
structure Job.Suits (job : Job) (session : Session) : Prop where
  takes_writes : session.TakesWrites
  table_ne : job.table.toList ≠ []
  table_chars : ∀ c ∈ job.table.toList, Command.isTableChar c = true
  portable : Columns.ArePortable job.columns
  exists_table : ∃ t, session.tables.get? (session.qualify job.table) = some t ∧
    (t.columns.map Column.name).Nodup ∧ ∀ c ∈ job.columns, c ∈ t.columns

/-- The row that a statement adds. -/
def Job.stored (job : Job) (row : Row) : Row := row.project (job.columns.map Column.name)

/-- A statement of a fitting row adds the row, and leaves a session that the job suits too. -/
theorem Job.Suits.execute {job : Job} {session : Session} (h : job.Suits session) {row : Row}
    (hrow : row.Fits job.columns) (record : Nat) :
    ∃ after, session.execute (job.statement record row).text = (after, .ok ()) ∧
      after.keyspace? = session.keyspace? ∧ job.Suits after ∧
      Grown (session.qualify job.table) [job.stored row] session.tables after.tables := by
  obtain ⟨t, ht, hnodup, hsub⟩ := h.exists_table
  have hexec := Session.execute_insert h.table_ne h.table_chars ht h.portable
    (fun c hc => Column.find?_of_mem hnodup (hsub c hc)) hrow
    (Session.plannedFault?_eq_none h.takes_writes _)
  refine ⟨_, hexec, rfl, ⟨h.takes_writes, h.table_ne, h.table_chars, h.portable, ?_⟩, ?_⟩
  · exact ⟨_, Keyed.get?_insert_self _ _ _, hnodup, hsub⟩
  · exact Session.grown_push { session with statements := session.statements + 1 } ht _

/-- Statements of fitting rows all succeed and add these rows, in their order. -/
theorem grown_inserts {job : Job} {pairs : List (Row × Nat)} {session : Session}
    (h : job.Suits session) (hrows : ∀ p ∈ pairs, p.1.Fits job.columns) :
    successes session (pairs.map job.numbered) = pairs.length ∧
      Grown (session.qualify job.table) (pairs.map fun p => job.stored p.1) session.tables
        (replay session (pairs.map job.numbered)).tables := by
  induction pairs generalizing session with
  | nil => exact ⟨rfl, .refl _ _⟩
  | cons p more ih =>
    obtain ⟨after, hexec, hkeyspace, hsuits, hgrown⟩ :=
      h.execute (hrows p List.mem_cons_self) p.2
    have hwrite : WriteSession.execute session (job.numbered p).text = (after, .ok ()) := hexec
    obtain ⟨hcount, hmore⟩ := ih hsuits fun q hq => hrows q (List.mem_cons_of_mem p hq)
    have hkey : after.qualify job.table = session.qualify job.table := by
      unfold Session.qualify
      rw [hkeyspace]
    rw [hkey] at hmore
    constructor
    · rw [List.map_cons, successes, hwrite]
      dsimp only
      rw [hcount, List.length_cons]
      exact Nat.add_comm _ _
    · have hreplay : replay session ((p :: more).map job.numbered) =
          replay after (more.map job.numbered) := by
        unfold replay
        rw [List.map_cons, List.foldl_cons, hwrite]
      rw [hreplay]
      exact hgrown.trans hmore

/-- A permutation of images is the image of a permutation. -/
theorem exists_perm_of_perm_map {α β : Type} {f : α → β} {l : List α} {images : List β}
    (h : images.Perm (l.map f)) : ∃ source : List α, source.Perm l ∧ images = source.map f := by
  induction l generalizing images with
  | nil => exact ⟨[], .refl _, List.Perm.eq_nil h⟩
  | cons a more ih =>
    obtain ⟨before, after, hsplit⟩ :=
      List.append_of_mem (h.symm.subset (List.mem_map_of_mem List.mem_cons_self))
    rw [hsplit] at h
    obtain ⟨source, hperm, hmap⟩ := ih (List.perm_cons (f a) |>.mp (List.perm_middle.symm.trans h))
    obtain ⟨first, second, rfl, hfirst, hsecond⟩ := List.map_eq_append_iff.mp hmap.symm
    refine ⟨first ++ a :: second, List.perm_middle.trans (hperm.cons a), ?_⟩
    rw [hsplit, List.map_append, List.map_cons, hfirst, hsecond]

/-! ## Whole imports -/

section Whole

variable {job : Job} {session : Session} {opened : Reader} {skipped : Nat} {rows : List Row}
  {actors : List Actor} {s : RunState Session}

/-- What an import without errors reports. -/
def faultlessReport (skipped rows : Nat) (dataset? : Option DatasetSize) : Report :=
  { succeeded := rows
    processed := skipped + rows
    skipped := skipped
    parseErrors := 0
    insertErrors := 0
    attempted := rows
    samples := []
    aborted? := none
    dataset? := dataset? }

/-- An import of fitting rows that is over has executed the statements of all of them, none has
failed, and nothing else is reported. -/
theorem RunState.faultless_over (hsuits : job.Suits session) (hmax : job.options.maxRows? = none)
    (hrows : ∀ row ∈ rows, row.Fits job.columns) (hreads : opened.Reads (rows.map .ok))
    (hrun : (RunState.start job session opened).follow? job skipped actors = some s)
    (hover : s.isOver = true) :
    (seen job skipped session opened actors).handed.flatMap Batch.statements =
        (rows.zipIdx (skipped + 1)).map job.numbered ∧
      s.report skipped = faultlessReport skipped rows.length s.reader.dataset? := by
  obtain ⟨haccount, hproduced⟩ := follow?_invariants hreads hrun
  have hwindow : job.window (rows.map .ok) = rows.map .ok := by
    unfold Job.window
    rw [hmax]
  have hperm := executed_perm_handed hreads hrun hover
  -- What was executed comes from the rows, so no write has failed.
  obtain ⟨unhanded, hunhanded⟩ : ∃ unhanded, (rows.zipIdx (skipped + 1)).map job.numbered =
      (seen job skipped session opened actors).handed.flatMap Batch.statements ++ unhanded := by
    obtain ⟨rest, hrest⟩ := prefix_statements job skipped
      (List.take_prefix s.producer.read (rows.map (Except.ok (ε := ParseFailure))))
    rw [hproduced.tally.statements_eq, List.append_assoc, statements_ok] at hrest
    exact ⟨_, hrest.symm⟩
  obtain ⟨first, second, hfirst, hmap, -⟩ := List.map_eq_append_iff.mp hunhanded
  rw [← hmap] at hperm
  obtain ⟨pairs, hpairs, hexecuted⟩ := exists_perm_of_perm_map hperm
  have hfits : ∀ p ∈ pairs, p.1.Fits job.columns := by
    intro p hp
    refine hrows p.1 (List.fst_mem_of_mem_zipIdx (k := skipped + 1) ?_)
    rw [hfirst]
    exact List.mem_append_left _ (hpairs.subset hp)
  have hcount := (grown_inserts hsuits hfits).1
  have hattempted := haccount.replays.attempted_eq
  have hsucceeded := haccount.replays.succeeded_eq
  have hadd := haccount.replays.insertErrors_eq
  rw [hexecuted, hcount] at hsucceeded
  rw [hexecuted, List.length_map] at hattempted
  have hparse : s.producer.ledger.budget.parseErrors = 0 := by
    rw [hproduced.tally.parseErrors_eq, ← List.map_take]
    exact failures_ok _
  have hinsert : s.producer.ledger.budget.insertErrors = 0 := by omega
  have hbudget := (unspent_follow? hrun hparse hinsert).1
  have hgo : ¬ s.IsTripped := by
    unfold IsTripped
    rw [hbudget]
    exact Bool.false_ne_true
  obtain ⟨-, ⟨hread, -⟩, hbatch⟩ := atEnd_of_isOver hreads hrun hover hgo
  have hall := hproduced.tally.statements_eq
  rw [hread, hwindow, List.take_length, hbatch, List.append_nil, statements_ok] at hall
  refine ⟨hall.symm, ?_⟩
  have hlength := congrArg List.length (hmap.trans hall.symm)
  rw [List.length_map, List.length_map, List.length_zipIdx, ← hpairs.length_eq] at hlength
  unfold RunState.report reportOf faultlessReport
  rw [hsucceeded, hattempted, hbudget, hlength]
  rfl

/-- Whoever does the next step, an import of fitting rows that is over has added exactly these rows
to the table, and changed no other. -/
theorem RunState.faultless_grown (hsuits : job.Suits session)
    (hmax : job.options.maxRows? = none) (hrows : ∀ row ∈ rows, row.Fits job.columns)
    (hreads : opened.Reads (rows.map .ok))
    (hrun : (RunState.start job session opened).follow? job skipped actors = some s)
    (hover : s.isOver = true) :
    ∃ added : List Row, added.Perm (rows.map job.stored) ∧
      Grown (session.qualify job.table) added session.tables
        s.producer.ledger.session.tables := by
  have hperm := executed_perm_handed hreads hrun hover
  rw [(faultless_over hsuits hmax hrows hreads hrun hover).1] at hperm
  obtain ⟨pairs, hpairs, hexecuted⟩ := exists_perm_of_perm_map hperm
  have hfits : ∀ p ∈ pairs, p.1.Fits job.columns :=
    fun p hp => hrows p.1 (List.fst_mem_of_mem_zipIdx (hpairs.subset hp))
  have hgrown := (grown_inserts hsuits hfits).2
  rw [← hexecuted, ← (follow?_invariants hreads hrun).1.replays.session_eq] at hgrown
  have hrowsOf : (rows.zipIdx (skipped + 1)).map (fun p => job.stored p.1) =
      rows.map job.stored := map_fst_zipIdx job.stored rows _
  refine ⟨_, ?_, hgrown⟩
  rw [← hrowsOf]
  exact hpairs.map _

/-- The import of fitting rows as it is run adds them to the table in their order. -/
theorem run_faultless {reader : Reader} (hsuits : job.Suits session)
    (hmax : job.options.maxRows? = none) (hrows : ∀ row ∈ rows, row.Fits job.columns)
    (hskip : reader.skip job.options.skipRows = (opened, .ok skipped))
    (hreads : opened.Reads (rows.map .ok)) (hbound : rows.length ≤ recordBound opened)
    (hsingle : opened.dataset? = none) :
    ∃ after left progress,
      run job session reader =
        ⟨after, left, progress, .ok (faultlessReport skipped rows.length none)⟩ ∧
      Grown (session.qualify job.table) (rows.map job.stored) session.tables after.tables := by
  have hlength : (rows.map (Except.ok (ε := ParseFailure))).length ≤ recordBound opened := by
    rw [List.length_map]
    exact hbound
  obtain ⟨actors, s, hrun, hover, hinOrder, heq⟩ :=
    run_is_interleaving session hskip hreads hlength
  obtain ⟨hhanded, hreport⟩ := RunState.faultless_over hsuits hmax hrows hreads hrun hover
  rw [hhanded] at hinOrder
  have hfits : ∀ p ∈ rows.zipIdx (skipped + 1), p.1.Fits job.columns :=
    fun p hp => hrows p.1 (List.fst_mem_of_mem_zipIdx hp)
  have hgrown := (grown_inserts hsuits hfits).2
  rw [← hinOrder, ← (RunState.follow?_invariants hreads hrun).1.replays.session_eq] at hgrown
  rw [hreport, RunState.dataset?_follow? hsingle hrun] at heq
  refine ⟨_, _, _, heq, ?_⟩
  rwa [map_fst_zipIdx job.stored rows] at hgrown

end Whole

end BulkTransfer.Import
