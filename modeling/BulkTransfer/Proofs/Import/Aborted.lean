import BulkTransfer.Proofs.Import.Interleaving
import BulkTransfer.Proofs.Session.Growth

/-!
An import that is aborted. The trip of the budget may come between any two steps: what was handed
over by then is still executed, the batch that the producer fills is dropped, and the report and
the table account for every write.

- `RunState.executed_perm_take`: the statements executed are the first ones in the source.
- `RunState.length_statements_taken_le`: no more rows are dropped than a batch holds.
- `RunState.aborted_import_accounts`: an aborted import as a whole.
-/

namespace BulkTransfer.Import.RunState

variable {σ : Type}

section Accounts

variable [WriteSession σ] {job : Job} {skipped : Nat} {session : σ} {reader : Reader}
  {source : List Record} {actors : List Actor} {s : RunState σ}

/-- The records taken are the first ones of the window. -/
theorem taken_eq_take (hreads : reader.Reads source)
    (hrun : (RunState.start job session reader).follow? job skipped actors = some s) :
    (seen job skipped session reader actors).taken =
      (job.window source).take s.producer.read := by
  have htally := (follow?_invariants hreads hrun).2.tally
  rw [take_window htally.read_le]
  exact htally.taken_eq

/-- Of an import that is over, the statements executed are those of the first rows, as many as
there were attempts. -/
theorem executed_perm_take (hreads : reader.Reads source)
    (hrun : (RunState.start job session reader).follow? job skipped actors = some s)
    (hover : s.isOver = true) :
    (seen job skipped session reader actors).executed.Perm
      ((job.statements skipped (job.window source)).take s.producer.ledger.attempted) := by
  obtain ⟨haccount, hproduced⟩ := follow?_invariants hreads hrun
  have hperm := executed_perm_handed hreads hrun hover
  have hcount : s.producer.ledger.attempted =
      ((seen job skipped session reader actors).handed.flatMap Batch.statements).length :=
    haccount.replays.attempted_eq.trans hperm.length_eq
  -- the statements handed over start those of the records taken, and these those of the window
  have hfirst : (seen job skipped session reader actors).handed.flatMap Batch.statements <+:
      job.statements skipped (job.window source) := by
    refine List.IsPrefix.trans ?_
      (prefix_statements job skipped (List.take_prefix s.producer.read (job.window source)))
    rw [take_window hproduced.tally.read_le, hproduced.tally.statements_eq]
    exact List.prefix_append _ _
  rw [hcount, ← List.prefix_iff_eq_take.mp hfirst]
  exact hperm

/-- No more rows are taken and not written than a batch holds. -/
theorem length_statements_taken_le (hreads : reader.Reads source)
    (hrun : (RunState.start job session reader).follow? job skipped actors = some s)
    (hover : s.isOver = true) :
    (job.statements skipped (seen job skipped session reader actors).taken).length ≤
      s.producer.ledger.attempted + job.options.maxBatchSize := by
  obtain ⟨haccount, hproduced⟩ := follow?_invariants hreads hrun
  have hperm := executed_perm_handed hreads hrun hover
  have hcount := haccount.replays.attempted_eq.trans hperm.length_eq
  have hbatch := hproduced.tally.batch_le
  rw [hproduced.tally.capacity_eq] at hbatch
  rw [hproduced.tally.taken_eq, hproduced.tally.statements_eq, List.length_append, hcount]
  omega

/-- A budget that is tripped on the way is tripped at the end. -/
theorem isTripped_follow? {mid : RunState σ} (htrip : mid.producer.ledger.budget.isTripped = true)
    (hrun : mid.follow? job skipped actors = some s) :
    s.producer.ledger.budget.isTripped = true := by
  induction actors generalizing mid with
  | nil =>
    obtain rfl := Option.some.inj hrun
    exact htrip
  | cons actor more ih =>
    unfold follow? at hrun
    cases hs : mid.step? job skipped actor with
    | none => simp [hs] at hrun
    | some next =>
      rw [hs] at hrun
      exact ih (isTripped_step hs htrip) hrun

end Accounts

section Tables

variable [OverMemory σ] {job : Job} {skipped : Nat} {session : σ} {reader : Reader}
  {source : List Record} {actors : List Actor} {s : RunState σ}

/-- The table of a job has grown by the rows that succeeded, and no other table has changed. -/
theorem grown_follow? (hreads : reader.Reads source)
    (hrun : (RunState.start job session reader).follow? job skipped actors = some s)
    (hover : s.isOver = true) :
    ∃ added, added.length = s.producer.ledger.succeeded ∧
      Grown (job.targetKey (OverMemory.memory session)) added (OverMemory.memory session).tables
        (OverMemory.memory s.producer.ledger.session).tables := by
  have hreplays := (follow?_invariants hreads hrun).1.replays
  have hperm := executed_perm_take hreads hrun hover
  have hrows : ∀ t ∈ (seen job skipped session reader actors).executed,
      ∃ record row, t = job.statement record row := by
    intro t ht
    exact exists_row_of_mem_statements (List.mem_of_mem_take (hperm.mem_iff.mp ht))
  obtain ⟨added, hadded, hgrown⟩ := grown_replay hrows session
  rw [hreplays.session_eq, hreplays.succeeded_eq]
  exact ⟨added, hadded, hgrown⟩

end Tables

/-- An import whose budget trips, at whatever moment: when nobody can do a step any more, every
batch that was handed over is executed, the statements executed are those of the first rows in the
source, no more rows were dropped than a batch holds, the report adds up and says what tripped the
budget, and of all tables only that of the job has changed, by as many rows as succeeded. -/
theorem aborted_import_accounts [OverMemory σ] {job : Job} {session : σ} {reader opened : Reader}
    {records : List Record} {skipped : Nat} {first second : List Actor} {mid s : RunState σ}
    (hreads : reader.Reads records)
    (hskip : reader.skip job.options.skipRows = (opened, .ok skipped))
    (hmid : (RunState.start job session opened).follow? job skipped first = some mid)
    (htrip : mid.producer.ledger.budget.isTripped = true)
    (hrun : mid.follow? job skipped second = some s)
    (hstuck : ∀ actor, s.step? job skipped actor = none) :
    let window := job.window (records.drop job.options.skipRows)
    let past := seen job skipped session opened (first ++ second)
    let report := s.report skipped
    s.isOver = true ∧
      past.executed.Perm (past.handed.flatMap Batch.statements) ∧
      past.executed.Perm ((job.statements report.skipped window).take report.attempted) ∧
      past.executed.length = report.attempted ∧
      past.taken = window.take past.taken.length ∧
      (job.statements report.skipped past.taken).length ≤
        report.attempted + job.options.maxBatchSize ∧
      report.attempted = report.succeeded + report.insertErrors ∧
      report.processed = report.skipped + report.parseErrors + report.attempted ∧
      report.aborted?.isSome = true ∧
      ∃ key added,
        ((∀ c ∈ job.table.toList, Command.isTableChar c = true) →
          key = (OverMemory.memory session).qualify job.table) ∧
        added.length = report.succeeded ∧
        Grown key added (OverMemory.memory session).tables
          (OverMemory.memory s.producer.ledger.session).tables := by
  intro window past report
  obtain ⟨after, hafter, hsource⟩ := hreads.skip job.options.skipRows
  obtain ⟨rfl, -⟩ := Prod.mk.inj (hskip.symm.trans hafter)
  have hall : (RunState.start job session opened).follow? job skipped (first ++ second) =
      some s := by
    rw [follow?_append, hmid]
    exact hrun
  have haccount := (follow?_invariants hsource hall).1
  have hover := isOver_of_stuck haccount.workers_ne_nil hstuck
  have htaken : past.taken = window.take past.taken.length := by
    have h := taken_eq_take hsource hall
    have hfirst : past.taken <+: window := by
      rw [h]
      exact List.take_prefix _ _
    exact List.prefix_iff_eq_take.mp hfirst
  obtain ⟨added, hadded, hgrown⟩ := grown_follow? hsource hall hover
  refine ⟨hover, executed_perm_handed hsource hall hover, executed_perm_take hsource hall hover,
    haccount.replays.attempted_eq.symm, htaken, length_statements_taken_le hsource hall hover,
    (report_adds_up hsource hall).1, rfl, isTripped_follow? htrip hrun, ?_⟩
  exact ⟨_, added, fun htable => targetKey_eq_qualify htable _, hadded, hgrown⟩

/-- The budget trips on the first write, while a second batch waits and a third row is read. -/
theorem aborted_import_accounts_one_worker :
    let columns := [⟨"id", some .int⟩]
    let job : Job := ⟨"t", columns, .ofPairs [("MAXBATCHSIZE", "1"), ("MAXREQUESTS", "1"),
      ("MAXINSERTERRORS", "0")]⟩
    let session := (Session.new none).createTable "t" columns
    let records : List Record := [.ok ⟨[("id", .text "x")]⟩, .ok ⟨[("id", .int 2)]⟩,
      .ok ⟨[("id", .int 3)]⟩]
    let opened := Reader.listed columns records
    let first : List Actor := [.producer, .producer, .producer, .producer, .producer, .worker 0,
      .worker 0, .worker 0]
    let second : List Actor := [.producer, .worker 0, .worker 0, .producer, .worker 0, .worker 0]
    ∃ mid s, (RunState.start job session opened).follow? job 0 first = some mid ∧
      mid.producer.ledger.budget.isTripped = true ∧ mid.follow? job 0 second = some s ∧
      s.isOver = true ∧ (s.report 0).attempted = 2 ∧ (s.report 0).succeeded = 1 ∧
      (seen job 0 session opened (first ++ second)).executed.Perm
        ((job.statements 0 (job.window records)).take 2) := by
  intro columns job session records opened first second
  have hskip : job.options.skipRows = 0 := by decide +kernel
  have hfirst : ((RunState.start job session opened).follow? job 0 first).any (fun mid =>
      mid.producer.ledger.budget.isTripped && (mid.follow? job 0 second).any fun s =>
        s.isOver && ((s.report 0).attempted == 2 && (s.report 0).succeeded == 1)) = true := by
    decide +kernel
  obtain ⟨mid, hmid, hsecond⟩ := (Option.any_eq_true _ _).mp hfirst
  rw [Bool.and_eq_true] at hsecond
  obtain ⟨s, hrun, hs⟩ := (Option.any_eq_true _ _).mp hsecond.2
  simp only [Bool.and_eq_true, beq_iff_eq] at hs
  have hskipped : opened.skip job.options.skipRows = (opened, .ok 0) := by
    rw [hskip]
    rfl
  obtain ⟨-, -, hperm, -⟩ := aborted_import_accounts (Reader.reads_listed columns records) hskipped
    hmid hsecond.1 hrun (step?_of_isOver hs.1 job 0)
  rw [hskip, hs.2.1] at hperm
  exact ⟨mid, s, hmid, hsecond.1, hrun, hs.1, hs.2.1, hs.2.2, hperm⟩

end BulkTransfer.Import.RunState
