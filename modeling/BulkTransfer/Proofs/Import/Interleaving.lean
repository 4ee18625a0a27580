import BulkTransfer.Proofs.Import.Reading

/-!
What holds of every interleaving of an import, whoever does the next step. Where nobody can do a
step any more, everything handed over is executed.

- `RunState.follow?_invariants`: the invariants of reading and writing after an interleaving.
- `RunState.every_row_executed_once`: without a trip, every row of the window is written exactly once.
-/

namespace BulkTransfer.Import.RunState

variable {σ : Type} [WriteSession σ]

/-- What has been seen of an interleaving from the start of an import. -/
def seen (job : Job) (skipped : Nat) (session : σ) (reader : Reader) (actors : List Actor) :
    History :=
  history job skipped ⟨[], [], []⟩ (.start job session reader) actors

section Invariants

variable {job : Job} {skipped : Nat} {session : σ} {reader : Reader} {source : List Record}
  {actors : List Actor} {s : RunState σ}

/-- The invariants of writing and reading hold after every interleaving. -/
theorem follow?_invariants (hreads : reader.Reads source)
    (hrun : (RunState.start job session reader).follow? job skipped actors = some s) :
    Accounted session (seen job skipped session reader actors) s ∧
      Produced job skipped source (seen job skipped session reader actors) s := by
  have hstep : ∀ past s t actor,
      (Accounted session past s ∧ Produced job skipped source past s) →
      RunState.step? job skipped s actor = some t →
      (Accounted session (s.see actor past) t ∧
        Produced job skipped source (s.see actor past) t) :=
    fun past s t actor h hs => ⟨h.1.step hs, h.2.step hs⟩
  exact follow?_induction hstep
    ⟨Accounted.start job session reader, Produced.start job skipped session hreads⟩ hrun

/-- When an import is over, the statements executed are those handed over. -/
theorem executed_perm_handed (hreads : reader.Reads source)
    (hrun : (RunState.start job session reader).follow? job skipped actors = some s)
    (hover : s.isOver = true) :
    (seen job skipped session reader actors).executed.Perm
      ((seen job skipped session reader actors).handed.flatMap Batch.statements) := by
  have hperm := (follow?_invariants hreads hrun).1.handed_perm
  rw [waiting_eq_nil_of_isOver hover, List.append_nil] at hperm
  exact hperm.symm

/-- The producer of an import that is over and not stopped has taken and handed over everything. -/
theorem atEnd_of_isOver (hreads : reader.Reads source)
    (hrun : (RunState.start job session reader).follow? job skipped actors = some s)
    (hover : s.isOver = true) (hgo : ¬ s.IsTripped) :
    s.stage = .done ∧ s.AtEnd job source ∧ s.producer.batch.statements = [] := by
  have hstanding := (follow?_invariants hreads hrun).2.standing
  have hfinal : s.stage.isFinal = true := by
    simp only [isOver, Bool.and_eq_true] at hover
    exact hover.1.1
  unfold Standing at hstanding
  cases hs : s.stage with
  | done =>
    rw [hs] at hstanding
    exact ⟨rfl, hstanding.resolve_left hgo⟩
  | failed e =>
    rw [hs] at hstanding
    exact hstanding.elim
  | _ =>
    rw [hs] at hfinal
    exact absurd hfinal Bool.false_ne_true

/-- The report adds up in every state. -/
theorem report_adds_up (hreads : reader.Reads source)
    (hrun : (RunState.start job session reader).follow? job skipped actors = some s) :
    (s.report skipped).attempted =
        (s.report skipped).succeeded + (s.report skipped).insertErrors ∧
      (s.report skipped).processed =
        (s.report skipped).skipped + (s.report skipped).parseErrors +
          (s.report skipped).attempted :=
  ⟨(follow?_invariants hreads hrun).1.replays.insertErrors_eq.symm, rfl⟩

end Invariants

/-- Every row is written exactly once, whoever does the next step: when nobody can do a step any
more and the budget is not tripped, exactly the window behind the records passed over was taken
from the reader, and the statements executed are those of its rows, each once and under the number
of its record. -/
theorem every_row_executed_once {job : Job} {session : σ} {reader opened : Reader}
    {records : List Record} {skipped : Nat} {actors : List Actor} {s : RunState σ}
    (hreads : reader.Reads records)
    (hskip : reader.skip job.options.skipRows = (opened, .ok skipped))
    (hrun : (RunState.start job session opened).follow? job skipped actors = some s)
    (hstuck : ∀ actor, s.step? job skipped actor = none)
    (hgo : s.producer.ledger.budget.trip? = none) :
    let window := job.window (records.drop job.options.skipRows)
    let past := seen job skipped session opened actors
    let report := s.report skipped
    s.isOver = true ∧ s.stage = .done ∧
      report.skipped = min job.options.skipRows records.length ∧
      past.taken = window ∧
      s.reader.Reads (records.drop (job.options.skipRows + window.length)) ∧
      past.executed.Perm (job.statements report.skipped window) ∧
      report.parseErrors = failures window ∧
      report.attempted = (job.statements report.skipped window).length ∧
      report.attempted = report.succeeded + report.insertErrors ∧
      report.processed = report.skipped + report.parseErrors + report.attempted ∧
      report.aborted? = none := by
  intro window past report
  obtain ⟨after, hafter, hsource⟩ := hreads.skip job.options.skipRows
  obtain ⟨rfl, hcount⟩ := Prod.mk.inj (hskip.symm.trans hafter)
  have hskipped : skipped = min job.options.skipRows records.length := Except.ok.inj hcount
  have htrip : ¬ s.IsTripped := by
    unfold IsTripped Budget.isTripped
    rw [hgo]
    exact Bool.false_ne_true
  obtain ⟨haccount, hproduced⟩ := follow?_invariants hsource hrun
  have hover := isOver_of_stuck haccount.workers_ne_nil hstuck
  obtain ⟨hdone, ⟨hread, hreader⟩, hbatch⟩ := atEnd_of_isOver hsource hrun hover htrip
  have hwindow : (records.drop job.options.skipRows).take s.producer.read = window := by
    rw [hread, ← take_window (Nat.le_refl _), List.take_length]
  have hstatements := hproduced.tally.statements_eq
  rw [hwindow, hbatch, List.append_nil] at hstatements
  have hperm : past.executed.Perm (job.statements skipped window) := by
    rw [hstatements]
    exact executed_perm_handed hsource hrun hover
  refine ⟨hover, hdone, hskipped, ?_, ?_, hperm, ?_, ?_, report_adds_up hsource hrun |>.1, rfl,
    hgo⟩
  · exact hproduced.tally.taken_eq.trans hwindow
  · rw [hread, List.drop_drop] at hreader
    exact hreader
  · have hparse := hproduced.tally.parseErrors_eq
    rw [hwindow] at hparse
    exact hparse
  · exact haccount.replays.attempted_eq.trans hperm.length_eq

/-- Two workers write a row and one that does not fit its column, with a failure between them. -/
theorem every_row_executed_once_two_workers :
    let columns := [⟨"id", some .int⟩]
    let job : Job := ⟨"t", columns, .ofPairs [("MAXBATCHSIZE", "1"), ("CHUNKSIZE", "2"),
      ("MAXREQUESTS", "2"), ("SKIPROWS", "1")]⟩
    let session := (Session.new none).createTable "t" columns
    let records : List Record := [.ok ⟨[("id", .int 1)]⟩, .ok ⟨[("id", .int 2)]⟩,
      .error ⟨3, "no row"⟩, .ok ⟨[("id", .text "x")]⟩]
    let opened := Reader.listed columns (records.drop 1)
    let actors : List Actor := [.producer, .producer, .producer, .producer, .producer, .worker 1,
      .producer, .producer, .worker 1, .producer, .producer, .worker 1, .producer, .worker 0,
      .worker 0, .worker 0, .worker 0]
    ∃ s, (RunState.start job session opened).follow? job 1 actors = some s ∧ s.isOver = true ∧
      s.producer.ledger.budget.trip? = none ∧
      (seen job 1 session opened actors).taken = job.window (records.drop 1) ∧
      (seen job 1 session opened actors).executed.Perm
        (job.statements 1 (job.window (records.drop 1))) := by
  intro columns job session records opened actors
  have hskip : job.options.skipRows = 1 := by decide +kernel
  have hend : ((RunState.start job session opened).follow? job 1 actors).any
      (fun s => s.isOver && s.producer.ledger.budget.trip?.isNone) = true := by
    decide +kernel
  obtain ⟨s, hrun, hs⟩ := (Option.any_eq_true _ _).mp hend
  rw [Bool.and_eq_true, Option.isNone_iff_eq_none] at hs
  have hskipped : (Reader.listed columns records).skip job.options.skipRows = (opened, .ok 1) := by
    rw [hskip]
    rfl
  obtain ⟨-, -, -, htaken, -, hperm, -⟩ :=
    every_row_executed_once (Reader.reads_listed columns records) hskipped hrun
      (step?_of_isOver hs.1 job 1) hs.2
  rw [hskip] at htaken hperm
  exact ⟨s, hrun, hs.1, hs.2, htaken, hperm⟩

end BulkTransfer.Import.RunState
