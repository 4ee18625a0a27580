import BulkTransfer.Proofs.Import.Trace

/-!
What a step can do, said once: the kinds of steps of the producer and of a worker, with the
conditions under which they are done. Every invariant goes by these cases.

- `RunState.producerStep`, `RunState.workerStep`: a step is of one of these kinds.
- `RunState.isOver_of_stuck`: an import in which nobody can do a step is over.
-/

namespace BulkTransfer.Import

variable {σ : Type}

/-! ## The producer -/

namespace Producer

theorem take_ok (job : Job) (skipped : Nat) (p : Producer σ) (row : Row) :
    p.take job skipped (.ok row) =
      { p with
        read := p.read + 1
        batch := p.batch.push (job.statement (skipped + p.read + 1) row) } := rfl

/-- A failure is counted, and stops the producer only if it trips the budget. -/
theorem take_error (job : Job) (skipped : Nat) (p : Producer σ) (failure : ParseFailure) :
    ∃ budget stopped,
      p.take job skipped (.error failure) =
        { p with
          read := p.read + 1
          ledger := { p.ledger with budget := budget }
          stopped := stopped } ∧
      budget.parseErrors = p.ledger.budget.parseErrors + 1 ∧
      budget.insertErrors = p.ledger.budget.insertErrors ∧
      (p.ledger.budget.isTripped = true → budget.isTripped = true) ∧
      (stopped = true → budget.isTripped = true) := by
  let counted := p.ledger.budget.increment .parse
  let noted := counted.note .parse counted.parseErrors ⟨failure.record, failure.message⟩
  refine ⟨noted.1, noted.2 == .abort, rfl, ?_, ?_, ?_, ?_⟩
  · exact Budget.parseErrors_note counted _ _ _
  · exact Budget.insertErrors_note counted _ _ _
  · intro htrip
    have hcounted : counted.isTripped = true := htrip
    exact Budget.isTripped_note hcounted _ _ _
  · intro hstop
    exact Budget.isTripped_of_abort (beq_iff_eq.mp hstop)

theorem read_take (job : Job) (skipped : Nat) (p : Producer σ) (record : Record) :
    (p.take job skipped record).read = p.read + 1 := by
  cases record with
  | ok row => rfl
  | error failure =>
    obtain ⟨budget, stopped, heq, -⟩ := p.take_error job skipped failure
    rw [heq]

end Producer

namespace RunState

/-- The steps of the producer. -/
inductive ProducerStep (job : Job) (skipped : Nat) (s : RunState σ) : RunState σ → Prop
  | enough (hs : s.stage = .reading) (hw : s.producer.wanted job = 0) :
    ProducerStep job skipped s { s with stage := .ending }
  | read {reader : Reader} {batch : ReadBatch} (hs : s.stage = .reading)
      (hw : s.producer.wanted job ≠ 0)
      (hr : s.reader.readBatch (s.producer.wanted job) = (reader, .ok batch)) :
    ProducerStep job skipped s
      { s with reader := reader, stage := .taking batch.records batch.isLast }
  | unreadable {reader : Reader} {e : Failure} (hs : s.stage = .reading)
      (hw : s.producer.wanted job ≠ 0)
      (hr : s.reader.readBatch (s.producer.wanted job) = (reader, .error e)) :
    ProducerStep job skipped s { s with reader := reader, stage := .failed e }
  | chunkEnd {isLast : Bool} (hs : s.stage = .taking [] isLast) :
    ProducerStep job skipped s { s with stage := if isLast then .ending else .reading }
  | stop {record : Record} {rest : List Record} {isLast : Bool}
      (hs : s.stage = .taking (record :: rest) isLast)
      (hstop : (s.producer.take job skipped record).stopped = true ∨
        (s.producer.take job skipped record).ledger.budget.isTripped = true) :
    ProducerStep job skipped s
      { s with
        producer := { s.producer.take job skipped record with stopped := true }
        stage := .ending }
  | fill {record : Record} {rest : List Record} {isLast : Bool}
      (hs : s.stage = .taking (record :: rest) isLast)
      (hgo : (s.producer.take job skipped record).stopped = false)
      (hfull : (s.producer.take job skipped record).batch.isFull = true) :
    ProducerStep job skipped s
      { s with producer := s.producer.take job skipped record, stage := .handing rest isLast }
  | take {record : Record} {rest : List Record} {isLast : Bool}
      (hs : s.stage = .taking (record :: rest) isLast)
      (hgo : (s.producer.take job skipped record).stopped = false)
      (hfull : (s.producer.take job skipped record).batch.isFull = false) :
    ProducerStep job skipped s
      { s with
        producer := (s.producer.take job skipped record).noteProgress job.options.chunkSize skipped
        stage := .taking rest isLast }
  | hand {rest : List Record} {isLast : Bool} (hs : s.stage = .handing rest isLast)
      (hroom : s.hasRoom job = true) :
    ProducerStep job skipped s
      { s.enqueue with
        producer := s.enqueue.producer.noteProgress job.options.chunkSize skipped
        stage := .taking rest isLast }
  | drop (hs : s.stage = .ending)
      (hdrop : s.producer.ledger.budget.isTripped = true ∨ s.producer.batch.isEmpty = true) :
    ProducerStep job skipped s { s with stage := .done }
  | keep (hs : s.stage = .ending) (hgo : s.producer.ledger.budget.isTripped = false)
      (hsome : s.producer.batch.isEmpty = false) :
    ProducerStep job skipped s { s with stage := .handingLast }
  | handLast (hs : s.stage = .handingLast) (hroom : s.hasRoom job = true) :
    ProducerStep job skipped s { s.enqueue with stage := .done }

theorem producerStep_readNext (job : Job) (skipped : Nat) {s : RunState σ}
    (hs : s.stage = .reading) : ProducerStep job skipped s (s.readNext job) := by
  unfold readNext
  split
  · next hw => exact .enough hs hw
  · next hw =>
    split
    · next reader e hr => exact .unreadable hs hw hr
    · next reader batch hr => exact .read hs hw hr

theorem producerStep_takeRecord (job : Job) (skipped : Nat) {s : RunState σ} {record : Record}
    {rest : List Record} {isLast : Bool} (hs : s.stage = .taking (record :: rest) isLast) :
    ProducerStep job skipped s (s.takeRecord job skipped record rest isLast) := by
  unfold takeRecord
  dsimp only
  split
  · next hstop =>
    -- the producer has set the flag itself, so setting it again changes nothing
    have hsame : { s.producer.take job skipped record with stopped := true } =
        s.producer.take job skipped record := by
      rw [← hstop]
    have hstep : ProducerStep job skipped s
        { s with
          producer := { s.producer.take job skipped record with stopped := true }
          stage := .ending } := .stop hs (.inl hstop)
    rw [hsame] at hstep
    exact hstep
  · next hgo =>
    rw [Bool.not_eq_true] at hgo
    split
    · next hfull =>
      split
      · next htrip => exact .stop hs (.inr htrip)
      · exact .fill hs hgo hfull
    · next hfull => exact .take hs hgo (by rwa [Bool.not_eq_true] at hfull)

/-- A step of the producer is of one of these kinds. -/
theorem producerStep {job : Job} {skipped : Nat} {s t : RunState σ}
    (h : s.produce? job skipped = some t) : ProducerStep job skipped s t := by
  unfold produce? at h
  split at h
  · next hs =>
    obtain rfl := Option.some.inj h
    exact producerStep_readNext job skipped hs
  · next hs =>
    obtain rfl := Option.some.inj h
    exact .chunkEnd hs
  · next hs =>
    obtain rfl := Option.some.inj h
    exact producerStep_takeRecord job skipped hs
  · next hs =>
    unfold handFull? at h
    split at h
    · next hroom =>
      obtain rfl := Option.some.inj h
      exact .hand hs hroom
    · nomatch h
  · next hs =>
    obtain rfl := Option.some.inj h
    unfold endReading
    split
    · next hdrop => exact .drop hs (by rwa [Bool.or_eq_true] at hdrop)
    · next hkeep =>
      rw [Bool.or_eq_true, not_or, Bool.not_eq_true, Bool.not_eq_true] at hkeep
      exact .keep hs hkeep.1 hkeep.2
  · next hs =>
    split at h
    · next hroom =>
      obtain rfl := Option.some.inj h
      exact .handLast hs hroom
    · nomatch h
  · nomatch h
  · nomatch h

theorem produce?_of_handing {job : Job} {s : RunState σ} {rest : List Record} {isLast : Bool}
    (hs : s.stage = .handing rest isLast) (hroom : s.hasRoom job = true) (skipped : Nat) :
    s.produce? job skipped = some
      { s.enqueue with
        producer := s.enqueue.producer.noteProgress job.options.chunkSize skipped
        stage := .taking rest isLast } := by
  unfold produce? handFull?
  rw [hs, hroom]
  rfl

theorem produce?_of_handingLast {job : Job} {s : RunState σ} (hs : s.stage = .handingLast)
    (hroom : s.hasRoom job = true) (skipped : Nat) :
    s.produce? job skipped = some { s.enqueue with stage := .done } := by
  unfold produce?
  rw [hs, hroom]
  rfl

/-! ## The workers -/

/-- What a worker does behind an attempt. -/
def afterAttempt (left : List WriteStatement) : Option Ledger.CountedError → Worker
  | none => .busy left
  | some error => .judging error left

section Steps

variable [WriteSession σ] {index : Nat} {s : RunState σ} {left : List WriteStatement}

theorem work?_of_queue_cons {batch : Batch} {queue : List Batch}
    (hw : s.workers[index]? = some .idle) (hq : s.queue = batch :: queue) :
    s.work? index = some
      { s.withWorker index s.producer.ledger (.busy batch.statements) with queue := queue } := by
  unfold work?
  rw [hw, hq]

theorem work?_of_busy_nil (hw : s.workers[index]? = some (.busy [])) :
    s.work? index = some (s.withWorker index s.producer.ledger .idle) := by
  unfold work?
  rw [hw]

theorem work?_of_busy_cons {statement : WriteStatement}
    (hw : s.workers[index]? = some (.busy (statement :: left))) :
    s.work? index = some
      (s.withWorker index (s.producer.ledger.attempt statement).1
        (afterAttempt left (s.producer.ledger.attempt statement).2)) := by
  unfold work?
  rw [hw]
  dsimp only
  split
  · next heq => rw [heq]; rfl
  · next heq => rw [heq]; rfl

theorem work?_of_judging {error : Ledger.CountedError}
    (hw : s.workers[index]? = some (.judging error left)) :
    s.work? index = some (s.withWorker index (s.producer.ledger.judge error) (.busy left)) := by
  unfold work?
  rw [hw]

end Steps

/-- The steps of a worker. -/
inductive WorkerStep [WriteSession σ] (index : Nat) (s : RunState σ) : RunState σ → Prop
  | takeBatch {batch : Batch} {queue : List Batch} (hw : s.workers[index]? = some .idle)
      (hq : s.queue = batch :: queue) :
    WorkerStep index s
      { s.withWorker index s.producer.ledger (.busy batch.statements) with queue := queue }
  | finish (hw : s.workers[index]? = some (.busy [])) :
    WorkerStep index s (s.withWorker index s.producer.ledger .idle)
  | attempt {statement : WriteStatement} {left : List WriteStatement}
      (hw : s.workers[index]? = some (.busy (statement :: left))) :
    WorkerStep index s
      (s.withWorker index (s.producer.ledger.attempt statement).1
        (afterAttempt left (s.producer.ledger.attempt statement).2))
  | judge {error : Ledger.CountedError} {left : List WriteStatement}
      (hw : s.workers[index]? = some (.judging error left)) :
    WorkerStep index s (s.withWorker index (s.producer.ledger.judge error) (.busy left))

/-- A step of a worker is of one of these kinds. -/
theorem workerStep [WriteSession σ] {index : Nat} {s t : RunState σ}
    (h : s.work? index = some t) : WorkerStep index s t := by
  unfold work? at h
  dsimp only at h
  split at h
  · nomatch h
  · nomatch h
  · next hw hq =>
    obtain rfl := Option.some.inj h
    exact .takeBatch hw hq
  · next hw =>
    obtain rfl := Option.some.inj h
    exact .finish hw
  · next statement left hw =>
    have hattempt := work?_of_busy_cons hw
    unfold work? at hattempt
    rw [hw] at hattempt
    dsimp only at hattempt
    obtain rfl := Option.some.inj (h.symm.trans hattempt)
    exact .attempt hw
  · next hw =>
    obtain rfl := Option.some.inj h
    exact .judge hw

/-! ## Nobody can do a step -/

theorem hasRoom_of_queue_nil (job : Job) {s : RunState σ} (hq : s.queue = []) :
    s.hasRoom job = true := by
  unfold hasRoom Pool.queueCapacity Pool.new
  rw [hq]
  simp only [List.length_nil, decide_eq_true_eq]
  omega

theorem isFinal_of_produce?_eq_none {job : Job} {skipped : Nat} {s : RunState σ}
    (hroom : s.hasRoom job = true) (h : s.produce? job skipped = none) :
    s.stage.isFinal = true := by
  unfold produce? handFull? at h
  rw [hroom] at h
  cases hs : s.stage with
  | done => rfl
  | failed e => rfl
  | taking records isLast => cases records <;> simp [hs] at h
  | reading => simp [hs] at h
  | handing rest isLast => simp [hs] at h
  | ending => simp [hs] at h
  | handingLast => simp [hs] at h

theorem idle_of_work?_eq_none [WriteSession σ] {index : Nat} {s : RunState σ} {w : Worker}
    (hw : s.workers[index]? = some w) (h : s.work? index = none) :
    w.isIdle = true ∧ s.queue = [] := by
  unfold work? at h
  rw [hw] at h
  cases w with
  | idle =>
    cases hq : s.queue with
    | nil => exact ⟨rfl, rfl⟩
    | cons batch queue => simp [hq] at h
  | busy left =>
    cases left with
    | nil => simp at h
    | cons statement left =>
      dsimp only at h
      split at h <;> nomatch h
  | judging error left => simp at h

/-- Where there are workers, nobody waits for ever: an import in which nobody can do a step is
over. -/
theorem isOver_of_stuck [WriteSession σ] {job : Job} {skipped : Nat} {s : RunState σ}
    (hw : s.workers ≠ []) (h : ∀ actor, s.step? job skipped actor = none) : s.isOver = true := by
  have hidle : ∀ (index : Nat) (w : Worker), s.workers[index]? = some w →
      w.isIdle = true ∧ s.queue = [] :=
    fun index w hi => idle_of_work?_eq_none hi (h (.worker index))
  obtain ⟨w, rest, hcons⟩ := List.exists_cons_of_ne_nil hw
  have hq : s.queue = [] := (hidle 0 w (by rw [hcons]; rfl)).2
  have hall : s.workers.all Worker.isIdle = true := by
    refine List.all_eq_true.mpr fun v hv => ?_
    obtain ⟨index, hi⟩ := List.getElem?_of_mem hv
    exact (hidle index v hi).1
  have hfinal := isFinal_of_produce?_eq_none (hasRoom_of_queue_nil job hq) (h .producer)
  unfold isOver
  rw [hfinal, hq, hall]
  rfl

end RunState

end BulkTransfer.Import
