import BulkTransfer.Import.Run

/-!
An import with its workers, one step at a time. The producer reads records and hands over full
batches to a queue with room for twice as many batches as there are workers. A worker takes the
first batch of the queue and executes its statements one after the other; a failed write is counted
in one step and judged in a later one. Who does the next step is free, so a list of actors is one
interleaving. `run` takes the one in which every batch is executed when it is handed over.

- `RunState.step?`: the step of an actor, if it can do one.
- `RunState.follow?`: the state after an interleaving.
- `RunState.isOver`: nobody has anything left to do.
- `RunState.follow?_append`: an interleaving can be cut anywhere.
- `RunState.step?_of_isOver`: an import that is over has no step.
-/

namespace BulkTransfer.Import

/-- Who does a step. -/
inductive Actor where
  | producer
  | worker (index : Nat)
  deriving DecidableEq, Repr

/-- Where the producer stands. -/
inductive Stage where
  /-- About to read. -/
  | reading
  /-- With records of a reading still to take; the flag tells whether it was the last one. -/
  | taking (records : List Record) (isLast : Bool)
  /-- With a full batch to hand over before it goes on. -/
  | handing (records : List Record) (isLast : Bool)
  /-- Behind the last record that it takes. -/
  | ending
  /-- With the last batch to hand over. -/
  | handingLast
  | done
  /-- Stopped by a source that cannot be read. -/
  | failed (failure : Failure)

/-- What a worker does. -/
inductive Worker where
  | idle
  /-- Executing a batch, of which these statements are left. -/
  | busy (left : List WriteStatement)
  /-- Behind a failed write, whose count is still to be judged. -/
  | judging (error : Ledger.CountedError) (left : List WriteStatement)

/-- Whether the producer has come to its end. -/
def Stage.isFinal : Stage → Bool
  | .done | .failed _ => true
  | _ => false

/-- Whether a worker waits for a batch. -/
def Worker.isIdle : Worker → Bool
  | .idle => true
  | _ => false

/-- The state of an import with its workers. -/
structure RunState (σ : Type) where
  reader : Reader
  producer : Producer σ
  stage : Stage
  /-- The batches handed over and not yet taken, the oldest first. -/
  queue : List Batch
  workers : List Worker

namespace RunState

variable {σ : Type}

/-- The state of an import that has passed over the records it skips. -/
def start (job : Job) (session : σ) (reader : Reader) : RunState σ :=
  { reader := reader
    producer := .start job session
    stage := .reading
    queue := []
    workers := List.replicate (Pool.new job.options.maxRequests).workers .idle }

/-- Whether another batch can be handed over. -/
def hasRoom (job : Job) (s : RunState σ) : Bool :=
  s.queue.length < (Pool.new job.options.maxRequests).queueCapacity

/-- Puts the batch of the producer at the end of the queue. -/
def enqueue (s : RunState σ) : RunState σ :=
  { s with
    queue := s.queue ++ [s.producer.batch]
    producer := { s.producer with batch := s.producer.batch.emptied } }

/-! ## The producer -/

/-- Reads, unless as many records are read as there may be. -/
def readNext (job : Job) (s : RunState σ) : RunState σ :=
  if s.producer.wanted job = 0 then { s with stage := .ending }
  else match s.reader.readBatch (s.producer.wanted job) with
    | (reader, .error e) => { s with reader := reader, stage := .failed e }
    | (reader, .ok batch) =>
      { s with reader := reader, stage := .taking batch.records batch.isLast }

/-- Takes a record, and looks at the budget if the batch is full. -/
def takeRecord (job : Job) (skipped : Nat) (s : RunState σ) (record : Record)
    (rest : List Record) (isLast : Bool) : RunState σ :=
  let p := s.producer.take job skipped record
  if p.stopped then { s with producer := p, stage := .ending }
  else if p.batch.isFull then
    if p.ledger.budget.isTripped then
      { s with producer := { p with stopped := true }, stage := .ending }
    else { s with producer := p, stage := .handing rest isLast }
  else
    { s with
      producer := p.noteProgress job.options.chunkSize skipped
      stage := .taking rest isLast }

/-- Hands over a full batch, if there is room. -/
def handFull? (job : Job) (skipped : Nat) (s : RunState σ) (rest : List Record) (isLast : Bool) :
    Option (RunState σ) :=
  if s.hasRoom job then
    let s := s.enqueue
    some { s with
      producer := s.producer.noteProgress job.options.chunkSize skipped
      stage := .taking rest isLast }
  else none

/-- Drops the last batch if it is empty or the budget is tripped. -/
def endReading (s : RunState σ) : RunState σ :=
  if s.producer.ledger.budget.isTripped || s.producer.batch.isEmpty then { s with stage := .done }
  else { s with stage := .handingLast }

/-- The step of the producer. -/
def produce? (job : Job) (skipped : Nat) (s : RunState σ) : Option (RunState σ) :=
  match s.stage with
  | .reading => some (s.readNext job)
  | .taking [] isLast => some { s with stage := if isLast then .ending else .reading }
  | .taking (record :: rest) isLast => some (s.takeRecord job skipped record rest isLast)
  | .handing rest isLast => s.handFull? job skipped rest isLast
  | .ending => some s.endReading
  | .handingLast => if s.hasRoom job then some { s.enqueue with stage := .done } else none
  | .done | .failed _ => none

/-! ## The workers -/

/-- The state with a changed ledger, and what a worker does next. -/
def withWorker (s : RunState σ) (index : Nat) (ledger : Ledger σ) (worker : Worker) :
    RunState σ :=
  { s with
    producer := { s.producer with ledger := ledger }
    workers := s.workers.set index worker }

/-- The step of a worker. -/
def work? [WriteSession σ] (index : Nat) (s : RunState σ) : Option (RunState σ) :=
  let ledger := s.producer.ledger
  match s.workers[index]?, s.queue with
  | none, _ | some .idle, [] => none
  | some .idle, batch :: queue =>
    some { s.withWorker index ledger (.busy batch.statements) with queue := queue }
  | some (.busy []), _ => some (s.withWorker index ledger .idle)
  | some (.busy (statement :: left)), _ => match ledger.attempt statement with
    | (ledger, none) => some (s.withWorker index ledger (.busy left))
    | (ledger, some error) => some (s.withWorker index ledger (.judging error left))
  | some (.judging error left), _ => some (s.withWorker index (ledger.judge error) (.busy left))

/-! ## Interleavings -/

/-- The step of an actor, if it can do one. -/
def step? [WriteSession σ] (job : Job) (skipped : Nat) (s : RunState σ) :
    Actor → Option (RunState σ)
  | .producer => s.produce? job skipped
  | .worker index => s.work? index

/-- The state after the steps of actors, if each of them can do its own. -/
def follow? [WriteSession σ] (job : Job) (skipped : Nat) :
    RunState σ → List Actor → Option (RunState σ)
  | s, [] => some s
  | s, actor :: more => match s.step? job skipped actor with
    | some next => next.follow? job skipped more
    | none => none

/-- Whether nobody has anything left to do. -/
def isOver (s : RunState σ) : Bool :=
  s.stage.isFinal && s.queue.isEmpty && s.workers.all Worker.isIdle

/-- The report of an import that is over. -/
def report (skipped : Nat) (s : RunState σ) : Report :=
  reportOf skipped s.reader.dataset? s.producer.ledger

/-! ## Lemmas -/

variable [WriteSession σ]

theorem follow?_append (job : Job) (skipped : Nat) (s : RunState σ) (first second : List Actor) :
    s.follow? job skipped (first ++ second) =
      (s.follow? job skipped first).bind fun t => t.follow? job skipped second := by
  induction first generalizing s with
  | nil => rfl
  | cons actor more ih =>
    simp only [List.cons_append, follow?]
    cases s.step? job skipped actor with
    | none => rfl
    | some next => exact ih next

omit [WriteSession σ] in
theorem produce?_of_isFinal {s : RunState σ} (h : s.stage.isFinal = true) (job : Job)
    (skipped : Nat) : s.produce? job skipped = none := by
  cases hs : s.stage with
  | done => simp [produce?, hs]
  | failed e => simp [produce?, hs]
  | _ => simp [hs, Stage.isFinal] at h

theorem work?_of_idle {s : RunState σ} (hq : s.queue = []) (hw : s.workers.all Worker.isIdle = true)
    (index : Nat) : s.work? index = none := by
  cases hi : s.workers[index]? with
  | none => simp [work?, hi]
  | some w =>
    have hidle : w.isIdle = true := List.all_eq_true.mp hw w (List.mem_of_getElem? hi)
    cases w with
    | idle => simp [work?, hi, hq]
    | _ => simp [Worker.isIdle] at hidle

theorem step?_of_isOver {s : RunState σ} (h : s.isOver = true) (job : Job) (skipped : Nat)
    (actor : Actor) : s.step? job skipped actor = none := by
  simp only [isOver, Bool.and_eq_true, List.isEmpty_iff] at h
  cases actor with
  | producer => exact produce?_of_isFinal h.1.1 job skipped
  | worker index => exact work?_of_idle h.1.2 h.2 index

end RunState

end BulkTransfer.Import
