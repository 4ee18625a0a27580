import BulkTransfer.Proofs.Import.Step

/-!
The writes of an interleaving. Every statement that was handed over is executed or waits, with a
worker or in the queue; and the ledger is what executing the statements one after the other makes
of it. Neither depends on what the producer reads.

- `RunState.Accounted`: what was handed over is executed or waits, each statement once, and the
  ledger is the one after the executed statements.
- `RunState.Accounted.step`: every step keeps it.
- `RunState.isTripped_step`: a tripped budget stays tripped.
-/

namespace BulkTransfer.Import

variable {σ : Type}

/-- The statements that a worker has still to execute. -/
def Worker.left : Worker → List WriteStatement
  | .idle => []
  | .busy left | .judging _ left => left

/-- What one worker has can be told apart from what the others have. -/
theorem flatMap_set_perm {α : Type} (has : Worker → List α) {workers : List Worker} {index : Nat}
    {w : Worker} (h : workers[index]? = some w) :
    ∃ others, (workers.flatMap has).Perm (has w ++ others) ∧
      ∀ v, ((workers.set index v).flatMap has).Perm (has v ++ others) := by
  induction workers generalizing index with
  | nil => simp at h
  | cons u more ih =>
    cases index with
    | zero =>
      simp only [List.getElem?_cons_zero, Option.some.injEq] at h
      subst h
      exact ⟨more.flatMap has, by simp, fun v => by simp⟩
    | succ n =>
      obtain ⟨others, hmore, hset⟩ := ih (by simpa using h)
      refine ⟨has u ++ others, ?_, fun v => ?_⟩
      · rw [List.flatMap_cons]
        exact (hmore.append_left (has u)).trans (List.perm_append_comm_assoc _ _ _)
      · rw [List.set_cons_succ, List.flatMap_cons]
        exact ((hset v).append_left (has u)).trans (List.perm_append_comm_assoc _ _ _)

/-- The ledger is the one after the statements, executed one after the other. Parse errors and the
trip are left open. -/
structure Ledger.Replays [WriteSession σ] (session : σ) (executed : List WriteStatement)
    (l : Ledger σ) : Prop where
  session_eq : l.session = replay session executed
  attempted_eq : l.attempted = executed.length
  succeeded_eq : l.succeeded = successes session executed
  insertErrors_eq : l.succeeded + l.budget.insertErrors = l.attempted

theorem Ledger.Replays.attempt [WriteSession σ] {session : σ} {executed : List WriteStatement}
    {l : Ledger σ} (h : l.Replays session executed) (statement : WriteStatement) :
    (l.attempt statement).1.Replays session (executed ++ [statement]) := by
  have herrors := h.insertErrors_eq
  have hcount : l.attempted + 1 = (executed ++ [statement]).length := by
    rw [List.length_append, ← h.attempted_eq]
    rfl
  rcases l.attempt_cases statement with ⟨after, hexec, heq⟩ | ⟨after, e, error, hexec, heq⟩
  · rw [heq]
    rw [h.session_eq] at hexec
    refine ⟨?_, hcount, ?_, ?_⟩
    · rw [replay_concat, hexec]
    · rw [successes_concat, hexec, ← h.succeeded_eq]
      rfl
    · dsimp only
      omega
  · rw [heq]
    rw [h.session_eq] at hexec
    refine ⟨?_, hcount, ?_, ?_⟩
    · rw [replay_concat, hexec]
    · rw [successes_concat, hexec, ← h.succeeded_eq]
      rfl
    · simp only [Budget.increment]
      omega

/-- A ledger that differs in its parse errors and its trip only replays the same statements. -/
theorem Ledger.Replays.of_budget [WriteSession σ] {session : σ} {executed : List WriteStatement}
    {l : Ledger σ} (h : l.Replays session executed) {budget : Budget}
    (hb : budget.insertErrors = l.budget.insertErrors) :
    { l with budget := budget }.Replays session executed :=
  ⟨h.session_eq, h.attempted_eq, h.succeeded_eq, hb ▸ h.insertErrors_eq⟩

namespace RunState

/-- What a step of the producer leaves to the workers: it only adds to the queue, and of the ledger
it changes the budget alone. -/
theorem ProducerStep.frame {job : Job} {skipped : Nat} {s t : RunState σ}
    (h : ProducerStep job skipped s t) :
    t.workers = s.workers ∧ t.queue = s.queue ++ s.handedBy .producer ∧
      ∃ budget, t.producer.ledger = { s.producer.ledger with budget := budget } ∧
        budget.insertErrors = s.producer.ledger.budget.insertErrors ∧
        (s.producer.ledger.budget.isTripped = true → budget.isTripped = true) := by
  have htake : ∀ record, ∃ budget,
      (s.producer.take job skipped record).ledger = { s.producer.ledger with budget := budget } ∧
        budget.insertErrors = s.producer.ledger.budget.insertErrors ∧
        (s.producer.ledger.budget.isTripped = true → budget.isTripped = true) := by
    intro record
    cases record with
    | ok row => exact ⟨s.producer.ledger.budget, rfl, rfl, id⟩
    | error failure =>
      obtain ⟨budget, stopped, heq, -, hinsert, htrip, -⟩ :=
        s.producer.take_error job skipped failure
      exact ⟨budget, by rw [heq], hinsert, htrip⟩
  have hsame : ∃ budget, s.producer.ledger = { s.producer.ledger with budget := budget } ∧
      budget.insertErrors = s.producer.ledger.budget.insertErrors ∧
      (s.producer.ledger.budget.isTripped = true → budget.isTripped = true) :=
    ⟨s.producer.ledger.budget, rfl, rfl, id⟩
  cases h with
  | enough hs => exact ⟨rfl, by simp [handedBy, hs], hsame⟩
  | read hs => exact ⟨rfl, by simp [handedBy, hs], hsame⟩
  | unreadable hs => exact ⟨rfl, by simp [handedBy, hs], hsame⟩
  | chunkEnd hs => exact ⟨rfl, by simp [handedBy, hs], hsame⟩
  | stop hs => exact ⟨rfl, by simp [handedBy, hs], htake _⟩
  | fill hs => exact ⟨rfl, by simp [handedBy, hs], htake _⟩
  | @take record _ _ hs =>
    obtain ⟨progress, hnote⟩ := (s.producer.take job skipped record).noteProgress_eq
      job.options.chunkSize skipped
    refine ⟨rfl, by simp [handedBy, hs], ?_⟩
    rw [hnote]
    exact htake record
  | hand hs =>
    obtain ⟨progress, hnote⟩ := s.enqueue.producer.noteProgress_eq job.options.chunkSize skipped
    refine ⟨rfl, by simp [handedBy, hs, enqueue], ?_⟩
    rw [hnote]
    exact hsame
  | drop hs => exact ⟨rfl, by simp [handedBy, hs], hsame⟩
  | keep hs => exact ⟨rfl, by simp [handedBy, hs], hsame⟩
  | handLast hs => exact ⟨rfl, by simp [handedBy, hs, enqueue], hsame⟩

/-- The statements that were handed over and are not yet executed. -/
def waiting (s : RunState σ) : List WriteStatement :=
  s.workers.flatMap Worker.left ++ s.queue.flatMap Batch.statements

/-- Nothing waits when an import is over. -/
theorem waiting_eq_nil_of_isOver {s : RunState σ} (h : s.isOver = true) : s.waiting = [] := by
  simp only [isOver, Bool.and_eq_true, List.isEmpty_iff] at h
  unfold waiting
  rw [h.1.2, List.flatMap_nil, List.append_nil, List.flatMap_eq_nil_iff]
  intro w hw
  have hidle := List.all_eq_true.mp h.2 w hw
  cases w with
  | idle => rfl
  | _ => exact absurd hidle Bool.false_ne_true

variable [WriteSession σ]

/-- A step of a worker takes what it executes off what waits. -/
theorem WorkerStep.waiting_perm {index : Nat} {s t : RunState σ} (h : WorkerStep index s t) :
    s.waiting.Perm (s.executedBy (.worker index) ++ t.waiting) := by
  unfold waiting
  cases h with
  | @takeBatch batch queue hw hq =>
    have hnone : s.executedBy (.worker index) = [] := by simp [executedBy, hw]
    obtain ⟨others, hold, hset⟩ := flatMap_set_perm Worker.left hw
    have hnew := hset (.busy batch.statements)
    rw [hnone, hq, List.flatMap_cons, List.nil_append, ← List.append_assoc]
    refine List.Perm.append_right _ ?_
    -- the batch goes from the front of the queue to the worker
    exact (hold.append_right batch.statements).trans (List.perm_append_comm.trans hnew.symm)
  | finish hw =>
    have hnone : s.executedBy (.worker index) = [] := by simp [executedBy, hw]
    obtain ⟨others, hold, hset⟩ := flatMap_set_perm Worker.left hw
    rw [hnone, List.nil_append]
    exact (hold.trans (hset .idle).symm).append_right _
  | @attempt statement left hw =>
    have hone : s.executedBy (.worker index) = [statement] := by simp [executedBy, hw]
    obtain ⟨others, hold, hset⟩ := flatMap_set_perm Worker.left hw
    have hleft : (afterAttempt left (s.producer.ledger.attempt statement).2).left = left := by
      cases (s.producer.ledger.attempt statement).2 <;> rfl
    have hnew := hset (afterAttempt left (s.producer.ledger.attempt statement).2)
    rw [hleft] at hnew
    rw [hone]
    exact (hold.trans (hnew.symm.cons statement)).append_right _
  | @judge error left hw =>
    have hnone : s.executedBy (.worker index) = [] := by simp [executedBy, hw]
    obtain ⟨others, hold, hset⟩ := flatMap_set_perm Worker.left hw
    rw [hnone, List.nil_append]
    exact (hold.trans (hset (.busy left)).symm).append_right _

/-- Of the ledger, a step of a worker changes what executing its statement changes, and the trip. -/
theorem WorkerStep.replays {index : Nat} {s t : RunState σ} (h : WorkerStep index s t)
    {session : σ} {executed : List WriteStatement}
    (hl : s.producer.ledger.Replays session executed) :
    t.producer.ledger.Replays session (executed ++ s.executedBy (.worker index)) := by
  cases h with
  | takeBatch hw =>
    have hnone : s.executedBy (.worker index) = [] := by simp [executedBy, hw]
    rw [hnone, List.append_nil]
    exact hl
  | finish hw =>
    have hnone : s.executedBy (.worker index) = [] := by simp [executedBy, hw]
    rw [hnone, List.append_nil]
    exact hl
  | @attempt statement left hw =>
    have hone : s.executedBy (.worker index) = [statement] := by simp [executedBy, hw]
    rw [hone]
    exact hl.attempt statement
  | judge hw =>
    have hnone : s.executedBy (.worker index) = [] := by simp [executedBy, hw]
    rw [hnone, List.append_nil]
    exact hl.of_budget (Budget.insertErrors_note _ _ _ _)

/-- What a step of a worker leaves to the producer. -/
theorem WorkerStep.frame {index : Nat} {s t : RunState σ} (h : WorkerStep index s t) :
    t.reader = s.reader ∧ t.stage = s.stage ∧ t.workers.length = s.workers.length ∧
      (∃ ledger, t.producer = { s.producer with ledger := ledger } ∧
        ledger.budget.parseErrors = s.producer.ledger.budget.parseErrors ∧
        (s.producer.ledger.budget.isTripped = true → ledger.budget.isTripped = true)) := by
  cases h with
  | takeBatch => exact ⟨rfl, rfl, List.length_set, s.producer.ledger, rfl, rfl, id⟩
  | finish => exact ⟨rfl, rfl, List.length_set, s.producer.ledger, rfl, rfl, id⟩
  | @attempt statement left hw =>
    refine ⟨rfl, rfl, List.length_set, (s.producer.ledger.attempt statement).1, rfl, ?_⟩
    rcases s.producer.ledger.attempt_cases statement with ⟨_, _, heq⟩ | ⟨_, _, _, _, heq⟩
    · rw [heq]
      exact ⟨rfl, id⟩
    · rw [heq]
      exact ⟨rfl, id⟩
  | @judge error left hw =>
    refine ⟨rfl, rfl, List.length_set, s.producer.ledger.judge error, rfl, ?_, ?_⟩
    · exact Budget.parseErrors_note _ _ _ _
    · intro htrip
      exact Budget.isTripped_note htrip _ _ _

/-- What was handed over is executed or waits, and the ledger is the one after what was executed. -/
structure Accounted (session : σ) (past : History) (s : RunState σ) : Prop where
  handed_perm : (past.handed.flatMap Batch.statements).Perm (past.executed ++ s.waiting)
  replays : s.producer.ledger.Replays session past.executed
  workers_ne_nil : s.workers ≠ []

theorem Accounted.start (job : Job) (session : σ) (reader : Reader) :
    Accounted session ⟨[], [], []⟩ (.start job session reader) := by
  have hworkers : (RunState.start job session reader).workers =
      List.replicate (Pool.new job.options.maxRequests).workers .idle := rfl
  refine ⟨?_, ⟨rfl, rfl, rfl, rfl⟩, ?_⟩
  · have hidle : ∀ n, (List.replicate n Worker.idle).flatMap Worker.left = [] := by
      intro n
      rw [List.flatMap_eq_nil_iff]
      intro w hw
      rw [List.eq_of_mem_replicate hw]
      rfl
    unfold waiting
    rw [hworkers, hidle]
    exact List.Perm.refl _
  · have hpos : 1 ≤ (Pool.new job.options.maxRequests).workers := Nat.le_max_left _ _
    intro hnil
    have hlen := congrArg List.length hnil
    rw [hworkers, List.length_replicate, List.length_nil] at hlen
    omega

theorem Accounted.step {job : Job} {skipped : Nat} {session : σ} {past : History}
    {s t : RunState σ} {actor : Actor} (h : Accounted session past s)
    (hs : s.step? job skipped actor = some t) : Accounted session (s.see actor past) t := by
  cases actor with
  | producer =>
    obtain ⟨hworkers, hqueue, budget, hledger, hinsert, -⟩ := (producerStep hs).frame
    have hexecuted : s.executedBy .producer = [] := rfl
    have hwaiting :
        t.waiting = s.waiting ++ (s.handedBy .producer).flatMap Batch.statements := by
      unfold waiting
      rw [hworkers, hqueue, List.flatMap_append, List.append_assoc]
    refine ⟨?_, ?_, hworkers ▸ h.workers_ne_nil⟩
    · simp only [see, hexecuted, List.append_nil, List.flatMap_append, hwaiting]
      rw [← List.append_assoc]
      exact h.handed_perm.append_right _
    · simp only [see, hexecuted, List.append_nil]
      rw [hledger]
      exact h.replays.of_budget hinsert
  | worker index =>
    have hstep := workerStep hs
    have hhanded : s.handedBy (.worker index) = [] := rfl
    refine ⟨?_, hstep.replays h.replays, ?_⟩
    · simp only [see, hhanded, List.append_nil, List.append_assoc]
      exact h.handed_perm.trans (hstep.waiting_perm.append_left _)
    · intro hnil
      have hlen := hstep.frame.2.2.1
      rw [hnil] at hlen
      exact h.workers_ne_nil (List.length_eq_zero_iff.mp hlen.symm)

/-- A tripped budget stays tripped. -/
theorem isTripped_step {job : Job} {skipped : Nat} {s t : RunState σ} {actor : Actor}
    (hs : s.step? job skipped actor = some t)
    (h : s.producer.ledger.budget.isTripped = true) :
    t.producer.ledger.budget.isTripped = true := by
  cases actor with
  | producer =>
    obtain ⟨-, -, budget, hledger, -, htrip⟩ := (producerStep hs).frame
    rw [hledger]
    exact htrip h
  | worker index =>
    obtain ⟨-, -, -, ledger, hproducer, -, htrip⟩ := (workerStep hs).frame
    rw [hproducer]
    exact htrip h

end RunState

end BulkTransfer.Import
