import BulkTransfer.Import.Schedule

/-!
What a job should execute, said of its records alone, and what an interleaving shows: the records
that the producer takes, the batches it hands over and the statements that workers execute, each in
the order of the steps.

- `Job.statements`: the statements of the rows among records, with their numbers.
- `replay`, `successes`: the session after statements, and how many of them succeed.
- `RunState.history`: what has been seen after the steps of an interleaving.
- `RunState.follow?_induction`: what every step keeps, an interleaving keeps.
-/

namespace BulkTransfer.Import

/-! ## What a job should execute -/

namespace Job

/-- The statement that a row with a record number becomes. -/
def statement (job : Job) (record : Nat) (row : Row) : WriteStatement :=
  ⟨record, Statement.insert (Statement.insertStart job.table job.columns) job.columns row⟩

/-- The statements of the rows among records, in their order. Records are numbered on from the
given count of earlier ones. -/
def statements (job : Job) (before : Nat) : List Record → List WriteStatement
  | [] => []
  | .ok row :: more => job.statement (before + 1) row :: job.statements (before + 1) more
  | .error _ :: more => job.statements (before + 1) more

/-- The records that a job takes of those behind the ones passed over. -/
def window (job : Job) (source : List Record) : List Record :=
  match job.options.maxRows? with
  | some max => source.take max
  | none => source

end Job

/-- The number of records that are no rows. -/
def failures (records : List Record) : Nat := records.countP fun r => !r.isOk

theorem statements_append (job : Job) (before : Nat) (first second : List Record) :
    job.statements before (first ++ second) =
      job.statements before first ++ job.statements (before + first.length) second := by
  induction first generalizing before with
  | nil => rfl
  | cons record more ih =>
    have hcount : before + 1 + more.length = before + (more.length + 1) := by omega
    cases record with
    | ok row => simp only [List.cons_append, Job.statements, ih, List.length_cons, hcount]
    | error e => simp only [List.cons_append, Job.statements, ih, List.length_cons, hcount]

theorem prefix_statements (job : Job) (before : Nat) {first second : List Record}
    (h : first <+: second) : job.statements before first <+: job.statements before second := by
  obtain ⟨rest, rfl⟩ := h
  rw [statements_append]
  exact List.prefix_append _ _

theorem prefix_window (job : Job) (source : List Record) : job.window source <+: source := by
  unfold Job.window
  split
  · exact List.take_prefix _ _
  · exact List.prefix_refl _

/-- As many records of the source as a window has are its first ones. -/
theorem take_window {job : Job} {source : List Record} {n : Nat}
    (h : n ≤ (job.window source).length) : (job.window source).take n = source.take n := by
  obtain ⟨rest, hrest⟩ := prefix_window job source
  rw [← hrest, List.take_append_of_le_length h, hrest]

/-! ## Executing statements one after the other -/

section Replay

variable {σ : Type} [WriteSession σ]

/-- The session after statements. -/
def replay (session : σ) (statements : List WriteStatement) : σ :=
  statements.foldl (fun session s => (WriteSession.execute session s.text).1) session

/-- How many of the statements succeed, one after the other. -/
def successes (session : σ) : List WriteStatement → Nat
  | [] => 0
  | s :: more =>
    (if (WriteSession.execute session s.text).2.isOk then 1 else 0) +
      successes (WriteSession.execute session s.text).1 more

theorem replay_concat (session : σ) (statements : List WriteStatement) (s : WriteStatement) :
    replay session (statements ++ [s]) =
      (WriteSession.execute (replay session statements) s.text).1 := by
  unfold replay
  rw [List.foldl_append]
  rfl

theorem successes_concat (session : σ) (statements : List WriteStatement) (s : WriteStatement) :
    successes session (statements ++ [s]) = successes session statements +
      if (WriteSession.execute (replay session statements) s.text).2.isOk then 1 else 0 := by
  induction statements generalizing session with
  | nil => exact Nat.add_comm _ 0
  | cons first more ih =>
    simp only [List.cons_append, successes, ih]
    rw [Nat.add_assoc]
    rfl

end Replay

/-! ## What an interleaving shows -/

/-- What has been seen of an import, in the order of its steps. -/
structure History where
  /-- The records that the producer took. -/
  taken : List Record
  /-- The batches that it handed over. -/
  handed : List Batch
  /-- The statements that workers executed. -/
  executed : List WriteStatement

namespace RunState

variable {σ : Type}

/-- The records that a step takes. -/
def takenBy (s : RunState σ) : Actor → List Record
  | .producer => match s.stage with
    | .taking (record :: _) _ => [record]
    | _ => []
  | .worker _ => []

/-- The batches that a step hands over. -/
def handedBy (s : RunState σ) : Actor → List Batch
  | .producer => match s.stage with
    | .handing _ _ | .handingLast => [s.producer.batch]
    | _ => []
  | .worker _ => []

/-- The statements that a step executes. -/
def executedBy (s : RunState σ) : Actor → List WriteStatement
  | .producer => []
  | .worker index => match s.workers[index]? with
    | some (.busy (statement :: _)) => [statement]
    | _ => []

/-- What has been seen after a step. -/
def see (s : RunState σ) (actor : Actor) (past : History) : History :=
  ⟨past.taken ++ s.takenBy actor, past.handed ++ s.handedBy actor,
    past.executed ++ s.executedBy actor⟩

/-- What has been seen after the steps of an interleaving. -/
def history [WriteSession σ] (job : Job) (skipped : Nat) :
    History → RunState σ → List Actor → History
  | past, _, [] => past
  | past, s, actor :: more => match s.step? job skipped actor with
    | some next => history job skipped (s.see actor past) next more
    | none => past

/-- What every step keeps, of the state and of what has been seen, an interleaving keeps. -/
theorem follow?_induction [WriteSession σ] {job : Job} {skipped : Nat}
    {invariant : History → RunState σ → Prop}
    (hstep : ∀ past s t actor, invariant past s → s.step? job skipped actor = some t →
      invariant (s.see actor past) t)
    {actors : List Actor} {past : History} {s t : RunState σ} (h : invariant past s)
    (hrun : s.follow? job skipped actors = some t) :
    invariant (history job skipped past s actors) t := by
  induction actors generalizing past s with
  | nil =>
    obtain rfl := Option.some.inj hrun
    exact h
  | cons actor more ih =>
    unfold follow? at hrun
    unfold history
    cases hs : s.step? job skipped actor with
    | none => simp [hs] at hrun
    | some next =>
      rw [hs] at hrun
      exact ih (hstep past s next actor h hs) hrun

end RunState

end BulkTransfer.Import
