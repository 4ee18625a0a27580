import BulkTransfer.Proofs.Import.Interleaving

/-!
The import as it is run is one of its interleavings: the one in which the first worker executes
each batch as soon as it is handed over, before the producer goes on. Statements are then executed
in the order of the source.

- `RunState.Leads`: an interleaving leads from one state, and what has been seen, to another.
- `RunState.leads_step`, `RunState.leads_consume`: how the producer takes a record, and all records.
- `run_is_interleaving`: the import as it is run.
-/

namespace BulkTransfer.Import

variable {σ : Type} [WriteSession σ]

/-! ## The counts of parse errors are the producer's own -/

theorem parseErrors_execute (l : Ledger σ) (s : WriteStatement) :
    (l.execute s).budget.parseErrors = l.budget.parseErrors := by
  unfold Ledger.execute
  rcases l.attempt_cases s with ⟨_, _, heq⟩ | ⟨_, _, _, _, heq⟩
  · rw [heq]
  · rw [heq]
    exact Budget.parseErrors_note _ _ _ _

theorem parseErrors_executeBatch (l : Ledger σ) (b : Batch) :
    (l.executeBatch b).budget.parseErrors = l.budget.parseErrors := by
  unfold Ledger.executeBatch
  induction b.statements generalizing l with
  | nil => rfl
  | cons s more ih =>
    rw [List.foldl_cons, ih]
    exact parseErrors_execute l s

omit [WriteSession σ] in
/-- What is reported does not depend on the writes. -/
theorem noteProgress_with_ledger (p : Producer σ) (chunk skipped : Nat) {l : Ledger σ}
    (h : l.budget.parseErrors = p.ledger.budget.parseErrors) :
    { p.noteProgress chunk skipped with ledger := l } =
      { p with ledger := l }.noteProgress chunk skipped := by
  unfold Producer.noteProgress
  dsimp only
  split
  · rw [h]
  · rfl

namespace RunState

/-! ## Leading from one state to another -/

/-- Steps lead from one state, and what has been seen by then, to another. -/
def Leads (job : Job) (skipped : Nat) (past : History) (s : RunState σ) (later : History)
    (t : RunState σ) : Prop :=
  ∃ actors, s.follow? job skipped actors = some t ∧ history job skipped past s actors = later

section Leads

variable {job : Job} {skipped : Nat} {a b c : History} {s t u : RunState σ}

theorem Leads.refl (job : Job) (skipped : Nat) (a : History) (s : RunState σ) :
    Leads job skipped a s a s := ⟨[], rfl, rfl⟩

theorem Leads.cons {actor : Actor} (hs : s.step? job skipped actor = some t)
    (h : Leads job skipped (s.see actor a) t c u) : Leads job skipped a s c u := by
  obtain ⟨actors, hrun, hseen⟩ := h
  refine ⟨actor :: actors, ?_, ?_⟩
  · unfold follow?
    rw [hs]
    exact hrun
  · unfold history
    rw [hs]
    exact hseen

theorem Leads.one {actor : Actor} (hs : s.step? job skipped actor = some t) :
    Leads job skipped a s (s.see actor a) t := .cons hs (.refl job skipped _ t)

theorem Leads.trans (h : Leads job skipped a s b t) (h' : Leads job skipped b t c u) :
    Leads job skipped a s c u := by
  obtain ⟨actors, hrun, hseen⟩ := h
  induction actors generalizing a s with
  | nil =>
    obtain rfl := Option.some.inj hrun
    have hab : a = b := hseen
    rw [hab]
    exact h'
  | cons actor more ih =>
    unfold follow? at hrun
    unfold history at hseen
    cases hs : s.step? job skipped actor with
    | none => simp [hs] at hrun
    | some next =>
      rw [hs] at hrun hseen
      exact .cons hs (ih hrun hseen)

end Leads

/-! ## The first worker executes a batch -/

omit [WriteSession σ] in
@[simp]
theorem withWorker_withWorker (s : RunState σ) (index : Nat) (l l' : Ledger σ) (w w' : Worker) :
    (s.withWorker index l w).withWorker index l' w' = s.withWorker index l' w' := by
  simp [withWorker]

omit [WriteSession σ] in
/-- A worker that goes on as it was leaves the state as it is. -/
theorem withWorker_self {s : RunState σ} {index : Nat} {w : Worker}
    (hw : s.workers[index]? = some w) : s.withWorker index s.producer.ledger w = s := by
  obtain ⟨hlt, hget⟩ := List.getElem?_eq_some_iff.mp hw
  have hset : s.workers.set index w = s.workers := by
    rw [← hget]
    exact List.set_getElem_self hlt
  unfold withWorker
  rw [hset]

/-- Judging an error shows nothing. -/
theorem leads_judge (job : Job) (skipped : Nat) {s : RunState σ} {error : Ledger.CountedError}
    {left : List WriteStatement} (hw : s.workers[0]? = some (.judging error left)) (a : History) :
    Leads job skipped a s a (s.withWorker 0 (s.producer.ledger.judge error) (.busy left)) := by
  have hsee : s.see (.worker 0) a = a := by
    simp [see, takenBy, handedBy, executedBy, hw]
  have hstep : s.step? job skipped (.worker 0) = some _ := work?_of_judging hw
  have hleads := Leads.one (a := a) hstep
  rw [hsee] at hleads
  exact hleads

theorem leads_execute (job : Job) (skipped : Nat) {s : RunState σ} {statement : WriteStatement}
    {left : List WriteStatement} (hw : s.workers[0]? = some (.busy (statement :: left)))
    (a : History) :
    Leads job skipped a s ⟨a.taken, a.handed, a.executed ++ [statement]⟩
      (s.withWorker 0 (s.producer.ledger.execute statement) (.busy left)) := by
  have hsee : s.see (.worker 0) a = ⟨a.taken, a.handed, a.executed ++ [statement]⟩ := by
    simp [see, takenBy, handedBy, executedBy, hw]
  have hset : 0 < s.workers.length := (List.getElem?_eq_some_iff.mp hw).1
  have hstep : s.step? job skipped (.worker 0) = some _ := work?_of_busy_cons hw
  have hleads := Leads.one (a := a) hstep
  rw [hsee] at hleads
  unfold Ledger.execute
  rcases s.producer.ledger.attempt_cases statement with
    ⟨after, _, heq⟩ | ⟨after, e, error, _, heq⟩
  · rw [heq] at hleads ⊢
    exact hleads
  · rw [heq] at hleads ⊢
    have hjudge := leads_judge job skipped
      (s := s.withWorker 0 (s.producer.ledger.attempt statement).1 (.judging error left))
      (List.getElem?_set_self hset) ⟨a.taken, a.handed, a.executed ++ [statement]⟩
    rw [withWorker_withWorker, heq] at hjudge
    exact hleads.trans hjudge

/-- The first worker executes the statements it has left. -/
theorem leads_executeAll (job : Job) (skipped : Nat) (left : List WriteStatement) {s : RunState σ}
    (hw : s.workers[0]? = some (.busy left)) (a : History) :
    Leads job skipped a s ⟨a.taken, a.handed, a.executed ++ left⟩
      (s.withWorker 0 (left.foldl Ledger.execute s.producer.ledger) (.busy [])) := by
  induction left generalizing s a with
  | nil =>
    rw [List.append_nil, List.foldl_nil, withWorker_self hw]
    exact .refl job skipped a s
  | cons statement more ih =>
    have hset : 0 < s.workers.length := (List.getElem?_eq_some_iff.mp hw).1
    have hfirst := leads_execute job skipped hw a
    have hrest := ih (s := s.withWorker 0 (s.producer.ledger.execute statement) (.busy more))
      (List.getElem?_set_self hset) ⟨a.taken, a.handed, a.executed ++ [statement]⟩
    rw [withWorker_withWorker] at hrest
    have happend : a.executed ++ [statement] ++ more = a.executed ++ statement :: more := by
      rw [List.append_assoc]
      rfl
    rw [happend] at hrest
    exact hfirst.trans hrest

/-- A batch that alone waits is executed by the first worker, which then waits again. -/
theorem leads_batch (job : Job) (skipped : Nat) {s : RunState σ} {batch : Batch}
    (hw : s.workers[0]? = some .idle) (hq : s.queue = [batch]) (a : History) :
    Leads job skipped a s ⟨a.taken, a.handed, a.executed ++ batch.statements⟩
      { s with
        producer := { s.producer with ledger := s.producer.ledger.executeBatch batch }
        queue := [] } := by
  have hset : 0 < s.workers.length := (List.getElem?_eq_some_iff.mp hw).1
  let busy := { s.withWorker 0 s.producer.ledger (.busy batch.statements) with queue := [] }
  have htake : Leads job skipped a s a busy := by
    have hsee : s.see (.worker 0) a = a := by
      simp [see, takenBy, handedBy, executedBy, hw]
    have hstep : s.step? job skipped (.worker 0) = some busy := work?_of_queue_cons hw hq
    have hleads := Leads.one (a := a) hstep
    rw [hsee] at hleads
    exact hleads
  have hall := leads_executeAll job skipped batch.statements (s := busy)
    (List.getElem?_set_self hset) a
  let spent := busy.withWorker 0 (s.producer.ledger.executeBatch batch) (.busy [])
  have hbusy : spent.workers[0]? = some (.busy []) := by
    simp [spent, busy, withWorker, hset]
  have hfinish : ∀ b, Leads job skipped b spent b
      { s with
        producer := { s.producer with ledger := s.producer.ledger.executeBatch batch }
        queue := [] } := by
    intro b
    have hsee : spent.see (.worker 0) b = b := by
      simp [see, takenBy, handedBy, executedBy, hbusy]
    have hstep : spent.step? job skipped (.worker 0) = some _ := work?_of_busy_nil hbusy
    have hleads := Leads.one (a := b) hstep
    have hidle : s.workers.set 0 .idle = s.workers := congrArg RunState.workers (withWorker_self hw)
    rw [hsee] at hleads
    simp only [spent, busy, withWorker, List.set_set, hidle] at hleads ⊢
    exact hleads
  exact htake.trans (hall.trans (hfinish _))

/-! ## The producer takes records -/

/-- Nothing waits, and everything handed over is executed in order. -/
structure Quiet (past : History) (s : RunState σ) : Prop where
  queue_nil : s.queue = []
  idle : s.workers.all Worker.isIdle = true
  ne_nil : s.workers ≠ []
  executed_eq : past.executed = past.handed.flatMap Batch.statements

omit [WriteSession σ] in
theorem Quiet.first {past : History} {s : RunState σ} (h : Quiet past s) :
    s.workers[0]? = some .idle := by
  obtain ⟨w, rest, hcons⟩ := List.exists_cons_of_ne_nil h.ne_nil
  have hidle := h.idle
  rw [hcons, List.all_cons, Bool.and_eq_true] at hidle
  rw [hcons]
  cases w with
  | idle => rfl
  | _ => nomatch hidle.1

/-- A step of the producer that hands over no batch leaves everything quiet. -/
theorem Quiet.of_step {job : Job} {skipped : Nat} {past : History} {s t : RunState σ}
    (h : Quiet past s) (hs : s.step? job skipped .producer = some t)
    (hhanded : s.handedBy .producer = []) : Quiet (s.see .producer past) t := by
  obtain ⟨hworkers, hqueue, -⟩ := (producerStep hs).frame
  refine ⟨?_, hworkers ▸ h.idle, hworkers ▸ h.ne_nil, ?_⟩
  · rw [hqueue, hhanded, h.queue_nil]
    rfl
  · simp only [see, hhanded, executedBy, List.append_nil]
    exact h.executed_eq

/-- A batch that the producer hands over is executed at once. -/
theorem Quiet.leads_hand {job : Job} {skipped : Nat} {past : History} {s t : RunState σ}
    (h : Quiet past s) (hs : s.step? job skipped .producer = some t)
    (hhanded : s.handedBy .producer = [s.producer.batch]) :
    ∃ later,
      Leads job skipped past s later
        { t with
          producer :=
            { t.producer with ledger := t.producer.ledger.executeBatch s.producer.batch }
          queue := [] } ∧
      Quiet later
        { t with
          producer :=
            { t.producer with ledger := t.producer.ledger.executeBatch s.producer.batch }
          queue := [] } := by
  obtain ⟨hworkers, hqueue, -⟩ := (producerStep hs).frame
  have hw : t.workers[0]? = some .idle := by
    rw [hworkers]
    exact h.first
  have hq : t.queue = [s.producer.batch] := by
    rw [hqueue, hhanded, h.queue_nil]
    rfl
  refine ⟨_, (Leads.one hs).trans (leads_batch job skipped hw hq _), rfl, ?_, ?_, ?_⟩
  · exact hworkers ▸ h.idle
  · exact hworkers ▸ h.ne_nil
  · simp only [see, hhanded, executedBy, List.append_nil, List.flatMap_append,
      List.flatMap_singleton, h.executed_eq]

/-- The producer takes a record as the sequential import does. -/
theorem leads_step (job : Job) (skipped : Nat) {past : History} {s : RunState σ} {record : Record}
    {rest : List Record} {isLast : Bool} (hs : s.stage = .taking (record :: rest) isLast)
    (hgo : s.producer.stopped = false) (hquiet : Quiet past s) :
    ∃ later t, Leads job skipped past s later t ∧ Quiet later t ∧ t.reader = s.reader ∧
      t.producer = s.producer.step job skipped record ∧
      t.stage = if t.producer.stopped then .ending else .taking rest isLast := by
  have hstep : s.step? job skipped .producer =
      some (s.takeRecord job skipped record rest isLast) := by
    simp only [step?, produce?, hs]
  have hnone : s.handedBy .producer = [] := by simp [handedBy, hs]
  have hfirst := hquiet.of_step hstep hnone
  unfold Producer.step
  rw [if_neg (by rw [hgo]; exact Bool.false_ne_true)]
  unfold takeRecord at hstep hfirst
  dsimp only at hstep hfirst ⊢
  generalize s.producer.take job skipped record = p at hstep hfirst ⊢
  by_cases hstop : p.stopped = true
  · rw [if_pos hstop] at hstep hfirst ⊢
    exact ⟨_, _, .one hstep, hfirst, rfl, rfl, by simp [hstop]⟩
  · rw [if_neg hstop] at hstep hfirst ⊢
    unfold Producer.submitFull
    by_cases hfull : p.batch.isFull = true
    · rw [if_pos hfull] at hstep hfirst ⊢
      by_cases htrip : p.ledger.budget.isTripped = true
      · rw [if_pos htrip] at hstep hfirst ⊢
        exact ⟨_, _, .one hstep, hfirst, rfl, rfl, rfl⟩
      · rw [if_neg htrip] at hstep hfirst ⊢
        have hroom := hasRoom_of_queue_nil job hfirst.queue_nil
        have hhand : step? job skipped
            { s with producer := p, stage := .handing rest isLast } .producer = some _ :=
          produce?_of_handing rfl hroom skipped
        obtain ⟨later, hleads, hlater⟩ := hfirst.leads_hand hhand rfl
        refine ⟨later, _, (Leads.one hstep).trans hleads, hlater, rfl, ?_, ?_⟩
        · have hstopped : p.submit.stopped = p.stopped := rfl
          rw [if_neg (by rw [hstopped]; exact hstop)]
          dsimp only
          rw [Producer.ledger_noteProgress]
          exact noteProgress_with_ledger _ _ _ (parseErrors_executeBatch p.ledger p.batch)
        · simp [enqueue, hstop]
    · rw [if_neg hfull] at hstep hfirst ⊢
      refine ⟨_, _, .one hstep, hfirst, rfl, ?_, ?_⟩
      · rw [if_neg hstop]
      · simp [hstop]

theorem foldl_step_of_stopped (job : Job) (skipped : Nat) {p : Producer σ} (h : p.stopped = true)
    (records : List Record) : records.foldl (Producer.step job skipped) p = p := by
  induction records with
  | nil => rfl
  | cons record more ih =>
    have hstep : p.step job skipped record = p := by
      unfold Producer.step
      rw [if_pos h]
    rw [List.foldl_cons, hstep, ih]

/-- The producer takes the records of a reading as the sequential import does. -/
theorem leads_records (job : Job) (skipped : Nat) {past : History} {s : RunState σ}
    {records : List Record} {isLast : Bool} (hs : s.stage = .taking records isLast)
    (hgo : s.producer.stopped = false) (hquiet : Quiet past s) :
    ∃ later t, Leads job skipped past s later t ∧ Quiet later t ∧ t.reader = s.reader ∧
      t.producer = records.foldl (Producer.step job skipped) s.producer ∧
      t.stage = if t.producer.stopped then .ending else .taking [] isLast := by
  induction records generalizing past s with
  | nil => exact ⟨past, s, .refl job skipped past s, hquiet, rfl, rfl, by simp [hs, hgo]⟩
  | cons record more ih =>
    obtain ⟨mid, t, hleads, hmid, hreader, hproducer, hstage⟩ :=
      leads_step job skipped hs hgo hquiet
    rw [List.foldl_cons, ← hproducer]
    by_cases hstop : t.producer.stopped = true
    · rw [foldl_step_of_stopped job skipped hstop]
      exact ⟨mid, t, hleads, hmid, hreader, rfl, by simp [hstage, hstop]⟩
    · rw [if_neg hstop] at hstage
      obtain ⟨later, u, hrest, hlater, hreader', hproducer', hstage'⟩ :=
        ih hstage (by simpa using hstop) hmid
      exact ⟨later, u, hleads.trans hrest, hlater, hreader'.trans hreader, hproducer', hstage'⟩

/-- A step of the producer that only moves on. -/
theorem leads_move {job : Job} {skipped : Nat} {past : History} {s t : RunState σ}
    (hquiet : Quiet past s) (hs : s.step? job skipped .producer = some t)
    (htaken : s.takenBy .producer = []) (hhanded : s.handedBy .producer = []) :
    Leads job skipped past s past t ∧ Quiet past t := by
  have hsee : s.see .producer past = past := by
    simp [see, htaken, hhanded, executedBy]
  have hleads := Leads.one (a := past) hs
  have hnext := hquiet.of_step hs hhanded
  rw [hsee] at hleads hnext
  exact ⟨hleads, hnext⟩

/-- The producer reads to its end as the sequential import does. As many readings suffice as there
are records, and one more, since a reading that is not the last one takes a record. -/
theorem leads_consume (job : Job) (skipped : Nat) (steps : Nat) {past : History} {s : RunState σ}
    {rest : List Record} (hs : s.stage = .reading) (hgo : s.producer.stopped = false)
    (hquiet : Quiet past s) (hreads : s.reader.Reads rest) (hlen : rest.length < steps) :
    ∃ later t, Leads job skipped past s later t ∧ Quiet later t ∧ t.stage = .ending ∧
      Producer.consume job skipped steps s.reader s.producer = (t.producer, t.reader, .ok ()) := by
  induction steps generalizing past s rest with
  | zero => exact absurd hlen (Nat.not_lt_zero _)
  | succ steps ih =>
    have htaken : s.takenBy .producer = [] := by simp [takenBy, hs]
    have hhanded : s.handedBy .producer = [] := by simp [handedBy, hs]
    have hstep : s.step? job skipped .producer = some (s.readNext job) := by
      simp only [step?, produce?, hs]
    obtain ⟨hmove, hnext⟩ := leads_move hquiet hstep htaken hhanded
    unfold readNext at hmove hnext
    unfold Producer.consume
    by_cases hw : s.producer.wanted job = 0
    · rw [if_pos hw] at hmove hnext ⊢
      exact ⟨past, _, hmove, hnext, rfl, rfl⟩
    · rw [if_neg hw] at hmove hnext ⊢
      obtain ⟨reader, isLast, hread, hafter, hlast, hfull⟩ :=
        hreads.readBatch (Nat.pos_of_ne_zero hw)
      rw [hread] at hmove hnext ⊢
      dsimp only at hmove hnext ⊢
      obtain ⟨mid, t, hleads, hmid, hreader, hproducer, hstage⟩ :=
        leads_records job skipped
          (s := { s with reader := reader, stage := .taking (rest.take _) isLast }) rfl hgo hnext
      have hreader' : t.reader = reader := hreader
      rw [← hproducer]
      by_cases hstop : t.producer.stopped = true
      · rw [if_pos hstop] at hstage
        rw [hstop, Bool.true_or, if_pos rfl, ← hreader']
        exact ⟨mid, t, hmove.trans hleads, hmid, hstage, rfl⟩
      · rw [Bool.not_eq_true] at hstop
        rw [hstop] at hstage ⊢
        rw [Bool.false_or]
        have hend : t.step? job skipped .producer =
            some { t with stage := if isLast then .ending else .reading } := by
          simp only [step?, produce?, hstage, Bool.false_eq_true, if_false]
        obtain ⟨hmove', hlater⟩ := leads_move hmid hend (by simp [takenBy, hstage])
          (by simp [handedBy, hstage])
        cases isLast with
        | true =>
          rw [if_pos rfl, ← hreader']
          exact ⟨mid, _, hmove.trans (hleads.trans hmove'), hlater, rfl, rfl⟩
        | false =>
          have hshorter : (rest.drop (s.producer.wanted job)).length < steps := by
            have hpos := Nat.pos_of_ne_zero hw
            have hmax := hfull rfl
            rw [List.length_drop]
            omega
          obtain ⟨later, u, hrest, hquiet', hstage', hconsume⟩ :=
            ih (s := { t with stage := .reading }) rfl hstop hlater (hreader' ▸ hafter) hshorter
          rw [if_neg Bool.false_ne_true, ← hreader']
          exact ⟨later, u, hmove.trans (hleads.trans (hmove'.trans hrest)), hquiet', hstage',
            hconsume⟩

/-- The producer ends as the sequential import does: the last batch is executed, unless the budget
is tripped. -/
theorem leads_end (job : Job) (skipped : Nat) {past : History} {s : RunState σ}
    (hs : s.stage = .ending) (hquiet : Quiet past s) :
    ∃ later t, Leads job skipped past s later t ∧ Quiet later t ∧ t.stage = .done ∧
      t.reader = s.reader ∧
      t.producer =
        if s.producer.ledger.budget.isTripped then s.producer else s.producer.submit := by
  have hstep : s.step? job skipped .producer = some s.endReading := by
    simp only [step?, produce?, hs]
  obtain ⟨hmove, hnext⟩ := leads_move hquiet hstep (by simp [takenBy, hs]) (by simp [handedBy, hs])
  unfold endReading at hmove hnext
  by_cases htrip : s.producer.ledger.budget.isTripped = true
  · rw [htrip, Bool.true_or, if_pos rfl] at hmove hnext
    rw [if_pos htrip]
    exact ⟨past, _, hmove, hnext, rfl, rfl, rfl⟩
  · rw [Bool.not_eq_true] at htrip
    rw [htrip, Bool.false_or] at hmove hnext
    rw [htrip, if_neg Bool.false_ne_true]
    by_cases hempty : s.producer.batch.isEmpty = true
    · rw [if_pos hempty] at hmove hnext
      have hnil : s.producer.batch.statements = [] := List.isEmpty_iff.mp hempty
      have hsame : s.producer.submit = s.producer := by
        unfold Producer.submit Ledger.executeBatch Batch.emptied
        rw [hnil, List.foldl_nil, ← hnil]
      rw [hsame]
      exact ⟨past, _, hmove, hnext, rfl, rfl, rfl⟩
    · rw [if_neg hempty] at hmove hnext
      have hroom := hasRoom_of_queue_nil job hnext.queue_nil
      have hhand : step? job skipped { s with stage := .handingLast } .producer = some _ :=
        produce?_of_handingLast rfl hroom skipped
      obtain ⟨later, hleads, hlater⟩ := hnext.leads_hand hhand rfl
      exact ⟨later, _, hmove.trans hleads, hlater, rfl, rfl, rfl⟩

end RunState

open RunState

/-- The import as it is run is one of its interleavings, in which statements are executed in the
order in which they are handed over. -/
theorem run_is_interleaving {job : Job} (session : σ) {reader opened : Reader} {skipped : Nat}
    {source : List Record}
    (hskip : reader.skip job.options.skipRows = (opened, .ok skipped))
    (hreads : opened.Reads source) (hbound : source.length ≤ recordBound opened) :
    ∃ actors s, (RunState.start job session opened).follow? job skipped actors = some s ∧
      s.isOver = true ∧
      (seen job skipped session opened actors).executed =
        (seen job skipped session opened actors).handed.flatMap Batch.statements ∧
      run job session reader =
        ⟨s.producer.ledger.session, s.reader, s.producer.progress.reverse,
          .ok (s.report skipped)⟩ := by
  have hworkers : (RunState.start job session opened).workers =
      List.replicate (Pool.new job.options.maxRequests).workers .idle := rfl
  have hquiet : Quiet ⟨[], [], []⟩ (RunState.start job session opened) := by
    refine ⟨rfl, ?_, (Accounted.start job session opened).workers_ne_nil, rfl⟩
    rw [hworkers, List.all_eq_true]
    intro w hw
    rw [List.eq_of_mem_replicate hw]
    rfl
  obtain ⟨mid, t, hconsume, hmid, hstage, heq⟩ :=
    leads_consume job skipped (recordBound opened + 1) rfl rfl hquiet hreads
      (by omega)
  obtain ⟨later, u, hend, hlater, hdone, hreader, hproducer⟩ := leads_end job skipped hstage hmid
  obtain ⟨actors, hrun, hseen⟩ := hconsume.trans hend
  refine ⟨actors, u, hrun, ?_, ?_, ?_⟩
  · unfold isOver
    rw [hdone, hlater.queue_nil, hlater.idle]
    rfl
  · unfold seen
    rw [hseen]
    exact hlater.executed_eq
  · have hstart : Producer.consume job skipped (recordBound opened + 1) opened
        (Producer.start job session) = (t.producer, t.reader, .ok ()) := heq
    unfold run report
    rw [hskip]
    dsimp only
    rw [hstart]
    dsimp only
    rw [← hproducer, hreader]

end BulkTransfer.Import
