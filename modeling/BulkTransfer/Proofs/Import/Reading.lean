import BulkTransfer.Proofs.Import.Writes
import BulkTransfer.Proofs.Reader

/-!
Where the producer stands in its source. It has taken the first records of the window, and the
statements of these are the ones it handed over and the ones of the batch it fills. Unless the
budget is tripped, it comes to its end with the whole window taken and an empty batch.

- `Producer.Tally`: what the producer has made of the records it took.
- `RunState.Standing`: what the stage of the producer says about the reader and the records.
- `RunState.Produced.step`: every step keeps both.
-/

namespace BulkTransfer.Import

variable {σ : Type}

/-! ## Counts -/

/-- What the producer has made of the records it took: statements that it handed over or holds, and
parse errors. -/
structure Producer.Tally (job : Job) (skipped : Nat) (source : List Record) (past : History)
    (p : Producer σ) : Prop where
  read_le : p.read ≤ (job.window source).length
  taken_eq : past.taken = source.take p.read
  statements_eq : job.statements skipped (source.take p.read) =
    past.handed.flatMap Batch.statements ++ p.batch.statements
  parseErrors_eq : p.ledger.budget.parseErrors = failures (source.take p.read)
  capacity_eq : p.batch.capacity = job.options.maxBatchSize
  batch_le : p.batch.statements.length ≤ p.batch.capacity
  tripped_of_stopped : p.stopped = true → p.ledger.budget.isTripped = true

namespace Producer.Tally

variable {job : Job} {skipped : Nat} {source : List Record} {past : History} {p : Producer σ}

theorem start (job : Job) (skipped : Nat) (source : List Record) (session : σ) :
    Tally job skipped source ⟨[], [], []⟩ (Producer.start job session) := by
  refine ⟨Nat.zero_le _, rfl, rfl, rfl, ?_, Nat.zero_le _, fun h => nomatch h⟩
  have hpos : 1 ≤ job.options.maxBatchSize := Nat.le_max_left _ _
  exact Nat.max_eq_right hpos

/-- Other actors and the report of progress do not change what was made of the records. -/
theorem of_eq (h : Tally job skipped source past p) {q : Producer σ} (hread : q.read = p.read)
    (hbatch : q.batch = p.batch)
    (hparse : q.ledger.budget.parseErrors = p.ledger.budget.parseErrors)
    (hstop : q.stopped = true → q.ledger.budget.isTripped = true) :
    Tally job skipped source past q := by
  constructor
  · rw [hread]
    exact h.read_le
  · rw [hread]
    exact h.taken_eq
  · rw [hread, hbatch]
    exact h.statements_eq
  · rw [hread, hparse]
    exact h.parseErrors_eq
  · rw [hbatch]
    exact h.capacity_eq
  · rw [hbatch]
    exact h.batch_le
  · exact hstop

theorem noteProgress (h : Tally job skipped source past p) (chunk : Nat) :
    Tally job skipped source past (p.noteProgress chunk skipped) := by
  obtain ⟨progress, hnote⟩ := p.noteProgress_eq chunk skipped
  rw [hnote]
  exact h.of_eq rfl rfl rfl h.tripped_of_stopped

/-- Handing over moves the statements of the batch. -/
theorem hand (h : Tally job skipped source past p) :
    Tally job skipped source ⟨past.taken, past.handed ++ [p.batch], past.executed⟩
      { p with batch := p.batch.emptied } := by
  refine ⟨h.read_le, h.taken_eq, ?_, h.parseErrors_eq, h.capacity_eq, Nat.zero_le _,
    h.tripped_of_stopped⟩
  have hemptied : p.batch.emptied.statements = [] := rfl
  dsimp only
  rw [h.statements_eq, hemptied, List.append_nil, List.flatMap_append, List.flatMap_singleton]

/-- Taking the next record moves on by one: a row adds its statement, a failure an error. -/
theorem take (h : Tally job skipped source past p) {record : Record} {more : List Record}
    (hnext : source.drop p.read = record :: more) (hle : p.read + 1 ≤ (job.window source).length)
    (hroom : p.batch.isFull = false) :
    Tally job skipped source ⟨past.taken ++ [record], past.handed, past.executed⟩
      (p.take job skipped record) := by
  have hfirst : source.take (p.read + 1) = source.take p.read ++ [record] := by
    rw [List.take_add, hnext]
    rfl
  have hlength : (source.take p.read).length = p.read := by
    have hlong := (prefix_window job source).length_le
    have hread := h.read_le
    rw [List.length_take]
    omega
  have hnotfull : p.batch.statements.length < p.batch.capacity := by
    unfold Batch.isFull at hroom
    rw [decide_eq_false_iff_not] at hroom
    omega
  have hstatements : ∀ tail, job.statements (skipped + p.read) [record] = tail →
      job.statements skipped (source.take (p.read + 1)) =
        past.handed.flatMap Batch.statements ++ (p.batch.statements ++ tail) := by
    intro tail htail
    rw [hfirst, statements_append, hlength, h.statements_eq, htail, List.append_assoc]
  have hfailures : failures (source.take (p.read + 1)) =
      failures (source.take p.read) + failures [record] := by
    unfold failures
    rw [hfirst, List.countP_append]
  have htaken : past.taken ++ [record] = source.take (p.read + 1) := by
    rw [hfirst, h.taken_eq]
  cases record with
  | ok row =>
    rw [take_ok]
    refine ⟨hle, htaken, hstatements _ rfl, ?_, h.capacity_eq, ?_, h.tripped_of_stopped⟩
    · rw [hfailures]
      exact h.parseErrors_eq
    · simp only [Batch.push, List.length_append, List.length_singleton]
      omega
  | error failure =>
    obtain ⟨budget, stopped, heq, hparse, -, -, hstop⟩ := p.take_error job skipped failure
    rw [heq]
    refine ⟨hle, htaken, ?_, ?_, h.capacity_eq, h.batch_le, hstop⟩
    · rw [hstatements [] rfl, List.append_nil]
    · rw [hfailures]
      dsimp only
      rw [hparse, h.parseErrors_eq]
      rfl

end Producer.Tally

/-! ## Stages -/

namespace RunState

/-- The budget is exhausted. -/
def IsTripped (s : RunState σ) : Prop := s.producer.ledger.budget.isTripped = true

/-- The records behind the ones taken are those of the last reading still to take, and behind
these the ones that the reader has left. -/
def AtRecords (job : Job) (source : List Record) (s : RunState σ) (pending : List Record)
    (isLast : Bool) : Prop :=
  ∃ rest, source.drop s.producer.read = pending ++ rest ∧
    s.producer.read + pending.length ≤ (job.window source).length ∧ s.reader.Reads rest ∧
    (isLast = true → rest = [])

/-- The whole window is taken, and the reader stands behind it. -/
def AtEnd (job : Job) (source : List Record) (s : RunState σ) : Prop :=
  s.producer.read = (job.window source).length ∧ s.reader.Reads (source.drop s.producer.read)

/-- What the stage of the producer says. -/
def Standing (job : Job) (source : List Record) (s : RunState σ) : Prop :=
  match s.stage with
  | .reading => s.AtRecords job source [] false ∧ s.producer.batch.isFull = false
  | .taking records isLast =>
    s.AtRecords job source records isLast ∧ s.producer.batch.isFull = false
  | .handing records isLast => s.AtRecords job source records isLast
  | .ending | .handingLast => s.IsTripped ∨ s.AtEnd job source
  | .done => s.IsTripped ∨ s.AtEnd job source ∧ s.producer.batch.statements = []
  | .failed _ => False

/-- No reading goes beyond the window. -/
theorem add_le_window {job : Job} {source : List Record} {p : Producer σ} {n : Nat}
    (hread : p.read ≤ (job.window source).length) (hn : n ≤ p.wanted job)
    (hlen : p.read + n ≤ source.length) : p.read + n ≤ (job.window source).length := by
  unfold Producer.wanted at hn
  unfold Job.window at hread ⊢
  cases hmax : job.options.maxRows? with
  | some max =>
    rw [hmax] at hn hread
    rw [List.length_take] at hread ⊢
    dsimp only at hn
    omega
  | none => exact hlen

/-- Where no more records are wanted, the window is taken. -/
theorem eq_window_of_wanted {job : Job} {source : List Record} {p : Producer σ}
    (hread : p.read ≤ (job.window source).length) (hw : p.wanted job = 0) :
    p.read = (job.window source).length := by
  have hchunk : 1 ≤ job.options.chunkSize := Nat.le_max_left _ _
  unfold Producer.wanted at hw
  unfold Job.window at hread ⊢
  split at hw
  · next max hmax =>
    simp only [hmax, List.length_take] at hread ⊢
    omega
  · next hnone => omega

theorem AtRecords.atEnd {job : Job} {source : List Record} {s : RunState σ}
    (h : s.AtRecords job source [] true) : s.AtEnd job source := by
  obtain ⟨rest, hrest, hle, hreads, hlast⟩ := h
  rw [List.nil_append] at hrest
  have hnil : source.drop s.producer.read = [] := hrest.trans (hlast rfl)
  have hend : source.length ≤ s.producer.read := List.drop_eq_nil_iff.mp hnil
  have hwindow := (prefix_window job source).length_le
  refine ⟨?_, hrest ▸ hreads⟩
  rw [List.length_nil] at hle
  omega

/-- A reading of a reader that has records left takes some of them. -/
theorem AtRecords.read {job : Job} {source : List Record} {s : RunState σ}
    (h : s.AtRecords job source [] false) (hw : s.producer.wanted job ≠ 0) :
    ∃ reader batch, s.reader.readBatch (s.producer.wanted job) = (reader, .ok batch) ∧
      { s with reader := reader, stage := .taking batch.records batch.isLast }.AtRecords job source
        batch.records batch.isLast := by
  obtain ⟨rest, hrest, hle, hreads, -⟩ := h
  rw [List.nil_append] at hrest
  obtain ⟨reader, isLast, hread, hafter, hlast, -⟩ := hreads.readBatch (Nat.pos_of_ne_zero hw)
  refine ⟨reader, _, hread, rest.drop (s.producer.wanted job), ?_, ?_, hafter, ?_⟩
  · rw [hrest]
    exact (List.take_append_drop _ _).symm
  · refine add_le_window hle ?_ ?_
    · rw [List.length_take]
      exact Nat.min_le_left _ _
    · have hlen := congrArg List.length hrest
      have hread_le := (prefix_window job source).length_le
      rw [List.length_drop] at hlen
      rw [List.length_nil] at hle
      show s.producer.read + (rest.take (s.producer.wanted job)).length ≤ source.length
      rw [List.length_take]
      omega
  · intro h
    exact List.drop_eq_nil_of_le (hlast h)

/-- Taking a record moves on by one. -/
theorem AtRecords.next {job : Job} {source : List Record} {s t : RunState σ} {record : Record}
    {pending : List Record} {isLast : Bool}
    (h : s.AtRecords job source (record :: pending) isLast)
    (hread : t.producer.read = s.producer.read + 1) (hreader : t.reader = s.reader) :
    t.AtRecords job source pending isLast := by
  obtain ⟨rest, hrest, hle, hreads, hlast⟩ := h
  refine ⟨rest, ?_, ?_, hreader ▸ hreads, hlast⟩
  · rw [hread, ← List.drop_drop, hrest]
    rfl
  · rw [List.length_cons] at hle
    omega

/-- Where the producer stands does not depend on the workers, nor on reports of progress. -/
theorem Standing.of_eq {job : Job} {source : List Record} {s t : RunState σ}
    (h : s.Standing job source) (hreader : t.reader = s.reader) (hstage : t.stage = s.stage)
    (hread : t.producer.read = s.producer.read) (hbatch : t.producer.batch = s.producer.batch)
    (htrip : s.IsTripped → t.IsTripped) : t.Standing job source := by
  unfold Standing AtRecords AtEnd at h ⊢
  rw [hstage, hread, hbatch, hreader]
  split at h
  · exact h
  · exact h
  · exact h
  · exact h.imp_left htrip
  · exact h.imp_left htrip
  · exact h.imp_left htrip
  · exact h

/-- What the producer has made of its source, and where it stands. -/
structure Produced (job : Job) (skipped : Nat) (source : List Record) (past : History)
    (s : RunState σ) : Prop where
  tally : s.producer.Tally job skipped source past
  standing : s.Standing job source

theorem Produced.start (job : Job) (skipped : Nat) (session : σ) {reader : Reader}
    {source : List Record} (h : reader.Reads source) :
    Produced job skipped source ⟨[], [], []⟩ (.start job session reader) := by
  refine ⟨.start job skipped source session, ?_, ?_⟩
  · exact ⟨source, rfl, Nat.zero_le _, h, fun h => nomatch h⟩
  · have hpos : 1 ≤ (Batch.withCapacity job.options.maxBatchSize).capacity := Nat.le_max_left _ _
    exact decide_eq_false (by simp [RunState.start, Producer.start, Batch.withCapacity])

/-- A step of the producer that takes no record and hands over no batch keeps the counts. -/
theorem Produced.of_stage {job : Job} {skipped : Nat} {source : List Record} {past : History}
    {s t : RunState σ} (h : Produced job skipped source past s)
    (hproducer : t.producer = s.producer) (htaken : s.takenBy .producer = [])
    (hhanded : s.handedBy .producer = []) (hstanding : t.Standing job source) :
    Produced job skipped source (s.see .producer past) t := by
  have hsee : s.see .producer past = past := by
    unfold see executedBy
    rw [htaken, hhanded, List.append_nil, List.append_nil]
    dsimp only
    rw [List.append_nil]
  rw [hsee]
  exact ⟨hproducer ▸ h.tally, hstanding⟩

/-- The counts behind a record that is taken. -/
theorem Produced.tally_take {job : Job} {skipped : Nat} {source : List Record} {past : History}
    {s : RunState σ} (h : Produced job skipped source past s) {record : Record}
    {rest : List Record} {isLast : Bool} (hs : s.stage = .taking (record :: rest) isLast) :
    (s.producer.take job skipped record).Tally job skipped source (s.see .producer past) := by
  have hstanding := h.standing
  unfold Standing at hstanding
  rw [hs] at hstanding
  obtain ⟨⟨tail, htail, hle, -, -⟩, hroom⟩ := hstanding
  have hsee : s.see .producer past = ⟨past.taken ++ [record], past.handed, past.executed⟩ := by
    simp [see, takenBy, handedBy, executedBy, hs]
  rw [hsee]
  rw [List.length_cons] at hle
  exact h.tally.take htail (by omega) hroom

/-- The records behind one that is taken. -/
theorem Produced.atRecords_take {job : Job} {skipped : Nat} {source : List Record}
    {past : History} {s t : RunState σ} (h : Produced job skipped source past s) {record : Record}
    {rest : List Record} {isLast : Bool} (hs : s.stage = .taking (record :: rest) isLast)
    (hread : t.producer.read = (s.producer.take job skipped record).read)
    (hreader : t.reader = s.reader) : t.AtRecords job source rest isLast := by
  have hstanding := h.standing
  unfold Standing at hstanding
  rw [hs] at hstanding
  exact hstanding.1.next (hread.trans (s.producer.read_take job skipped record)) hreader

/-- The counts behind a batch that is handed over. -/
theorem Produced.tally_hand {job : Job} {skipped : Nat} {source : List Record} {past : History}
    {s : RunState σ} (h : Produced job skipped source past s)
    (htaken : s.takenBy .producer = []) (hhanded : s.handedBy .producer = [s.producer.batch]) :
    s.enqueue.producer.Tally job skipped source (s.see .producer past) := by
  have hsee : s.see .producer past =
      ⟨past.taken, past.handed ++ [s.producer.batch], past.executed⟩ := by
    simp [see, htaken, hhanded, executedBy]
  rw [hsee]
  exact h.tally.hand

theorem Produced.producerStep {job : Job} {skipped : Nat} {source : List Record} {past : History}
    {s t : RunState σ} (h : Produced job skipped source past s)
    (hs : ProducerStep job skipped s t) : Produced job skipped source (s.see .producer past) t := by
  have hstanding := h.standing
  unfold Standing at hstanding
  cases hs with
  | enough hs hw =>
    rw [hs] at hstanding
    obtain ⟨rest, hrest, -, hreads, -⟩ := hstanding.1
    have hend : s.AtEnd job source := ⟨eq_window_of_wanted h.tally.read_le hw, hrest ▸ hreads⟩
    exact h.of_stage rfl (by simp [takenBy, hs]) (by simp [handedBy, hs]) (.inr hend)
  | read hs hw hr =>
    rw [hs] at hstanding
    obtain ⟨reader, batch, hread, hat⟩ := hstanding.1.read hw
    obtain ⟨rfl, hbatch⟩ := Prod.mk.inj (hr.symm.trans hread)
    obtain rfl := Except.ok.inj hbatch
    exact h.of_stage rfl (by simp [takenBy, hs]) (by simp [handedBy, hs]) ⟨hat, hstanding.2⟩
  | unreadable hs hw hr =>
    rw [hs] at hstanding
    obtain ⟨reader, batch, hread, -⟩ := hstanding.1.read hw
    cases (Prod.mk.inj (hr.symm.trans hread)).2
  | @chunkEnd isLast hs =>
    rw [hs] at hstanding
    refine h.of_stage rfl (by simp [takenBy, hs]) (by simp [handedBy, hs]) ?_
    cases isLast with
    | true => exact .inr hstanding.1.atEnd
    | false => exact hstanding
  | stop hs hstop =>
    have htally := h.tally_take hs
    have htrip := hstop.elim htally.tripped_of_stopped id
    exact ⟨htally.of_eq rfl rfl rfl fun _ => htrip, .inl htrip⟩
  | fill hs hgo hfull => exact ⟨h.tally_take hs, h.atRecords_take hs rfl rfl⟩
  | @take record _ _ hs hgo hfull =>
    obtain ⟨progress, hnote⟩ := (s.producer.take job skipped record).noteProgress_eq
      job.options.chunkSize skipped
    refine ⟨(h.tally_take hs).noteProgress _, h.atRecords_take hs ?_ rfl, ?_⟩
    · rw [hnote]
    · rw [hnote]
      exact hfull
  | hand hs hroom =>
    rw [hs] at hstanding
    obtain ⟨progress, hnote⟩ := s.enqueue.producer.noteProgress_eq job.options.chunkSize skipped
    have htally := h.tally_hand (by simp [takenBy, hs]) (by simp [handedBy, hs])
    refine ⟨htally.noteProgress _, ?_, ?_⟩
    · unfold AtRecords
      rw [hnote]
      exact hstanding
    · have hpos : 1 ≤ job.options.maxBatchSize := Nat.le_max_left _ _
      have hcap := htally.capacity_eq
      rw [hnote]
      refine decide_eq_false ?_
      dsimp only
      rw [hcap]
      exact Nat.not_le.mpr hpos
  | drop hs hdrop =>
    rw [hs] at hstanding
    refine h.of_stage rfl (by simp [takenBy, hs]) (by simp [handedBy, hs]) ?_
    rcases hstanding with htrip | hend
    · exact .inl htrip
    · rcases hdrop with htrip | hempty
      · exact .inl htrip
      · exact .inr ⟨hend, List.isEmpty_iff.mp hempty⟩
  | keep hs hgo hsome =>
    rw [hs] at hstanding
    exact h.of_stage rfl (by simp [takenBy, hs]) (by simp [handedBy, hs]) hstanding
  | handLast hs hroom =>
    rw [hs] at hstanding
    have htally := h.tally_hand (by simp [takenBy, hs]) (by simp [handedBy, hs])
    exact ⟨htally, hstanding.imp_right fun hend => ⟨hend, rfl⟩⟩

/-- Every step keeps what the producer has made of its source, and where it stands. -/
theorem Produced.step [WriteSession σ] {job : Job} {skipped : Nat} {source : List Record}
    {past : History} {s t : RunState σ} {actor : Actor} (h : Produced job skipped source past s)
    (hs : s.step? job skipped actor = some t) :
    Produced job skipped source (s.see actor past) t := by
  cases actor with
  | producer => exact h.producerStep (RunState.producerStep hs)
  | worker index =>
    obtain ⟨hreader, hstage, -, ledger, hproducer, hparse, htrip⟩ := (workerStep hs).frame
    have hsee : (s.see (.worker index) past).taken = past.taken ∧
        (s.see (.worker index) past).handed = past.handed := by
      simp [see, takenBy, handedBy]
    have hstop : t.producer.stopped = true → t.producer.ledger.budget.isTripped = true := by
      rw [hproducer]
      intro hstopped
      exact htrip (h.tally.tripped_of_stopped hstopped)
    have htally : t.producer.Tally job skipped source past :=
      h.tally.of_eq (by rw [hproducer]) (by rw [hproducer]) (by rw [hproducer]; exact hparse) hstop
    refine ⟨⟨htally.read_le, ?_, ?_, htally.parseErrors_eq, htally.capacity_eq, htally.batch_le,
      htally.tripped_of_stopped⟩, ?_⟩
    · rw [hsee.1]
      exact htally.taken_eq
    · rw [hsee.2]
      exact htally.statements_eq
    · refine h.standing.of_eq hreader hstage (by rw [hproducer]) (by rw [hproducer]) ?_
      intro htripped
      unfold IsTripped
      rw [hproducer]
      exact htrip htripped

end RunState

end BulkTransfer.Import
