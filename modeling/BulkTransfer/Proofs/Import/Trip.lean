import BulkTransfer.Proofs.Budget
import BulkTransfer.Proofs.Import.Writes

/-!
What trips the budget of an import with several workers. A failed write is counted in one step and
judged in a later one, and in between other workers count and judge their own: the first count that
is judged past the ceiling need not be the first one past it.

- `RunState.Judged.step`: the trip is the first count judged past its ceiling, and every count up
  to the number of errors is judged or held by one worker.
- `RunState.trip_is_crossing_iff`: when the count kept is the one that crossed the ceiling, and how
  far it can be from it.
- `RunState.later_count_is_kept`: two workers, of which the second one is judged first.
-/

namespace BulkTransfer.Import

variable {σ : Type}

/-- Whether a count is past the ceiling that a job sets for its kind. -/
def Job.isPast (job : Job) (judged : Trip) : Bool :=
  match judged.kind with
  | .parse => job.options.maxParseErrors.isExceededBy judged.count
  | .insert => job.options.maxInsertErrors.isExceededBy judged.count

/-- The counts that a worker holds between counting and judging. -/
def Worker.held : Worker → List Nat
  | .judging error _ => [error.count]
  | _ => []

/-- The counts of failed writes among those judged. -/
def insertCounts (judged : List Trip) : List Nat :=
  (judged.filter fun t => t.kind = .insert).map Trip.count

theorem insertCounts_append (first second : List Trip) :
    insertCounts (first ++ second) = insertCounts first ++ insertCounts second := by
  unfold insertCounts
  rw [List.filter_append, List.map_append]

/-- A failed write holds the number of failed writes with it. -/
theorem Ledger.count_of_attempt [WriteSession σ] {l after : Ledger σ} {s : WriteStatement}
    {error : Ledger.CountedError} (h : l.attempt s = (after, some error)) :
    error.count = l.budget.insertErrors + 1 := by
  unfold Ledger.attempt at h
  dsimp only at h
  split at h
  · nomatch h
  · obtain ⟨-, herror⟩ := Prod.mk.inj h
    obtain rfl := Option.some.inj herror
    rfl

/-- Of the numbers up to a count, those past a ceiling are as many as the count is past it. -/
theorem countP_past_range' (ceiling n : Nat) :
    (List.range' 1 n).countP (fun c => ceiling < c) = n - ceiling := by
  induction n with
  | zero => simp
  | succ n ih =>
    rw [List.range'_1_concat, List.countP_append, ih, List.countP_singleton]
    simp only [decide_eq_true_eq]
    split <;> omega

namespace RunState

/-- The counts that a step judges. The producer counts and judges a parse error at once. -/
def judgedBy (s : RunState σ) : Actor → List Trip
  | .producer => match s.stage with
    | .taking (.error _ :: _) _ => [⟨.parse, s.producer.ledger.budget.parseErrors + 1⟩]
    | _ => []
  | .worker index => match s.workers[index]? with
    | some (.judging error _) => [⟨.insert, error.count⟩]
    | _ => []

/-- The counts judged by the steps of an interleaving, in their order. -/
def judged [WriteSession σ] (job : Job) (skipped : Nat) : RunState σ → List Actor → List Trip
  | _, [] => []
  | s, actor :: more => match s.step? job skipped actor with
    | some next => s.judgedBy actor ++ judged job skipped next more
    | none => []

/-- The counts that are held between counting and judging. -/
def held (s : RunState σ) : List Nat := s.workers.flatMap Worker.held

theorem length_held_le (s : RunState σ) : s.held.length ≤ s.workers.length := by
  unfold held
  induction s.workers with
  | nil => exact Nat.le_refl 0
  | cons w more ih =>
    have hone : w.held.length ≤ 1 := by cases w <;> simp [Worker.held]
    rw [List.flatMap_cons, List.length_append, List.length_cons]
    omega

/-- The budget after the counts judged: its ceilings are those of the job, it is tripped by the
first count past its ceiling, and every failed write is counted once and then judged or held. A
failed write that tripped it is past the ceiling by no more than there are workers. -/
structure Judged (job : Job) (judged : List Trip) (s : RunState σ) : Prop where
  isPast_eq : ∀ t : Trip,
    (s.producer.ledger.budget.limit t.kind).isExceededBy t.count = job.isPast t
  trip?_eq : s.producer.ledger.budget.trip? = judged.find? job.isPast
  counts_perm : (insertCounts judged ++ s.held).Perm
    (List.range' 1 s.producer.ledger.budget.insertErrors)
  count_le : ∀ ceiling count, job.options.maxInsertErrors = .atMost ceiling →
    s.producer.ledger.budget.trip? = some ⟨.insert, count⟩ →
    ceiling < count ∧ count ≤ ceiling + s.workers.length

theorem Judged.start (job : Job) (session : σ) (reader : Reader) :
    Judged job [] (.start job session reader) := by
  refine ⟨?_, rfl, ?_, ?_⟩
  · rintro ⟨kind, count⟩
    cases kind <;> rfl
  · have hnone : (RunState.start job session reader).held = [] := by
      unfold held
      rw [List.flatMap_eq_nil_iff]
      intro w hw
      rw [List.eq_of_mem_replicate hw]
      rfl
    rw [hnone]
    exact List.Perm.refl _
  · intro ceiling count _ htrip
    nomatch htrip

/-- While the budget is not tripped, the failed writes past the ceiling are all held. -/
theorem Judged.insertErrors_le {job : Job} {judged : List Trip} {s : RunState σ} {ceiling : Nat}
    (h : Judged job judged s) (hceiling : job.options.maxInsertErrors = .atMost ceiling)
    (htrip : s.producer.ledger.budget.trip? = none) :
    s.producer.ledger.budget.insertErrors ≤ ceiling + s.workers.length := by
  have hbelow : (insertCounts judged).countP (fun c => ceiling < c) = 0 := by
    rw [List.countP_eq_zero]
    intro c hc
    obtain ⟨t, ht, rfl⟩ := List.mem_map.mp hc
    obtain ⟨hmem, hkind⟩ := List.mem_filter.mp ht
    have hpast := List.find?_eq_none.mp (h.trip?_eq.symm.trans htrip) t hmem
    simpa [Job.isPast, of_decide_eq_true hkind, hceiling, Threshold.isExceededBy] using hpast
  have hcount := h.counts_perm.countP_eq fun c => decide (ceiling < c)
  rw [List.countP_append, hbelow, countP_past_range', Nat.zero_add] at hcount
  have hheld : s.held.countP (fun c => ceiling < c) ≤ s.held.length := List.countP_le_length
  have hworkers := s.length_held_le
  omega

/-- What the producer does to the budget: it records the parse error that it takes. -/
theorem ProducerStep.budget_cases {job : Job} {skipped : Nat} {s t : RunState σ}
    (h : ProducerStep job skipped s t) :
    (s.judgedBy .producer = [] ∧
        t.producer.ledger.budget = s.producer.ledger.budget) ∨
      ∃ sample, s.judgedBy .producer =
          [⟨.parse, s.producer.ledger.budget.parseErrors + 1⟩] ∧
        t.producer.ledger.budget = (s.producer.ledger.budget.record .parse sample).1 := by
  have htake : ∀ record rest isLast, s.stage = .taking (record :: rest) isLast →
      (s.judgedBy .producer = [] ∧
        (s.producer.take job skipped record).ledger.budget = s.producer.ledger.budget) ∨
      ∃ sample, s.judgedBy .producer =
          [⟨.parse, s.producer.ledger.budget.parseErrors + 1⟩] ∧
        (s.producer.take job skipped record).ledger.budget =
          (s.producer.ledger.budget.record .parse sample).1 := by
    intro record rest isLast hs
    cases record with
    | ok row => exact .inl ⟨by simp [judgedBy, hs], rfl⟩
    | error failure => exact .inr ⟨_, by simp [judgedBy, hs], rfl⟩
  cases h with
  | stop hs => exact htake _ _ _ hs
  | fill hs => exact htake _ _ _ hs
  | take hs =>
    rw [Producer.ledger_noteProgress]
    exact htake _ _ _ hs
  | hand hs =>
    rw [Producer.ledger_noteProgress]
    exact .inl ⟨by simp [judgedBy, hs], rfl⟩
  | enough hs => exact .inl ⟨by simp [judgedBy, hs], rfl⟩
  | read hs => exact .inl ⟨by simp [judgedBy, hs], rfl⟩
  | unreadable hs => exact .inl ⟨by simp [judgedBy, hs], rfl⟩
  | chunkEnd hs => exact .inl ⟨by simp [judgedBy, hs], rfl⟩
  | drop hs => exact .inl ⟨by simp [judgedBy, hs], rfl⟩
  | keep hs => exact .inl ⟨by simp [judgedBy, hs], rfl⟩
  | handLast hs => exact .inl ⟨by simp [judgedBy, hs], rfl⟩

/-- A count that is judged trips the budget if it is past its ceiling and nothing was before. -/
theorem find?_judge {job : Job} {judged : List Trip} {b : Budget}
    (hpast : ∀ t : Trip, (b.limit t.kind).isExceededBy t.count = job.isPast t)
    (htrip : b.trip? = judged.find? job.isPast) (kind : ErrorKind) (count : Nat)
    (sample : ErrorSample) :
    (b.note kind count sample).1.trip? =
      (judged ++ [(⟨kind, count⟩ : Trip)]).find? job.isPast := by
  have hcount : (b.limit kind).isExceededBy count = job.isPast ⟨kind, count⟩ := hpast ⟨kind, count⟩
  rw [Budget.trip?_note, List.find?_append, ← htrip, hcount, List.find?_singleton]
  cases b.trip? with
  | none => rfl
  | some trip => split <;> rfl

/-- Steps that leave the budget alone and no other count with the workers judge nothing. -/
theorem Judged.of_held {job : Job} {judged : List Trip} {s t : RunState σ}
    (h : Judged job judged s)
    (hbudget : t.producer.ledger.budget = s.producer.ledger.budget)
    (hworkers : t.workers.length = s.workers.length) (hheld : t.held.Perm s.held) :
    Judged job judged t := by
  refine ⟨?_, ?_, ?_, ?_⟩
  · rw [hbudget]
    exact h.isPast_eq
  · rw [hbudget]
    exact h.trip?_eq
  · rw [hbudget]
    exact (hheld.append_left _).trans h.counts_perm
  · rw [hbudget, hworkers]
    exact h.count_le

theorem Judged.producerStep {job : Job} {skipped : Nat} {judged : List Trip} {s t : RunState σ}
    (h : Judged job judged s) (hs : ProducerStep job skipped s t) :
    Judged job (judged ++ s.judgedBy .producer) t := by
  obtain ⟨hworkers, -, -⟩ := hs.frame
  have hheld : t.held = s.held := by
    unfold held
    rw [hworkers]
  rcases hs.budget_cases with ⟨hnone, hbudget⟩ | ⟨sample, hone, hbudget⟩
  · rw [hnone, List.append_nil]
    exact h.of_held hbudget (congrArg List.length hworkers) (hheld ▸ List.Perm.refl _)
  · have htrip : t.producer.ledger.budget.trip? =
        (judged ++ s.judgedBy .producer).find? job.isPast := by
      rw [hbudget, hone]
      exact find?_judge (b := s.producer.ledger.budget.increment .parse) h.isPast_eq h.trip?_eq
        .parse _ sample
    refine ⟨?_, htrip, ?_, ?_⟩
    · intro trip
      rw [hbudget, Budget.limit_record]
      exact h.isPast_eq trip
    · have hinsert : t.producer.ledger.budget.insertErrors =
          s.producer.ledger.budget.insertErrors := by
        rw [hbudget]
        exact Budget.errors_record _ _ _ .insert
      rw [hinsert, hheld, hone, insertCounts_append]
      exact (List.append_nil _).symm ▸ h.counts_perm
    · intro ceiling count hceiling hcount
      rw [hworkers]
      rw [htrip, hone, List.find?_append, ← h.trip?_eq] at hcount
      cases hbefore : s.producer.ledger.budget.trip? with
      | some trip =>
        rw [hbefore, Option.some_or] at hcount
        exact h.count_le ceiling count hceiling (hbefore.trans hcount)
      | none =>
        -- a parse error would have tripped the budget
        rw [hbefore, Option.none_or, List.find?_singleton] at hcount
        split at hcount
        · nomatch hcount
        · nomatch hcount

/-- Judging a count takes it from its worker. -/
theorem Judged.judge {job : Job} {judged : List Trip} {s : RunState σ} {index : Nat}
    {error : Ledger.CountedError} {left : List WriteStatement} (h : Judged job judged s)
    (hw : s.workers[index]? = some (.judging error left)) :
    Judged job (judged ++ [⟨.insert, error.count⟩])
      (s.withWorker index (s.producer.ledger.judge error) (.busy left)) := by
  obtain ⟨others, hold, hset⟩ := flatMap_set_perm Worker.held hw
  have hworkers : (s.withWorker index (s.producer.ledger.judge error) (.busy left)).workers.length =
      s.workers.length := List.length_set
  have htrip := find?_judge h.isPast_eq h.trip?_eq .insert error.count error.sample
  refine ⟨fun t => ?_, htrip, ?_, ?_⟩
  · exact (congrArg (Threshold.isExceededBy · t.count)
      (Budget.limit_note _ .insert _ _ t.kind)).trans (h.isPast_eq t)
  · have hinsert : (s.producer.ledger.judge error).budget.insertErrors =
        s.producer.ledger.budget.insertErrors := Budget.insertErrors_note _ _ _ _
    have hcounts : insertCounts (judged ++ [⟨.insert, error.count⟩]) =
        insertCounts judged ++ [error.count] := insertCounts_append _ _
    show (_ ++ _ : List Nat).Perm
      (List.range' 1 (s.producer.ledger.judge error).budget.insertErrors)
    rw [hinsert, hcounts, List.append_assoc]
    exact ((((hset (.busy left)).append_left [error.count]).trans hold.symm).append_left _).trans
      h.counts_perm
  · intro ceiling count hceiling hcount
    replace hcount := htrip.symm.trans hcount
    rw [List.find?_append, ← h.trip?_eq] at hcount
    rw [hworkers]
    cases hbefore : s.producer.ledger.budget.trip? with
    | some trip =>
      rw [hbefore, Option.some_or] at hcount
      exact h.count_le ceiling count hceiling (hbefore.trans hcount)
    | none =>
      rw [hbefore, Option.none_or, List.find?_singleton] at hcount
      split at hcount
      · next hpast =>
        obtain ⟨-, rfl⟩ := Trip.mk.inj (Option.some.inj hcount)
        have hmem : error.count ∈ s.held :=
          hold.symm.subset (List.mem_append_left _ (List.mem_singleton.mpr rfl))
        have hrange := h.counts_perm.subset (List.mem_append_right _ hmem)
        have hle := h.insertErrors_le hceiling hbefore
        simp only [Job.isPast, hceiling, Threshold.isExceededBy, decide_eq_true_eq] at hpast
        rw [List.mem_range'_1] at hrange
        omega
      · cases hcount

variable [WriteSession σ]

/-- A failed write takes the next count, which its worker holds. -/
theorem Judged.attempt {job : Job} {judged : List Trip} {s : RunState σ} {index : Nat}
    {statement : WriteStatement} {left : List WriteStatement} (h : Judged job judged s)
    (hw : s.workers[index]? = some (.busy (statement :: left))) :
    Judged job judged (s.withWorker index (s.producer.ledger.attempt statement).1
      (afterAttempt left (s.producer.ledger.attempt statement).2)) := by
  obtain ⟨others, hold, hset⟩ := flatMap_set_perm Worker.held hw
  have hlength : ∀ ledger w, (s.withWorker index ledger w).workers.length = s.workers.length :=
    fun _ _ => List.length_set
  rcases s.producer.ledger.attempt_cases statement with ⟨_, _, heq⟩ | ⟨_, _, error, _, heq⟩
  · rw [heq]
    exact h.of_held rfl (hlength _ _) ((hset (.busy left)).trans hold.symm)
  · have hcount := Ledger.count_of_attempt heq
    rw [heq]
    refine ⟨fun t => ?_, h.trip?_eq, ?_, ?_⟩
    · exact (congrArg (Threshold.isExceededBy · t.count)
        (Budget.limit_increment _ .insert t.kind)).trans (h.isPast_eq t)
    · have hold' : (insertCounts judged ++ others).Perm
          (List.range' 1 s.producer.ledger.budget.insertErrors) :=
        (hold.symm.append_left _).trans h.counts_perm
      have hheld : (insertCounts judged ++
          (s.workers.set index (.judging error left)).flatMap Worker.held).Perm
          (error.count :: (insertCounts judged ++ others)) :=
        ((hset (.judging error left)).append_left _).trans List.perm_middle
      have hnext : List.range' 1 (s.producer.ledger.budget.insertErrors + 1) =
          List.range' 1 s.producer.ledger.budget.insertErrors ++ [error.count] := by
        rw [List.range'_1_concat, hcount, Nat.add_comm]
      refine hheld.trans ((hold'.cons error.count).trans ?_)
      show (_ : List Nat).Perm (List.range' 1 (s.producer.ledger.budget.insertErrors + 1))
      rw [hnext]
      exact (List.perm_append_singleton _ _).symm
    · rw [hlength]
      exact h.count_le

/-- Every step keeps what is said of the budget. -/
theorem Judged.step {job : Job} {skipped : Nat} {judged : List Trip} {s t : RunState σ}
    {actor : Actor} (h : Judged job judged s) (hs : s.step? job skipped actor = some t) :
    Judged job (judged ++ s.judgedBy actor) t := by
  cases actor with
  | producer => exact h.producerStep (RunState.producerStep hs)
  | worker index =>
    cases workerStep hs with
    | @takeBatch batch queue hw hq =>
      have hnone : s.judgedBy (.worker index) = [] := by simp [judgedBy, hw]
      obtain ⟨others, hold, hset⟩ := flatMap_set_perm Worker.held hw
      rw [hnone, List.append_nil]
      exact h.of_held rfl List.length_set ((hset (.busy batch.statements)).trans hold.symm)
    | finish hw =>
      have hnone : s.judgedBy (.worker index) = [] := by simp [judgedBy, hw]
      obtain ⟨others, hold, hset⟩ := flatMap_set_perm Worker.held hw
      rw [hnone, List.append_nil]
      exact h.of_held rfl List.length_set ((hset .idle).trans hold.symm)
    | attempt hw =>
      have hnone : s.judgedBy (.worker index) = [] := by simp [judgedBy, hw]
      rw [hnone, List.append_nil]
      exact h.attempt hw
    | @judge error left hw =>
      have hone : s.judgedBy (.worker index) = [⟨.insert, error.count⟩] := by simp [judgedBy, hw]
      rw [hone]
      exact h.judge hw

/-- What is said of the budget holds after every interleaving. -/
theorem Judged.follow? {job : Job} {skipped : Nat} {before : List Trip} {s t : RunState σ}
    {actors : List Actor} (h : Judged job before s)
    (hrun : s.follow? job skipped actors = some t) :
    Judged job (before ++ s.judged job skipped actors) t := by
  induction actors generalizing before s with
  | nil =>
    obtain rfl := Option.some.inj hrun
    exact (List.append_nil before).symm ▸ h
  | cons actor more ih =>
    unfold RunState.follow? at hrun
    unfold judged
    cases hs : s.step? job skipped actor with
    | none => simp [hs] at hrun
    | some next =>
      rw [hs] at hrun
      rw [← List.append_assoc]
      exact ih (h.step hs) hrun

theorem length_workers_follow? {job : Job} {skipped : Nat} {s t : RunState σ}
    {actors : List Actor} (hrun : s.follow? job skipped actors = some t) :
    t.workers.length = s.workers.length := by
  induction actors generalizing s with
  | nil =>
    obtain rfl := Option.some.inj hrun
    rfl
  | cons actor more ih =>
    unfold RunState.follow? at hrun
    cases hs : s.step? job skipped actor with
    | none => simp [hs] at hrun
    | some next =>
      rw [hs] at hrun
      refine (ih hrun).trans ?_
      cases actor with
      | producer => rw [(RunState.producerStep hs).frame.1]
      | worker index => exact (workerStep hs).frame.2.2.1

/-- What is kept of a trip under every interleaving: the first count that is judged past its
ceiling. It is the one that crossed the ceiling of failed writes just when that is judged before
any other past its ceiling; else it is a later one, by less than the number of workers. -/
theorem trip_is_crossing_iff {job : Job} {skipped : Nat} {session : σ} {reader : Reader}
    {actors : List Actor} {s : RunState σ} {ceiling : Nat}
    (hceiling : job.options.maxInsertErrors = .atMost ceiling)
    (hrun : (RunState.start job session reader).follow? job skipped actors = some s) :
    let judged := (RunState.start job session reader).judged job skipped actors
    let b := s.producer.ledger.budget
    (b.isTripped = true ↔ ∃ t ∈ judged, job.isPast t = true) ∧
      (b.trip? = some ⟨.insert, ceiling + 1⟩ ↔
        ∃ before later, judged = before ++ ⟨.insert, ceiling + 1⟩ :: later ∧
          ∀ t ∈ before, job.isPast t = false) ∧
      (∀ count, b.trip? = some ⟨.insert, count⟩ →
        ceiling + 1 ≤ count ∧ count ≤ ceiling + (Pool.new job.options.maxRequests).workers) ∧
      (insertCounts judged ++ s.held).Perm (List.range' 1 b.insertErrors) := by
  intro judged b
  have h : Judged job judged s := by
    have hall := (Judged.start job session reader).follow? hrun
    rwa [List.nil_append] at hall
  have hcrossing : job.isPast ⟨.insert, ceiling + 1⟩ = true := by
    simp [Job.isPast, hceiling, Threshold.isExceededBy]
  refine ⟨?_, ?_, ?_, h.counts_perm⟩
  · show s.producer.ledger.budget.trip?.isSome = true ↔ _
    rw [h.trip?_eq, List.find?_isSome]
  · show s.producer.ledger.budget.trip? = _ ↔ _
    rw [h.trip?_eq, List.find?_eq_some_iff_append]
    simp only [hcrossing, true_and, Bool.not_eq_true']
  · intro count htrip
    have hworkers : s.workers.length = (Pool.new job.options.maxRequests).workers :=
      (length_workers_follow? hrun).trans List.length_replicate
    rw [← hworkers]
    exact h.count_le ceiling count hceiling htrip

/-- Two workers fail, and the one that is counted first is judged first. -/
theorem trip_is_crossing_iff_in_order :
    let columns := [⟨"id", some .int⟩]
    let job : Job := ⟨"t", columns, .ofPairs [("MAXBATCHSIZE", "1"), ("MAXREQUESTS", "2"),
      ("MAXINSERTERRORS", "0")]⟩
    let session := (Session.new none).createTable "t" columns
    let records : List Record := [.ok ⟨[("id", .text "x")]⟩, .ok ⟨[("id", .text "y")]⟩]
    let start := RunState.start job session (.listed columns records)
    let actors : List Actor := [.producer, .producer, .producer, .producer, .producer, .worker 0,
      .worker 1, .worker 0, .worker 1, .worker 0, .worker 1]
    job.options.maxInsertErrors = .atMost 0 ∧
      ∃ s, start.follow? job 0 actors = some s ∧
        s.producer.ledger.budget.trip? = some ⟨.insert, 1⟩ := by
  intro columns job session records start actors
  have hceiling : job.options.maxInsertErrors = .atMost 0 := by decide +kernel
  have hsome : (start.follow? job 0 actors).isSome = true := by decide +kernel
  have hjudged : start.judged job 0 actors = [⟨.insert, 1⟩, ⟨.insert, 2⟩] := by decide +kernel
  obtain ⟨s, hrun⟩ := Option.isSome_iff_exists.mp hsome
  obtain ⟨-, hcrossing, -⟩ := trip_is_crossing_iff hceiling hrun
  refine ⟨hceiling, s, hrun, hcrossing.mpr ⟨[], [⟨.insert, 2⟩], hjudged, ?_⟩⟩
  intro t ht
  nomatch ht

/-- No failed write is allowed and two workers fail. The second one to be counted is judged first,
and the import reports that it was aborted by two errors. -/
theorem later_count_is_kept :
    let columns := [⟨"id", some .int⟩]
    let job : Job := ⟨"t", columns, .ofPairs [("MAXBATCHSIZE", "1"), ("MAXREQUESTS", "2"),
      ("MAXINSERTERRORS", "0")]⟩
    let session := (Session.new none).createTable "t" columns
    let records : List Record := [.ok ⟨[("id", .text "x")]⟩, .ok ⟨[("id", .text "y")]⟩]
    let start := RunState.start job session (.listed columns records)
    let actors : List Actor := [.producer, .producer, .producer, .producer, .producer, .worker 0,
      .worker 1, .worker 0, .worker 1, .worker 1, .worker 0, .worker 0, .worker 1, .producer,
      .producer]
    job.options.maxInsertErrors = .atMost 0 ∧
      ∃ s, start.follow? job 0 actors = some s ∧ s.isOver = true ∧
        (s.report 0).aborted? = some ⟨.insert, 2⟩ := by
  intro columns job session records start actors
  have hceiling : job.options.maxInsertErrors = .atMost 0 := by decide +kernel
  have hend : (start.follow? job 0 actors).any
      (fun s => s.isOver && (s.report 0).aborted? == some ⟨.insert, 2⟩) = true := by
    decide +kernel
  obtain ⟨s, hrun, hs⟩ := (Option.any_eq_true _ _).mp hend
  rw [Bool.and_eq_true, beq_iff_eq] at hs
  exact ⟨hceiling, s, hrun, hs.1, hs.2⟩

end RunState

end BulkTransfer.Import
