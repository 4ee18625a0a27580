import BulkTransfer.Budget

/-!
The error budget over a sequence of calls, each of which records one error. What one call does is
said field by field; a budget keeps within its ceilings until it is tripped, so that the first call
past a ceiling is past it by one.

- `trip?_record`, `verdict_record`, `samples_record`: what a call does.
- `IsWithin.record`: a budget that is not tripped has no count past its ceiling.
- `trip?_recordAll`: what tripped a budget is kept for ever.
- `budget_counts_exactly`: the budget as a whole, over all sequences of calls.
-/

namespace BulkTransfer.Budget

/-- A call that records an error. -/
structure Call where
  kind : ErrorKind
  sample : ErrorSample
  deriving DecidableEq, Repr

/-- The budget after calls made one after the other. -/
def recordAll (b : Budget) (calls : List Call) : Budget :=
  calls.foldl (fun b c => (b.record c.kind c.sample).1) b

/-- The answers to calls made one after the other. -/
def verdicts (b : Budget) : List Call → List Verdict
  | [] => []
  | c :: more => (b.record c.kind c.sample).2 :: verdicts (b.record c.kind c.sample).1 more

/-- How many of the calls record an error of a kind. -/
def callsOf (kind : ErrorKind) (calls : List Call) : Nat := calls.countP fun c => c.kind = kind

/-! ## One call -/

section Call

variable (b : Budget) (kind : ErrorKind) (sample : ErrorSample)

@[simp]
theorem limit_increment (other : ErrorKind) : (b.increment kind).limit other = b.limit other := by
  cases kind <;> cases other <;> rfl

@[simp]
theorem limit_note (count : Nat) (other : ErrorKind) :
    (b.note kind count sample).1.limit other = b.limit other := by
  unfold note
  dsimp only
  split <;> cases other <;> rfl

@[simp]
theorem errors_note (count : Nat) (other : ErrorKind) :
    (b.note kind count sample).1.errors other = b.errors other := by
  cases other with
  | parse => exact parseErrors_note b kind count sample
  | insert => exact insertErrors_note b kind count sample

theorem errors_increment (other : ErrorKind) :
    (b.increment kind).errors other = b.errors other + if kind = other then 1 else 0 := by
  cases kind <;> cases other <;> rfl

theorem trip?_note (count : Nat) :
    (b.note kind count sample).1.trip? =
      if (b.limit kind).isExceededBy count then some (b.trip?.getD ⟨kind, count⟩)
      else b.trip? := by
  unfold note
  dsimp only
  split <;> rfl

theorem verdict_note (count : Nat) :
    (b.note kind count sample).2 =
      if (b.limit kind).isExceededBy count then .abort else .goOn := by
  unfold note
  dsimp only
  split <;> rfl

theorem samples_note (count : Nat) :
    (b.note kind count sample).1.samples =
      if b.samples.length < sampleLimit then b.samples ++ [sample] else b.samples := by
  unfold note
  dsimp only
  split <;> rfl

@[simp]
theorem limit_record (other : ErrorKind) :
    (b.record kind sample).1.limit other = b.limit other := by
  simp [record]

theorem errors_record (other : ErrorKind) :
    (b.record kind sample).1.errors other = b.errors other + if kind = other then 1 else 0 := by
  simp [record, errors_increment]

theorem trip?_record :
    (b.record kind sample).1.trip? =
      if (b.limit kind).isExceededBy (b.errors kind + 1) then
        some (b.trip?.getD ⟨kind, b.errors kind + 1⟩)
      else b.trip? := by
  have htrip : (b.increment kind).trip? = b.trip? := by cases kind <;> rfl
  simp [record, trip?_note, errors_increment, htrip]

theorem verdict_record :
    (b.record kind sample).2 =
      if (b.limit kind).isExceededBy (b.errors kind + 1) then .abort else .goOn := by
  simp [record, verdict_note, errors_increment]

theorem samples_record :
    (b.record kind sample).1.samples =
      if b.samples.length < sampleLimit then b.samples ++ [sample] else b.samples := by
  have hsamples : (b.increment kind).samples = b.samples := by cases kind <;> rfl
  simp [record, samples_note, hsamples]

theorem verdict_record_eq_abort :
    (b.record kind sample).2 = .abort ↔
      ∃ ceiling, b.limit kind = .atMost ceiling ∧ ceiling < b.errors kind + 1 := by
  rw [verdict_record]
  cases hlimit : b.limit kind with
  | unlimited => simp [Threshold.isExceededBy]
  | atMost ceiling => simp [Threshold.isExceededBy]

end Call

/-- Unless the budget is tripped, no count is past its ceiling. -/
def IsWithin (b : Budget) : Prop :=
  b.trip? = none → ∀ kind ceiling, b.limit kind = .atMost ceiling → b.errors kind ≤ ceiling

theorem isWithin_new (parseLimit insertLimit : Threshold) :
    (new parseLimit insertLimit).IsWithin := by
  intro _ kind ceiling _
  cases kind <;> exact Nat.zero_le ceiling

theorem IsWithin.record {b : Budget} (h : b.IsWithin) (kind : ErrorKind) (sample : ErrorSample) :
    (b.record kind sample).1.IsWithin := by
  intro htrip other ceiling hlimit
  rw [limit_record] at hlimit
  rw [trip?_record] at htrip
  split at htrip
  · nomatch htrip
  · next hle =>
    rw [errors_record]
    split
    · next heq =>
      subst heq
      simpa [hlimit, Threshold.isExceededBy] using hle
    · exact h htrip other ceiling hlimit

/-! ## Calls one after the other -/

theorem recordAll_append (b : Budget) (first second : List Call) :
    b.recordAll (first ++ second) = (b.recordAll first).recordAll second := by
  unfold recordAll
  rw [List.foldl_append]

theorem limit_recordAll (b : Budget) (calls : List Call) (kind : ErrorKind) :
    (b.recordAll calls).limit kind = b.limit kind := by
  induction calls generalizing b with
  | nil => rfl
  | cons c more ih => exact (ih _).trans (limit_record b c.kind c.sample kind)

/-- Every call is counted once, under its own kind. -/
theorem errors_recordAll (b : Budget) (calls : List Call) (kind : ErrorKind) :
    (b.recordAll calls).errors kind = b.errors kind + callsOf kind calls := by
  induction calls generalizing b with
  | nil => rfl
  | cons c more ih =>
    refine (ih _).trans ?_
    rw [errors_record, callsOf, callsOf, List.countP_cons]
    simp only [decide_eq_true_eq]
    omega

theorem IsWithin.recordAll {b : Budget} (h : b.IsWithin) (calls : List Call) :
    (b.recordAll calls).IsWithin := by
  induction calls generalizing b with
  | nil => exact h
  | cons c more ih => exact ih (h.record c.kind c.sample)

/-- What tripped a budget is kept, whatever is recorded afterwards. -/
theorem trip?_recordAll {b : Budget} {trip : Trip} (h : b.trip? = some trip) (calls : List Call) :
    (b.recordAll calls).trip? = some trip := by
  induction calls generalizing b with
  | nil => exact h
  | cons c more ih =>
    refine ih ?_
    rw [trip?_record, h]
    split <;> rfl

/-- A budget is tripped exactly by an answer to abort. -/
theorem trip?_recordAll_eq_none {b : Budget} (h : b.trip? = none) (calls : List Call) :
    (b.recordAll calls).trip? = none ↔ Verdict.abort ∉ b.verdicts calls := by
  induction calls generalizing b with
  | nil => exact ⟨fun _ => List.not_mem_nil, fun _ => h⟩
  | cons c more ih =>
    by_cases hpast : (b.limit c.kind).isExceededBy (b.errors c.kind + 1) = true
    · have htrip : (b.record c.kind c.sample).1.trip? = some ⟨c.kind, b.errors c.kind + 1⟩ := by
        rw [trip?_record, if_pos hpast, h]
        rfl
      have hkept := trip?_recordAll htrip more
      have habort : (b.record c.kind c.sample).2 = .abort := by rw [verdict_record, if_pos hpast]
      constructor
      · intro hnone
        nomatch hkept.symm.trans hnone
      · intro hgo
        rw [verdicts, habort] at hgo
        exact absurd List.mem_cons_self hgo
    · have htrip : (b.record c.kind c.sample).1.trip? = none := by
        rw [trip?_record, if_neg hpast, h]
      have hgoOn : (b.record c.kind c.sample).2 = .goOn := by rw [verdict_record, if_neg hpast]
      have hrec : b.recordAll (c :: more) = (b.record c.kind c.sample).1.recordAll more := rfl
      rw [hrec, verdicts, hgoOn, List.mem_cons, ih htrip]
      simp

/-- The first calls are kept, up to as many messages as there is room for. -/
theorem samples_recordAll {b : Budget} (h : b.samples.length ≤ sampleLimit) (calls : List Call) :
    (b.recordAll calls).samples = (b.samples ++ calls.map Call.sample).take sampleLimit := by
  induction calls generalizing b with
  | nil => simpa [recordAll] using (List.take_of_length_le h).symm
  | cons c more ih =>
    have hkept := samples_record b c.kind c.sample
    have hrec : b.recordAll (c :: more) = (b.record c.kind c.sample).1.recordAll more := rfl
    split at hkept
    · next hroom =>
      rw [hrec, ih (by rw [hkept, List.length_append, List.length_singleton]; omega), hkept]
      simp
    · next hfull =>
      rw [hrec, ih (by rw [hkept]; exact h), hkept, List.take_append_of_le_length (by omega),
        List.take_append_of_le_length (by omega)]

/-- The first answer to abort is past the ceiling of its kind by one, and is what is kept. -/
theorem trip?_record_of_abort {b : Budget} (hwithin : b.IsWithin) (htrip : b.trip? = none)
    {kind : ErrorKind} {sample : ErrorSample} (h : (b.record kind sample).2 = .abort) :
    ∃ ceiling, b.limit kind = .atMost ceiling ∧
      (b.record kind sample).1.trip? = some ⟨kind, ceiling + 1⟩ := by
  obtain ⟨ceiling, hlimit, hpast⟩ := (verdict_record_eq_abort b kind sample).mp h
  have hle := hwithin htrip kind ceiling hlimit
  have hcount : b.errors kind + 1 = ceiling + 1 := by omega
  refine ⟨ceiling, hlimit, ?_⟩
  have hexceeded : (b.limit kind).isExceededBy (b.errors kind + 1) = true := by
    rw [hlimit]
    simpa [Threshold.isExceededBy] using hpast
  rw [trip?_record, if_pos hexceeded, htrip, hcount]
  rfl

/-! ## The kept messages as text -/

theorem foldl_sampleLine (samples : List ErrorSample) (start : String) :
    samples.foldl (fun out s => out ++ sampleLine s) start =
      start ++ String.join (samples.map sampleLine) := by
  induction samples generalizing start with
  | nil => simp
  | cons s more ih => simp [ih, String.append_assoc]

/-- The text of kept messages: a heading, a line for each, and a line for those not kept. -/
theorem renderSamples_eq (samples : List ErrorSample) (total : Nat) :
    renderSamples samples total =
      if samples = [] then ""
      else
        "\n\nFirst errors encountered:" ++ String.join (samples.map sampleLine) ++
          if samples.length < total then
            "\n  ... and " ++ Integer.natText (total - samples.length) ++ " more errors"
          else "" := by
  unfold renderSamples
  rw [foldl_sampleLine]
  dsimp only
  simp only [List.isEmpty_iff]
  split
  · rfl
  · split
    · simp only [String.append_assoc]
    · exact (String.append_empty).symm

theorem total_errors (b : Budget) (calls : List Call) :
    (b.recordAll calls).parseErrors + (b.recordAll calls).insertErrors =
      b.parseErrors + b.insertErrors + calls.length := by
  have hparse := errors_recordAll b calls .parse
  have hinsert := errors_recordAll b calls .insert
  have hboth : callsOf .parse calls + callsOf .insert calls = calls.length := by
    rw [callsOf, callsOf, List.length_eq_countP_add_countP fun c : Call => c.kind = .parse]
    congr 2
    funext c
    cases hkind : c.kind <;> simp
  simp only [errors] at hparse hinsert
  omega

/-- The budget counts exactly, whatever is recorded in which order: each kind has the number of its
calls; a call is answered with abort just when its own kind is past its own ceiling with it; the
first such answer trips the budget for ever, with one error more than its ceiling; the first five
calls are kept, and listed with the number of the others. -/
theorem budget_counts_exactly (parseLimit insertLimit : Threshold) (calls : List Call) :
    let start := new parseLimit insertLimit
    let b := start.recordAll calls
    (b.parseErrors = callsOf .parse calls ∧ b.insertErrors = callsOf .insert calls) ∧
      (∀ call, (b.record call.kind call.sample).2 = .abort ↔
        ∃ ceiling, start.limit call.kind = .atMost ceiling ∧
          ceiling < callsOf call.kind (calls ++ [call])) ∧
      (b.trip? = none ↔ Verdict.abort ∉ start.verdicts calls) ∧
      (∀ before call later, calls = before ++ call :: later →
        Verdict.abort ∉ start.verdicts before →
        ((start.recordAll before).record call.kind call.sample).2 = .abort →
        ∃ ceiling, start.limit call.kind = .atMost ceiling ∧
          b.trip? = some ⟨call.kind, ceiling + 1⟩) ∧
      (b.isTripped = true → ∀ later,
        (b.recordAll later).isTripped = true ∧ (b.recordAll later).trip? = b.trip?) ∧
      b.samples = (calls.take 5).map Call.sample ∧
      renderSamples b.samples (b.parseErrors + b.insertErrors) =
        if calls = [] then ""
        else
          "\n\nFirst errors encountered:" ++
            String.join ((calls.take 5).map fun c =>
              "\n  - Row " ++ Integer.natText c.sample.record ++ ": " ++ c.sample.message) ++
            if 5 < calls.length then
              "\n  ... and " ++ Integer.natText (calls.length - 5) ++ " more errors"
            else "" := by
  intro start b
  have hnone : start.trip? = none := rfl
  have hlimit : ∀ kind, b.limit kind = start.limit kind := limit_recordAll start calls
  have herrors : ∀ kind, b.errors kind = callsOf kind calls := by
    intro kind
    have hzero : start.errors kind = 0 := by cases kind <;> rfl
    rw [errors_recordAll start calls kind, hzero, Nat.zero_add]
  have hsamples : b.samples = (calls.take 5).map Call.sample := by
    have hfirst := samples_recordAll (b := start) (Nat.zero_le _) calls
    rw [hfirst, List.map_take]
    rfl
  refine ⟨⟨herrors .parse, herrors .insert⟩, ?_, trip?_recordAll_eq_none hnone calls, ?_, ?_,
    hsamples, ?_⟩
  · intro call
    have hcount : callsOf call.kind (calls ++ [call]) = callsOf call.kind calls + 1 := by
      simp [callsOf]
    rw [verdict_record_eq_abort, hlimit, herrors, hcount]
  · rintro before call later rfl hgo habort
    have hbefore := (trip?_recordAll_eq_none hnone before).mpr hgo
    have hwithin := (isWithin_new parseLimit insertLimit).recordAll before
    obtain ⟨ceiling, hceiling, htrip⟩ := trip?_record_of_abort hwithin hbefore habort
    refine ⟨ceiling, (limit_recordAll start before call.kind).symm.trans hceiling, ?_⟩
    have hcut : b = ((start.recordAll before).record call.kind call.sample).1.recordAll later :=
      recordAll_append start before (call :: later)
    rw [hcut]
    exact trip?_recordAll htrip later
  · intro htripped later
    obtain ⟨trip, htrip⟩ := Option.isSome_iff_exists.mp htripped
    have hkept := trip?_recordAll htrip later
    exact ⟨Option.isSome_iff_exists.mpr ⟨trip, hkept⟩, hkept.trans htrip.symm⟩
  · have htotal : b.parseErrors + b.insertErrors = calls.length := by
      rw [total_errors start calls]
      exact Nat.zero_add _
    have hempty : (calls.take 5).map Call.sample = [] ↔ calls = [] := by simp
    have hlines : ((calls.take 5).map Call.sample).map sampleLine =
        (calls.take 5).map fun c =>
          "\n  - Row " ++ Integer.natText c.sample.record ++ ": " ++ c.sample.message :=
      List.map_map
    have hlength : ((calls.take 5).map Call.sample).length = min 5 calls.length := by simp
    rw [htotal, hsamples, renderSamples_eq, hlines, hlength]
    simp only [hempty]
    by_cases hmany : 5 < calls.length
    · have hmin : min 5 calls.length = 5 := by omega
      rw [hmin]
    · have hall : ¬ min 5 calls.length < calls.length := by omega
      rw [if_neg hmany, if_neg hall]

/-- Both kinds go past their ceilings; the one that is first to do so is kept. -/
theorem budget_counts_exactly_both_kinds :
    let call (kind : ErrorKind) (record : Nat) : Call := ⟨kind, record, "bad"⟩
    let start := new (.atMost 1) (.atMost 1)
    let before := [call .parse 1, call .insert 2]
    let later := [call .insert 4, call .insert 5, call .parse 6]
    let b := start.recordAll (before ++ call .parse 3 :: later)
    Verdict.abort ∉ start.verdicts before ∧
      ((start.recordAll before).record .parse ⟨3, "bad"⟩).2 = .abort ∧
      b.trip? = some ⟨.parse, 2⟩ ∧ b.parseErrors = 3 ∧ b.insertErrors = 3 ∧
      b.samples = [⟨1, "bad"⟩, ⟨2, "bad"⟩, ⟨3, "bad"⟩, ⟨4, "bad"⟩, ⟨5, "bad"⟩] := by
  intro call start before later b
  obtain ⟨⟨hparse, hinsert⟩, -, -, hfirst, -, hsamples, -⟩ :=
    budget_counts_exactly (.atMost 1) (.atMost 1) (before ++ call .parse 3 :: later)
  have hgo : Verdict.abort ∉ start.verdicts before := by decide
  have habort : ((start.recordAll before).record .parse ⟨3, "bad"⟩).2 = .abort := by decide
  obtain ⟨ceiling, hceiling, htrip⟩ := hfirst before (call .parse 3) later rfl hgo habort
  obtain rfl : 1 = ceiling := Threshold.atMost.inj hceiling
  exact ⟨hgo, habort, htrip, hparse, hinsert, hsamples⟩

end BulkTransfer.Budget
