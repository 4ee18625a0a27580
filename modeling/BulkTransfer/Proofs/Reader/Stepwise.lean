import BulkTransfer.Proofs.Reader

/-!
Readers that take one record after the other. Batches and passing over are loops around one step, so
that what a step does tells what is left to read, which number a record has, and why readings fail.

- `Stepwise.IsSource`: a reader whose calls are loops around one step.
- `Stepwise.Remains`: the records that steps take until the source ends.
- `Stepwise.isCursor`, `Stepwise.Remains.reads`: these are the records that the reader has left.
- `Stepwise.remains_of_readBatch`: a batch that is not full has all of them.
- `Stepwise.Remains.record_eq`: records are numbered from the position of the reader on.
-/

namespace BulkTransfer.Stepwise

variable {α : Type}

/-- Takes up to so many records. -/
def readLoop (take : α → α × Except Failure (Option Record)) :
    Nat → α → α × Except Failure (List Record)
  | 0, r => (r, .ok [])
  | max + 1, r => match take r with
    | (r, .error e) => (r, .error e)
    | (r, .ok none) => (r, .ok [])
    | (r, .ok (some record)) => match readLoop take max r with
      | (r, .ok more) => (r, .ok (record :: more))
      | (r, .error e) => (r, .error e)

/-- Takes a batch of up to so many records. -/
def batchLoop (take : α → α × Except Failure (Option Record)) (isDone : α → Bool) (max : Nat)
    (r : α) : α × Except Failure ReadBatch :=
  match readLoop take max r with
  | (r, .ok records) => (r, .ok ⟨records, isDone r⟩)
  | (r, .error e) => (r, .error e)

/-- Passes over up to so many records, and counts them; a step tells whether there was one. -/
def skipLoop (pass : α → α × Except Failure Bool) : Nat → α → α × Except Failure Nat
  | 0, r => (r, .ok 0)
  | n + 1, r => match pass r with
    | (r, .error e) => (r, .error e)
    | (r, .ok false) => (r, .ok 0)
    | (r, .ok true) => match skipLoop pass n r with
      | (r, .ok m) => (r, .ok (m + 1))
      | (r, .error e) => (r, .error e)

/-- A reader whose calls are loops around one step. Passing over a record leaves what taking it
leaves, and a reader that has seen the end is done and stays so. -/
structure IsSource (make : α → Reader) (take : α → α × Except Failure (Option Record))
    (pass : α → α × Except Failure Bool) (isDone : α → Bool) : Prop where
  readBatch (r : α) (max : Nat) :
    (make r).readBatch max = Reader.lift make (batchLoop take isDone max r)
  skip (r : α) (n : Nat) : (make r).skip n = Reader.lift make (skipLoop pass n r)
  pass_some {r after : α} {record : Record} (h : take r = (after, .ok (some record))) :
    pass r = (after, .ok true)
  pass_none {r after : α} (h : take r = (after, .ok none)) : pass r = (after, .ok false)
  isDone_of_none {r after : α} (h : take r = (after, .ok none)) : isDone after = true
  take_of_isDone {r : α} (h : isDone r = true) : take r = (r, .ok none)

/-- The records that steps take until the source ends. -/
inductive Remains (take : α → α × Except Failure (Option Record)) : α → List Record → Prop
  | nil {r after : α} (h : take r = (after, .ok none)) : Remains take r []
  | cons {r after : α} {record : Record} {left : List Record}
      (h : take r = (after, .ok (some record))) (hmore : Remains take after left) :
      Remains take r (record :: left)

variable {make : α → Reader} {take : α → α × Except Failure (Option Record)}
  {pass : α → α × Except Failure Bool} {isDone : α → Bool}

/-! ## What is left -/

theorem Remains.eq_nil (hsource : IsSource make take pass isDone) {r : α} {left : List Record}
    (h : Remains take r left) (hdone : isDone r = true) : left = [] := by
  have hend := hsource.take_of_isDone hdone
  cases h with
  | nil _ => rfl
  | cons hsome _ =>
    rw [hend] at hsome
    nomatch hsome

theorem remains_nil (hsource : IsSource make take pass isDone) {r : α} (h : isDone r = true) :
    Remains take r [] :=
  .nil (hsource.take_of_isDone h)

/-- A reading takes records off the front, and one that is not full sees the end. -/
theorem Remains.readLoop (hsource : IsSource make take pass isDone) {r : α} {left : List Record}
    (h : Remains take r left) (max : Nat) :
    ∃ after, readLoop take max r = (after, .ok (left.take max)) ∧
      Remains take after (left.drop max) ∧ (left.length < max → isDone after = true) := by
  induction max generalizing r left with
  | zero => exact ⟨r, rfl, h, fun hlt => absurd hlt (Nat.not_lt_zero _)⟩
  | succ max ih =>
    unfold Stepwise.readLoop
    cases h with
    | nil hnone =>
      have hdone := hsource.isDone_of_none hnone
      rw [hnone]
      exact ⟨_, rfl, remains_nil hsource hdone, fun _ => hdone⟩
    | cons hsome hmore =>
      obtain ⟨after, hread, hafter, hend⟩ := ih hmore
      rw [hsome]
      dsimp only
      rw [hread]
      refine ⟨after, rfl, hafter, fun hlt => hend ?_⟩
      rw [List.length_cons] at hlt
      omega

/-- Passing over takes records off the front. -/
theorem Remains.skipLoop (hsource : IsSource make take pass isDone) {r : α} {left : List Record}
    (h : Remains take r left) (n : Nat) :
    ∃ after, skipLoop pass n r = (after, .ok (min n left.length)) ∧
      Remains take after (left.drop n) := by
  induction n generalizing r left with
  | zero =>
    rw [Nat.zero_min]
    exact ⟨r, rfl, h⟩
  | succ n ih =>
    unfold Stepwise.skipLoop
    cases h with
    | nil hnone =>
      rw [hsource.pass_none hnone]
      exact ⟨_, rfl, remains_nil hsource (hsource.isDone_of_none hnone)⟩
    | cons hsome hmore =>
      obtain ⟨after, hskip, hafter⟩ := ih hmore
      rw [hsource.pass_some hsome]
      dsimp only
      rw [hskip]
      refine ⟨after, ?_, hafter⟩
      rw [List.length_cons, Nat.succ_min_succ]

/-- A reader is a cursor in the records that its steps take. -/
theorem isCursor (hsource : IsSource make take pass isDone) :
    Reader.IsCursor fun reader left => ∃ r, reader = make r ∧ Remains take r left := by
  refine ⟨?_, ?_⟩
  · rintro _ left ⟨r, rfl, h⟩ n
    obtain ⟨after, hskip, hafter⟩ := h.skipLoop hsource n
    rw [hsource.skip, hskip]
    exact ⟨make after, rfl, after, rfl, hafter⟩
  · rintro _ left ⟨r, rfl, h⟩ max _
    obtain ⟨after, hread, hafter, hend⟩ := h.readLoop hsource max
    rw [hsource.readBatch]
    unfold batchLoop
    rw [hread]
    refine ⟨make after, isDone after, rfl, ⟨after, rfl, hafter⟩, ?_, ?_⟩
    · intro hlast
      exact List.drop_eq_nil_iff.mp (hafter.eq_nil hsource hlast)
    · intro hlast
      refine Nat.le_of_not_lt fun hlt => ?_
      rw [hend hlt] at hlast
      nomatch hlast

/-- A reader has the records left that its steps take. -/
theorem Remains.reads (hsource : IsSource make take pass isDone) {r : α} {left : List Record}
    (h : Remains take r left) : (make r).Reads left :=
  ⟨_, isCursor hsource, r, rfl, h⟩

/-- A reading that is not full has all records that are left. -/
theorem remains_of_readLoop {max : Nat} {r after : α} {records : List Record}
    (h : readLoop take max r = (after, .ok records)) (hlt : records.length < max) :
    Remains take r records := by
  induction max generalizing r records with
  | zero => exact absurd hlt (Nat.not_lt_zero _)
  | succ max ih =>
    unfold readLoop at h
    split at h
    · nomatch h
    · next hnone =>
      cases h
      exact .nil hnone
    · next hsome =>
      split at h
      · next hread =>
        cases h
        rw [List.length_cons] at hlt
        exact .cons hsome (ih hread (by omega))
      · nomatch h

/-- A batch that is not full has all records that are left. -/
theorem remains_of_readBatch (hsource : IsSource make take pass isDone) {max : Nat} {r : α}
    {after : Reader} {batch : ReadBatch} (h : (make r).readBatch max = (after, .ok batch))
    (hlt : batch.records.length < max) : Remains take r batch.records := by
  rw [hsource.readBatch] at h
  unfold batchLoop at h
  split at h
  · next hread =>
    cases h
    exact remains_of_readLoop hread hlt
  · nomatch h

/-! ## Numbers and sizes -/

/-- Where each step goes on by one and gives a failure the number it has reached, the records that
are left are numbered one after the other. -/
theorem Remains.record_eq {position : α → Nat}
    (hstep : ∀ {r after : α} {record : Record}, take r = (after, .ok (some record)) →
      position after = position r + 1 ∧ ∀ failure, record = .error failure →
        failure.record = position after)
    {r : α} {left : List Record} (h : Remains take r left) {i : Nat} {failure : ParseFailure}
    (hi : left[i]? = some (.error failure)) : failure.record = position r + i + 1 := by
  induction h generalizing i with
  | nil _ => nomatch hi
  | cons hsome _ ih =>
    obtain ⟨hposition, hnumber⟩ := hstep hsome
    cases i with
    | zero =>
      rw [List.getElem?_cons_zero] at hi
      rw [hnumber failure (Option.some.inj hi), hposition]
    | succ i =>
      rw [List.getElem?_cons_succ] at hi
      rw [ih hi, hposition]
      omega

/-- Where each record takes something off a size, no more records are left than the size. -/
theorem Remains.length_le {size : α → Nat}
    (hstep : ∀ {r after : α} {record : Record}, take r = (after, .ok (some record)) →
      size after < size r)
    {r : α} {left : List Record} (h : Remains take r left) : left.length ≤ size r := by
  induction h with
  | nil _ => exact Nat.zero_le _
  | cons hsome _ ih =>
    have hless := hstep hsome
    rw [List.length_cons]
    omega

/-! ## Failures -/

theorem readLoop_error {P : Failure → Prop}
    (hstep : ∀ {r after : α} {e : Failure}, take r = (after, .error e) → P e) {max : Nat}
    {r after : α} {e : Failure} (h : readLoop take max r = (after, .error e)) : P e := by
  induction max generalizing r with
  | zero => nomatch h
  | succ max ih =>
    unfold readLoop at h
    split at h
    · next herror =>
      cases h
      exact hstep herror
    · nomatch h
    · split at h
      · nomatch h
      · next hmore =>
        cases h
        exact ih hmore

theorem skipLoop_error {P : Failure → Prop}
    (hstep : ∀ {r after : α} {e : Failure}, pass r = (after, .error e) → P e) {n : Nat}
    {r after : α} {e : Failure} (h : skipLoop pass n r = (after, .error e)) : P e := by
  induction n generalizing r with
  | zero => nomatch h
  | succ n ih =>
    unfold skipLoop at h
    split at h
    · next herror =>
      cases h
      exact hstep herror
    · nomatch h
    · split at h
      · nomatch h
      · next hmore =>
        cases h
        exact ih hmore

theorem IsSource.readBatch_error (hsource : IsSource make take pass isDone) {P : Failure → Prop}
    (hstep : ∀ {r after : α} {e : Failure}, take r = (after, .error e) → P e) {max : Nat} {r : α}
    {after : Reader} {e : Failure} (h : (make r).readBatch max = (after, .error e)) : P e := by
  rw [hsource.readBatch] at h
  unfold batchLoop at h
  split at h
  · nomatch h
  · next hread =>
    cases h
    exact readLoop_error hstep hread

theorem IsSource.skip_error (hsource : IsSource make take pass isDone) {P : Failure → Prop}
    (hstep : ∀ {r after : α} {e : Failure}, pass r = (after, .error e) → P e) {n : Nat} {r : α}
    {after : Reader} {e : Failure} (h : (make r).skip n = (after, .error e)) : P e := by
  rw [hsource.skip] at h
  exact skipLoop_error hstep (Reader.eq_of_lift h)

end BulkTransfer.Stepwise
