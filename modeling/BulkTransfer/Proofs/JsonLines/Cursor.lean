import BulkTransfer.Proofs.Reader.Stepwise

/-!
JSON documents, one object a line or one array of objects, as sources of one record after the other.

- `Reader.take`, `Reader.pass`: the step of readings and that of passing over.
- `Reader.isSource`: the calls of a reader are loops around these steps.
- `Reader.position_take`: a step counts the record and numbers its failure.
- `Reader.position_ofStream`: the count starts at the first record.
- `Reader.unread_take`: a record takes an item, a line or bytes off the source.
-/

namespace BulkTransfer.JsonLines

open Stepwise

/-- A line takes bytes off the source. -/
theorem length_nextLine {input rest : Bytes} {line : String}
    (h : nextLine input = (rest, .ok (some line))) : rest.length < input.length := by
  fun_induction nextLine input with
  | case1 => nomatch h
  | case2 => nomatch h
  | case3 b more line hline hblank ih =>
    exact Nat.lt_trans (ih h) (Bytes.length_takeLine_lt b more)
  | case4 b more line hline hblank =>
    cases h
    exact Bytes.length_takeLine_lt b more

theorem nextLine_error {input rest : Bytes} {e : Failure} (h : nextLine input = (rest, .error e)) :
    e.IsOperation := by
  fun_induction nextLine input with
  | case1 => nomatch h
  | case2 =>
    cases h
    exact ⟨_, _, rfl⟩
  | case3 b more line hline hblank ih => exact ih h
  | case4 => nomatch h

namespace Reader

/-- The record of a JSON value, with its number. -/
def recordOf (columns : List Column) (record : Nat) (parsed : Except String Json) : Record :=
  match rowOf columns parsed with
  | .ok row => .ok row
  | .error message => .error ⟨record, message⟩

/-- Takes the next record, with its number. -/
def take (r : Reader) : Reader × Except Failure (Option Record) :=
  match r.next with
  | (r, .error e) => (r, .error e)
  | (r, .ok none) => (r, .ok none)
  | (r, .ok (some parsed)) =>
    ({ r with position := r.position + 1 }, .ok (some (recordOf r.columns (r.position + 1) parsed)))

/-- Passes over the next record, if there is one. -/
def pass (r : Reader) : Reader × Except Failure Bool :=
  match r.next with
  | (r, .error e) => (r, .error e)
  | (r, .ok none) => (r, .ok false)
  | (r, .ok (some _)) => ({ r with position := r.position + 1 }, .ok true)

theorem readRecords_eq (r : Reader) (max : Nat) : r.readRecords max = readLoop take max r := by
  induction max generalizing r with
  | zero => rfl
  | succ max ih =>
    rw [readRecords, readLoop, take]
    match r.next with
    | (_, .error _) => rfl
    | (_, .ok none) => rfl
    | (passed, .ok (some _)) =>
      dsimp only
      rw [ih]
      match readLoop take max { passed with position := passed.position + 1 } with
      | (_, .ok _) => rfl
      | (_, .error _) => rfl

theorem skip_eq (r : Reader) (n : Nat) : r.skip n = skipLoop pass n r := by
  induction n generalizing r with
  | zero => rfl
  | succ n ih =>
    rw [skip, skipLoop, pass]
    match r.next with
    | (_, .error _) => rfl
    | (_, .ok none) => rfl
    | (passed, .ok (some _)) =>
      dsimp only
      rw [ih]
      match skipLoop pass n { passed with position := passed.position + 1 } with
      | (_, .ok _) => rfl
      | (_, .error _) => rfl

/-- What is left of the source: items, lines and bytes. -/
def unread (r : Reader) : Nat := r.items.length + r.pending.length + r.rest.length

/-- What the next record of a reader can be. -/
inductive Step (r : Reader) : Reader × Except Failure (Option (Except String Json)) → Prop
  | noMore {after : Reader} (hdone : after.isDone = true) : Step r (after, .ok none)
  | failed {after : Reader} {e : Failure} (he : e.IsOperation) : Step r (after, .error e)
  | record {after : Reader} {parsed : Except String Json} (hcount : after.position = r.position)
      (hless : after.unread < r.unread) : Step r (after, .ok (some parsed))

theorem step_next (r : Reader) : Step r r.next := by
  unfold next
  split
  · next item more hitems =>
    refine .record rfl ?_
    unfold unread
    rw [hitems, List.length_cons]
    dsimp only
    omega
  · next hitems =>
    split
    · next line more hpending =>
      refine .record rfl ?_
      unfold unread
      rw [hpending, List.length_cons]
      dsimp only
      omega
    · next hpending =>
      cases hex : r.exhausted with
      | true =>
        refine .noMore ?_
        unfold isDone
        rw [hex, hitems, hpending]
        rfl
      | false =>
        rw [if_neg Bool.false_ne_true]
        split
        · next hline => exact .failed (nextLine_error hline)
        · next hline =>
          have hless := length_nextLine hline
          refine .record rfl ?_
          unfold unread
          dsimp only
          omega
        · refine .noMore ?_
          unfold isDone
          rw [hitems, hpending]
          rfl

theorem next_of_isDone {r : Reader} (h : r.isDone = true) : r.next = (r, .ok none) := by
  unfold isDone at h
  rw [Bool.and_eq_true, Bool.and_eq_true, List.isEmpty_iff, List.isEmpty_iff] at h
  obtain ⟨⟨hex, hitems⟩, hpending⟩ := h
  unfold next
  rw [hitems, hpending]
  exact if_pos hex

/-- A record that is taken comes from the next JSON value. -/
theorem take_eq_some {r after : Reader} {record : Record}
    (h : r.take = (after, .ok (some record))) :
    ∃ passed parsed, r.next = (passed, .ok (some parsed)) ∧
      after = { passed with position := passed.position + 1 } ∧
      record = recordOf passed.columns (passed.position + 1) parsed := by
  unfold take at h
  split at h
  · nomatch h
  · nomatch h
  · next passed parsed hnext =>
    cases h
    exact ⟨passed, parsed, hnext, rfl, rfl⟩

theorem take_eq_none {r after : Reader} (h : r.take = (after, .ok none)) :
    r.next = (after, .ok none) := by
  unfold take at h
  split at h
  · nomatch h
  · next hnext =>
    cases h
    exact hnext
  · nomatch h

/-- The calls of a reader are loops around its steps. -/
theorem isSource : IsSource .json take pass isDone := by
  refine ⟨?_, ?_, ?_, ?_, ?_, ?_⟩
  · intro r max
    show BulkTransfer.Reader.lift .json (r.readBatch max) = _
    unfold readBatch batchLoop
    rw [readRecords_eq]
    split
    · next hread => rw [hread]
    · next hread => rw [hread]
  · intro r n
    show BulkTransfer.Reader.lift .json (r.skip n) = _
    rw [skip_eq]
  · intro r after record h
    obtain ⟨passed, parsed, hnext, rfl, -⟩ := take_eq_some h
    unfold pass
    rw [hnext]
  · intro r after h
    unfold pass
    rw [take_eq_none h]
  · intro r after h
    have hstep := step_next r
    rw [take_eq_none h] at hstep
    cases hstep with
    | noMore hdone => exact hdone
  · intro r h
    unfold take
    rw [next_of_isDone h]

theorem record_of_recordOf {columns : List Column} {n : Nat} {parsed : Except String Json}
    {failure : ParseFailure} (h : recordOf columns n parsed = .error failure) :
    failure.record = n := by
  unfold recordOf at h
  split at h
  · nomatch h
  · obtain rfl := Except.error.inj h
    rfl

/-- A record that is taken is counted, and has the count for its number where it is no row. -/
theorem position_take {r after : Reader} {record : Record}
    (h : r.take = (after, .ok (some record))) :
    after.position = r.position + 1 ∧
      ∀ failure, record = .error failure → failure.record = after.position := by
  obtain ⟨passed, parsed, hnext, rfl, rfl⟩ := take_eq_some h
  have hstep := step_next r
  rw [hnext] at hstep
  cases hstep with
  | record hcount _ => exact ⟨congrArg (· + 1) hcount, fun failure => record_of_recordOf⟩

/-- A record that is taken takes something off the source. -/
theorem unread_take {r after : Reader} {record : Record}
    (h : r.take = (after, .ok (some record))) : after.unread < r.unread := by
  obtain ⟨passed, parsed, hnext, rfl, -⟩ := take_eq_some h
  have hstep := step_next r
  rw [hnext] at hstep
  cases hstep with
  | record _ hless => exact hless

theorem position_ofBytes {b : Bytes} {r : Reader} (h : ofBytes b = .ok r) : r.position = 0 := by
  unfold ofBytes at h
  split at h
  · cases h
  · cases h
    rfl
  · split at h
    · split at h
      · cases h
      · split at h
        · cases h
          rfl
        · cases h
    · cases h
      rfl

/-- No record is counted before the first one is read. -/
theorem position_ofStream {stream : Stream} {known : KnownColumns} {r : Reader}
    (h : ofStream stream known = .ok r) : r.position = 0 := by
  unfold ofStream at h
  split at h
  · nomatch h
  · split at h
    · nomatch h
    · next opened hopened =>
      extract_lets names at h
      split at h
      · nomatch h
      · have hzero := position_ofBytes hopened
        cases h
        exact hzero

theorem next_error {r after : Reader} {e : Failure} (h : r.next = (after, .error e)) :
    e.IsOperation := by
  have hstep := step_next r
  rw [h] at hstep
  cases hstep with
  | failed he => exact he

theorem take_error {r after : Reader} {e : Failure} (h : r.take = (after, .error e)) :
    e.IsOperation := by
  unfold take at h
  split at h
  · next hnext =>
    cases h
    exact next_error hnext
  · nomatch h
  · nomatch h

theorem pass_error {r after : Reader} {e : Failure} (h : r.pass = (after, .error e)) :
    e.IsOperation := by
  unfold pass at h
  split at h
  · next hnext =>
    cases h
    exact next_error hnext
  · nomatch h
  · nomatch h

end Reader

end BulkTransfer.JsonLines
