import BulkTransfer.Proofs.Reader.Stepwise

/-!
Delimited text as a source of one record after the other.

- `Reader.take`, `Reader.pass`: the step of readings and that of passing over.
- `Reader.isSource`: the calls of a reader are loops around these steps.
- `Reader.position_take`: a step counts the record and numbers its failure.
- `Reader.position_withSettings`: the count starts behind the header.
- `Reader.length_rest_take`: a record takes bytes off the source.
-/

namespace BulkTransfer.Delimited

open Stepwise

/-- The bytes behind a record are no more than those that were there. -/
theorem Dialect.length_readFields_le (d : Dialect) (stand : Stand) (field input : Bytes) :
    (d.readFields stand field input).2.length ≤ input.length := by
  fun_induction d.readFields stand field input with
  | case1 => exact Nat.le_refl _
  | case2 _ _ _ _ _ _ ih => exact Nat.le_succ_of_le ih
  | case3 _ _ _ _ _ _ ih => exact Nat.le_succ_of_le ih
  | case4 _ _ _ _ _ _ _ heq ih =>
    rw [heq] at ih
    exact Nat.le_succ_of_le ih
  | case5 _ _ _ rest => exact Nat.le_succ rest.length

theorem Dialect.length_readFields_lt (d : Dialect) (stand : Stand) (field : Bytes) (b : UInt8)
    (rest : Bytes) : (d.readFields stand field (b :: rest)).2.length < (b :: rest).length := by
  rw [List.length_cons, Nat.lt_succ_iff, readFields]
  split
  · exact d.length_readFields_le _ _ rest
  · exact d.length_readFields_le _ _ rest
  · exact d.length_readFields_le _ _ rest
  · exact Nat.le_refl _

/-- A record takes at least one byte. -/
theorem Dialect.length_nextRecord? {d : Dialect} {input rest : Bytes} {fields : List Bytes}
    (h : d.nextRecord? input = some (fields, rest)) : rest.length < input.length := by
  have hdrop := (List.dropWhile_sublist (l := input) endsLine).length_le
  unfold nextRecord? at h
  split at h
  · nomatch h
  · next b more heq =>
    rw [heq] at hdrop
    have hless := d.length_readFields_lt .fieldStart [] b more
    rw [Option.some.inj h] at hless
    exact Nat.lt_of_lt_of_le hless hdrop

namespace Reader

/-- Takes the next record, with its number. -/
def take (r : Reader) : Reader × Except Failure (Option Record) :=
  if r.exhausted then (r, .ok none)
  else match r.next with
    | (r, .noMore) => ({ r with exhausted := true }, .ok none)
    | (r, .unreadable) => (r, .error (.operation "read_csv" FileFault.isDirectory.message))
    | (r, .fields texts) =>
      let r := { r with position := r.position + 1 }
      (r, .ok (some (numbered r.position (r.convert texts))))
    | (r, .malformed message) =>
      let r := { r with position := r.position + 1 }
      (r, .ok (some (.error ⟨r.position, message⟩)))

/-- Passes over the next record, if there is one. -/
def pass (r : Reader) : Reader × Except Failure Bool :=
  if r.exhausted then (r, .ok false)
  else if r.unreadable then
    ({ r with unreadable := false }, .error (.operation "skip_csv" FileFault.isDirectory.message))
  else match r.nextBytes? with
    | (r, none) => ({ r with exhausted := true }, .ok false)
    | (r, some _) => ({ r with position := r.position + 1 }, .ok true)

theorem readRecords_eq (r : Reader) (max : Nat) : r.readRecords max = readLoop take max r := by
  induction max generalizing r with
  | zero => rfl
  | succ max ih =>
    rw [readRecords, readLoop, take]
    by_cases hex : r.exhausted = true
    · rw [if_pos hex, if_pos hex]
    · rw [if_neg hex, if_neg hex]
      match r.next with
      | (_, .noMore) => rfl
      | (_, .unreadable) => rfl
      | (passed, .fields _) =>
        dsimp only
        rw [ih]
        match readLoop take max { passed with position := passed.position + 1 } with
        | (_, .ok _) => rfl
        | (_, .error _) => rfl
      | (passed, .malformed _) =>
        dsimp only
        rw [ih]
        match readLoop take max { passed with position := passed.position + 1 } with
        | (_, .ok _) => rfl
        | (_, .error _) => rfl

theorem skip_eq (r : Reader) (n : Nat) : r.skip n = skipLoop pass n r := by
  induction n generalizing r with
  | zero => rfl
  | succ n ih =>
    rw [skip, skipLoop, pass]
    by_cases hex : r.exhausted = true
    · rw [if_pos hex, if_pos hex]
    · rw [if_neg hex, if_neg hex]
      by_cases hunreadable : r.unreadable = true
      · rw [if_pos hunreadable, if_pos hunreadable]
      · rw [if_neg hunreadable, if_neg hunreadable]
        match r.nextBytes? with
        | (_, none) => rfl
        | (passed, some _) =>
          dsimp only
          rw [ih]
          match skipLoop pass n { passed with position := passed.position + 1 } with
          | (_, .ok _) => rfl
          | (_, .error _) => rfl

/-- What the step of a reader can give. -/
inductive Step (r : Reader) : Reader × Except Failure (Option Record) → Prop
  /-- The end was seen before. -/
  | ended (hex : r.exhausted = true) : Step r (r, .ok none)
  | unreadable (hex : r.exhausted = false) (hunreadable : r.unreadable = true) :
      Step r ({ r with unreadable := false },
        .error (.operation "read_csv" FileFault.isDirectory.message))
  | noMore (hex : r.exhausted = false) (hreadable : r.unreadable = false) {passed : Reader}
      (hbytes : r.nextBytes? = (passed, none)) :
      Step r ({ passed with exhausted := true }, .ok none)
  /-- A record, which knows its number where it is no row. -/
  | record (hex : r.exhausted = false) (hreadable : r.unreadable = false) {passed : Reader}
      {fields : List Bytes} (hbytes : r.nextBytes? = (passed, some fields)) {record : Record}
      (hnumber : ∀ failure, record = .error failure → failure.record = passed.position + 1) :
      Step r ({ passed with position := passed.position + 1 }, .ok (some record))

theorem record_of_numbered {n : Nat} {row : Except String Row} {failure : ParseFailure}
    (h : numbered n row = .error failure) : failure.record = n := by
  unfold numbered at h
  split at h
  · nomatch h
  · obtain rfl := Except.error.inj h
    rfl

theorem step_take (r : Reader) : Step r r.take := by
  unfold take
  cases hex : r.exhausted with
  | true => exact .ended hex
  | false =>
    rw [if_neg Bool.false_ne_true]
    unfold next
    cases hreadable : r.unreadable with
    | true => exact .unreadable hex hreadable
    | false =>
      rw [if_neg Bool.false_ne_true]
      match hbytes : r.nextBytes? with
      | (passed, none) => exact .noMore hex hreadable hbytes
      | (passed, some fields) =>
        dsimp only
        cases decodeFields 0 fields with
        | ok texts => exact .record hex hreadable hbytes fun failure => record_of_numbered
        | error bad =>
          refine .record hex hreadable hbytes fun failure h => ?_
          obtain rfl := Except.error.inj h
          rfl

/-- The calls of a reader are loops around its steps. -/
theorem isSource : IsSource .delimited take pass Reader.exhausted := by
  refine ⟨?_, ?_, ?_, ?_, ?_, ?_⟩
  · intro r max
    show BulkTransfer.Reader.lift .delimited (r.readBatch max) = _
    unfold readBatch batchLoop
    rw [readRecords_eq]
    split
    · next hread => rw [hread]
    · next hread => rw [hread]
  · intro r n
    show BulkTransfer.Reader.lift .delimited (r.skip n) = _
    rw [skip_eq]
  · intro r after record h
    have hstep := step_take r
    rw [h] at hstep
    unfold pass
    cases hstep with
    | record hex hreadable hbytes _ =>
      rw [hex, hreadable, if_neg Bool.false_ne_true, if_neg Bool.false_ne_true, hbytes]
  · intro r after h
    have hstep := step_take r
    rw [h] at hstep
    unfold pass
    cases hstep with
    | ended hex => rw [if_pos hex]
    | noMore hex hreadable hbytes =>
      rw [hex, hreadable, if_neg Bool.false_ne_true, if_neg Bool.false_ne_true, hbytes]
  · intro r after h
    have hstep := step_take r
    rw [h] at hstep
    cases hstep with
    | ended hex => exact hex
    | noMore _ _ _ => rfl
  · intro r h
    unfold take
    rw [if_pos h]

theorem length_remaining_le (r : Reader) : r.remaining.length ≤ r.rest.length := by
  unfold remaining dropMark
  split
  · split
    · rw [List.length_drop]
      omega
    · exact Nat.le_refl _
  · exact Nat.le_refl _

/-- Reading the bytes of a record takes some off the source and keeps the count. -/
theorem nextBytes?_eq_some {r passed : Reader} {fields : List Bytes}
    (h : r.nextBytes? = (passed, some fields)) :
    passed.position = r.position ∧ passed.rest.length < r.rest.length := by
  unfold nextBytes? at h
  split at h
  · nomatch h
  · next hrecord =>
    cases h
    exact ⟨rfl, Nat.lt_of_lt_of_le (Dialect.length_nextRecord? hrecord) r.length_remaining_le⟩

/-- A record that is taken is counted, and has the count for its number where it is no row. -/
theorem position_take {r after : Reader} {record : Record}
    (h : r.take = (after, .ok (some record))) :
    after.position = r.position + 1 ∧
      ∀ failure, record = .error failure → failure.record = after.position := by
  have hstep := step_take r
  rw [h] at hstep
  cases hstep with
  | record _ _ hbytes hnumber =>
    exact ⟨congrArg (· + 1) (nextBytes?_eq_some hbytes).1, hnumber⟩

/-- A record that is taken takes bytes off the source. -/
theorem length_rest_take {r after : Reader} {record : Record}
    (h : r.take = (after, .ok (some record))) : after.rest.length < r.rest.length := by
  have hstep := step_take r
  rw [h] at hstep
  cases hstep with
  | record _ _ hbytes _ => exact (nextBytes?_eq_some hbytes).2

/-- Reading the texts of a record does not count it. -/
theorem position_next (r : Reader) : r.next.1.position = r.position := by
  have hbytes : r.nextBytes?.1.position = r.position := by
    unfold nextBytes?
    split
    · rfl
    · rfl
  unfold next
  split
  · rfl
  · split
    · next hnext =>
      rw [hnext] at hbytes
      exact hbytes
    · next hnext =>
      rw [hnext] at hbytes
      split
      · exact hbytes
      · exact hbytes

/-- No record is counted before the first one is read; a header is none. -/
theorem position_withSettings {stream : Stream} {settings : Settings} {known : KnownColumns}
    {r : Reader} (h : withSettings stream settings known = .ok r) : r.position = 0 := by
  unfold withSettings at h
  dsimp only at h
  split at h
  · nomatch h
  · next opened header hopened =>
    have hzero : opened.position = 0 := by
      split at hopened
      · split at hopened
        · next hnext =>
          cases hopened
          have hposition := congrArg (fun p => p.1.position) hnext
          exact hposition.symm.trans (position_next _)
        · next hnext =>
          cases hopened
          have hposition := congrArg (fun p => p.1.position) hnext
          exact hposition.symm.trans (position_next _)
        · nomatch hopened
        · nomatch hopened
      · cases hopened
        rfl
    split at h
    · nomatch h
    · cases h
      exact hzero

theorem take_error {r after : Reader} {e : Failure} (h : r.take = (after, .error e)) :
    e.IsOperation := by
  have hstep := step_take r
  rw [h] at hstep
  cases hstep with
  | unreadable _ _ => exact ⟨_, _, rfl⟩

theorem pass_error {r after : Reader} {e : Failure} (h : r.pass = (after, .error e)) :
    e.IsOperation := by
  unfold pass at h
  split at h
  · nomatch h
  · split at h
    · cases h
      exact ⟨_, _, rfl⟩
    · split at h
      · nomatch h
      · nomatch h

end Reader

end BulkTransfer.Delimited
