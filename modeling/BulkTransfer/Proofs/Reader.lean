import BulkTransfer.Reader

/-!
Readers as cursors. A reader stands for the list of records it has left: a reading takes them off
the front of the list, and passing over drops them unseen.

- `Reader.Reads`: a reader has exactly these records left.
- `Reader.reads_listed`: a reader of listed records has them left.
- `Failure.IsOperation`: failures of steps on files and encodings, as readings give.
-/

namespace BulkTransfer

/-- A step on files or encodings failed. -/
def Failure.IsOperation (e : Failure) : Prop := ∃ name cause, e = .operation name cause

namespace Reader

/-- A relation between readers and the records they have left that every reading and every passing
over keeps. A reading that is not the last one is full, and behind the last one nothing is left. -/
structure IsCursor (leaves : Reader → List Record → Prop) : Prop where
  skip {r : Reader} {l : List Record} (h : leaves r l) (n : Nat) :
    ∃ after, r.skip n = (after, .ok (min n l.length)) ∧ leaves after (l.drop n)
  readBatch {r : Reader} {l : List Record} (h : leaves r l) {max : Nat} (hmax : 0 < max) :
    ∃ after isLast, r.readBatch max = (after, .ok ⟨l.take max, isLast⟩) ∧
      leaves after (l.drop max) ∧ (isLast = true → l.length ≤ max) ∧
      (isLast = false → max ≤ l.length)

/-- The reader has exactly these records left, in this order. -/
def Reads (r : Reader) (l : List Record) : Prop :=
  ∃ leaves, IsCursor leaves ∧ leaves r l

theorem Reads.skip {r : Reader} {l : List Record} (h : r.Reads l) (n : Nat) :
    ∃ after, r.skip n = (after, .ok (min n l.length)) ∧ after.Reads (l.drop n) := by
  obtain ⟨leaves, hcursor, hr⟩ := h
  obtain ⟨after, hskip, hafter⟩ := hcursor.skip hr n
  exact ⟨after, hskip, leaves, hcursor, hafter⟩

theorem Reads.readBatch {r : Reader} {l : List Record} (h : r.Reads l) {max : Nat}
    (hmax : 0 < max) :
    ∃ after isLast, r.readBatch max = (after, .ok ⟨l.take max, isLast⟩) ∧
      after.Reads (l.drop max) ∧ (isLast = true → l.length ≤ max) ∧
      (isLast = false → max ≤ l.length) := by
  obtain ⟨leaves, hcursor, hr⟩ := h
  obtain ⟨after, isLast, hread, hafter, hlast, hfull⟩ := hcursor.readBatch hr hmax
  exact ⟨after, isLast, hread, ⟨leaves, hcursor, hafter⟩, hlast, hfull⟩

/-- A call of a reader of one format gives what the reader itself gives. -/
theorem eq_of_lift {α β : Type} {make : α → Reader} {result : α × β} {after : Reader} {b : β}
    (h : lift make result = (after, b)) : result = (result.1, b) := by
  have houtcome : result.2 = b := congrArg Prod.snd h
  rw [← houtcome]

/-- A reading of a source that is not a dataset leaves one that is none. -/
theorem dataset?_readBatch {r : Reader} (h : r.dataset? = none) (max : Nat) :
    (r.readBatch max).1.dataset? = none := by
  cases r with
  | partitioned r => nomatch h
  | _ => rfl

theorem reads_listed (columns : List Column) (records : List Record) :
    (listed columns records).Reads records := by
  refine ⟨fun r l => r = listed columns l, ⟨?_, ?_⟩, rfl⟩
  · intro r l h n
    subst h
    exact ⟨listed columns (l.drop n), rfl, rfl⟩
  · intro r l h max _
    subst h
    refine ⟨listed columns (l.drop max), (l.drop max).isEmpty, rfl, rfl, ?_, ?_⟩
    · intro hlast
      exact List.drop_eq_nil_iff.mp (List.isEmpty_iff.mp hlast)
    · intro hlast
      refine Nat.le_of_not_lt fun hlt => ?_
      rw [List.drop_eq_nil_of_le (by omega)] at hlast
      exact absurd hlast (by decide)

end Reader

end BulkTransfer
