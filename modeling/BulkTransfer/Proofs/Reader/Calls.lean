import BulkTransfer.Import.Run
import BulkTransfer.Proofs.Delimited.Cursor
import BulkTransfer.Proofs.JsonLines.Cursor
import BulkTransfer.Proofs.Partition.Cursor

/-!
Readers of all formats answer calls as one list does. The list is what a reader that was just
opened gives in one batch with room for everything; how the source is cut into chunks, which calls
were made before, and where a chunk, a file or the source ends makes no difference to it.

- `Reader.Follows`: a reader answers calls as a list does.
- `Reader.ReadsWithin`: a reader has records left, at most as many as a bound tells.
- `Import.Producer.Ends`: the loop of an import ends, with no bound on its readings.
- `Reader.Opening`: a source, with what the reader of its format is told about it.
- `Reader.Opening.exists_readsWithin`: a source that was read to its end has these records for all
  sizes of chunks.
- `Reader.opened_source_follows_list`: calls, numbers and imports, for every source that can be
  opened and read.
-/

namespace BulkTransfer

open Stepwise

/-! ## Calls -/

namespace Reader

/-- A call of a reader. -/
inductive Call where
  | skip (n : Nat)
  | read (max : Nat) (hmax : 0 < max)

/-- The reader answers calls one after the other as the list does. Passing over counts the records
that it drops. A batch has the next records; one that is not full is the last one, and behind the
last one there is nothing. -/
def Follows : Reader → List Record → List Call → Prop
  | _, _, [] => True
  | r, left, .skip n :: calls =>
    ∃ after, r.skip n = (after, .ok (min n left.length)) ∧ after.Follows (left.drop n) calls
  | r, left, .read max _ :: calls =>
    ∃ after isLast, r.readBatch max = (after, .ok ⟨left.take max, isLast⟩) ∧
      ((left.take max).length < max → isLast = true) ∧
      (isLast = true → left.drop max = []) ∧ after.Follows (left.drop max) calls

theorem Reads.follows {r : Reader} {left : List Record} (h : r.Reads left) (calls : List Call) :
    r.Follows left calls := by
  induction calls generalizing r left with
  | nil => trivial
  | cons call calls ih =>
    cases call with
    | skip n =>
      obtain ⟨after, hskip, hafter⟩ := h.skip n
      exact ⟨after, hskip, ih hafter⟩
    | read max hmax =>
      obtain ⟨after, isLast, hread, hafter, hlast, hfull⟩ := h.readBatch hmax
      refine ⟨after, isLast, hread, fun hshort => ?_, fun hend => ?_, ih hafter⟩
      · rw [List.length_take] at hshort
        cases isLast with
        | true => rfl
        | false =>
          have hle := hfull rfl
          omega
      · exact List.drop_eq_nil_of_le (hlast hend)

/-- The reader has exactly these records left, and wherever it comes to, there are no more left than
the bound tells. -/
def ReadsWithin (bound : Reader → Nat) (r : Reader) (l : List Record) : Prop :=
  ∃ leaves, IsCursor leaves ∧ (∀ {r l}, leaves r l → l.length ≤ bound r) ∧ leaves r l

variable {bound : Reader → Nat} {r : Reader} {l : List Record}

theorem ReadsWithin.reads (h : r.ReadsWithin bound l) : r.Reads l := by
  obtain ⟨leaves, hcursor, -, hleaves⟩ := h
  exact ⟨leaves, hcursor, hleaves⟩

theorem ReadsWithin.length_le (h : r.ReadsWithin bound l) : l.length ≤ bound r := by
  obtain ⟨leaves, -, hbound, hleaves⟩ := h
  exact hbound hleaves

theorem ReadsWithin.skip (h : r.ReadsWithin bound l) (n : Nat) :
    ∃ after, r.skip n = (after, .ok (min n l.length)) ∧ after.ReadsWithin bound (l.drop n) := by
  obtain ⟨leaves, hcursor, hbound, hleaves⟩ := h
  obtain ⟨after, hskip, hafter⟩ := hcursor.skip hleaves n
  exact ⟨after, hskip, leaves, hcursor, hbound, hafter⟩

/-- Records that are no rows have the numbers of their places, from 1 on. -/
def AreNumbered (records : List Record) : Prop :=
  ∀ i failure, records[i]? = some (.error failure) → failure.record = i + 1

theorem areNumbered_rows (rows : List Row) : AreNumbered (rows.map .ok) := by
  intro i failure h
  rw [List.getElem?_map, Option.map_eq_some_iff] at h
  obtain ⟨row, -, hrow⟩ := h
  nomatch hrow

end Reader

/-! ## What is left in each format -/

namespace Delimited.Reader

theorem readsWithin {r : Reader} {left : List Record} (h : Remains take r left) :
    (BulkTransfer.Reader.delimited r).ReadsWithin Import.recordBound left := by
  refine ⟨_, isCursor isSource, ?_, r, rfl, h⟩
  rintro _ left ⟨r, rfl, h⟩
  exact h.length_le length_rest_take

end Delimited.Reader

namespace JsonLines.Reader

theorem readsWithin {r : Reader} {left : List Record} (h : Remains take r left) :
    (BulkTransfer.Reader.json r).ReadsWithin Import.recordBound left := by
  refine ⟨_, isCursor isSource, ?_, r, rfl, h⟩
  rintro _ left ⟨r, rfl, h⟩
  exact h.length_le unread_take

end JsonLines.Reader

namespace Columnar.Reader

theorem readsWithin {r : Reader} {left : List Row} (h : r.Holds left) :
    (BulkTransfer.Reader.columnar r).ReadsWithin Import.recordBound (left.map .ok) := by
  refine ⟨_, isCursor, ?_, r, left, rfl, rfl, h⟩
  rintro _ _ ⟨r, left, rfl, rfl, h⟩
  rw [List.length_map]
  exact Nat.le_of_eq h.length_eq

end Columnar.Reader

namespace Partition.Reader

theorem OpensAs.length_eq {tree : FileTree} {options : Options} {p : DataFile × List Row}
    (h : OpensAs tree options p) : p.2.length = Import.rowsAt tree p.1.path := by
  obtain ⟨current, hopen, rows, hrows, hleft⟩ := h
  obtain ⟨f, hlook, rfl⟩ := openFile_eq_ok_iff.mp hopen
  unfold Import.rowsAt
  rw [hleft, List.length_map, hlook, hrows.length_ofFile]

theorem Rest.Holds.length_eq {r : Reader} {left : List Row}
    (h : (Rest.mk r.current? r.pending).Holds r.tree r.options left) :
    left.length = Import.recordBound (.partitioned r) := by
  obtain ⟨now, files, hpending, hfiles, hleft, hnow⟩ := h.split
  have hbehind : (files.flatMap Prod.snd).length =
      (r.pending.map fun f => Import.rowsAt r.tree f.path).sum := by
    rw [show r.pending = files.map Prod.fst from hpending, List.length_flatMap, List.map_map]
    exact congrArg List.sum (List.map_congr_left fun p hp => (hfiles p hp).length_eq)
  unfold Import.recordBound
  rw [hleft, List.length_append, hbehind]
  dsimp only at hnow ⊢
  cases hcurrent : r.current? with
  | none =>
    rw [hcurrent] at hnow
    dsimp only at hnow ⊢
    rw [hnow, List.length_nil]
  | some current =>
    rw [hcurrent] at hnow
    obtain ⟨rows, hrows, rfl⟩ := hnow
    dsimp only
    rw [List.length_map, hrows.length_eq]

theorem readsWithin {r : Reader} {left : List Row}
    (h : (Rest.mk r.current? r.pending).Holds r.tree r.options left) :
    (BulkTransfer.Reader.partitioned r).ReadsWithin Import.recordBound (left.map .ok) := by
  refine ⟨_, isCursor, ?_, r, left, rfl, rfl, h⟩
  rintro _ _ ⟨r, left, rfl, rfl, h⟩
  rw [List.length_map]
  exact Nat.le_of_eq h.length_eq

end Partition.Reader

/-! ## The loop of an import -/

namespace Import.Producer

variable {σ : Type} [WriteSession σ]

/-- The loop of an import, with no bound on its readings, comes to this end: all records that are
wanted were read, a reading has failed, or the import has stopped or seen the end of the source. -/
inductive Ends (job : Job) (skipped : Nat) :
    Reader → Producer σ → Producer σ × Reader × Except Failure Unit → Prop
  | enough {reader : Reader} {p : Producer σ} (hwanted : p.wanted job = 0) :
      Ends job skipped reader p (p, reader, .ok ())
  | failed {reader after : Reader} {p : Producer σ} {e : Failure} (hwanted : p.wanted job ≠ 0)
      (hread : reader.readBatch (p.wanted job) = (after, .error e)) :
      Ends job skipped reader p (p, after, .error e)
  | over {reader after : Reader} {p : Producer σ} {batch : ReadBatch} (hwanted : p.wanted job ≠ 0)
      (hread : reader.readBatch (p.wanted job) = (after, .ok batch))
      (hover : ((batch.records.foldl (step job skipped) p).stopped || batch.isLast) = true) :
      Ends job skipped reader p (batch.records.foldl (step job skipped) p, after, .ok ())
  | more {reader after : Reader} {p : Producer σ} {batch : ReadBatch}
      {outcome : Producer σ × Reader × Except Failure Unit} (hwanted : p.wanted job ≠ 0)
      (hread : reader.readBatch (p.wanted job) = (after, .ok batch))
      (hmore : ((batch.records.foldl (step job skipped) p).stopped || batch.isLast) = false)
      (hends : Ends job skipped after (batch.records.foldl (step job skipped) p) outcome) :
      Ends job skipped reader p outcome

/-- More readings than there are records bring the loop to its end: a batch that is not the last one
is full. -/
theorem ends_consume (job : Job) (skipped : Nat) {steps : Nat} {reader : Reader}
    {left : List Record} (h : reader.Reads left) (hsteps : left.length < steps)
    (p : Producer σ) :
    ∃ final rest, consume job skipped steps reader p = (final, rest, .ok ()) ∧
      Ends job skipped reader p (final, rest, .ok ()) := by
  induction steps generalizing reader left p with
  | zero => exact absurd hsteps (Nat.not_lt_zero _)
  | succ steps ih =>
    unfold consume
    by_cases hwanted : p.wanted job = 0
    · rw [if_pos hwanted]
      exact ⟨p, reader, rfl, .enough hwanted⟩
    · obtain ⟨after, isLast, hread, hafter, -, hfull⟩ :=
        h.readBatch (Nat.pos_of_ne_zero hwanted)
      rw [if_neg hwanted, hread]
      dsimp only
      cases hover : ((left.take (p.wanted job)).foldl (step job skipped) p).stopped || isLast with
      | true =>
        rw [if_pos rfl]
        exact ⟨_, after, rfl, .over hwanted hread hover⟩
      | false =>
        -- A batch that is not the last one is full, so that fewer records are left.
        rw [if_neg Bool.false_ne_true]
        have hle := hfull (Bool.or_eq_false_iff.mp hover).2
        have hless : (left.drop (p.wanted job)).length < steps := by
          rw [List.length_drop]
          omega
        obtain ⟨final, rest, hconsume, hends⟩ := ih hafter hless _
        exact ⟨final, rest, hconsume, .more hwanted hread hover hends⟩

end Import.Producer

/-! ## Sources -/

namespace Reader

/-- A source with what the reader of its format is told about it, the size of chunks apart. -/
inductive Opening where
  | delimited (stream : Stream) (settings : Delimited.Settings) (known : KnownColumns)
  /-- One object a line or one array of objects. -/
  | json (stream : Stream) (known : KnownColumns)
  | columnar (tree : FileTree) (path : String)
  | partitioned (tree : FileTree) (root : String) (filter : List (String × String))

/-- Opens a source. Options tell no more than the size of chunks. -/
def Opening.reader : Opening → Options → Except Failure Reader
  | .delimited stream settings known, _ =>
    (Delimited.Reader.withSettings stream settings known).map .delimited
  | .json stream known, _ => (JsonLines.Reader.ofStream stream known).map .json
  | .columnar tree path, options => (Columnar.Reader.ofPath tree path options).map .columnar
  | .partitioned tree root filter, options =>
    (Partition.Reader.withFilter tree root options filter).map .partitioned

/-- All sources of transfers are opened in this way. -/
theorem exists_opening {tree : FileTree} {format : FileFormat} {source : Source}
    {options : Options} {known : KnownColumns} {r : Reader}
    (h : ofSource tree format source options known = .ok r) :
    ∃ opening : Opening, opening.reader options = .ok r := by
  unfold ofSource at h
  split at h
  · nomatch h
  · next path =>
    split at h
    · exact ⟨.partitioned tree path options.partitionFilter, h⟩
    · exact ⟨.columnar tree path, h⟩
  · split at h
    · nomatch h
    · next stream _ => exact ⟨.delimited stream (.ofOptions options) known, h⟩
  · split at h
    · nomatch h
    · next stream _ => exact ⟨.json stream known, h⟩

/-- A source that was opened and read to its end, in a batch with room for more, numbers its
failures, and has the same records for all sizes of chunks. -/
theorem Opening.exists_readsWithin {opening : Opening} {options : Options} {reader after : Reader}
    {max : Nat} {batch : ReadBatch} (hopen : opening.reader options = .ok reader)
    (hread : reader.readBatch max = (after, .ok batch)) (hroom : batch.records.length < max) :
    AreNumbered batch.records ∧
      ∀ options', ∃ fresh, opening.reader options' = .ok fresh ∧
        fresh.ReadsWithin Import.recordBound batch.records := by
  cases opening with
  | delimited stream settings known =>
    obtain ⟨r, hr, rfl⟩ := map_eq_ok.mp hopen
    have hremains := remains_of_readBatch Delimited.Reader.isSource hread hroom
    refine ⟨fun i failure hi => ?_, fun _ => ⟨_, hopen, Delimited.Reader.readsWithin hremains⟩⟩
    rw [hremains.record_eq Delimited.Reader.position_take hi,
      Delimited.Reader.position_withSettings hr, Nat.zero_add]
  | json stream known =>
    obtain ⟨r, hr, rfl⟩ := map_eq_ok.mp hopen
    have hremains := remains_of_readBatch JsonLines.Reader.isSource hread hroom
    refine ⟨fun i failure hi => ?_, fun _ => ⟨_, hopen, JsonLines.Reader.readsWithin hremains⟩⟩
    rw [hremains.record_eq JsonLines.Reader.position_take hi,
      JsonLines.Reader.position_ofStream hr, Nat.zero_add]
  | columnar tree path =>
    obtain ⟨r, hr, rfl⟩ := map_eq_ok.mp hopen
    obtain ⟨f, hlook, rfl⟩ := Columnar.Reader.ofPath_eq_ok_iff.mp hr
    obtain ⟨left, hholds, hrecords⟩ :=
      Columnar.Reader.holds_of_readBatch (eq_of_lift hread) hroom rfl
    rw [hrecords]
    refine ⟨areNumbered_rows left, fun options' => ?_⟩
    have hsame : Columnar.Reader.ofPath tree path options' = .ok (.ofFile f options') :=
      Columnar.Reader.ofPath_eq_ok_iff.mpr ⟨f, hlook, rfl⟩
    exact ⟨_, map_eq_ok.mpr ⟨_, hsame, rfl⟩,
      Columnar.Reader.readsWithin (hholds.ofFile options')⟩
  | partitioned tree root filter =>
    obtain ⟨r, hr, rfl⟩ := map_eq_ok.mp hopen
    obtain ⟨rfl, rfl, hcurrent, hsame⟩ := Partition.Reader.withFilter_eq_ok hr
    obtain ⟨left, hholds, hrecords⟩ :=
      Partition.Reader.holds_of_readBatch (eq_of_lift hread) hroom hcurrent
    rw [hrecords]
    refine ⟨areNumbered_rows left, fun options' => ?_⟩
    refine ⟨_, map_eq_ok.mpr ⟨_, hsame options', rfl⟩, Partition.Reader.readsWithin ?_⟩
    rw [hcurrent] at hholds ⊢
    exact hholds.withOptions options'

/-- A source that can be opened and read to its end, in one batch with room for more, is the list of
the records of this batch, whatever the size of chunks. Failures have the numbers of their places in
the list. A reader that was just opened answers all calls as the list does, and an import that reads
from it, behind the records that it passes over, comes to its end. -/
theorem opened_source_follows_list {opening : Opening} {options : Options} {reader after : Reader}
    {max : Nat} {records : List Record} {isLast : Bool}
    (hopen : opening.reader options = .ok reader)
    (hread : reader.readBatch max = (after, .ok ⟨records, isLast⟩))
    (hroom : records.length < max) :
    (∀ i failure, records[i]? = some (.error failure) → failure.record = i + 1) ∧
      ∀ options', ∃ fresh, opening.reader options' = .ok fresh ∧
        (∀ calls, fresh.Follows records calls) ∧
        ∀ {σ : Type} [WriteSession σ] (job : Import.Job) (session : σ),
          ∃ behind skipped final rest,
            fresh.skip job.options.skipRows = (behind, .ok skipped) ∧
            Import.Producer.consume job skipped (Import.recordBound behind + 1) behind
              (.start job session) = (final, rest, .ok ()) ∧
            Import.Producer.Ends job skipped behind (.start job session)
              (final, rest, .ok ()) := by
  obtain ⟨hnumbered, hsources⟩ := Opening.exists_readsWithin hopen hread hroom
  refine ⟨hnumbered, fun options' => ?_⟩
  obtain ⟨fresh, hfresh, hreads⟩ := hsources options'
  refine ⟨fresh, hfresh, hreads.reads.follows, fun job session => ?_⟩
  obtain ⟨behind, hskip, hbehind⟩ := hreads.skip job.options.skipRows
  obtain ⟨final, rest, hconsume, hends⟩ := Import.Producer.ends_consume job _ hbehind.reads
    (Nat.lt_succ_of_le hbehind.length_le) (.start job session)
  exact ⟨behind, _, final, rest, hskip, hconsume, hends⟩

/-- Three lines, of which the second one is no number: behind the first line there is the failure
with number 2, and then the last line. -/
theorem opened_source_follows_list_bad_number :
    let opening := Opening.delimited (.bytes [49, 10, 120, 10, 50, 10])
      ⟨⟨44, 34, none⟩, false, "null"⟩ ⟨["n"], [⟨"n", some .int⟩]⟩
    ∃ reader after message fresh,
      let records : List Record :=
        [.ok ⟨[("n", .int 1)]⟩, .error ⟨2, message⟩, .ok ⟨[("n", .int 2)]⟩]
      opening.reader .empty = .ok reader ∧
      reader.readBatch 4 = (after, .ok ⟨records, true⟩) ∧
      opening.reader (.ofPairs [("CHUNKSIZE", "1")]) = .ok fresh ∧
      fresh.Follows records [.skip 1, .read 1 (by decide), .read 2 (by decide)] := by
  intro opening
  let reader : Delimited.Reader := ⟨⟨44, 34, none⟩, "null", [⟨"n", some .int⟩],
    [49, 10, 120, 10, 50, 10], [49, 10, 120, 10, 50, 10], 0, 0, false, false⟩
  have hopen : opening.reader .empty = .ok (.delimited reader) := rfl
  obtain ⟨after, message, hread⟩ : ∃ after message, (Reader.delimited reader).readBatch 4 =
      (after, .ok ⟨[.ok ⟨[("n", .int 1)]⟩, .error ⟨2, message⟩, .ok ⟨[("n", .int 2)]⟩], true⟩) :=
    ⟨_, _, rfl⟩
  obtain ⟨-, hsources⟩ := opened_source_follows_list hopen hread (by show 3 < 4; decide)
  obtain ⟨fresh, hfresh, hfollows, -⟩ := hsources (.ofPairs [("CHUNKSIZE", "1")])
  exact ⟨.delimited reader, after, message, fresh, hopen, hread, hfresh, hfollows _⟩

end Reader

end BulkTransfer
