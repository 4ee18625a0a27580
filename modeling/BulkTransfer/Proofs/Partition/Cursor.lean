import BulkTransfer.Proofs.Columnar.Cursor

/-!
Reading files one after the other. A dataset is a cursor in the rows of its files: a batch may end
within a file, at its end, or go on through any number of files behind it.

- `Current.Holds`: the file that is being read has rows left, with the columns that it adds.
- `Rest.Holds`: the rows left in this file and in those still to open.
- `gather_holds`, `pass_holds`: reading and passing over take rows off the front.
- `Rest.Holds.front`: the file that the next record comes from.
- `Reader.isCursor`, `Rest.Holds.reads`: a dataset has exactly these rows left.
- `Reader.holds_of_readBatch`: a batch that is not full has all of them.
- `Rest.Holds.withOptions`, `Reader.withFilter_eq_ok`: neither they nor the files depend on the size
  of chunks.
-/

namespace BulkTransfer.Partition

/-- The file that is being read has rows left, with the columns that it adds. -/
def Current.Holds (current : Current) (left : List Row) : Prop :=
  ∃ rows, current.reader.Holds rows ∧ left = rows.map (complete current.extra)

theorem Current.Holds.drop {current : Current} {left : List Row} {n : Nat}
    {after : Columnar.Reader} {rows : List Row} (hleft : left = rows.map (complete current.extra))
    (hafter : after.Holds (rows.drop n)) :
    { current with reader := after }.Holds (left.drop n) :=
  ⟨rows.drop n, hafter, by rw [hleft, List.map_drop]⟩

namespace Reader

/-- A file can be opened, and has rows. -/
def OpensAs (tree : FileTree) (options : Options) (p : DataFile × List Row) : Prop :=
  ∃ current, openFile tree options p.1 = .ok current ∧ current.Holds p.2

/-- What is left to read: rows of the current file, and those of the files still to open. -/
structure Rest.Holds (tree : FileTree) (options : Options) (rest : Rest) (left : List Row) :
    Prop where
  split : ∃ (now : List Row) (files : List (DataFile × List Row)),
    rest.pending = files.map Prod.fst ∧ (∀ p ∈ files, OpensAs tree options p) ∧
      left = now ++ files.flatMap Prod.snd ∧
      match rest.current? with
      | none => now = []
      | some current => current.Holds now

variable {tree : FileTree} {options : Options}

/-- Behind the last file nothing is left. -/
theorem Rest.Holds.eq_nil {rest : Rest} {left : List Row} (h : rest.Holds tree options left)
    (hcurrent : rest.current? = none) (hpending : rest.pending = []) : left = [] := by
  obtain ⟨now, files, hfiles, -, hleft, hnow⟩ := h.split
  rw [hcurrent] at hnow
  rw [hpending] at hfiles
  obtain rfl := List.map_eq_nil_iff.mp hfiles.symm
  rw [hleft, hnow]
  rfl

/-- The file that the next record comes from, and the files behind it. -/
def IsFront (r : Reader) (current : Current) (more : List DataFile) : Prop :=
  r.current? = some current ∧ r.pending = more ∨
    r.current? = none ∧ ∃ file, r.pending = file :: more ∧
      openFile r.tree r.options file = .ok current

theorem IsFront.readRecords {r : Reader} {current : Current} {more : List DataFile}
    (h : IsFront r current more) {max : Nat} (hmax : 0 < max) :
    r.readRecords max = gather r.tree r.options more current max := by
  unfold Reader.readRecords
  rw [if_neg (Nat.ne_of_gt hmax)]
  rcases h with ⟨hcurrent, hpending⟩ | ⟨hcurrent, file, hpending, hopen⟩
  · rw [hcurrent, hpending]
  · rw [hcurrent, hpending]
    dsimp only
    rw [hopen]

theorem IsFront.skipRecords {r : Reader} {current : Current} {more : List DataFile}
    (h : IsFront r current more) {n : Nat} (hn : n ≠ 0) :
    r.skipRecords n = pass r.tree r.options more current n := by
  unfold Reader.skipRecords
  rw [if_neg hn]
  rcases h with ⟨hcurrent, hpending⟩ | ⟨hcurrent, file, hpending, hopen⟩
  · rw [hcurrent, hpending]
  · rw [hcurrent, hpending]
    dsimp only
    rw [hopen]

/-- Either all files are read, or there is a file in front, which may have to be opened. -/
theorem Rest.Holds.front {r : Reader} {left : List Row}
    (h : (Rest.mk r.current? r.pending).Holds r.tree r.options left) :
    (r.current? = none ∧ r.pending = [] ∧ left = []) ∨
      ∃ (current : Current) (now : List Row) (files : List (DataFile × List Row)),
        IsFront r current (files.map Prod.fst) ∧ current.Holds now ∧
        (∀ p ∈ files, OpensAs r.tree r.options p) ∧ left = now ++ files.flatMap Prod.snd := by
  obtain ⟨now, files, hpending, hfiles, hleft, hnow⟩ := h.split
  dsimp only at hpending hnow
  split at hnow
  · next hcurrent =>
    subst hnow
    match files with
    | [] => exact .inl ⟨hcurrent, hpending, hleft⟩
    | p :: files =>
      obtain ⟨current, hopen, hholds⟩ := hfiles p List.mem_cons_self
      exact .inr ⟨current, p.2, files, .inr ⟨hcurrent, p.1, hpending, hopen⟩, hholds,
        fun q hq => hfiles q (List.mem_cons_of_mem p hq), hleft⟩
  · next current hcurrent =>
    exact .inr ⟨current, now, files, .inl ⟨hcurrent, hpending⟩, hnow, hfiles, hleft⟩

/-! ## Reading and passing over -/

theorem map_completeRecord (extra : List (String × Value)) (rows : List Row) :
    (rows.map Except.ok).map (completeRecord extra) = (rows.map (complete extra)).map .ok := by
  rw [List.map_map, List.map_map]
  rfl

theorem readCurrent_holds {current : Current} {left : List Row} (h : current.Holds left)
    (max : Nat) :
    ∃ after isLast, readCurrent current max = (after, .ok ⟨(left.take max).map .ok, isLast⟩) ∧
      after.Holds (left.drop max) ∧ (isLast = true → left.length ≤ max) ∧
      (isLast = false → max ≤ left.length) := by
  obtain ⟨rows, hrows, hleft⟩ := h
  obtain ⟨after, isLast, hread, hafter, hlast, hfull⟩ := hrows.readBatch max
  have hlength : left.length = rows.length := by rw [hleft, List.length_map]
  refine ⟨{ current with reader := after }, isLast, ?_, .drop hleft hafter, ?_, ?_⟩
  · unfold readCurrent
    rw [hread]
    dsimp only
    rw [map_completeRecord, List.map_take, ← hleft]
  · rw [hlength]
    exact hlast
  · rw [hlength]
    exact hfull

/-- Reading takes rows off the front, through any number of files. -/
theorem gather_holds {files : List (DataFile × List Row)}
    (hfiles : ∀ p ∈ files, OpensAs tree options p) {current : Current} {now : List Row}
    (h : current.Holds now) (max : Nat) :
    ∃ rest, gather tree options (files.map Prod.fst) current max =
        (rest, .ok (((now ++ files.flatMap Prod.snd).take max).map .ok)) ∧
      rest.Holds tree options ((now ++ files.flatMap Prod.snd).drop max) ∧
      (rest.current? = none ∧ rest.pending = [] ∨
        max ≤ (now ++ files.flatMap Prod.snd).length) := by
  induction files generalizing current now max with
  | nil =>
    obtain ⟨after, isLast, hread, hafter, hlast, hfull⟩ := readCurrent_holds h max
    rw [List.map_nil, gather, hread, List.flatMap_nil, List.append_nil]
    cases isLast with
    | true =>
      refine ⟨⟨none, []⟩, rfl, ⟨[], [], rfl, hfiles, ?_, rfl⟩, .inl ⟨rfl, rfl⟩⟩
      exact List.drop_eq_nil_of_le (hlast rfl)
    | false =>
      refine ⟨⟨some after, []⟩, rfl, ⟨now.drop max, [], rfl, hfiles, ?_, hafter⟩, .inr (hfull rfl)⟩
      exact (List.append_nil _).symm
  | cons p files ih =>
    obtain ⟨after, isLast, hread, hafter, hlast, hfull⟩ := readCurrent_holds h max
    have hmore : ∀ q ∈ files, OpensAs tree options q :=
      fun q hq => hfiles q (List.mem_cons_of_mem p hq)
    rw [List.map_cons, gather, hread]
    dsimp only
    cases isLast with
    | false =>
      have hle := hfull rfl
      rw [Bool.not_false, if_pos rfl, List.take_append_of_le_length hle,
        List.drop_append_of_le_length hle, List.length_append]
      exact ⟨⟨some after, p.1 :: files.map Prod.fst⟩, rfl,
        ⟨now.drop max, p :: files, rfl, hfiles, rfl, hafter⟩, .inr (Nat.le_add_right_of_le hle)⟩
    | true =>
      have hle := hlast rfl
      have htake : now.take max = now := List.take_of_length_le hle
      rw [Bool.not_true, if_neg Bool.false_ne_true, htake, List.length_map, List.take_append,
        List.drop_append, htake, List.drop_eq_nil_of_le hle, List.nil_append, List.map_append]
      by_cases hfit : max ≤ now.length
      · -- The batch ends with the file, so the next one is not opened yet.
        have hzero : max - now.length = 0 := Nat.sub_eq_zero_of_le hfit
        rw [if_pos hfit, hzero, List.take_zero, List.map_nil, List.append_nil, List.drop_zero,
          List.length_append]
        exact ⟨⟨none, p.1 :: files.map Prod.fst⟩, rfl, ⟨[], p :: files, rfl, hfiles, rfl, rfl⟩,
          .inr (Nat.le_add_right_of_le hfit)⟩
      · obtain ⟨next, hopen, hnext⟩ := hfiles p List.mem_cons_self
        obtain ⟨rest, hgather, hrest, hdone⟩ := ih hmore hnext (max - now.length)
        rw [if_neg hfit, hopen]
        dsimp only
        rw [hgather]
        refine ⟨rest, rfl, hrest, hdone.imp_right fun hlength => ?_⟩
        rw [List.length_append]
        rw [List.flatMap_cons]
        omega

theorem skipCurrent_holds {current : Current} {left : List Row} (h : current.Holds left)
    (n : Nat) :
    ∃ after, current.reader.skip n = (after, .ok (min n left.length)) ∧
      { current with reader := after }.Holds (left.drop n) := by
  obtain ⟨rows, hrows, hleft⟩ := h
  obtain ⟨after, hskip, hafter⟩ := hrows.skip n
  refine ⟨after, ?_, .drop hleft hafter⟩
  rw [hskip, hleft, List.length_map]

/-- Passing over rows takes them off the front, through any number of files. -/
theorem pass_holds {files : List (DataFile × List Row)}
    (hfiles : ∀ p ∈ files, OpensAs tree options p) {current : Current} {now : List Row}
    (h : current.Holds now) (n : Nat) :
    ∃ rest, pass tree options (files.map Prod.fst) current n =
        (rest, .ok (min n (now ++ files.flatMap Prod.snd).length)) ∧
      rest.Holds tree options ((now ++ files.flatMap Prod.snd).drop n) := by
  induction files generalizing current now n with
  | nil =>
    obtain ⟨after, hskip, hafter⟩ := skipCurrent_holds h n
    rw [List.map_nil, pass, hskip, List.flatMap_nil, List.append_nil]
    dsimp only
    by_cases hfit : n ≤ min n now.length
    · rw [if_pos hfit]
      exact ⟨_, rfl, now.drop n, [], rfl, hfiles, (List.append_nil _).symm, hafter⟩
    · rw [if_neg hfit]
      refine ⟨_, rfl, [], [], rfl, hfiles, List.drop_eq_nil_of_le ?_, rfl⟩
      omega
  | cons p files ih =>
    obtain ⟨after, hskip, hafter⟩ := skipCurrent_holds h n
    rw [List.map_cons, pass, hskip, List.length_append, List.flatMap_cons]
    dsimp only
    by_cases hfit : n ≤ min n now.length
    · have hle : n ≤ now.length := Nat.le_trans hfit (Nat.min_le_right _ _)
      rw [if_pos hfit, List.drop_append_of_le_length hle, Nat.min_eq_left hle,
        Nat.min_eq_left (Nat.le_add_right_of_le hle)]
      exact ⟨_, rfl, now.drop n, p :: files, rfl, hfiles, rfl, hafter⟩
    · have hlt : now.length < n := by omega
      obtain ⟨next, hopen, hnext⟩ := hfiles p List.mem_cons_self
      obtain ⟨rest, hpass, hrest⟩ := ih (fun q hq => hfiles q (List.mem_cons_of_mem p hq)) hnext
        (n - now.length)
      rw [if_neg hfit, hopen, Nat.min_eq_right (Nat.le_of_lt hlt)]
      dsimp only
      rw [hpass, List.drop_append, List.drop_eq_nil_of_le (Nat.le_of_lt hlt), List.nil_append]
      refine ⟨rest, ?_, hrest⟩
      dsimp only
      have hcount : now.length + min (n - now.length) (p.2 ++ files.flatMap Prod.snd).length =
          min n (now.length + (p.2 ++ files.flatMap Prod.snd).length) := by omega
      rw [hcount]

/-- A reading of a dataset takes rows off the front. -/
theorem Rest.Holds.readRecords {r : Reader} {left : List Row}
    (h : (Rest.mk r.current? r.pending).Holds r.tree r.options left) {max : Nat}
    (hmax : 0 < max) :
    ∃ rest, r.readRecords max = (rest, .ok ((left.take max).map .ok)) ∧
      rest.Holds r.tree r.options (left.drop max) ∧
      (rest.current? = none ∧ rest.pending = [] ∨ max ≤ left.length) := by
  rcases h.front with ⟨hcurrent, hpending, rfl⟩ | ⟨current, now, files, hfront, hnow, hfiles, rfl⟩
  · refine ⟨⟨none, []⟩, ?_, ⟨[], [], rfl, List.forall_mem_nil _, List.drop_nil, rfl⟩,
      .inl ⟨rfl, rfl⟩⟩
    unfold Reader.readRecords
    rw [if_neg (Nat.ne_of_gt hmax), hcurrent, hpending, List.take_nil]
    rfl
  · rw [hfront.readRecords hmax]
    exact gather_holds hfiles hnow max

/-- Passing over records of a dataset takes rows off the front. -/
theorem Rest.Holds.skipRecords {r : Reader} {left : List Row}
    (h : (Rest.mk r.current? r.pending).Holds r.tree r.options left) (n : Nat) :
    ∃ rest, r.skipRecords n = (rest, .ok (min n left.length)) ∧
      rest.Holds r.tree r.options (left.drop n) := by
  by_cases hzero : n = 0
  · unfold Reader.skipRecords
    rw [if_pos hzero, hzero, Nat.zero_min]
    exact ⟨_, rfl, h⟩
  rcases h.front with ⟨hcurrent, hpending, rfl⟩ | ⟨current, now, files, hfront, hnow, hfiles, rfl⟩
  · refine ⟨⟨none, []⟩, ?_, [], [], rfl, List.forall_mem_nil _, List.drop_nil, rfl⟩
    unfold Reader.skipRecords
    rw [if_neg hzero, hcurrent, hpending, List.length_nil, Nat.min_zero]
  · rw [hfront.skipRecords hzero]
    exact pass_holds hfiles hnow n

/-- A dataset is a cursor in the rows of its current file and of those behind it. -/
theorem isCursor : BulkTransfer.Reader.IsCursor fun reader records =>
    ∃ (r : Reader) (left : List Row), reader = .partitioned r ∧ records = left.map .ok ∧
      (Rest.mk r.current? r.pending).Holds r.tree r.options left := by
  refine ⟨?_, ?_⟩
  · rintro _ _ ⟨r, left, rfl, rfl, h⟩ n
    obtain ⟨rest, hskip, hrest⟩ := h.skipRecords n
    refine ⟨.partitioned { r with current? := rest.current?, pending := rest.pending }, ?_, _,
      left.drop n, rfl, List.map_drop.symm, hrest⟩
    show BulkTransfer.Reader.lift .partitioned (r.skip n) = _
    unfold Reader.skip
    rw [hskip, List.length_map]
    rfl
  · rintro _ _ ⟨r, left, rfl, rfl, h⟩ max hmax
    obtain ⟨rest, hread, hrest, hdone⟩ := h.readRecords hmax
    refine ⟨.partitioned { r with current? := rest.current?, pending := rest.pending },
      rest.current?.isNone && rest.pending.isEmpty, ?_,
      ⟨_, left.drop max, rfl, List.map_drop.symm, hrest⟩, ?_, ?_⟩
    · show BulkTransfer.Reader.lift .partitioned (r.readBatch max) = _
      unfold Reader.readBatch
      rw [hread, ← List.map_take]
      rfl
    · intro hlast
      rw [Bool.and_eq_true, Option.isNone_iff_eq_none, List.isEmpty_iff] at hlast
      rw [List.length_map]
      exact List.drop_eq_nil_iff.mp (hrest.eq_nil hlast.1 hlast.2)
    · intro hlast
      rw [List.length_map]
      refine hdone.resolve_left fun hend => ?_
      rw [hend.1, hend.2] at hlast
      cases hlast

/-- A dataset has exactly the rows of its current file and of those behind it left. -/
theorem Rest.Holds.reads {r : Reader} {left : List Row}
    (h : (Rest.mk r.current? r.pending).Holds r.tree r.options left) :
    (BulkTransfer.Reader.partitioned r).Reads (left.map .ok) :=
  ⟨_, isCursor, r, left, rfl, rfl, h⟩

/-! ## A reading to the end -/

theorem openFile_eq_ok_iff {file : DataFile} {current : Current} :
    openFile tree options file = .ok current ↔
      ∃ f, tree.look file.path = .ok (.file (.columnar f)) ∧
        current = ⟨.ofFile f options, file.extra⟩ := by
  unfold openFile
  constructor
  · intro h
    split at h
    · next reader hopen =>
      obtain ⟨f, hlook, rfl⟩ := Columnar.Reader.ofPath_eq_ok_iff.mp hopen
      exact ⟨f, hlook, (Except.ok.inj h).symm⟩
    · nomatch h
  · rintro ⟨f, hlook, rfl⟩
    rw [Columnar.Reader.ofPath_eq_ok_iff.mpr ⟨f, hlook, rfl⟩]

/-- A file that was just opened has decoded nothing. -/
theorem exhausted_openFile {file : DataFile} {current : Current}
    (h : openFile tree options file = .ok current) : current.reader.exhausted = false := by
  obtain ⟨f, -, rfl⟩ := openFile_eq_ok_iff.mp h
  rfl

theorem holds_of_readCurrent {current after : Current} {max : Nat} {batch : ReadBatch}
    (h : readCurrent current max = (after, .ok batch)) (hlt : batch.records.length < max)
    (hex : current.reader.exhausted = false) :
    ∃ now, current.Holds now ∧ batch.records = now.map .ok := by
  unfold readCurrent at h
  split at h
  · nomatch h
  · next reader read hread =>
    cases h
    rw [List.length_map] at hlt
    obtain ⟨rows, hrows, hrecords⟩ := Columnar.Reader.holds_of_readBatch hread hlt hex
    refine ⟨_, ⟨rows, hrows, rfl⟩, ?_⟩
    dsimp only
    rw [hrecords, map_completeRecord]

/-- Records that were read without reaching the count are those of all files. -/
theorem holds_of_gather {pending : List DataFile} {current : Current} {max : Nat} {rest : Rest}
    {records : List Record} (h : gather tree options pending current max = (rest, .ok records))
    (hlt : records.length < max) (hex : current.reader.exhausted = false) :
    ∃ (now : List Row) (files : List (DataFile × List Row)), pending = files.map Prod.fst ∧
      current.Holds now ∧ (∀ p ∈ files, OpensAs tree options p) ∧
      records = (now ++ files.flatMap Prod.snd).map .ok := by
  induction pending generalizing current max rest records with
  | nil =>
    unfold gather at h
    split at h
    · nomatch h
    · next after batch hread =>
      cases h
      obtain ⟨now, hnow, hrecords⟩ := holds_of_readCurrent hread hlt hex
      refine ⟨now, [], rfl, hnow, List.forall_mem_nil _, ?_⟩
      rw [hrecords, List.flatMap_nil, List.append_nil]
  | cons file pending ih =>
    unfold gather at h
    split at h
    · nomatch h
    · next after batch hread =>
      have hshort : batch.records.length < max := by
        refine Nat.lt_of_not_le fun hge => ?_
        rw [if_pos hge] at h
        split at h
        · cases h
          exact absurd hlt (Nat.not_lt_of_le hge)
        · cases h
          exact absurd hlt (Nat.not_lt_of_le hge)
      obtain ⟨now, hnow, hrecords⟩ := holds_of_readCurrent hread hshort hex
      -- A batch that is not full is the last one of its file, so the next file is opened.
      have hlast : batch.isLast = true := by
        obtain ⟨_, isLast, hread', -, -, hfull⟩ := readCurrent_holds hnow max
        rw [hread] at hread'
        have hbatch := Except.ok.inj (Prod.mk.inj hread').2
        cases hcase : isLast with
        | true => rw [hbatch, hcase]
        | false =>
          have hle := hfull hcase
          rw [hrecords, List.length_map] at hshort
          omega
      rw [hlast, Bool.not_true, if_neg Bool.false_ne_true, if_neg (Nat.not_le_of_lt hshort)] at h
      split at h
      · nomatch h
      · next next hopen =>
        split at h
        · next others hgather =>
          cases h
          rw [List.length_append] at hlt
          obtain ⟨first, files, rfl, hfirst, hfiles, hothers⟩ :=
            ih hgather (by omega) (exhausted_openFile hopen)
          refine ⟨now, (file, first) :: files, rfl, hnow,
            List.forall_mem_cons.mpr ⟨⟨next, hopen, hfirst⟩, hfiles⟩, ?_⟩
          rw [hrecords, hothers, ← List.map_append]
          rfl
        · nomatch h

/-- A batch that is not full has all rows of a dataset that was just opened. -/
theorem holds_of_readBatch {r after : Reader} {max : Nat} {batch : ReadBatch}
    (h : r.readBatch max = (after, .ok batch)) (hlt : batch.records.length < max)
    (hcurrent : r.current? = none) :
    ∃ left, (Rest.mk r.current? r.pending).Holds r.tree r.options left ∧
      batch.records = left.map .ok := by
  unfold Reader.readBatch Reader.readRecords at h
  rw [if_neg (Nat.ne_of_gt (Nat.zero_lt_of_lt hlt)), hcurrent] at h
  rw [hcurrent]
  cases hpending : r.pending with
  | nil =>
    rw [hpending] at h
    cases h
    exact ⟨[], ⟨[], [], rfl, List.forall_mem_nil _, rfl, rfl⟩, rfl⟩
  | cons file more =>
    rw [hpending] at h
    dsimp only at h
    split at h
    · next rest records houtcome =>
      cases h
      split at houtcome
      · nomatch houtcome
      · next current hopen =>
        obtain ⟨now, files, rfl, hnow, hfiles, hrecords⟩ :=
          holds_of_gather (Prod.ext rfl houtcome) hlt (exhausted_openFile hopen)
        exact ⟨_, ⟨[], (file, now) :: files, rfl,
          List.forall_mem_cons.mpr ⟨⟨current, hopen, hnow⟩, hfiles⟩, rfl, rfl⟩, hrecords⟩
    · nomatch h

/-! ## The size of chunks -/

theorem OpensAs.withOptions {p : DataFile × List Row} (h : OpensAs tree options p)
    (options' : Options) : OpensAs tree options' p := by
  obtain ⟨current, hopen, rows, hrows, hleft⟩ := h
  obtain ⟨f, hlook, rfl⟩ := openFile_eq_ok_iff.mp hopen
  exact ⟨_, openFile_eq_ok_iff.mpr ⟨f, hlook, rfl⟩, rows, hrows.ofFile options', hleft⟩

/-- Files that are still to open have the same rows whatever the size of chunks. -/
theorem Rest.Holds.withOptions {pending : List DataFile} {left : List Row}
    (h : (Rest.mk none pending).Holds tree options left) (options' : Options) :
    (Rest.mk none pending).Holds tree options' left := by
  obtain ⟨now, files, hpending, hfiles, hleft, hnow⟩ := h.split
  exact ⟨now, files, hpending, fun p hp => (hfiles p hp).withOptions options', hleft, hnow⟩

/-! ## Opening -/

/-- A dataset that was just opened has opened none of its files, and the size of chunks tells
nothing about which they are. -/
theorem withFilter_eq_ok {tree : FileTree} {root : String} {options : Options}
    {filter : List (String × String)} {r : Reader}
    (h : withFilter tree root options filter = .ok r) :
    r.tree = tree ∧ r.options = options ∧ r.current? = none ∧
      ∀ options', withFilter tree root options' filter = .ok { r with options := options' } := by
  unfold withFilter at h
  split at h
  · nomatch h
  · nomatch h
  · next first others hfiles =>
    split at h
    · nomatch h
    · next reader hopen =>
      obtain ⟨f, hlook, rfl⟩ := Columnar.Reader.ofPath_eq_ok_iff.mp hopen
      cases h
      refine ⟨rfl, rfl, rfl, fun options' => ?_⟩
      unfold withFilter
      rw [hfiles]
      dsimp only
      rw [Columnar.Reader.ofPath_eq_ok_iff.mpr ⟨f, hlook, rfl⟩]
      rfl

/-! ## Failures -/

theorem openFile_error {file : DataFile} {e : Failure}
    (h : openFile tree options file = .error e) : e.IsOperation := by
  unfold openFile at h
  split at h
  · nomatch h
  · next hopen =>
    cases h
    exact Columnar.Reader.ofPath_error hopen

theorem readCurrent_error {current after : Current} {max : Nat} {e : Failure}
    (h : readCurrent current max = (after, .error e)) : e.IsOperation := by
  unfold readCurrent at h
  split at h
  · next hread =>
    cases h
    exact Columnar.Reader.readBatch_error hread
  · nomatch h

theorem gather_error {pending : List DataFile} {current : Current} {max : Nat} {rest : Rest}
    {e : Failure} (h : gather tree options pending current max = (rest, .error e)) :
    e.IsOperation := by
  induction pending generalizing current max rest with
  | nil =>
    unfold gather at h
    split at h
    · next hread =>
      cases h
      exact readCurrent_error hread
    · nomatch h
  | cons file pending ih =>
    unfold gather at h
    split at h
    · next hread =>
      cases h
      exact readCurrent_error hread
    · split at h
      · nomatch h
      · split at h
        · nomatch h
        · split at h
          · next hopen =>
            cases h
            exact openFile_error hopen
          · split at h
            · nomatch h
            · next hmore =>
              cases h
              exact ih hmore

theorem pass_error {pending : List DataFile} {current : Current} {n : Nat} {rest : Rest}
    {e : Failure} (h : pass tree options pending current n = (rest, .error e)) :
    e.IsOperation := by
  induction pending generalizing current n rest with
  | nil =>
    unfold pass at h
    split at h
    · next hskip =>
      cases h
      exact Columnar.Reader.skip_error hskip
    · nomatch h
  | cons file pending ih =>
    unfold pass at h
    split at h
    · next hskip =>
      cases h
      exact Columnar.Reader.skip_error hskip
    · split at h
      · nomatch h
      · split at h
        · next hopen =>
          cases h
          exact openFile_error hopen
        · split at h
          · nomatch h
          · next hmore =>
            cases h
            exact ih hmore

theorem readBatch_error {r after : Reader} {max : Nat} {e : Failure}
    (h : r.readBatch max = (after, .error e)) : e.IsOperation := by
  unfold Reader.readBatch at h
  dsimp only at h
  split at h
  · nomatch h
  · next houtcome =>
    cases h
    unfold readRecords at houtcome
    split at houtcome
    · nomatch houtcome
    · split at houtcome
      · exact gather_error (Prod.ext rfl houtcome)
      · nomatch houtcome
      · split at houtcome
        · next hopen =>
          cases houtcome
          exact openFile_error hopen
        · exact gather_error (Prod.ext rfl houtcome)

theorem skip_error {r after : Reader} {n : Nat} {e : Failure}
    (h : r.skip n = (after, .error e)) : e.IsOperation := by
  have houtcome : (r.skipRecords n).2 = .error e := congrArg Prod.snd h
  unfold skipRecords at houtcome
  split at houtcome
  · nomatch houtcome
  · split at houtcome
    · exact pass_error (Prod.ext rfl houtcome)
    · nomatch houtcome
    · split at houtcome
      · next hopen =>
        cases houtcome
        exact openFile_error hopen
      · exact pass_error (Prod.ext rfl houtcome)

end Reader

end BulkTransfer.Partition
