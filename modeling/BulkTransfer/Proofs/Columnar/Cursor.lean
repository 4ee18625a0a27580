import BulkTransfer.Proofs.Literal.Shape
import BulkTransfer.Proofs.Reader

/-!
Columnar files as cursors. Rows are decoded a chunk at a time and handed out from a buffer; what a
row is decoded as does not depend on the chunk it stands in.

- `restoreRows_cons_iff`: rows are restored one by one.
- `Reader.Holds`: a reader has rows left, some of them decoded.
- `Reader.isCursor`: every reading takes rows off the front of these.
- `Reader.holds_of_readBatch`: a batch that is not full has all of them.
- `Reader.Holds.ofFile`: the rows of a file do not depend on the size of its chunks.
-/

namespace BulkTransfer.Columnar

/-! ## Rows one by one -/

theorem restoreColumn_eq_ok_iff {f : Field} {cells : List Cell} {values : List Value} :
    restoreColumn f cells = .ok values ↔ f.physical.isReadable = true ∧
      cells.mapM (restore f.physical f.column.type?) = .ok values := by
  unfold restoreColumn restoreAll
  cases f.physical.isReadable with
  | true =>
    rw [if_pos rfl]
    cases cells.mapM (restore f.physical f.column.type?) with
    | ok all => simp
    | error e => simp
  | false => simp

theorem restoreColumn_cons_iff {f : Field} {c : Cell} {cells : List Cell} {values : List Value} :
    restoreColumn f (c :: cells) = .ok values ↔ ∃ v more, values = v :: more ∧
      restoreColumn f [c] = .ok [v] ∧ restoreColumn f cells = .ok more := by
  simp only [restoreColumn_eq_ok_iff, List.mapM_cons, List.mapM_nil, bind_eq_ok]
  constructor
  · rintro ⟨hreadable, v, hv, more, hmore, heq⟩
    exact ⟨v, more, (Except.ok.inj heq).symm, ⟨hreadable, v, hv, [], rfl, rfl⟩, hreadable, hmore⟩
  · rintro ⟨v, more, rfl, ⟨hreadable, w, hw, none, hnone, hsingle⟩, -, hmore⟩
    obtain rfl := Except.ok.inj hnone
    obtain ⟨rfl, -⟩ := List.cons.inj (Except.ok.inj hsingle)
    exact ⟨hreadable, w, hw, more, hmore, rfl⟩

/-- The values of columns, of which the first row is put in front of the others. -/
theorem restoreColumns_cons_iff {row : List Cell} {rows : List (List Cell)} {index : Nat}
    {fields : List Field} {columns : List (List Value)} :
    restoreColumns (row :: rows) index fields = .ok columns ↔
      ∃ (first : List Value) (more : List (List Value)), first.length = more.length ∧
        columns = List.zipWith List.cons first more ∧
        restoreColumns [row] index fields = .ok (first.map fun v => [v]) ∧
        restoreColumns rows index fields = .ok more := by
  induction fields generalizing index columns with
  | nil =>
    constructor
    · intro h
      exact ⟨[], [], rfl, (Except.ok.inj h).symm, rfl, rfl⟩
    · rintro ⟨first, more, -, rfl, hfirst, -⟩
      have hnil : first = [] := List.map_eq_nil_iff.mp (Except.ok.inj hfirst).symm
      rw [hnil]
      rfl
  | cons f fields ih =>
    simp only [restoreColumns, bind_eq_ok, List.map_cons, List.map_nil]
    constructor
    · rintro ⟨values, hvalues, rest, hrest, heq⟩
      obtain rfl := Except.ok.inj heq
      obtain ⟨v, below, rfl, hv, hbelow⟩ := restoreColumn_cons_iff.mp hvalues
      obtain ⟨first, more, hlength, rfl, hfirst, hmore⟩ := ih.mp hrest
      exact ⟨v :: first, below :: more, congrArg (· + 1) hlength, rfl,
        ⟨[v], hv, _, hfirst, rfl⟩, below, hbelow, more, hmore, rfl⟩
    · rintro ⟨first, more, hlength, rfl, ⟨value, hvalue, others, hothers, hfirst⟩,
        below, hbelow, rest, hrest, hmore⟩
      obtain rfl := Except.ok.inj hmore
      match first, hlength with
      | v :: first, hlength =>
        obtain ⟨rfl, rfl⟩ := List.cons.inj (Except.ok.inj hfirst)
        exact ⟨v :: below, restoreColumn_cons_iff.mpr ⟨v, below, rfl, hvalue, hbelow⟩, _,
          ih.mpr ⟨first, rest, Nat.succ.inj hlength, rfl, hothers, hrest⟩, rfl⟩

theorem restoreRows_eq_ok_iff {fields : List Field} {rows : List (List Cell)} {out : List Row} :
    restoreRows fields rows = .ok out ↔ ∃ columns, restoreColumns rows 0 fields = .ok columns ∧
      out = assemble fields rows.length columns := by
  unfold restoreRows
  cases restoreColumns rows 0 fields with
  | ok columns => simp [eq_comm]
  | error e => simp

theorem length_restoreColumns {rows : List (List Cell)} {index : Nat} {fields : List Field}
    {columns : List (List Value)} (h : restoreColumns rows index fields = .ok columns) :
    columns.length = fields.length := by
  induction fields generalizing index columns with
  | nil => rw [← Except.ok.inj h]; rfl
  | cons f fields ih =>
    simp only [restoreColumns, bind_eq_ok] at h
    obtain ⟨values, -, rest, hrest, heq⟩ := h
    rw [← Except.ok.inj heq, List.length_cons, ih hrest, List.length_cons]

/-- Putting a first row in front of the columns puts its row in front of the rows. -/
theorem assemble_zipWith_cons (fields : List Field) (n : Nat) {first : List Value}
    {more : List (List Value)} (h : first.length = more.length) :
    assemble fields (n + 1) (List.zipWith List.cons first more) =
      Row.ofFields ((fields.map Field.name).zip first) :: assemble fields n more := by
  have hparts : (List.zipWith List.cons first more).map (fun c => c.headD .null) = first ∧
      (List.zipWith List.cons first more).map List.tail = more := by
    induction first generalizing more with
    | nil => exact ⟨rfl, (List.length_eq_zero_iff.mp h.symm).symm⟩
    | cons v first ih =>
      match more, h with
      | column :: more, h =>
        obtain ⟨hheads, htails⟩ := ih (Nat.succ.inj h)
        exact ⟨congrArg (v :: ·) hheads, congrArg (column :: ·) htails⟩
  rw [assemble, hparts.1, hparts.2]

/-- Rows are restored one by one. -/
theorem restoreRows_cons_iff {fields : List Field} {row : List Cell} {rows : List (List Cell)}
    {out : List Row} :
    restoreRows fields (row :: rows) = .ok out ↔ ∃ r more, out = r :: more ∧
      restoreRows fields [row] = .ok [r] ∧ restoreRows fields rows = .ok more := by
  have hone : ∀ first : List Value, assemble fields 1 (first.map fun v => [v]) =
      [Row.ofFields ((fields.map Field.name).zip first)] := by
    intro first
    have hheads : (first.map fun v => [v]).map (fun c => c.headD .null) = first := by
      rw [List.map_map]
      exact List.map_id first
    unfold assemble
    rw [hheads]
    rfl
  simp only [restoreRows_eq_ok_iff]
  constructor
  · rintro ⟨columns, hcolumns, rfl⟩
    obtain ⟨first, more, hlength, rfl, hfirst, hmore⟩ := restoreColumns_cons_iff.mp hcolumns
    exact ⟨_, _, assemble_zipWith_cons fields rows.length hlength, ⟨_, hfirst, (hone first).symm⟩,
      more, hmore, rfl⟩
  · rintro ⟨r, _, rfl, ⟨single, hsingle, hr⟩, more, hmore, rfl⟩
    obtain ⟨first, _, -, -, hfirst, -⟩ := restoreColumns_cons_iff.mp hsingle
    obtain rfl := Except.ok.inj (hsingle.symm.trans hfirst)
    have hlength : first.length = more.length := by
      rw [length_restoreColumns hmore, ← length_restoreColumns hfirst, List.length_map]
    have hrow : r = Row.ofFields ((fields.map Field.name).zip first) :=
      (List.cons.inj (hr.trans (hone first))).1
    refine ⟨_, restoreColumns_cons_iff.mpr ⟨first, more, hlength, rfl, hfirst, hmore⟩, ?_⟩
    rw [hrow]
    exact (assemble_zipWith_cons fields rows.length hlength).symm

/-- Cells and the row that they are restored as. -/
def MakesRow (fields : List Field) (p : List Cell × Row) : Prop :=
  restoreRows fields [p.1] = .ok [p.2]

/-- Cells that are restored together are restored row by row. -/
theorem exists_pairs {fields : List Field} {rows : List (List Cell)} {out : List Row}
    (h : restoreRows fields rows = .ok out) : ∃ pairs : List (List Cell × Row),
      rows = pairs.map Prod.fst ∧ out = pairs.map Prod.snd ∧ ∀ p ∈ pairs, MakesRow fields p := by
  induction rows generalizing out with
  | nil =>
    obtain ⟨columns, -, rfl⟩ := restoreRows_eq_ok_iff.mp h
    exact ⟨[], rfl, rfl, List.forall_mem_nil _⟩
  | cons row rows ih =>
    obtain ⟨r, more, rfl, hone, hmore⟩ := restoreRows_cons_iff.mp h
    obtain ⟨pairs, rfl, rfl, hpairs⟩ := ih hmore
    exact ⟨(row, r) :: pairs, rfl, rfl, List.forall_mem_cons.mpr ⟨hone, hpairs⟩⟩

/-- Cells that are restored row by row are restored together. Without a row there is nothing that
shows that the layouts of the fields can be read. -/
theorem restoreRows_pairs {fields : List Field} {pairs : List (List Cell × Row)} (hne : pairs ≠ [])
    (h : ∀ p ∈ pairs, MakesRow fields p) :
    restoreRows fields (pairs.map Prod.fst) = .ok (pairs.map Prod.snd) := by
  induction pairs with
  | nil => exact absurd rfl hne
  | cons p pairs ih =>
    obtain ⟨hp, hpairs⟩ := List.forall_mem_cons.mp h
    by_cases hlast : pairs = []
    · rw [hlast]
      exact hp
    · exact restoreRows_cons_iff.mpr ⟨p.2, pairs.map Prod.snd, rfl, hp, ih hlast hpairs⟩

/-! ## Rows of a file -/

theorem length_rowsOf (columns : List (List Cell)) (n : Nat) : (rowsOf columns n).length = n := by
  induction n generalizing columns with
  | zero => rfl
  | succ n ih => rw [rowsOf, List.length_cons, ih]

theorem File.length_rows (f : File) : f.rows.length = (f.groups.map RowGroup.size).sum := by
  unfold rows
  rw [List.length_flatMap]
  exact congrArg List.sum (List.map_congr_left fun g _ => length_rowsOf g.columns g.size)

/-! ## Chunks -/

/-- Cutting a list that was mapped is mapping the pieces. -/
theorem chunksOf_map {α β : Type} (f : α → β) (size : Nat) (l : List α) :
    chunksOf size (l.map f) = (chunksOf size l).map fun piece => piece.map f := by
  fun_induction chunksOf size l with
  | case1 l => rw [chunksOf, List.map_nil]
  | case2 size hsize => rw [List.map_nil, chunksOf, List.map_nil]; exact hsize
  | case3 n a rest ih =>
    rw [List.map_cons, chunksOf, ← List.map_drop, ih, ← List.map_take, List.map_cons,
      List.map_cons]

/-- The pieces of a list make the list, if there is room in a piece. -/
theorem flatten_chunksOf {α : Type} {size : Nat} (hsize : 0 < size) (l : List α) :
    (chunksOf size l).flatten = l := by
  fun_induction chunksOf size l with
  | case1 l => exact absurd hsize (Nat.lt_irrefl 0)
  | case2 size _ => rfl
  | case3 n a rest ih =>
    rw [List.flatten_cons, ih hsize, List.cons_append, List.take_append_drop]

/-- No piece of a list is empty. -/
theorem ne_nil_of_mem_chunksOf {α : Type} {size : Nat} {l piece : List α}
    (h : piece ∈ chunksOf size l) : piece ≠ [] := by
  fun_induction chunksOf size l with
  | case1 l => nomatch h
  | case2 size _ => nomatch h
  | case3 n a rest ih =>
    rcases List.mem_cons.mp h with rfl | hmore
    · exact List.cons_ne_nil _ _
    · exact ih hmore

/-- A list that fits into one piece is left whole. -/
theorem chunksOf_of_le {α : Type} {size : Nat} {l : List α} (hne : l ≠ []) (h : l.length ≤ size) :
    chunksOf size l = [l] := by
  obtain ⟨a, rest, rfl⟩ := List.exists_cons_of_ne_nil hne
  obtain ⟨n, rfl⟩ : ∃ n, size = n + 1 := ⟨size - 1, by rw [List.length_cons] at h; omega⟩
  have hrest : rest.length ≤ n := Nat.le_of_succ_le_succ h
  rw [chunksOf, List.take_of_length_le hrest, List.drop_of_length_le hrest, chunksOf]
  exact Nat.succ_ne_zero n

/-- A longer list begins with a full piece. -/
theorem chunksOf_of_lt {α : Type} {size : Nat} {l : List α} (hsize : 0 < size)
    (h : size < l.length) : chunksOf size l = l.take size :: chunksOf size (l.drop size) := by
  obtain ⟨n, rfl⟩ : ∃ n, size = n + 1 := ⟨size - 1, by omega⟩
  obtain ⟨a, rest, rfl⟩ := List.exists_cons_of_length_pos (Nat.zero_lt_of_lt h)
  rw [chunksOf, List.take_succ_cons, List.drop_succ_cons]

/-- No piece is longer than asked for. -/
theorem length_le_of_mem_chunksOf {α : Type} {size : Nat} {l piece : List α}
    (h : piece ∈ chunksOf size l) : piece.length ≤ size := by
  fun_induction chunksOf size l with
  | case1 l => nomatch h
  | case2 size _ => nomatch h
  | case3 n a rest ih =>
    rcases List.mem_cons.mp h with rfl | hmore
    · exact Nat.succ_le_succ (List.length_take_le n rest)
    · exact ih hmore

/-! ## Reading -/

namespace Reader

/-- The reader has rows left: the first ones are decoded, the others are cells in chunks. -/
structure Holds (r : Reader) (left : List Row) : Prop where
  chunks : ∃ pending : List (List (List Cell) × List Row),
    r.chunks = pending.map Prod.fst ∧ (∀ p ∈ pending, restoreRows r.fields p.1 = .ok p.2) ∧
      left = r.buffered ++ pending.flatMap Prod.snd
  exhausted : r.exhausted = true → r.chunks = []

variable {r : Reader} {left : List Row}

/-- Behind the last chunk all rows are decoded. -/
theorem Holds.eq_buffered (h : r.Holds left) (hex : r.exhausted = true) : left = r.buffered := by
  obtain ⟨pending, hchunks, -, hleft⟩ := h.chunks
  have hnone : pending = [] := by
    rw [h.exhausted hex] at hchunks
    exact List.map_eq_nil_iff.mp hchunks.symm
  rw [hleft, hnone, List.flatMap_nil, List.append_nil]

/-- The rows that are left are those that are decoded and those in chunks. -/
theorem Holds.length_eq (h : r.Holds left) :
    left.length = r.buffered.length + (r.chunks.map List.length).sum := by
  obtain ⟨pending, hchunks, hpending, hleft⟩ := h.chunks
  have hsizes : (r.chunks.map List.length).sum = (pending.flatMap Prod.snd).length := by
    rw [hchunks, List.map_map, List.length_flatMap]
    refine congrArg List.sum (List.map_congr_left fun p hp => ?_)
    obtain ⟨pairs, hcells, hrows, -⟩ := exists_pairs (hpending p hp)
    rw [Function.comp_apply, hcells, hrows, List.length_map, List.length_map]
  rw [hsizes, hleft, List.length_append]

/-- Handing out decoded rows leaves the others. -/
theorem Holds.drop (h : r.Holds left) {n : Nat}
    (hn : n ≤ r.buffered.length ∨ r.exhausted = true) :
    { r with buffered := r.buffered.drop n }.Holds (left.drop n) := by
  obtain ⟨pending, hchunks, hpending, hleft⟩ := h.chunks
  refine ⟨⟨pending, hchunks, hpending, ?_⟩, h.exhausted⟩
  rcases hn with hn | hex
  · rw [hleft, List.drop_append_of_le_length hn]
  · rw [h.eq_buffered hex] at hleft ⊢
    have hnone := List.append_right_eq_self.mp hleft.symm
    rw [hnone, List.append_nil]

/-- Decoding chunks keeps the rows that are left. -/
theorem fillFrom_holds {fields : List Field} (wanted : Nat)
    {pending : List (List (List Cell) × List Row)}
    (hpending : ∀ p ∈ pending, restoreRows fields p.1 = .ok p.2) (buffered : List Row) :
    ∃ after, fillFrom fields wanted buffered (pending.map Prod.fst) = (after, .ok ()) ∧
      after.Holds (buffered ++ pending.flatMap Prod.snd) ∧
      (after.buffered.length < wanted → after.exhausted = true) := by
  induction pending generalizing buffered with
  | nil =>
    rw [List.map_nil]
    unfold fillFrom
    by_cases hlt : buffered.length < wanted
    · rw [if_pos hlt]
      exact ⟨_, rfl, ⟨⟨[], rfl, hpending, rfl⟩, fun _ => rfl⟩, fun _ => rfl⟩
    · rw [if_neg hlt]
      exact ⟨_, rfl, ⟨⟨[], rfl, hpending, rfl⟩, fun _ => rfl⟩, fun h => absurd h hlt⟩
  | cons p pending ih =>
    rw [List.map_cons]
    unfold fillFrom
    by_cases hlt : buffered.length < wanted
    · obtain ⟨hp, hmore⟩ := List.forall_mem_cons.mp hpending
      rw [if_pos hlt, hp]
      dsimp only
      obtain ⟨after, hfill, hafter, hfull⟩ := ih hmore (buffered ++ p.2)
      rw [List.append_assoc, ← List.flatMap_cons] at hafter
      exact ⟨after, hfill, hafter, hfull⟩
    · rw [if_neg hlt]
      exact ⟨_, rfl, ⟨⟨p :: pending, rfl, hpending, rfl⟩, fun hex => (nomatch hex)⟩,
        fun h => absurd h hlt⟩

/-- After filling, there are as many decoded rows as wanted, or no chunk is left. -/
theorem Holds.fill (h : r.Holds left) (wanted : Nat) :
    ∃ after, r.fill wanted = (after, .ok ()) ∧ after.Holds left ∧
      (after.buffered.length < wanted → after.exhausted = true) := by
  unfold Reader.fill
  by_cases hex : r.exhausted = true
  · rw [if_pos hex]
    exact ⟨r, rfl, h, fun _ => hex⟩
  · obtain ⟨pending, hchunks, hpending, hleft⟩ := h.chunks
    rw [if_neg hex, hchunks, hleft]
    exact fillFrom_holds wanted hpending r.buffered

theorem Holds.readBatch (h : r.Holds left) (max : Nat) :
    ∃ after isLast, r.readBatch max = (after, .ok ⟨(left.take max).map .ok, isLast⟩) ∧
      after.Holds (left.drop max) ∧ (isLast = true → left.length ≤ max) ∧
      (isLast = false → max ≤ left.length) := by
  obtain ⟨filled, hfill, hholds, hfull⟩ := h.fill max
  have henough : max ≤ filled.buffered.length ∨ filled.exhausted = true := by
    rcases Nat.lt_or_ge filled.buffered.length max with hlt | hge
    · exact .inr (hfull hlt)
    · exact .inl hge
  have htake : filled.buffered.take max = left.take max := by
    rcases henough with hge | hex
    · obtain ⟨pending, -, -, hleft⟩ := hholds.chunks
      rw [hleft, List.take_append_of_le_length hge]
    · rw [hholds.eq_buffered hex]
  unfold Reader.readBatch
  rw [hfill]
  refine ⟨{ filled with buffered := filled.buffered.drop max },
    filled.exhausted && (filled.buffered.drop max).isEmpty, ?_, hholds.drop henough, ?_, ?_⟩
  · dsimp only
    rw [htake]
  · intro hlast
    rw [Bool.and_eq_true, List.isEmpty_iff, List.drop_eq_nil_iff] at hlast
    rw [hholds.eq_buffered hlast.1]
    exact hlast.2
  · intro hlast
    refine Nat.le_of_not_lt fun hlt => ?_
    have hshort : filled.buffered.length < max := by
      obtain ⟨pending, -, -, hleft⟩ := hholds.chunks
      rw [hleft, List.length_append] at hlt
      omega
    rw [hfull hshort, List.drop_eq_nil_of_le (Nat.le_of_lt hshort)] at hlast
    nomatch hlast

theorem Holds.skip (n : Nat) {r : Reader} {left : List Row} (h : r.Holds left) :
    ∃ after, r.skip n = (after, .ok (min n left.length)) ∧ after.Holds (left.drop n) := by
  induction n using Nat.strongRecOn generalizing r left with
  | ind n ih =>
    unfold Reader.skip
    by_cases hzero : n = 0
    · subst hzero
      rw [if_pos rfl, Nat.zero_min]
      exact ⟨r, rfl, h⟩
    · obtain ⟨filled, hfill, hholds, hfull⟩ := h.fill (min n skipWindow)
      rw [if_neg hzero, hfill]
      dsimp only
      split
      · next hnone =>
        have hex : filled.exhausted = true := by
          refine hfull ?_
          have hwindow : 0 < skipWindow := by decide
          rw [hnone, List.length_nil]
          omega
        have hleft : left = [] := by rw [hholds.eq_buffered hex, hnone]
        subst hleft
        rw [List.drop_nil, List.length_nil, Nat.min_zero]
        exact ⟨filled, rfl, hholds⟩
      · next row rows hsome =>
        -- The decoded rows that are passed over are at most `n`, so the count goes on behind them.
        have hsize : filled.buffered.length = rows.length + 1 := by rw [hsome, List.length_cons]
        have hdrop : (row :: rows).drop n = filled.buffered.drop (min n (rows.length + 1)) := by
          rw [← hsome, ← hsize]
          rcases Nat.le_total n filled.buffered.length with hle | hge
          · rw [Nat.min_eq_left hle]
          · rw [Nat.min_eq_right hge, List.drop_length, List.drop_eq_nil_of_le hge]
        have hlength : rows.length + 1 ≤ left.length := by
          obtain ⟨pending, -, -, hleft⟩ := hholds.chunks
          rw [hleft, List.length_append, hsize]
          exact Nat.le_add_right _ _
        have hrest := hholds.drop (n := min n (rows.length + 1))
          (.inl (by rw [hsize]; exact Nat.min_le_right _ _))
        obtain ⟨after, hskip, hafter⟩ := ih (n - (rows.length + 1)) (by omega) hrest
        rw [hdrop, hskip]
        refine ⟨after, ?_, ?_⟩
        · have hcount : min n (rows.length + 1) +
              min (n - (rows.length + 1)) (left.drop (min n (rows.length + 1))).length =
                min n left.length := by
            rw [List.length_drop]
            omega
          dsimp only
          rw [hcount]
        · have hn : min n (rows.length + 1) + (n - (rows.length + 1)) = n := by omega
          rw [List.drop_drop, hn] at hafter
          exact hafter

/-- A reader is a cursor in the rows that it holds. -/
theorem isCursor : BulkTransfer.Reader.IsCursor fun reader records =>
    ∃ r left, reader = .columnar r ∧ records = left.map .ok ∧ r.Holds left := by
  refine ⟨?_, ?_⟩
  · rintro _ _ ⟨r, left, rfl, rfl, h⟩ n
    obtain ⟨after, hskip, hafter⟩ := h.skip n
    refine ⟨.columnar after, ?_, after, left.drop n, rfl, List.map_drop.symm, hafter⟩
    show BulkTransfer.Reader.lift .columnar (r.skip n) = _
    rw [hskip, List.length_map]
    rfl
  · rintro _ _ ⟨r, left, rfl, rfl, h⟩ max _
    obtain ⟨after, isLast, hread, hafter, hlast, hfull⟩ := h.readBatch max
    rw [List.length_map]
    refine ⟨.columnar after, isLast, ?_, ⟨after, left.drop max, rfl, List.map_drop.symm, hafter⟩,
      hlast, hfull⟩
    show BulkTransfer.Reader.lift .columnar (r.readBatch max) = _
    rw [hread, List.map_take]
    rfl

theorem Holds.reads (h : r.Holds left) :
    (BulkTransfer.Reader.columnar r).Reads (left.map .ok) :=
  ⟨_, isCursor, r, left, rfl, rfl, h⟩

/-! ## A reading to the end -/

/-- Chunks that were decoded without reaching the count are all of them. -/
theorem holds_of_fillFrom {fields : List Field} {wanted : Nat} {buffered : List Row}
    {chunks : List (List (List Cell))} {after : Reader}
    (h : fillFrom fields wanted buffered chunks = (after, .ok ()))
    (hlt : after.buffered.length < wanted) :
    (Reader.mk fields chunks buffered false).Holds after.buffered := by
  induction chunks generalizing buffered with
  | nil =>
    unfold fillFrom at h
    have hbuffered : after.buffered = buffered := by
      split at h
      · cases h
        rfl
      · cases h
        rfl
    exact ⟨⟨[], rfl, List.forall_mem_nil _, by rw [hbuffered]; exact (List.append_nil _).symm⟩,
      fun _ => rfl⟩
  | cons chunk more ih =>
    unfold fillFrom at h
    split at h
    · split at h
      · nomatch h
      · next rows hrows =>
        obtain ⟨pending, hchunks, hpending, hleft⟩ := (ih h).chunks
        refine ⟨⟨(chunk, rows) :: pending, ?_, ?_, ?_⟩, fun hex => (nomatch hex)⟩
        · exact congrArg (chunk :: ·) hchunks
        · exact List.forall_mem_cons.mpr ⟨hrows, hpending⟩
        · rw [hleft, List.append_assoc]
          rfl
    · next hfull =>
      cases h
      exact absurd hlt hfull

/-- A batch that is not full has all rows that are left. -/
theorem holds_of_readBatch {max : Nat} {after : Reader} {batch : ReadBatch}
    (h : r.readBatch max = (after, .ok batch)) (hlt : batch.records.length < max)
    (hex : r.exhausted = false) : ∃ left, r.Holds left ∧ batch.records = left.map .ok := by
  unfold Reader.readBatch Reader.fill at h
  rw [hex, if_neg Bool.false_ne_true] at h
  split at h
  · cases h
  · next filled hfill =>
    cases h
    rw [List.length_map, List.length_take] at hlt
    have hshort : filled.buffered.length < max := by omega
    have hholds := holds_of_fillFrom hfill hshort
    rw [List.take_of_length_le (Nat.le_of_lt hshort)]
    refine ⟨filled.buffered, ?_, rfl⟩
    cases r
    cases hex
    exact hholds

/-! ## The size of chunks -/

theorem holds_ofFile_iff {f : File} {o : Options} {left : List Row} :
    (ofFile f o).Holds left ↔ ∃ pairs : List (List Cell × Row), f.rows = pairs.map Prod.fst ∧
      left = pairs.map Prod.snd ∧ ∀ p ∈ pairs, MakesRow f.fields p := by
  have hsize : 0 < o.chunkSize := Nat.le_max_left _ _
  constructor
  · intro h
    obtain ⟨pending, hchunks, hpending, hleft⟩ := h.chunks
    have hcells : f.rows = pending.flatMap Prod.fst := by
      rw [List.flatMap_def, ← hchunks]
      exact (flatten_chunksOf hsize f.rows).symm
    rw [hcells, hleft]
    clear hchunks hcells hleft
    induction pending with
    | nil => exact ⟨[], rfl, rfl, List.forall_mem_nil _⟩
    | cons p pending ih =>
      obtain ⟨hp, hmore⟩ := List.forall_mem_cons.mp hpending
      obtain ⟨first, hcells, hrows, hfirst⟩ := exists_pairs hp
      obtain ⟨more, hcells', hrows', hmore⟩ := ih hmore
      refine ⟨first ++ more, ?_, ?_, List.forall_mem_append.mpr ⟨hfirst, hmore⟩⟩
      · rw [List.flatMap_cons, hcells, hcells', List.map_append]
      · rw [List.map_append, ← hrows, ← hrows']
        rfl
  · rintro ⟨pairs, hcells, rfl, hpairs⟩
    refine ⟨⟨(chunksOf o.chunkSize pairs).map fun piece => (piece.map Prod.fst, piece.map Prod.snd),
      ?_, ?_, ?_⟩, fun hex => (nomatch hex)⟩
    · show chunksOf o.chunkSize f.rows = _
      rw [hcells, chunksOf_map, List.map_map]
      rfl
    · intro p hp
      obtain ⟨piece, hpiece, rfl⟩ := List.mem_map.mp hp
      refine restoreRows_pairs (ne_nil_of_mem_chunksOf hpiece) fun q hq => hpairs q ?_
      rw [← flatten_chunksOf hsize pairs]
      exact List.mem_flatten_of_mem hpiece hq
    · rw [List.flatMap_map, ← List.map_flatMap, List.flatMap_id', flatten_chunksOf hsize]
      rfl

/-- The rows of a file do not depend on the size of the chunks in which it is read. -/
theorem Holds.ofFile {f : File} {o : Options} {left : List Row} (h : (ofFile f o).Holds left)
    (o' : Options) : (Reader.ofFile f o').Holds left :=
  holds_ofFile_iff.mpr (holds_ofFile_iff.mp h)

/-- A file that was just opened has all its rows left. -/
theorem Holds.length_ofFile {f : File} {o : Options} {left : List Row}
    (h : (Reader.ofFile f o).Holds left) : left.length = (f.groups.map RowGroup.size).sum := by
  obtain ⟨pairs, hcells, rfl, -⟩ := holds_ofFile_iff.mp h
  rw [← File.length_rows, hcells, List.length_map, List.length_map]

/-! ## Opening -/

theorem ofPath_eq_ok_iff {tree : FileTree} {path : String} {o : Options} {r : Reader} :
    ofPath tree path o = .ok r ↔
      ∃ f, tree.look path = .ok (.file (.columnar f)) ∧ r = ofFile f o := by
  unfold ofPath
  constructor
  · intro h
    split at h
    · nomatch h
    · next f hlook => exact ⟨f, hlook, (Except.ok.inj h).symm⟩
    · nomatch h
  · rintro ⟨f, hlook, rfl⟩
    rw [hlook]

theorem ofPath_error {tree : FileTree} {path : String} {o : Options} {e : Failure}
    (h : ofPath tree path o = .error e) : e.IsOperation := by
  unfold ofPath at h
  split at h
  · cases h
    exact ⟨_, _, rfl⟩
  · nomatch h
  · cases h
    exact ⟨_, _, rfl⟩

/-! ## Failures -/

theorem fillFrom_error {fields : List Field} {wanted : Nat} {buffered : List Row}
    {chunks : List (List (List Cell))} {after : Reader} {e : Failure}
    (h : fillFrom fields wanted buffered chunks = (after, .error e)) : e.IsOperation := by
  induction chunks generalizing buffered with
  | nil =>
    unfold fillFrom at h
    split at h
    · nomatch h
    · nomatch h
  | cons chunk more ih =>
    unfold fillFrom at h
    split at h
    · split at h
      · cases h
        exact ⟨_, _, rfl⟩
      · exact ih h
    · nomatch h

theorem fill_error {wanted : Nat} {after : Reader} {e : Failure}
    (h : r.fill wanted = (after, .error e)) : e.IsOperation := by
  unfold fill at h
  split at h
  · nomatch h
  · exact fillFrom_error h

theorem readBatch_error {max : Nat} {after : Reader} {e : Failure}
    (h : r.readBatch max = (after, .error e)) : e.IsOperation := by
  unfold Reader.readBatch at h
  split at h
  · next hfill =>
    cases h
    exact fill_error hfill
  · cases h

theorem skip_error {n : Nat} {r after : Reader} {e : Failure}
    (h : r.skip n = (after, .error e)) : e.IsOperation := by
  fun_induction Reader.skip r n with
  | case1 => nomatch h
  | case2 r n hn filled e' hfill =>
    cases h
    exact fill_error hfill
  | case3 => nomatch h
  | case4 => nomatch h
  | case5 r n hn filled hfill row rows hsome left after' e' hskip ih =>
    cases h
    exact ih hskip

end Reader

end BulkTransfer.Columnar
