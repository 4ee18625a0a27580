import BulkTransfer.Partition.Writer
import BulkTransfer.Proofs.Path

/-!
Partition keys and the paths of their files. An escaped value has no slash, so each column of a key
is one directory, and rows have the same directories only if they have the same key.

- `Key.isName_segment`: the directory of one column.
- `partPath`: the file of a part, by the names on the way to it.
- `partNames_inj`: different parts have different names.
- `Key.isAtMost_total`, `Key.isAtMost_trans`: keys are ordered.
-/

namespace BulkTransfer.Partition

open Text

/-! ## Directories -/

theorem not_mem_replaceChar {c d : Char} {text s : List Char} (hs : d ∉ s) (htext : d ∉ text) :
    d ∉ replaceChar c text s := by
  intro hmem
  obtain ⟨e, he, hd⟩ := List.mem_flatMap.mp hmem
  split at hd
  · exact htext hd
  · obtain rfl := List.mem_singleton.mp hd
    exact hs he

theorem not_mem_replaceChar_self {c : Char} {text : List Char} (htext : c ∉ text)
    (s : List Char) : c ∉ replaceChar c text s := by
  intro hmem
  obtain ⟨e, he, hc⟩ := List.mem_flatMap.mp hmem
  split at hc
  · exact htext hc
  · next hne => exact hne (List.mem_singleton.mp hc).symm

theorem slash_not_mem_escape (v : Value) : '/' ∉ (escape v).toList := by
  unfold escape
  split
  · decide
  · rw [String.toList_ofList]
    exact not_mem_replaceChar (not_mem_replaceChar_self (by decide) _) (by decide)

namespace Key

theorem toList_segment (p : String × String) :
    (segment p).toList = p.1.toList ++ '=' :: p.2.toList := by
  rw [segment, String.toList_append, String.toList_append, List.append_assoc]
  rfl

theorem isName_segment {p : String × String} (hname : '/' ∉ p.1.toList)
    (hvalue : '/' ∉ p.2.toList) : Path.IsName (segment p) := by
  have hequals : '=' ∈ (segment p).toList := by
    rw [toList_segment]
    exact List.mem_append_right _ List.mem_cons_self
  have hne : ∀ s : List Char, '=' ∉ s → (segment p).toList ≠ s := by
    rintro s hs heq
    rw [heq] at hequals
    exact hs hequals
  refine ⟨?_, hne _ (by decide), hne _ (by decide), hne _ (by decide)⟩
  rw [toList_segment, List.mem_append, List.mem_cons, not_or, not_or]
  exact ⟨hname, by decide, hvalue⟩

theorem segment_inj {n v w : String} (h : segment (n, v) = segment (n, w)) : v = w := by
  have hlist := congrArg String.toList h
  rw [toList_segment, toList_segment] at hlist
  exact String.toList_inj.mp (List.cons.inj (List.append_cancel_left hlist)).2

section Rows

variable {columns : List PartitionColumn}

theorem isName_of_mem_segments (hnames : ∀ c ∈ columns, '/' ∉ c.name.toList) (row : Row) :
    ∀ n ∈ (ofRow columns row).map segment, Path.IsName n := by
  intro n hn
  obtain ⟨p, hp, rfl⟩ := List.mem_map.mp hn
  obtain ⟨c, hc, rfl⟩ := List.mem_map.mp hp
  exact isName_segment (hnames c hc) (slash_not_mem_escape _)

/-- The names on the way to a file in the directory of a key. -/
theorem isName_of_mem_concat (hnames : ∀ c ∈ columns, '/' ∉ c.name.toList) (row : Row)
    {name : String} (hname : Path.IsName name) :
    ∀ n ∈ (ofRow columns row).map segment ++ [name], Path.IsName n := by
  intro n hn
  rcases List.mem_append.mp hn with hmem | hmem
  · exact isName_of_mem_segments hnames row n hmem
  · obtain rfl := List.mem_singleton.mp hmem
    exact hname

/-- Rows with the same directories have the same key. -/
theorem ofRow_inj {row row' : Row}
    (h : (ofRow columns row).map segment = (ofRow columns row').map segment) :
    ofRow columns row = ofRow columns row' := by
  induction columns with
  | nil => rfl
  | cons c columns ih =>
    obtain ⟨hfirst, hmore⟩ := List.cons.inj h
    have hvalue : escape (c.value row) = escape (c.value row') := segment_inj hfirst
    show (c.name, escape (c.value row)) :: ofRow columns row = _
    rw [hvalue, ih hmore]
    rfl

end Rows

end Key

/-! ## Files -/

theorem toList_partName (n : Nat) : (Writer.partName n).toList =
    "part-".toList ++ (Integer.padded 5 n ++ ".parquet".toList) := by
  rw [Writer.partName, String.toList_append, String.toList_append, List.append_assoc]
  exact congrArg (fun s => "part-".toList ++ (s ++ ".parquet".toList)) String.toList_ofList

theorem isName_partName (n : Nat) : Path.IsName (Writer.partName n) := by
  have hhead : ∀ s : List Char, s.head? ≠ some 'p' → (Writer.partName n).toList ≠ s := by
    rintro s hs heq
    rw [toList_partName] at heq
    rw [← heq] at hs
    exact hs rfl
  refine ⟨?_, hhead _ (by decide), hhead _ (by decide), hhead _ (by decide)⟩
  rw [toList_partName, List.mem_append, List.mem_append, not_or, not_or]
  refine ⟨by decide, fun hmem => ?_, by decide⟩
  exact absurd (Integer.isDigit_padded 5 n _ hmem) (by decide)

theorem partName_inj {m n : Nat} (h : Writer.partName m = Writer.partName n) : m = n := by
  have hlist := congrArg String.toList h
  rw [toList_partName, toList_partName] at hlist
  have hdigits := List.append_cancel_right (List.append_cancel_left hlist)
  have hread := congrArg Integer.readNatural? hdigits
  rw [Integer.readNatural?_padded, Integer.readNatural?_padded] at hread
  exact Option.some.inj hread

/-- The names from the root of a dataset to a part. -/
def partNames (k : Key) (n : Nat) : List String := k.map Key.segment ++ [Writer.partName n]

/-- The path of a part. -/
def partPath (root : String) (k : Key) (n : Nat) : String := (partNames k n).foldl Path.join root

section Parts

variable {columns : List PartitionColumn}

theorem isName_of_mem_partNames (hnames : ∀ c ∈ columns, '/' ∉ c.name.toList) (row : Row)
    (n : Nat) : ∀ s ∈ partNames (Key.ofRow columns row) n, Path.IsName s :=
  Key.isName_of_mem_concat hnames row (isName_partName n)

/-- Different parts of different partitions have different names. -/
theorem partNames_inj {row row' : Row} {m n : Nat}
    (h : partNames (Key.ofRow columns row) m = partNames (Key.ofRow columns row') n) :
    Key.ofRow columns row = Key.ofRow columns row' ∧ m = n := by
  have hlength : ((Key.ofRow columns row).map Key.segment).length =
      ((Key.ofRow columns row').map Key.segment).length := by
    simp only [Key.ofRow, List.length_map]
  obtain ⟨hkeys, hparts⟩ := List.append_inj h hlength
  exact ⟨Key.ofRow_inj hkeys, partName_inj (List.cons.inj hparts).1⟩

/-- The directory of a key below a root, by the names on the way to it. -/
theorem join_directory (hnames : ∀ c ∈ columns, '/' ∉ c.name.toList) (hne : columns ≠ [])
    (root : String) (row : Row) :
    Path.join root (Key.ofRow columns row).directory =
      ((Key.ofRow columns row).map Key.segment).foldl Path.join root := by
  have hsegments := Key.isName_of_mem_segments hnames row
  have hnil : (Key.ofRow columns row).map Key.segment ≠ [] := by simpa [Key.ofRow] using hne
  obtain ⟨first, more, hcons⟩ := List.exists_cons_of_ne_nil hnil
  rw [Key.directory]
  rw [hcons] at hsegments ⊢
  have hfirst := hsegments first List.mem_cons_self
  have hstart : Path.join "" first = first := by
    unfold Path.join
    rw [hfirst.isAbsolute, if_neg Bool.false_ne_true]
    exact String.empty_append
  rw [List.foldl_cons, hstart, List.foldl_cons]
  exact Path.join_foldl_join root hfirst.isStem fun n hn =>
    hsegments n (List.mem_cons_of_mem first hn)

/-- A part stands in the directory of its key. -/
theorem partPath_eq_join (hnames : ∀ c ∈ columns, '/' ∉ c.name.toList) (hne : columns ≠ [])
    (root : String) (row : Row) (n : Nat) : partPath root (Key.ofRow columns row) n =
      Path.join (Path.join root (Key.ofRow columns row).directory) (Writer.partName n) := by
  rw [join_directory hnames hne]
  unfold partPath partNames
  rw [List.foldl_append]
  rfl

end Parts

/-! ## The order of keys -/

namespace Key

/-- Whether a column of a key comes before another: by its name, and then by its value. -/
def Before (p q : String × String) : Prop := p.1 < q.1 ∨ p.1 = q.1 ∧ p.2 < q.2

theorem lt_or_eq_or_gt (s t : String) : s < t ∨ s = t ∨ t < s := by
  by_cases hlt : s < t
  · exact .inl hlt
  · by_cases hgt : t < s
    · exact .inr (.inr hgt)
    · exact .inr (.inl (String.le_antisymm (String.not_lt.mp hgt) (String.not_lt.mp hlt)))

theorem before_or_eq_or_after (p q : String × String) : Before p q ∨ p = q ∨ Before q p := by
  rcases lt_or_eq_or_gt p.1 q.1 with hname | hname | hname
  · exact .inl (.inl hname)
  · rcases lt_or_eq_or_gt p.2 q.2 with hvalue | hvalue | hvalue
    · exact .inl (.inr ⟨hname, hvalue⟩)
    · exact .inr (.inl (Prod.ext hname hvalue))
    · exact .inr (.inr (.inr ⟨hname.symm, hvalue⟩))
  · exact .inr (.inr (.inl hname))

theorem Before.trans {p q r : String × String} (h : Before p q) (h' : Before q r) :
    Before p r := by
  rcases h with hname | ⟨hname, hvalue⟩
  · rcases h' with hname' | ⟨hname', -⟩
    · exact .inl (String.lt_trans hname hname')
    · exact .inl (hname' ▸ hname)
  · rcases h' with hname' | ⟨hname', hvalue'⟩
    · exact .inl (hname ▸ hname')
    · exact .inr ⟨hname.trans hname', String.lt_trans hvalue hvalue'⟩

theorem isAtMost_cons (p q : String × String) (k l : Key) :
    isAtMost (p :: k) (q :: l) = true ↔ Before p q ∨ p = q ∧ isAtMost k l = true := by
  obtain ⟨n, v⟩ := p
  obtain ⟨m, w⟩ := q
  unfold Before
  rw [isAtMost]
  by_cases hname : n = m
  · subst hname
    by_cases hvalue : v = w
    · subst hvalue
      simp
    · simp [hvalue]
  · simp [hname]

theorem isAtMost_total (k l : Key) : (isAtMost k l || isAtMost l k) = true := by
  rw [Bool.or_eq_true]
  induction k generalizing l with
  | nil => exact .inl rfl
  | cons p k ih =>
    cases l with
    | nil => exact .inr rfl
    | cons q l =>
      rw [isAtMost_cons, isAtMost_cons]
      rcases before_or_eq_or_after p q with h | h | h
      · exact .inl (.inl h)
      · exact (ih l).imp (fun hle => .inr ⟨h, hle⟩) fun hle => .inr ⟨h.symm, hle⟩
      · exact .inr (.inl h)

theorem isAtMost_trans (k l m : Key) (h : isAtMost k l = true) (h' : isAtMost l m = true) :
    isAtMost k m = true := by
  induction k generalizing l m with
  | nil => rfl
  | cons p k ih =>
    cases l with
    | nil => cases h
    | cons q l =>
      cases m with
      | nil => cases h'
      | cons r m =>
        rw [isAtMost_cons] at h h' ⊢
        rcases h with hbefore | ⟨rfl, hle⟩
        · rcases h' with hbefore' | ⟨rfl, -⟩
          · exact .inl (hbefore.trans hbefore')
          · exact .inl hbefore
        · exact h'.imp_right fun hrest => ⟨hrest.1, ih l m hle hrest.2⟩

end Key

end BulkTransfer.Partition
