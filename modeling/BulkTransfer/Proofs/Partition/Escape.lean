import BulkTransfer.Proofs.Literal.Word
import BulkTransfer.Proofs.Partition.Discovery

/-!
Escaped partition values. Slashes and equals signs are written as marks, and marks are put back from
the left; a mark that the text has itself, or that comes about where another mark ends, is put back
too. The texts that come back are those in which this does not happen.

- `isMisread`: a mark begins in an escaped text where the text has another character.
- `replaceText_replaceChar_iff`: marks are put back to the text just when none is misread.
- `unescapeText_escapeText_iff`: the same for both marks.
- `unescape?_escape_eq_none_iff`: the values that come back as null.
- `partition_values_come_back_iff`: which values come back, and what rows with such values have.
-/

namespace BulkTransfer.Text

variable {c d : Char} {mark s t : List Char}

/-! ## Marks in place of a character -/

theorem replaceChar_cons (c : Char) (mark : List Char) (d : Char) (s : List Char) :
    replaceChar c mark (d :: s) = (if d = c then mark else [d]) ++ replaceChar c mark s :=
  List.flatMap_cons

theorem replaceChar_append (c : Char) (mark s t : List Char) :
    replaceChar c mark (s ++ t) = replaceChar c mark s ++ replaceChar c mark t :=
  List.flatMap_append

theorem replaceChar_of_not_mem (h : c ∉ s) : replaceChar c mark s = s := by
  induction s with
  | nil => rfl
  | cons d rest ih =>
    rw [List.mem_cons, not_or] at h
    rw [replaceChar_cons, if_neg (Ne.symm h.1), ih h.2]
    rfl

theorem mem_replaceChar (h : c ∈ s) (hd : d ∈ mark) : d ∈ replaceChar c mark s :=
  List.mem_flatMap.mpr ⟨c, h, by rw [if_pos rfl]; exact hd⟩

theorem mem_replaceChar_of_ne (h : d ∈ s) (hne : d ≠ c) : d ∈ replaceChar c mark s :=
  List.mem_flatMap.mpr ⟨d, h, by rw [if_neg hne]; exact List.mem_cons_self⟩

/-- Two characters can be replaced in either order where no mark has the other one. -/
theorem replaceChar_comm {other : List Char} (hne : c ≠ d) (hmark : d ∉ mark) (hother : c ∉ other)
    (s : List Char) :
    replaceChar c mark (replaceChar d other s) = replaceChar d other (replaceChar c mark s) := by
  induction s with
  | nil => rfl
  | cons e rest ih =>
    rw [replaceChar_cons d, replaceChar_cons c, replaceChar_append, replaceChar_append, ih]
    congr 1
    by_cases hd : e = d
    · subst hd
      rw [if_pos rfl, if_neg (Ne.symm hne), replaceChar_of_not_mem hother, replaceChar_cons,
        if_pos rfl]
      exact (List.append_nil other).symm
    · rw [if_neg hd]
      by_cases hc : e = c
      · subst hc
        rw [if_pos rfl, replaceChar_of_not_mem hmark, replaceChar_cons, if_pos rfl]
        exact List.append_nil mark
      · rw [if_neg hc, replaceChar_cons, if_neg hc, replaceChar_cons, if_neg hd]
        rfl

/-! ## Marks put back -/

/-- As many steps as there are characters are enough. -/
theorem replaceTextIn_eq (hmark : mark ≠ []) {n m : Nat} (hn : s.length ≤ n) (hm : s.length ≤ m) :
    replaceTextIn mark c n s = replaceTextIn mark c m s := by
  induction n generalizing m s with
  | zero =>
    rw [List.length_eq_zero_iff.mp (Nat.le_zero.mp hn)]
    cases m <;> rfl
  | succ n ih =>
    match s, m, hm with
    | [], 0, _ => rfl
    | [], m + 1, _ => rfl
    | d :: rest, m + 1, hm =>
      rw [List.length_cons] at hn hm
      rw [replaceTextIn, replaceTextIn]
      split
      · next after hstart =>
        have hlength := congrArg List.length (dropStart?_eq_some hstart)
        have hpos := List.length_pos_iff.mpr hmark
        rw [List.length_append, List.length_cons] at hlength
        rw [ih (m := m) (by omega) (by omega)]
      · rw [ih (m := m) (by omega) (by omega)]

/-- A mark is put back, and the text behind it goes on. -/
theorem replaceText_mark (hmark : mark ≠ []) (c : Char) (s : List Char) :
    replaceText mark c (mark ++ s) = c :: replaceText mark c s := by
  obtain ⟨d, more, rfl⟩ := List.exists_cons_of_ne_nil hmark
  have hstart := dropStart?_append (d :: more) s
  rw [List.cons_append] at hstart ⊢
  unfold replaceText
  rw [List.length_cons, replaceTextIn, hstart]
  dsimp only
  rw [replaceTextIn_eq hmark (n := (more ++ s).length) (m := s.length) _ (Nat.le_refl _)]
  rw [List.length_append]
  omega

theorem replaceText_cons (h : dropStart? mark (d :: s) = none) :
    replaceText mark c (d :: s) = d :: replaceText mark c s := by
  unfold replaceText
  rw [List.length_cons, replaceTextIn, h]

/-- What a text begins with: nothing, a mark, or another character. -/
theorem mark_cases (mark : List Char) (s : List Char) :
    s = [] ∨ (∃ after, s = mark ++ after) ∨
      ∃ d rest, s = d :: rest ∧ dropStart? mark (d :: rest) = none := by
  cases s with
  | nil => exact .inl rfl
  | cons d rest =>
    right
    cases hstart : dropStart? mark (d :: rest) with
    | some after => exact .inl ⟨after, dropStart?_eq_some hstart⟩
    | none => exact .inr ⟨d, rest, rfl, hstart⟩

theorem not_mem_replaceText (hmark : mark ≠ []) (hne : d ≠ c) (h : d ∉ s) :
    d ∉ replaceText mark c s := by
  induction hn : s.length using Nat.strongRecOn generalizing s with
  | ind n ih =>
    subst hn
    rcases mark_cases mark s with rfl | ⟨after, rfl⟩ | ⟨e, rest, rfl, hstart⟩
    · exact List.not_mem_nil
    · rw [replaceText_mark hmark, List.mem_cons, not_or]
      refine ⟨hne, ih after.length ?_ (fun hmem => h (List.mem_append_right _ hmem)) rfl⟩
      have hpos := List.length_pos_iff.mpr hmark
      rw [List.length_append]
      omega
    · rw [List.mem_cons, not_or] at h
      rw [replaceText_cons hstart, List.mem_cons, not_or]
      exact ⟨h.1, ih rest.length (Nat.lt_succ_self _) h.2 rfl⟩

/-- A text without the character is there again when marks are put back and then written. -/
theorem replaceChar_replaceText (hmark : mark ≠ []) (h : c ∉ s) :
    replaceChar c mark (replaceText mark c s) = s := by
  induction hn : s.length using Nat.strongRecOn generalizing s with
  | ind n ih =>
    subst hn
    rcases mark_cases mark s with rfl | ⟨after, rfl⟩ | ⟨e, rest, rfl, hstart⟩
    · rfl
    · have hpos := List.length_pos_iff.mpr hmark
      have hafter := ih after.length (by rw [List.length_append]; omega)
        (fun hmem => h (List.mem_append_right _ hmem)) rfl
      rw [replaceText_mark hmark, replaceChar_cons, if_pos rfl, hafter]
    · rw [List.mem_cons, not_or] at h
      have hrest := ih rest.length (Nat.lt_succ_self _) h.2 rfl
      rw [replaceText_cons hstart, replaceChar_cons, if_neg (Ne.symm h.1), hrest]
      rfl

/-- Whether a mark begins in the text with marks where the text has another character. -/
def isMisread (mark : List Char) (c : Char) : List Char → Bool
  | [] => false
  | d :: rest =>
    (decide (d ≠ c) && (dropStart? mark (d :: replaceChar c mark rest)).isSome) ||
      isMisread mark c rest

/-- Marks are put back to the text just when none is misread. -/
theorem replaceText_replaceChar_iff (hmark : mark ≠ []) (c : Char) (s : List Char) :
    replaceText mark c (replaceChar c mark s) = s ↔ isMisread mark c s = false := by
  induction s with
  | nil => exact ⟨fun _ => rfl, fun _ => rfl⟩
  | cons d rest ih =>
    rw [replaceChar_cons, isMisread]
    by_cases hd : d = c
    · subst hd
      rw [if_pos rfl, replaceText_mark hmark, List.cons_inj_right, ih, decide_eq_false (by simp),
        Bool.false_and, Bool.false_or]
    · rw [if_neg hd, List.singleton_append, decide_eq_true hd, Bool.true_and]
      cases hstart : dropStart? mark (d :: replaceChar c mark rest) with
      | none =>
        rw [replaceText_cons hstart, List.cons_inj_right, ih, Option.isSome_none, Bool.false_or]
      | some after =>
        rw [dropStart?_eq_some hstart, replaceText_mark hmark, Option.isSome_some, Bool.true_or]
        constructor
        · intro heq
          exact absurd (List.cons.inj heq).1.symm hd
        · intro heq
          cases heq

end BulkTransfer.Text

namespace BulkTransfer.Partition

open Text

/-! ## Escaped texts -/

/-- Whether a text comes back from a directory name. -/
def isKept (s : String) : Bool :=
  s != nullValue && !isMisread equalsMark '=' s.toList &&
    !isMisread slashMark '/' (replaceChar '=' equalsMark s.toList)

theorem escapeText_eq (s : List Char) :
    escapeText s = replaceChar '/' slashMark (replaceChar '=' equalsMark s) :=
  replaceChar_comm (by decide) (by decide) (by decide) s

/-- A text comes back where neither mark is misread; slashes are put back first, in a text that
still has the marks of equals signs. -/
theorem unescapeText_escapeText_iff (s : List Char) :
    unescapeText (escapeText s) = s ↔ isMisread equalsMark '=' s = false ∧
      isMisread slashMark '/' (replaceChar '=' equalsMark s) = false := by
  have hequals : equalsMark ≠ [] := by decide
  have hslash : slashMark ≠ [] := by decide
  rw [← replaceText_replaceChar_iff hequals, ← replaceText_replaceChar_iff hslash, unescapeText,
    escapeText_eq]
  constructor
  · intro hback
    -- No equals sign is left, so what the last step was given can be told from its outcome.
    have hnone : '=' ∉ replaceText slashMark '/'
        (replaceChar '/' slashMark (replaceChar '=' equalsMark s)) := by
      refine not_mem_replaceText hslash (by decide) ?_
      exact not_mem_replaceChar (not_mem_replaceChar_self (by decide) s) (by decide)
    have hfirst := replaceChar_replaceText hequals hnone
    rw [hback] at hfirst
    exact ⟨by rw [hfirst]; exact hback, hfirst.symm⟩
  · rintro ⟨hsecond, hfirst⟩
    rw [hfirst, hsecond]

theorem escapeText_eq_null_iff (s : List Char) :
    escapeText s = nullValue.toList ↔ s = nullValue.toList := by
  constructor
  · intro h
    have hequals : '=' ∉ replaceChar '/' slashMark s := by
      intro hmem
      have hmark : 'Q' ∈ escapeText s := mem_replaceChar hmem (by decide)
      rw [h] at hmark
      exact absurd hmark (by decide)
    have hslash : '/' ∉ s := by
      intro hmem
      have hmark : 'S' ∈ escapeText s :=
        mem_replaceChar_of_ne (mem_replaceChar hmem (by decide)) (by decide)
      rw [h] at hmark
      exact absurd hmark (by decide)
    rw [escapeText, replaceChar_of_not_mem hequals, replaceChar_of_not_mem hslash] at h
    exact h
  · rintro rfl
    decide

/-! ## Values -/

/-- A literal that begins in another way is not what null is written as. -/
theorem ofList_ne_null {s : List Char} (h : s.head? ≠ some '_') : String.ofList s ≠ nullValue := by
  intro heq
  have hlist := congrArg String.toList heq
  rw [String.toList_ofList] at hlist
  rw [hlist] at h
  exact h rfl

/-- A literal of digits and other characters is not what null is written as. -/
theorem ofList_ne_null_of_digits {s : List Char} (others : List Char) (hothers : '_' ∉ others)
    (h : ∀ c ∈ s, Integer.isDigit c = true ∨ c ∈ others) : String.ofList s ≠ nullValue := by
  refine ofList_ne_null fun hhead => ?_
  rcases h '_' (List.mem_of_head? hhead) with hdigit | hother
  · exact absurd hdigit (by decide)
  · exact hothers hother

/-- Only a text, or a number kept as one, is written as null is. -/
theorem field_eq_null_iff {v : Value} (hv : v ≠ .null) :
    v.field nullValue "" none = nullValue ↔ v = .text nullValue ∨ v = .decimal nullValue := by
  cases v with
  | null => exact absurd rfl hv
  | text s => simp [Value.field]
  | decimal s => simp [Value.field, Value.literal]
  | bool b =>
    refine iff_of_false (ofList_ne_null ?_) (by simp)
    rw [Value.literal_bool]
    cases b <;> decide
  | int i =>
    refine iff_of_false (ofList_ne_null_of_digits ['-'] (by decide) ?_) (by simp)
    intro c hc
    rw [Value.literal] at hc
    exact (Literal.mem_renderInt hc).imp_right List.mem_singleton.mpr
  | float x =>
    refine iff_of_false (ofList_ne_null_of_digits "-.NaInfinity".toList (by decide) ?_) (by simp)
    intro c hc
    rw [Value.literal] at hc
    exact Literal.mem_floatLiteral hc
  | instant t =>
    refine iff_of_false (ofList_ne_null_of_digits "-+T:.Z".toList (by decide) ?_) (by simp)
    intro c hc
    exact Literal.mem_render hc
  | list items =>
    refine iff_of_false (ofList_ne_null ?_) (by simp)
    rw [Value.literal]
    split <;> simp
  | _ =>
    refine iff_of_false (ofList_ne_null ?_) (by simp)
    rw [Value.literal]
    simp

theorem escape_of_ne_null {v : Value} (h : v ≠ .null) :
    escape v = String.ofList (escapeText (v.field nullValue "" none).toList) := by
  unfold escape
  rw [if_neg]
  cases v <;> first | exact absurd rfl h | exact Bool.false_ne_true

theorem escape_eq_null_iff (v : Value) :
    escape v = nullValue ↔ v = .null ∨ v = .text nullValue ∨ v = .decimal nullValue := by
  by_cases hv : v = .null
  · subst hv
    exact iff_of_true rfl (.inl rfl)
  · rw [or_iff_right hv, ← field_eq_null_iff hv, escape_of_ne_null hv, ← String.toList_inj,
      String.toList_ofList, escapeText_eq_null_iff, String.toList_inj]

/-- The values that come back as null. -/
theorem unescape?_escape_eq_none_iff (v : Value) :
    unescape? (escape v) = none ↔ v = .null ∨ v = .text nullValue ∨ v = .decimal nullValue := by
  rw [← escape_eq_null_iff]
  unfold unescape?
  split
  · next hnull => exact iff_of_true rfl hnull
  · next hne => exact iff_of_false (Option.some_ne_none _) hne

/-- The texts that come back. -/
theorem unescape?_escape_text_iff (s : String) :
    unescape? (escape (.text s)) = some s ↔ isKept s = true := by
  have hescape : escape (.text s) = String.ofList (escapeText s.toList) := rfl
  have hnull : String.ofList (escapeText s.toList) = nullValue ↔ s = nullValue := by
    rw [← String.toList_inj, String.toList_ofList, escapeText_eq_null_iff, String.toList_inj]
  have hback : String.ofList (unescapeText (escapeText s.toList)) = s ↔
      unescapeText (escapeText s.toList) = s.toList := by
    rw [← String.toList_inj, String.toList_ofList]
  unfold isKept
  rw [hescape, unescape?, String.toList_ofList, Bool.and_eq_true, Bool.and_eq_true, bne_iff_ne,
    Bool.not_eq_true', Bool.not_eq_true', and_assoc, ← unescapeText_escapeText_iff, ← hback]
  by_cases hs : s = nullValue
  · rw [if_pos (hnull.mpr hs)]
    exact iff_of_false (Option.some_ne_none s).symm fun h => h.1 hs
  · rw [if_neg (fun h => hs (hnull.mp h)), Option.some_inj]
    exact (and_iff_right hs).symm

/-! ## Rows -/

/-- Null, or a text that comes back. -/
def IsKept (v : Value) : Prop := v = .null ∨ ∃ s, v = .text s ∧ isKept s = true

/-- A value that comes back is told from its directory name. -/
theorem IsKept.getD_unescape? {v : Value} (h : IsKept v) (wanted : String) :
    (unescape? (escape v)).getD nullValue = wanted ↔
      (v = .null ∧ wanted = nullValue) ∨ v = .text wanted := by
  rcases h with rfl | ⟨s, rfl, hs⟩
  · rw [(unescape?_escape_eq_none_iff .null).mpr (.inl rfl), Option.getD_none]
    simp [eq_comm]
  · rw [(unescape?_escape_text_iff s).mpr hs, Option.getD_some]
    simp

theorem IsKept.escape_inj {v w : Value} (hv : IsKept v) (hw : IsKept w)
    (h : escape v = escape w) : v = w := by
  rcases hw with rfl | ⟨s, rfl, hs⟩
  · have hnull : escape .null = nullValue := rfl
    have hv' := (hv.getD_unescape? nullValue).mp (by rw [h, hnull]; rfl)
    rcases hv' with ⟨hv', -⟩ | hv'
    · exact hv'
    · rcases hv with rfl | ⟨s, rfl, hs⟩
      · rfl
      · rw [Value.text.inj hv'] at hs
        exact absurd hs (by decide)
  · have hv' := (hv.getD_unescape? s).mp (by rw [h, (unescape?_escape_text_iff s).mpr hs]; rfl)
    rcases hv' with ⟨-, rfl⟩ | hv'
    · exact absurd hs (by decide)
    · exact hv'

/-- Rows with the same directory have the same key. -/
theorem Key.directory_inj {columns : List PartitionColumn}
    (hnames : ∀ c ∈ columns, '/' ∉ c.name.toList) {row row' : Row}
    (h : (Key.ofRow columns row).directory = (Key.ofRow columns row').directory) :
    Key.ofRow columns row = Key.ofRow columns row' := by
  have hplace : ∀ row, FileTree.placeOf (Key.ofRow columns row).directory =
      FileTree.placeOf "" ++ (Key.ofRow columns row).map Key.segment := fun row =>
    FileTree.placeOf_foldl_join "" (Key.isName_of_mem_segments hnames row)
  have hsegments := congrArg FileTree.placeOf h
  rw [hplace, hplace] at hsegments
  exact Key.ofRow_inj (List.append_cancel_left hsegments)

theorem escape_value_of_ofRow_eq {columns : List PartitionColumn} {row row' : Row}
    (h : Key.ofRow columns row = Key.ofRow columns row') {c : PartitionColumn}
    (hc : c ∈ columns) : escape (c.value row) = escape (c.value row') := by
  have hpair := List.map_inj_left.mp h c hc
  exact (Prod.mk.inj hpair).2

/-- A filter on a column tells values that come back by the names of the directories. -/
theorem IsKept.matchesFilter_iff {columns : List PartitionColumn} (htold : AreTold columns)
    {c : PartitionColumn} (hc : c ∈ columns) (hunique : ∀ c' ∈ columns, c'.name = c.name → c' = c)
    {row : Row} (h : IsKept (c.value row)) (root : String) (n : Nat) (wanted : String) :
    (fileOf root (Key.ofRow columns row, n)).matchesFilter [(c.name, wanted)] = true ↔
      (c.value row = .null ∧ wanted = nullValue) ∨ c.value row = .text wanted := by
  rw [matchesFilter_fileOf htold root ⟨row, rfl⟩, isSelected_ofRow, ← h.getD_unescape?]
  unfold isSelected
  rw [List.all_cons, List.all_nil, Bool.and_true, List.any_eq_true]
  constructor
  · rintro ⟨c', hc', hselected⟩
    rw [Bool.and_eq_true, beq_iff_eq, beq_iff_eq] at hselected
    rw [← hunique c' hc' hselected.1]
    exact hselected.2
  · intro hwanted
    refine ⟨c, hc, ?_⟩
    rw [Bool.and_eq_true, beq_iff_eq, beq_iff_eq]
    exact ⟨rfl, hwanted⟩

/-- A text comes back from its directory name just when no mark is misread in it and it is not the
name of null, and what comes back as null is null or has its name. Values that come back and differ
have different directories, and a filter selects the files of exactly those rows that have the
value. -/
theorem partition_values_come_back_iff (s : String) (v : Value) {columns : List PartitionColumn}
    (htold : AreTold columns) {c : PartitionColumn} (hc : c ∈ columns) :
    (unescape? (escape (.text s)) = some s ↔ isKept s = true) ∧
    (unescape? (escape v) = none ↔
      v = .null ∨ v = .text nullValue ∨ v = .decimal nullValue) ∧
    (∀ row row', IsKept (c.value row) → IsKept (c.value row') → c.value row ≠ c.value row' →
      (Key.ofRow columns row).directory ≠ (Key.ofRow columns row').directory) ∧
    ((∀ c' ∈ columns, c'.name = c.name → c' = c) → ∀ row, IsKept (c.value row) →
      ∀ root n wanted,
        ((fileOf root (Key.ofRow columns row, n)).matchesFilter [(c.name, wanted)] = true ↔
          (c.value row = .null ∧ wanted = nullValue) ∨ c.value row = .text wanted)) := by
  refine ⟨unescape?_escape_text_iff s, unescape?_escape_eq_none_iff v, ?_, ?_⟩
  · intro row row' hrow hrow' hne heq
    have hkeys := Key.directory_inj htold.slash heq
    exact hne (hrow.escape_inj hrow' (escape_value_of_ofRow_eq hkeys hc))
  · intro hunique row hrow root n wanted
    exact hrow.matchesFilter_iff htold hc hunique root n wanted

/-- A text with a slash and an equals sign comes back, and its rows have files of their own. -/
theorem partition_values_come_back_distinct :
    let columns : List PartitionColumn := [⟨"k", "k", none⟩]
    let row (v : Value) : Row := ⟨[("k", v)]⟩
    unescape? (escape (.text "a/b=c")) = some "a/b=c" ∧
    (Key.ofRow columns (row (.text "a/b=c"))).directory ≠
      (Key.ofRow columns (row .null)).directory ∧
    (fileOf "d" (Key.ofRow columns (row (.text "a/b=c")), 0)).matchesFilter [("k", "a/b=c")] =
      true := by
  intro columns row
  have hkept : isKept "a/b=c" = true := by decide +kernel
  have hvalue : IsKept (.text "a/b=c") := .inr ⟨"a/b=c", rfl, hkept⟩
  have htold : AreTold columns := ⟨by decide, by decide, by decide⟩
  obtain ⟨htext, -, hdistinct, hselect⟩ :=
    partition_values_come_back_iff "a/b=c" .null htold (c := ⟨"k", "k", none⟩) List.mem_cons_self
  refine ⟨htext.mpr hkept, ?_, ?_⟩
  · refine hdistinct (row (.text "a/b=c")) (row .null) hvalue (.inl rfl) fun heq => ?_
    exact Value.noConfusion (show Value.text "a/b=c" = .null from heq)
  · exact (hselect (by decide) (row (.text "a/b=c")) hvalue "d" 0 "a/b=c").mpr (.inr rfl)

/-- A text that has no mark comes back changed: the mark of the equals sign ends with the two
characters that the mark of a slash begins with. A text that has a mark shares its directory with
the text that the mark stands for, and the name of null comes back as null. -/
theorem text_comes_back_changed :
    unescape? (escape (.text "=SLASH/")) = some "__EQ/SLASH__" ∧
    escape (.text "a__SLASH__b") = escape (.text "a/b") ∧
    unescape? (escape (.text "__NULL__")) = none := by
  decide +kernel

end BulkTransfer.Partition
