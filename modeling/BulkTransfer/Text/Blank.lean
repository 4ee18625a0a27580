/-!
Blanks: the characters with the Unicode property White_Space, and trimming of them.

- `isBlank_of_isWhitespace`: every character that core calls white space is a blank.
- `trimStart_eq_self`: trimming changes nothing where no blank leads.
- `trim_eq_self`: nor does trimming at both ends where no blank stands there.
- `dropEnds_append`: dropping at both ends stops where the class does.
- `trim_append_blanks`: blanks around a text change nothing once it is trimmed.
-/

namespace BulkTransfer.Text

/-- Whether the character has the property White_Space. -/
def isBlank (c : Char) : Bool :=
  let n := c.toNat
  n == 0x20 || (0x9 ≤ n && n ≤ 0xd) || n == 0x85 || n == 0xa0 || n == 0x1680 ||
    (0x2000 ≤ n && n ≤ 0x200a) || n == 0x2028 || n == 0x2029 || n == 0x202f || n == 0x205f ||
    n == 0x3000

theorem isBlank_of_isWhitespace {c : Char} (h : c.isWhitespace = true) : isBlank c = true := by
  simp only [Char.isWhitespace, Bool.or_eq_true, decide_eq_true_eq] at h
  rcases h with ((rfl | rfl) | rfl) | rfl <;> decide

/-- Drops the leading and trailing characters of a class. -/
def dropEnds (p : Char → Bool) (s : List Char) : List Char :=
  ((s.dropWhile p).reverse.dropWhile p).reverse

/-- Drops leading blanks. -/
def trimStart (s : List Char) : List Char := s.dropWhile isBlank

/-- Drops trailing blanks. -/
def trimEnd (s : List Char) : List Char := (s.reverse.dropWhile isBlank).reverse

/-- Drops leading and trailing blanks. -/
def trim (s : List Char) : List Char := trimEnd (trimStart s)

/-- Drops leading and trailing blanks of a string. -/
def trimmed (s : String) : String := String.ofList (trim s.toList)

theorem trimStart_eq_self {c : Char} {s : List Char} (h : isBlank c = false) :
    trimStart (c :: s) = c :: s := by
  simp [trimStart, h]

theorem trimEnd_append {c : Char} {s : List Char} (h : isBlank c = false) :
    trimEnd (s ++ [c]) = s ++ [c] := by
  simp [trimEnd, h]

theorem trim_eq_self {s : List Char} (hs : ∀ c ∈ s.head?, isBlank c = false)
    (he : ∀ c ∈ s.getLast?, isBlank c = false) : trim s = s := by
  cases s with
  | nil => rfl
  | cons c rest =>
    rw [trim, trimStart_eq_self (hs c rfl)]
    have hlast := List.dropLast_concat_getLast (List.cons_ne_nil c rest)
    rw [← hlast]
    exact trimEnd_append (he _ (List.getLast?_eq_some_getLast (List.cons_ne_nil c rest)))

/-- Dropping at both ends stops at the first and the last character that is not of the class. -/
theorem dropEnds_append {p : Char → Bool} {before s after : List Char}
    (hbefore : ∀ c ∈ before, p c = true) (hafter : ∀ c ∈ after, p c = true)
    (hs : ∀ c ∈ s.head?, p c = false) (he : ∀ c ∈ s.getLast?, p c = false) (hne : s ≠ []) :
    dropEnds p (before ++ (s ++ after)) = s := by
  have hstart : (before ++ (s ++ after)).dropWhile p = s ++ after := by
    obtain ⟨c, rest, rfl⟩ := List.exists_cons_of_ne_nil hne
    rw [List.dropWhile_append_of_pos hbefore]
    refine List.dropWhile_cons_of_neg ?_
    rw [hs c rfl]
    exact Bool.false_ne_true
  have hend : (s ++ after).reverse.dropWhile p = s.reverse := by
    have hrev : ∀ c ∈ after.reverse, p c = true := fun c hc => hafter c (List.mem_reverse.mp hc)
    rw [List.reverse_append, List.dropWhile_append_of_pos hrev]
    have hlast := List.dropLast_concat_getLast hne
    have hc := he _ (List.getLast?_eq_some_getLast hne)
    rw [← hlast, List.reverse_append]
    refine List.dropWhile_cons_of_neg ?_
    rw [hc]
    exact Bool.false_ne_true
  unfold dropEnds
  rw [hstart, hend, List.reverse_reverse]

theorem dropEnds_eq_self {p : Char → Bool} {s : List Char} (h : ∀ c ∈ s, p c = false) :
    dropEnds p s = s := by
  cases s with
  | nil => rfl
  | cons c rest =>
    have hends := dropEnds_append (List.forall_mem_nil _) (List.forall_mem_nil _)
      (fun d hd => h d (List.mem_of_mem_head? hd)) (fun d hd => h d (List.mem_of_getLast? hd))
      (List.cons_ne_nil c rest)
    rw [List.nil_append, List.append_nil] at hends
    exact hends

theorem trim_eq_dropEnds (s : List Char) : trim s = dropEnds isBlank s := rfl

/-- Characters of the class around a text change nothing once they are dropped. -/
theorem dropEnds_append_class {p : Char → Bool} {before after : List Char}
    (hbefore : ∀ c ∈ before, p c = true) (hafter : ∀ c ∈ after, p c = true) (s : List Char) :
    dropEnds p (before ++ (s ++ after)) = dropEnds p s := by
  have hend : ∀ t : List Char,
      ((t ++ after).reverse.dropWhile p).reverse = (t.reverse.dropWhile p).reverse := by
    intro t
    rw [List.reverse_append, List.dropWhile_append_of_pos]
    exact fun c hc => hafter c (List.mem_reverse.mp hc)
  unfold dropEnds
  rw [List.dropWhile_append_of_pos hbefore, List.dropWhile_append]
  split
  · next hclass =>
    have hnone := @List.dropWhile_append_of_pos _ p after [] hafter
    rw [List.append_nil] at hnone
    rw [hnone, List.isEmpty_iff.mp hclass]
    rfl
  · exact hend _

theorem mem_of_mem_dropEnds {p : Char → Bool} {s : List Char} {c : Char} (h : c ∈ dropEnds p s) :
    c ∈ s := by
  unfold dropEnds at h
  have hend := (List.dropWhile_sublist p).subset (List.mem_reverse.mp h)
  exact (List.dropWhile_sublist p).subset (List.mem_reverse.mp hend)

/-- Where characters of a class are dropped none is left at either end. -/
theorem ends_dropEnds (p : Char → Bool) (s : List Char) :
    (∀ c ∈ (dropEnds p s).head?, p c = false) ∧ ∀ c ∈ (dropEnds p s).getLast?, p c = false := by
  have hfirst : ∀ t : List Char, ∀ c ∈ (t.dropWhile p).head?, p c = false := by
    intro t c hc
    have hnot := List.head?_dropWhile_not p t
    rw [Option.mem_def.mp hc] at hnot
    exact hnot
  unfold dropEnds
  rw [List.head?_reverse, List.getLast?_reverse]
  refine ⟨fun c hc => ?_, hfirst _⟩
  have hsplit : (s.dropWhile p).reverse = (s.dropWhile p).reverse.takeWhile p ++
      (s.dropWhile p).reverse.dropWhile p := List.takeWhile_append_dropWhile.symm
  have hlast : (s.dropWhile p).reverse.getLast? = some c := by
    rw [hsplit, List.getLast?_append, Option.mem_def.mp hc, Option.some_or]
  rw [List.getLast?_reverse] at hlast
  exact hfirst s c hlast

/-- Blanks around a text change nothing once it is trimmed. -/
theorem trim_append_blanks {before after : List Char} (hbefore : ∀ c ∈ before, isBlank c = true)
    (hafter : ∀ c ∈ after, isBlank c = true) (s : List Char) :
    trim (before ++ (s ++ after)) = trim s :=
  dropEnds_append_class hbefore hafter s

/-- A text is its trimmed form with blanks around it. -/
theorem exists_blanks_trim (s : List Char) :
    ∃ before after, (∀ c ∈ before, isBlank c = true) ∧ (∀ c ∈ after, isBlank c = true) ∧
      s = before ++ (trim s ++ after) := by
  have htaken : ∀ t : List Char, ∀ c ∈ t.takeWhile isBlank, isBlank c = true := fun t c hc =>
    List.all_eq_true.mp List.all_takeWhile c hc
  refine ⟨s.takeWhile isBlank, ((trimStart s).reverse.takeWhile isBlank).reverse, htaken s,
    fun c hc => htaken _ c (List.mem_reverse.mp hc), ?_⟩
  have hend : trim s ++ ((trimStart s).reverse.takeWhile isBlank).reverse = trimStart s := by
    unfold trim trimEnd
    rw [← List.reverse_append, List.takeWhile_append_dropWhile, List.reverse_reverse]
  rw [hend]
  exact List.takeWhile_append_dropWhile.symm

theorem trim_trim (s : List Char) : trim (trim s) = trim s := by
  obtain ⟨before, after, hbefore, hafter, hs⟩ := exists_blanks_trim s
  have hblanks := trim_append_blanks hbefore hafter (trim s)
  rw [← hs] at hblanks
  exact hblanks.symm

theorem length_trimStart_le (s : List Char) : (trimStart s).length ≤ s.length :=
  (List.dropWhile_sublist _).length_le

theorem length_trimEnd_le (s : List Char) : (trimEnd s).length ≤ s.length := by
  have := (List.dropWhile_sublist (l := s.reverse) isBlank).length_le
  simpa [trimEnd] using this

theorem length_trim_le (s : List Char) : (trim s).length ≤ s.length :=
  Nat.le_trans (length_trimEnd_le _) (length_trimStart_le _)

end BulkTransfer.Text
