import BulkTransfer.Literal.Printer
import BulkTransfer.Proofs.Keyed
import BulkTransfer.Proofs.Session.Growth

/-!
Commands are read as the transfers that they spell. Keywords stand in any case, words have any
blanks between them, and paths and values hold any characters.

- `CommandText`: the texts that spell a transfer.
- `operand_quoted`: a text in quotes ends at the quote that closes it.
- `nextOption?_between`: behind an option the next one is found behind its `AND`.
- `pieces?_commandText`: the pieces of a command are those of which it was put together.
- `command_reads_back`: so a command is read as its transfer.
-/

namespace BulkTransfer.Command

open Text Text.Pattern

/-! ## Written commands -/

/-- One or more blanks. -/
structure IsGap (s : List Char) : Prop where
  ne_nil : s ≠ []
  blank : ∀ c ∈ s, isBlank c = true

/-- A keyword given in capitals, each of its letters large or small. -/
def IsKeyword (word : String) (s : List Char) : Prop := s.map Char.toUpper = word.toList

/-- Names with a comma and blanks between each two. -/
inductive NamesText : List String → List Char → Prop
  | last (name : String) : NamesText [name] name.toList
  | cons (name : String) {gap : List Char} (hgap : IsGap gap) {more : List String}
      {s : List Char} (h : NamesText more s) :
    NamesText (name :: more) (name.toList ++ ',' :: (gap ++ s))

/-- Columns in brackets behind blanks, or nothing where there are none. -/
inductive ColumnsText : List String → List Char → Prop
  | none : ColumnsText [] []
  | some {gap : List Char} (hgap : IsGap gap) {names : List String} {s : List Char}
      (h : NamesText names s) : ColumnsText names (gap ++ '(' :: (s ++ [')']))

/-- The word for a direction. -/
def DirectionText : Direction → List Char → Prop
  | .exporting => IsKeyword "TO"
  | .importing => IsKeyword "FROM"

/-- The word for a target: a path stands in quotes. -/
inductive TargetText : Target → List Char → Prop
  | stdin {s : List Char} (h : IsKeyword "STDIN" s) : TargetText .stdin s
  | stdout {s : List Char} (h : IsKeyword "STDOUT" s) : TargetText .stdout s
  | path (file : String) : TargetText (.path file) (Value.quoted file.toList)

/-- An option with its value in quotes. -/
def optionText (p : String × String) : List Char := p.1.toList ++ '=' :: Value.quoted p.2.toList

/-- Options with `AND` between each two. -/
inductive OptionsText : List (String × String) → List Char → Prop
  | last (p : String × String) : OptionsText [p] (optionText p)
  | cons (p : String × String) {gap word gap' : List Char} (hgap : IsGap gap)
      (hword : IsKeyword "AND" word) (hgap' : IsGap gap') {more : List (String × String)}
      {s : List Char} (h : OptionsText more s) :
    OptionsText (p :: more) (optionText p ++ (gap ++ (word ++ (gap' ++ s))))

/-- The clause of options, or nothing where there are none. -/
inductive ClauseText : List (String × String) → List Char → Prop
  | none : ClauseText [] []
  | some {gap word gap' : List Char} (hgap : IsGap gap) (hword : IsKeyword "WITH" word)
      (hgap' : IsGap gap') {pairs : List (String × String)} {s : List Char}
      (h : OptionsText pairs s) : ClauseText pairs (gap ++ (word ++ (gap' ++ s)))

/-- The end of a command: blanks and at most one semicolon. -/
inductive EndText : List Char → Prop
  | blanks {s : List Char} (h : ∀ c ∈ s, isBlank c = true) : EndText s
  | semicolon {s s' : List Char} (h : ∀ c ∈ s, isBlank c = true)
      (h' : ∀ c ∈ s', isBlank c = true) : EndText (s ++ ';' :: s')

/-- A text that spells a transfer, with its options written in this order. -/
inductive CommandText (t : Transfer) (pairs : List (String × String)) : List Char → Prop
  | of {lead copy gap columns gap₁ direction gap₂ target clause tail : List Char}
      (hlead : ∀ c ∈ lead, isBlank c = true) (hcopy : IsKeyword "COPY" copy) (hgap : IsGap gap)
      (hcolumns : ColumnsText t.columns columns) (hgap₁ : IsGap gap₁)
      (hdirection : DirectionText t.direction direction) (hgap₂ : IsGap gap₂)
      (htarget : TargetText t.target target) (hclause : ClauseText pairs clause)
      (htail : EndText tail) :
    CommandText t pairs (lead ++ (copy ++ (gap ++ (t.table.toList ++ (columns ++
      (gap₁ ++ (direction ++ (gap₂ ++ (target ++ (clause ++ tail))))))))))

/-- A name that stands in a list of columns as it is. -/
structure IsColumnName (name : String) : Prop where
  ne_nil : name.toList ≠ []
  first : ∀ c ∈ name.toList.head?, isBlank c = false
  last : ∀ c ∈ name.toList.getLast?, isBlank c = false
  no_quote : '"' ∉ name.toList
  no_comma : ',' ∉ name.toList
  no_close : ')' ∉ name.toList

/-- A name of an option: ASCII letters, digits and underscores, no digit first. -/
def IsOptionName (name : String) : Prop :=
  ∃ c more, name.toList = c :: more ∧ isKeyStart c = true ∧
    ∀ d ∈ more, (d.isAlphanum || d == '_') = true

/-- A transfer that can be written as a command. -/
structure IsWritable (t : Transfer) : Prop where
  table_ne_nil : t.table.toList ≠ []
  table : ∀ c ∈ t.table.toList, isWord c = true ∨ c = '.'
  columns : ∀ n ∈ t.columns, IsColumnName n
  target : ∀ file, t.target = .path file → ¬ "~/".toList <+: file.toList
  options : t.options.values.IsIncreasing

/-! ## Characters -/

theorem isWord_of_isBlank {c : Char} (h : isBlank c = true) : isWord c = false := by
  have htable := Statement.isTableChar_of_isBlank h
  unfold isTableChar at htable
  rw [Bool.or_eq_false_iff, Bool.or_eq_false_iff] at htable
  exact htable.1.1

theorem toUpper_eq_self {c : Char} (h : ¬ (97 ≤ c.toNat ∧ c.toNat ≤ 122)) : c.toUpper = c := by
  unfold Char.toUpper
  refine dif_neg fun hc => h ⟨?_, ?_⟩
  · exact UInt32.le_iff_toNat_le.mp hc.1
  · exact UInt32.le_iff_toNat_le.mp hc.2

/-- A letter of a keyword is the capital or its small form. -/
theorem toLower_of_toUpper {c d : Char} (h : c.toUpper = d) : c.toLower = d.toLower := by
  subst h
  by_cases hc : 97 ≤ c.toNat ∧ c.toNat ≤ 122
  · have hall : ∀ n ∈ List.range' 97 26,
        (Char.ofNat n).toLower = (Char.ofNat n).toUpper.toLower := by decide
    have hn := hall c.toNat (by rw [List.mem_range'_1]; omega)
    rwa [Char.ofNat_toNat] at hn
  · rw [toUpper_eq_self hc]

theorem isWord_of_ascii {c : Char} (h : (c.isAlphanum || c == '_') = true) : isWord c = true := by
  have hn : c.toNat < 0x80 := by
    rw [Bool.or_eq_true, beq_iff_eq] at h
    rcases h with halnum | rfl
    · unfold Char.isAlphanum Char.isAlpha Char.isUpper Char.isLower Char.isDigit at halnum
      simp only [Bool.or_eq_true, Bool.and_eq_true, decide_eq_true_eq] at halnum
      rcases halnum with (⟨-, hle⟩ | ⟨-, hle⟩) | ⟨-, hle⟩ <;>
        exact Nat.lt_of_le_of_lt (UInt32.le_iff_toNat_le.mp hle) (by decide)
    · decide
  unfold isWord
  rw [if_pos hn]
  exact h

theorem isWord_of_isKeyStart {c : Char} (h : isKeyStart c = true) : isWord c = true := by
  apply isWord_of_ascii
  unfold isKeyStart at h
  unfold Char.isAlphanum
  rw [Bool.or_eq_true] at h ⊢
  exact h.imp_left fun ha => by rw [ha, Bool.true_or]

/-- The letters of a keyword are word characters. -/
theorem isWord_of_isKeyword {word : String} (hword : word.toList.all Char.isUpper = true)
    {s : List Char} (h : IsKeyword word s) : ∀ c ∈ s, isWord c = true := by
  intro c hc
  have hupper : c.toUpper.isUpper = true := by
    apply List.all_eq_true.mp hword
    unfold IsKeyword at h
    rw [← h]
    exact List.mem_map_of_mem hc
  apply isWord_of_ascii
  unfold Char.isAlphanum Char.isAlpha
  by_cases hsmall : 97 ≤ c.toNat ∧ c.toNat ≤ 122
  · have hlower : c.isLower = true := by
      unfold Char.isLower
      rw [Bool.and_eq_true, decide_eq_true_eq, decide_eq_true_eq]
      exact ⟨UInt32.le_iff_toNat_le.mpr hsmall.1, UInt32.le_iff_toNat_le.mpr hsmall.2⟩
    rw [hlower, Bool.or_true, Bool.true_or, Bool.true_or]
  · rw [toUpper_eq_self hsmall] at hupper
    rw [hupper, Bool.true_or, Bool.true_or, Bool.true_or]

theorem IsKeyword.equals {word : String} {s : List Char} (h : IsKeyword word s)
    (other : String) : equalsIgnoringAsciiCase s other.toList =
      (word.toList.map Char.toLower == other.toList.map Char.toLower) := by
  unfold equalsIgnoringAsciiCase
  unfold IsKeyword at h
  have hlower : s.map Char.toLower = word.toList.map Char.toLower := by
    rw [← h, List.map_map]
    exact List.map_congr_left fun c _ => toLower_of_toUpper rfl
  rw [hlower]

/-! ## Gaps -/

theorem IsGap.head {gap : List Char} (h : IsGap gap) (rest : List Char) :
    ∀ c ∈ (gap ++ rest).head?, isBlank c = true := by
  obtain ⟨d, more, rfl⟩ := List.exists_cons_of_ne_nil h.ne_nil
  intro c hc
  obtain rfl : d = c := Option.some.inj hc
  exact h.blank d List.mem_cons_self

section Gaps

variable {β : Type} {next : Next β} {gap s : List Char} {b : β}

theorem someBlanks_gap (hgap : IsGap gap) (hs : ∀ c ∈ s.head?, isBlank c = false)
    (h : next s = some b) : someBlanks next (gap ++ s) = some b :=
  greedySome_append hgap.ne_nil hgap.blank hs h

end Gaps

/-- Keywords do not start with a blank. -/
theorem IsKeyword.head {word : String} (hword : word.toList.all Char.isUpper = true)
    (hne : word.toList ≠ []) {s : List Char} (h : IsKeyword word s) (rest : List Char) :
    ∀ c ∈ (s ++ rest).head?, isWord c = true := by
  have hs : s ≠ [] := by
    rintro rfl
    exact hne h.symm
  obtain ⟨d, more, rfl⟩ := List.exists_cons_of_ne_nil hs
  intro c hc
  obtain rfl : d = c := Option.some.inj hc
  exact isWord_of_isKeyword hword h d List.mem_cons_self

theorem isBlank_of_isWord {c : Char} (h : isWord c = true) : isBlank c = false := by
  rw [Bool.eq_false_iff]
  intro hblank
  rw [isWord_of_isBlank hblank] at h
  cases h

/-! ## Texts in quotes -/

theorem doubleQuote_cons (quote c : Char) (s : List Char) :
    doubleQuote quote (c :: s) = (if c = quote then [c, c] else [c]) ++ doubleQuote quote s := rfl

/-- The inside of quotes ends at the first quote that is not doubled. -/
theorem doubledQuotes_doubleQuote {β : Type} {next : List Char → Next β} {s tail : List Char}
    {b : β} (htail : '\'' ∉ tail.head?) (h : next (doubleQuote '\'' s) ('\'' :: tail) = some b) :
    doubledQuotes next (doubleQuote '\'' s ++ '\'' :: tail) = some b := by
  induction s generalizing next with
  | nil =>
    have hstop : doubledQuotes next ('\'' :: tail) = next [] ('\'' :: tail) := by
      rw [doubledQuotes]
      rintro rest rfl
      exact htail rfl
    exact hstop.trans h
  | cons c s ih =>
    rw [doubleQuote_cons] at h ⊢
    by_cases hc : c = '\''
    · subst hc
      rw [if_pos rfl] at h ⊢
      have hmore : doubledQuotes (fun m => next ('\'' :: '\'' :: m))
          (doubleQuote '\'' s ++ '\'' :: tail) = some b := ih h
      show doubledQuotes next ('\'' :: '\'' :: (doubleQuote '\'' s ++ '\'' :: tail)) = some b
      rw [doubledQuotes, hmore]
      rfl
    · rw [if_neg hc] at h ⊢
      have hmore : doubledQuotes (fun m => next (c :: m))
          (doubleQuote '\'' s ++ '\'' :: tail) = some b := ih h
      show doubledQuotes next (c :: (doubleQuote '\'' s ++ '\'' :: tail)) = some b
      rw [doubledQuotes, hmore]
      · rfl
      · intro rest hrest
        exact absurd hrest hc
      · exact hc

/-- A text in quotes is a word of its own, whatever stands in it. -/
theorem operand_quoted {β : Type} {next : List Char → Next β} {s tail : List Char} {b : β}
    (htail : '\'' ∉ tail.head?) (h : next (Value.quoted s) tail = some b) :
    operand next (Value.quoted s ++ tail) = some b := by
  have hclose :
      mark '\'' (next ('\'' :: doubleQuote '\'' s ++ ['\''])) ('\'' :: tail) = some b := by
    rw [mark, if_pos rfl]
    exact h
  have hquoted : singleQuoted next (Value.quoted s ++ tail) = some b := by
    rw [Value.quoted, List.cons_append, List.cons_append, List.append_assoc, List.singleton_append,
      singleQuoted, mark, if_pos rfl]
    exact doubledQuotes_doubleQuote htail hclose
  rw [operand, hquoted]
  rfl

theorem undouble_doubleQuote (s : List Char) : undouble (doubleQuote '\'' s) = s := by
  induction s with
  | nil => rfl
  | cons c s ih =>
    rw [doubleQuote_cons]
    by_cases hc : c = '\''
    · subst hc
      rw [if_pos rfl]
      show undouble ('\'' :: '\'' :: doubleQuote '\'' s) = _
      rw [undouble, ih]
    · rw [if_neg hc]
      show undouble (c :: doubleQuote '\'' s) = _
      rw [undouble, ih]
      intro rest hrest
      exact absurd hrest hc

/-- Without its quotes a text is what it was. -/
theorem unquote_quoted (s : List Char) : unquote (Value.quoted s) = s := by
  have hbetween : between? '\'' (Value.quoted s) = some (doubleQuote '\'' s) := by
    rw [Value.quoted, List.cons_append, between?, if_pos rfl, dropEnd?, List.reverse_append]
    show (some (doubleQuote '\'' s).reverse).map List.reverse = _
    rw [Option.map_some, List.reverse_reverse]
  rw [unquote, hbetween]
  exact undouble_doubleQuote s

/-! ## Options -/

theorem optionHere?_optionText {p : String × String} (hkey : IsOptionName p.1) {rest : List Char}
    (hrest : '\'' ∉ rest.head?) (gap : List Char) :
    optionHere? gap (optionText p ++ rest) =
      some ⟨gap, p.1.toList, Value.quoted p.2.toList, rest⟩ := by
  obtain ⟨c, more, hname, hc, hmore⟩ := hkey
  have hequals : ∀ d ∈ ('=' :: (Value.quoted p.2.toList ++ rest)).head?, isWord d = false := by
    rintro d ⟨⟩
    decide
  have hquote : ∀ d ∈ (Value.quoted p.2.toList ++ rest).head?, isBlank d = false := by
    rintro d ⟨⟩
    decide
  rw [optionText, hname, List.append_assoc, List.cons_append, optionHere?, if_pos hc,
    List.cons_append]
  refine greedy_append (fun d hd => isWord_of_ascii (hmore d hd)) hequals ?_
  rw [blanks, greedy_of_stop (by rintro d ⟨⟩; decide), mark, if_pos rfl, blanks,
    greedy_of_stop hquote]
  exact operand_quoted hrest rfl

/-- No option starts at a blank. -/
theorem optionHere?_blank {c : Char} (h : isBlank c = true) (gap rest : List Char) :
    optionHere? gap (c :: rest) = none := by
  have hstart : ¬ isKeyStart c = true := by
    intro hc
    have hword := isWord_of_isKeyStart hc
    rw [isWord_of_isBlank h] at hword
    cases hword
  rw [optionHere?, if_neg hstart]

theorem dropWhile_append_stop {p : Char → Bool} {run rest : List Char}
    (hrun : ∀ c ∈ run, p c = true) (hrest : ∀ c ∈ rest.head?, p c = false) :
    (run ++ rest).dropWhile p = rest := by
  rw [List.dropWhile_append_of_pos hrun]
  cases rest with
  | nil => rfl
  | cons c more =>
    refine List.dropWhile_cons_of_neg ?_
    rw [hrest c rfl]
    exact Bool.false_ne_true

/-- No option starts in a word behind which blanks, but no equals sign, follow. -/
theorem optionHere?_word {word gap : List Char} (hword : ∀ c ∈ word, isWord c = true)
    (hne : word ≠ []) (hgap : IsGap gap) {d : Char} (hd : isWord d = true)
    (before rest : List Char) :
    optionHere? before (word ++ (gap ++ d :: rest)) = none := by
  obtain ⟨c, more, rfl⟩ := List.exists_cons_of_ne_nil hne
  rw [Option.eq_none_iff_forall_ne_some]
  intro found hfound
  rw [List.cons_append, optionHere?] at hfound
  split at hfound
  · obtain ⟨run, behind, htext, hrun, hbehind⟩ := greedy_eq_some hfound
    obtain ⟨space, sign, rfl, hspace, hsign⟩ := greedy_eq_some hbehind
    obtain ⟨after, rfl, -⟩ := mark_eq_some hsign
    -- Both sides lose their first word, and then the blanks behind it.
    have hstop : ∀ e ∈ (space ++ '=' :: after).head?, isWord e = false := by
      intro e he
      cases space with
      | nil =>
        obtain rfl : '=' = e := Option.some.inj he
        decide
      | cons b bs =>
        obtain rfl : b = e := Option.some.inj he
        exact isWord_of_isBlank (hspace b List.mem_cons_self)
    have hstop' : ∀ e ∈ (gap ++ d :: rest).head?, isWord e = false := fun e he =>
      isWord_of_isBlank (hgap.head _ e he)
    have hmore : ∀ e ∈ more, isWord e = true := fun e he => hword e (List.mem_cons_of_mem c he)
    have hgaps : gap ++ d :: rest = space ++ '=' :: after := by
      have hdrop := congrArg (List.dropWhile isWord) htext
      rwa [dropWhile_append_stop hmore hstop', dropWhile_append_stop hrun hstop] at hdrop
    have hsame : d :: rest = '=' :: after := by
      have hdrop := congrArg (List.dropWhile isBlank) hgaps
      rwa [dropWhile_append_stop hgap.blank (by rintro e ⟨⟩; exact isBlank_of_isWord hd),
        dropWhile_append_stop hspace (by rintro e ⟨⟩; decide)] at hdrop
    obtain rfl : d = '=' := (List.cons.inj hsame).1
    exact absurd hd (by decide)
  · cases hfound

theorem nextOption?_of_none {c : Char} {rest passed : List Char}
    (h : optionHere? passed.reverse (c :: rest) = none) :
    nextOption? passed (c :: rest) = nextOption? (c :: passed) rest := by
  rw [nextOption?, h]

theorem nextOption?_blanks {gap : List Char} (hgap : ∀ c ∈ gap, isBlank c = true)
    (passed s : List Char) :
    nextOption? passed (gap ++ s) = nextOption? (gap.reverse ++ passed) s := by
  induction gap generalizing passed with
  | nil => rfl
  | cons c gap ih =>
    rw [List.cons_append, nextOption?_of_none (optionHere?_blank (hgap c List.mem_cons_self) _ _),
      ih fun d hd => hgap d (List.mem_cons_of_mem c hd)]
    simp

theorem nextOption?_word {word gap : List Char} (hword : ∀ c ∈ word, isWord c = true)
    (hgap : IsGap gap) {d : Char} (hd : isWord d = true) (passed rest : List Char) :
    nextOption? passed (word ++ (gap ++ d :: rest)) =
      nextOption? (word.reverse ++ passed) (gap ++ d :: rest) := by
  induction word generalizing passed with
  | nil => rfl
  | cons c word ih =>
    have hnone := optionHere?_word hword (List.cons_ne_nil c word) hgap hd passed.reverse rest
    rw [List.cons_append] at hnone ⊢
    rw [nextOption?_of_none hnone, ih fun e he => hword e (List.mem_cons_of_mem c he)]
    simp

theorem IsOptionName.optionText_eq {p : String × String} (h : IsOptionName p.1)
    (rest : List Char) : ∃ c more, optionText p ++ rest = c :: more ∧ isWord c = true := by
  obtain ⟨c, more, hname, hc, -⟩ := h
  refine ⟨c, more ++ '=' :: Value.quoted p.2.toList ++ rest, ?_, isWord_of_isKeyStart hc⟩
  rw [optionText, hname, List.cons_append, List.cons_append]

theorem nextOption?_optionText {p : String × String} (hkey : IsOptionName p.1)
    {rest : List Char} (hrest : '\'' ∉ rest.head?) (passed : List Char) :
    nextOption? passed (optionText p ++ rest) =
      some ⟨passed.reverse, p.1.toList, Value.quoted p.2.toList, rest⟩ := by
  have hhere := optionHere?_optionText hkey hrest passed.reverse
  obtain ⟨c, more, htext, -⟩ := hkey.optionText_eq rest
  rw [htext] at hhere ⊢
  rw [nextOption?, hhere]

/-- What may stand before an option: nothing, or behind another one `AND` between blanks. -/
inductive IsLead : Bool → List Char → Prop
  | nil (first : Bool) : IsLead first []
  | between {gap word gap' : List Char} (hgap : IsGap gap) (hword : IsKeyword "AND" word)
      (hgap' : IsGap gap') : IsLead false (gap ++ (word ++ gap'))

theorem isWord_of_and {word : List Char} (h : IsKeyword "AND" word) :
    ∀ c ∈ word, isWord c = true :=
  isWord_of_isKeyword (by decide) h

/-- Behind what may stand before an option the option is found. -/
theorem nextOption?_between {first : Bool} {lead : List Char} (hlead : IsLead first lead)
    {p : String × String} (hkey : IsOptionName p.1) {rest : List Char}
    (hrest : '\'' ∉ rest.head?) :
    nextOption? [] (lead ++ (optionText p ++ rest)) =
      some ⟨lead, p.1.toList, Value.quoted p.2.toList, rest⟩ := by
  cases hlead with
  | nil => exact nextOption?_optionText hkey hrest []
  | @between gap word gap' hgap hword hgap' =>
    obtain ⟨c, more, htext, hc⟩ := hkey.optionText_eq rest
    rw [List.append_assoc, List.append_assoc, nextOption?_blanks hgap.blank, htext,
      nextOption?_word (isWord_of_and hword) hgap' hc, nextOption?_blanks hgap'.blank, ← htext,
      nextOption?_optionText hkey hrest]
    simp

/-- What may stand before an option is not an error. -/
theorem IsLead.accepted {first : Bool} {lead : List Char} (h : IsLead first lead) :
    ((trim lead).isEmpty ||
      (!first && equalsIgnoringAsciiCase (trim lead) "AND".toList)) = true := by
  cases h with
  | nil => rfl
  | @between gap word gap' hgap hword hgap' =>
    have hne : word ≠ [] := by
      rintro rfl
      exact absurd (show [] = "AND".toList from hword) (by decide)
    have hedge : ∀ c ∈ word, isBlank c = false := fun c hc =>
      isBlank_of_isWord (isWord_of_and hword c hc)
    have htrim : trim (gap ++ (word ++ gap')) = word :=
      dropEnds_append hgap.blank hgap'.blank (fun c hc => hedge c (List.mem_of_head? hc))
        (fun c hc => hedge c (List.mem_of_getLast? hc)) hne
    have hand : equalsIgnoringAsciiCase word "AND".toList = true := by
      rw [hword.equals]
      decide
    rw [htrim, hand, Bool.and_true, Bool.not_false, Bool.or_true]

theorem readOptions_step {first : Bool} {lead : List Char} (hlead : IsLead first lead)
    {p : String × String} (hkey : IsOptionName p.1) {rest : List Char}
    (hrest : '\'' ∉ rest.head?) (steps : Nat) (options : Options) :
    readOptions (steps + 1) first options (lead ++ (optionText p ++ rest)) =
      readOptions steps false (options.set p.1 p.2) rest := by
  rw [readOptions, nextOption?_between hlead hkey hrest]
  show (if _ then _ else _) = _
  rw [if_pos hlead.accepted, unquote_quoted, String.ofList_toList, String.ofList_toList]

/-- Every option of a clause is set, one after the other. -/
theorem readOptions_optionsText {pairs : List (String × String)} {s : List Char}
    (h : OptionsText pairs s) (hkeys : ∀ p ∈ pairs, IsOptionName p.1) {first : Bool}
    {lead : List Char} (hlead : IsLead first lead) (options : Options) {steps : Nat}
    (hsteps : pairs.length ≤ steps) :
    readOptions steps first options (lead ++ s) =
      .ok (pairs.foldl (fun o p => o.set p.1 p.2) options) := by
  induction h generalizing first lead options steps with
  | last p =>
    obtain ⟨steps, rfl⟩ := Nat.exists_eq_add_of_le' hsteps
    have hend : '\'' ∉ ([] : List Char).head? := by simp
    have hstep := readOptions_step hlead (hkeys p List.mem_cons_self) hend steps options
    rw [List.append_nil] at hstep
    refine hstep.trans ?_
    cases steps with
    | zero => rfl
    | succ steps => rfl
  | @cons p gap word gap' hgap hword hgap' more s _ ih =>
    obtain ⟨steps, rfl⟩ := Nat.exists_eq_add_of_le' (Nat.lt_of_lt_of_le (Nat.succ_pos _) hsteps)
    have hrest : '\'' ∉ (gap ++ (word ++ (gap' ++ s))).head? := fun hmem =>
      absurd (hgap.head _ _ hmem) (by decide)
    rw [readOptions_step hlead (hkeys p List.mem_cons_self) hrest]
    have hmore := ih (fun q hq => hkeys q (List.mem_cons_of_mem p hq))
      (IsLead.between hgap hword hgap') (options.set p.1 p.2) (Nat.le_of_succ_le_succ hsteps)
    rwa [List.append_assoc, List.append_assoc] at hmore

theorem OptionsText.length_le {pairs : List (String × String)} {s : List Char}
    (h : OptionsText pairs s) : pairs.length ≤ s.length := by
  induction h with
  | last p =>
    simp only [optionText, List.length_cons, List.length_append, List.length_nil]
    omega
  | cons p hgap hword hgap' h ih =>
    simp only [optionText, List.length_cons, List.length_append]
    omega

theorem parseOptions_optionsText {pairs : List (String × String)} {s : List Char}
    (h : OptionsText pairs s) (hkeys : ∀ p ∈ pairs, IsOptionName p.1) :
    parseOptions s = .ok (Options.ofPairs pairs) :=
  readOptions_optionsText h hkeys (.nil true) .empty (Nat.le_succ_of_le h.length_le)

/-- The options that are set are those under the keys in capitals. -/
theorem values_ofPairs (pairs : List (String × String)) :
    (Options.ofPairs pairs).values = Keyed.ofPairs (pairs.map fun p => (uppered p.1, p.2)) := by
  have hfold : ∀ (pairs : List (String × String)) (o : Options),
      (pairs.foldl (fun o p => o.set p.1 p.2) o).values =
        (pairs.map fun p => (uppered p.1, p.2)).foldl (fun m p => m.insert p.1 p.2) o.values := by
    intro pairs
    induction pairs with
    | nil => exact fun o => rfl
    | cons p more ih => exact fun o => ih (o.set p.1 p.2)
  exact hfold pairs .empty

/-! ## The clause and the target -/

/-- Whether a word has ended where a text begins. -/
def StopsWord (s : List Char) : Prop := ∀ c ∈ s.head?, isBlank c = true ∨ c = ';'

theorem EndText.mem {s : List Char} (h : EndText s) : ∀ c ∈ s, isBlank c = true ∨ c = ';' := by
  cases h with
  | blanks h => exact fun c hc => .inl (h c hc)
  | semicolon h h' =>
    intro c hc
    rcases List.mem_append.mp hc with hmem | hmem
    · exact .inl (h c hmem)
    · exact (List.mem_cons.mp hmem).symm.imp_left (h' c)

theorem EndText.finish_eq {β : Type} {s : List Char} (h : EndText s) (b : β) :
    finish b s = some b := by
  cases h with
  | blanks h => exact finish_blanks b h
  | semicolon h h' => exact finish_semicolon b h h'

theorem ClauseText.stopsWord {pairs : List (String × String)} {clause tail : List Char}
    (hclause : ClauseText pairs clause) (htail : EndText tail) : StopsWord (clause ++ tail) := by
  intro c hc
  cases hclause with
  | none => exact htail.mem c (List.mem_of_head? hc)
  | some hgap =>
    rw [List.append_assoc] at hc
    exact .inl (hgap.head _ c hc)

/-- Options end in a quote, which does not end a command. -/
theorem OptionsText.getLast? {pairs : List (String × String)} {s : List Char}
    (h : OptionsText pairs s) : s.getLast? = some '\'' := by
  have hoption : ∀ p : String × String, (optionText p).getLast? = some '\'' := by
    intro p
    rw [optionText, Value.quoted, ← List.cons_append, ← List.append_assoc, List.getLast?_concat]
  induction h with
  | last p => exact hoption p
  | cons p hgap hword hgap' h ih =>
    simp only [List.getLast?_append, ih, Option.some_or]

theorem isKeyLetter_of_keyword {β : Type} {w : Char} {ws : List Char} {next : Next β}
    {s : List Char} {b : β} (h : keyword (w :: ws) next s = some b) :
    ∃ c ∈ s, isKeyLetter w c = true := by
  cases s with
  | nil => cases h
  | cons c rest =>
    rw [keyword] at h
    split at h
    · next hc => exact ⟨c, List.mem_cons_self, hc⟩
    · cases h

/-- Behind the end of a command no clause begins. -/
theorem EndText.no_clause {β : Type} {s : List Char} (h : EndText s) (next : Next β) :
    someBlanks (keyword "WITH".toList next) s = none := by
  rw [Option.eq_none_iff_forall_ne_some]
  intro b hb
  obtain ⟨run, rest, rfl, -, -, hrest⟩ := greedySome_eq_some hb
  obtain ⟨c, hmem, hc⟩ : ∃ c ∈ rest, isKeyLetter 'W' c = true := isKeyLetter_of_keyword hrest
  have hletter : IsKeyword "W" [c] := by
    have hupper : c.toUpper = 'W' := by simpa [isKeyLetter] using hc
    rw [IsKeyword, List.map_singleton, hupper]
    rfl
  have hword := isWord_of_isKeyword (by decide) hletter c List.mem_cons_self
  rcases h.mem c (List.mem_append_right run hmem) with hblank | rfl
  · rw [isWord_of_isBlank hblank] at hword
    cases hword
  · exact absurd hword (by decide)

theorem OptionsText.head {pairs : List (String × String)} {s : List Char}
    (h : OptionsText pairs s) (hkeys : ∀ p ∈ pairs, IsOptionName p.1) (rest : List Char) :
    ∀ c ∈ (s ++ rest).head?, isBlank c = false := by
  intro c hc
  have hfirst : ∃ d more, s ++ rest = d :: more ∧ isWord d = true := by
    cases h with
    | last p => exact (hkeys p List.mem_cons_self).optionText_eq rest
    | cons p =>
      rw [List.append_assoc]
      exact (hkeys p List.mem_cons_self).optionText_eq _
  obtain ⟨d, more, htext, hd⟩ := hfirst
  rw [htext] at hc
  obtain rfl : d = c := Option.some.inj hc
  exact isBlank_of_isWord hd

/-- A clause ends where the end of the command begins, and not before. -/
theorem OptionsText.fewest_eq {β : Type} {pairs : List (String × String)} {s tail : List Char}
    (h : OptionsText pairs s) (htail : EndText tail) (make : List Char → β) :
    fewest (fun m => finish (make m)) (s ++ tail) = some (make s) := by
  refine fewest_append ?_ (htail.finish_eq _)
  intro before after hs hne
  rw [Option.eq_none_iff_forall_ne_some]
  intro b hb
  have hquote : '\'' ∈ after := by
    have hlast := h.getLast?
    rw [hs, List.getLast?_append, List.getLast?_eq_some_getLast hne, Option.some_or] at hlast
    rw [← Option.some.inj hlast]
    exact List.getLast_mem hne
  have hcases := mem_of_finish hb '\'' (List.mem_append_left tail hquote)
  exact absurd hcases (by decide)

/-- The clause is all that stands between its word and the end. -/
theorem matchClause_clauseText {pairs : List (String × String)}
    (hkeys : ∀ p ∈ pairs, IsOptionName p.1) {clause tail : List Char}
    (hclause : ClauseText pairs clause) (htail : EndText tail) :
    ∃ clause?, (∀ make, matchClause make (clause ++ tail) = some (make clause?)) ∧
      (clause?.map parseOptions).getD (.ok .empty) = .ok (Options.ofPairs pairs) := by
  cases hclause with
  | none =>
    refine ⟨none, fun make => ?_, rfl⟩
    rw [List.nil_append, matchClause, htail.no_clause]
    exact htail.finish_eq _
  | @some gap word gap' hgap hword hgap' _ s h =>
    refine ⟨some s, fun make => ?_, parseOptions_optionsText h hkeys⟩
    have hwith : ∀ c ∈ (word ++ (gap' ++ (s ++ tail))).head?, isBlank c = false := fun c hc =>
      isBlank_of_isWord (hword.head (by decide) (by decide) _ c hc)
    have hmatch : someBlanks (keyword "WITH".toList
        (someBlanks (fewest fun m => finish (make (some m)))))
        (gap ++ (word ++ (gap' ++ (s ++ tail)))) = some (make (some s)) := by
      refine someBlanks_gap hgap hwith ?_
      rw [keyword_letters hword]
      exact someBlanks_gap hgap' (h.head hkeys tail) (h.fewest_eq htail _)
    rw [List.append_assoc, List.append_assoc, List.append_assoc, matchClause, hmatch]
    rfl

/-- A bare word ends where blanks or a semicolon follow. -/
theorem operand_word {β : Type} {next : List Char → Next β} {word rest : List Char} {b : β}
    (hne : word ≠ []) (hword : ∀ c ∈ word, isWord c = true) (hrest : StopsWord rest)
    (h : next word rest = some b) : operand next (word ++ rest) = some b := by
  have hchar : ∀ c ∈ word, (!(isBlank c || c == ';')) = true := by
    intro c hc
    have hsemicolon : c ≠ ';' := by
      rintro rfl
      exact absurd (hword _ hc) (by decide)
    rw [isBlank_of_isWord (hword c hc), Bool.false_or, Bool.not_eq_true', beq_eq_false_iff_ne]
    exact hsemicolon
  have hstop : ∀ c ∈ rest.head?, (!(isBlank c || c == ';')) = false := by
    intro c hc
    rw [Bool.not_eq_false', Bool.or_eq_true, beq_iff_eq]
    exact hrest c hc
  have hbare := greedySome_append hne hchar hstop h
  obtain ⟨c, more, rfl⟩ := List.exists_cons_of_ne_nil hne
  have hfirst := hword c List.mem_cons_self
  have hsingle : c ≠ '\'' := by
    rintro rfl
    exact absurd hfirst (by decide)
  have hdouble : c ≠ '"' := by
    rintro rfl
    exact absurd hfirst (by decide)
  rw [operand, List.cons_append, singleQuoted, mark, if_neg hsingle, doubleQuoted, mark,
    if_neg hdouble]
  exact hbare

theorem IsKeyword.ne_nil {word : String} (hne : word.toList ≠ []) {s : List Char}
    (h : IsKeyword word s) : s ≠ [] := by
  rintro rfl
  exact hne h.symm

theorem TargetText.operand_eq {β : Type} {next : List Char → Next β} {target : Target}
    {s rest : List Char} (h : TargetText target s) (hrest : StopsWord rest) {b : β}
    (hnext : next s rest = some b) : operand next (s ++ rest) = some b := by
  cases h with
  | stdin h =>
    exact operand_word (h.ne_nil (by decide)) (isWord_of_isKeyword (by decide) h) hrest hnext
  | stdout h =>
    exact operand_word (h.ne_nil (by decide)) (isWord_of_isKeyword (by decide) h) hrest hnext
  | path file =>
    refine operand_quoted ?_ hnext
    intro hquote
    exact absurd (hrest _ hquote) (by decide)

theorem TargetText.head {target : Target} {s : List Char} (h : TargetText target s)
    (rest : List Char) : ∀ c ∈ (s ++ rest).head?, isBlank c = false := by
  intro c hc
  cases h with
  | stdin h => exact isBlank_of_isWord (h.head (by decide) (by decide) rest c hc)
  | stdout h => exact isBlank_of_isWord (h.head (by decide) (by decide) rest c hc)
  | path file =>
    obtain rfl : '\'' = c := Option.some.inj hc
    decide

/-- The word for a target names it again. -/
theorem targetOf_targetText (home : String) {target : Target} {s : List Char}
    (h : TargetText target s)
    (hhome : ∀ file, target = .path file → ¬ "~/".toList <+: file.toList) :
    targetOf home s = target := by
  cases h with
  | stdin h =>
    have hout : equalsIgnoringAsciiCase s "STDOUT".toList = false := by
      rw [h.equals]
      decide
    have hin : equalsIgnoringAsciiCase s "STDIN".toList = true := by
      rw [h.equals]
      decide
    rw [targetOf, hout, hin]
    rfl
  | stdout h =>
    have hout : equalsIgnoringAsciiCase s "STDOUT".toList = true := by
      rw [h.equals]
      decide
    rw [targetOf, hout]
    rfl
  | path file =>
    -- No keyword starts with a quote.
    have hword : ∀ word : String, word.toList.head? = some 'S' →
        equalsIgnoringAsciiCase (Value.quoted file.toList) word.toList = false := by
      intro word hfirst
      obtain ⟨more, hmore⟩ := List.head?_eq_some_iff.mp hfirst
      rw [equalsIgnoringAsciiCase, hmore, Value.quoted, List.cons_append, List.map_cons,
        List.map_cons, List.cons_beq_cons, show ('\''.toLower == 'S'.toLower) = false from rfl,
        Bool.false_and]
    have hnone : dropStart? ['~', '/'] file.toList = none := by
      rw [Option.eq_none_iff_forall_ne_some]
      intro rest hrest
      exact hhome file rfl ⟨rest, (dropStart?_eq_some hrest).symm⟩
    rw [targetOf, hword "STDOUT" rfl, hword "STDIN" rfl, unquote_quoted, String.ofList_toList]
    show Target.path (Path.expandHome home file) = Target.path file
    rw [Path.expandHome, hnone]

/-! ## The direction and the columns -/

theorem DirectionText.head {d : Direction} {s : List Char} (h : DirectionText d s)
    (rest : List Char) : ∀ c ∈ (s ++ rest).head?, isWord c = true := by
  cases d with
  | exporting => exact IsKeyword.head (by decide) (by decide) h rest
  | importing => exact IsKeyword.head (by decide) (by decide) h rest

theorem matchDirection_directionText
    {make : Direction → List Char → Option (List Char) → Pieces} {d : Direction}
    {direction rest : List Char} (h : DirectionText d direction) {b : Pieces}
    (hrest : matchTarget (make d) rest = some b) :
    matchDirection make false (direction ++ rest) = some b := by
  cases d with
  | exporting =>
    rw [matchDirection, keyword_letters h, hrest]
    rfl
  | importing =>
    have hnone : keyword "TO".toList (matchTarget (make .exporting)) (direction ++ rest) =
        none := by
      match direction, h with
      | c :: more, h =>
        have hc : c.toUpper = 'F' := (List.cons.inj h).1
        have hkey : ¬ isKeyLetter 'T' c = true := by simp [isKeyLetter, hc]
        rw [List.cons_append, show "TO".toList = ['T', 'O'] from rfl, keyword, if_neg hkey]
    rw [matchDirection, hnone, keyword_letters h, hrest]
    rfl

/-- The direction stands behind blanks, or behind a bracket. -/
theorem matchBlanksDirection_directionText
    {make : Direction → List Char → Option (List Char) → Pieces} {d : Direction}
    {gap direction rest : List Char} (hgap : ∀ c ∈ gap, isBlank c = true) {behindWord : Bool}
    (hbehind : (behindWord && gap.isEmpty) = false) (h : DirectionText d direction) {b : Pieces}
    (hrest : matchTarget (make d) rest = some b) :
    matchBlanksDirection make behindWord (gap ++ (direction ++ rest)) = some b := by
  refine greedy_append hgap (fun c hc => isBlank_of_isWord (h.head rest c hc)) ?_
  rw [hbehind]
  exact matchDirection_directionText h hrest

theorem nameIn?_append {name : String} (h : IsColumnName name) {lead : List Char}
    (hlead : ∀ c ∈ lead, isBlank c = true) : nameIn? (lead ++ name.toList) = some name := by
  have htrim : trim (lead ++ name.toList) = name.toList := by
    have hdrop := dropEnds_append hlead (List.forall_mem_nil _) h.first h.last h.ne_nil
    rwa [List.append_nil] at hdrop
  have hquote : ∀ c ∈ name.toList, (c == '"') = false := by
    intro c hc
    rw [beq_eq_false_iff_ne]
    rintro rfl
    exact h.no_quote hc
  have hbare : dropEnds (· == '"') name.toList = name.toList := by
    have hdrop := dropEnds_append (p := (· == '"')) (List.forall_mem_nil _)
      (List.forall_mem_nil _) (fun c hc => hquote c (List.mem_of_head? hc))
      (fun c hc => hquote c (List.mem_of_getLast? hc)) h.ne_nil
    rwa [List.append_nil, List.nil_append] at hdrop
  obtain ⟨c, more, hname⟩ := List.exists_cons_of_ne_nil h.ne_nil
  rw [nameIn?, htrim, hbare, hname]
  show some (String.ofList (c :: more)) = some name
  rw [← hname, String.ofList_toList]

/-- A list of names is read as these names. -/
theorem splitNames_namesText {names : List String} {s : List Char} (h : NamesText names s)
    (hnames : ∀ n ∈ names, IsColumnName n) {lead : List Char}
    (hlead : ∀ c ∈ lead, isBlank c = true) : splitNames (lead ++ s) = names := by
  have hcomma : ∀ {lead : List Char}, (∀ c ∈ lead, isBlank c = true) → ',' ∉ lead := by
    intro lead hlead hmem
    exact absurd (hlead _ hmem) (by decide)
  induction h generalizing lead with
  | last name =>
    have hname := hnames name List.mem_cons_self
    have hno : ',' ∉ lead ++ name.toList := fun hmem =>
      (List.mem_append.mp hmem).elim (hcomma hlead) hname.no_comma
    rw [splitNames, splitAll_of_not_mem hno, List.filterMap_cons_some (nameIn?_append hname hlead),
      List.filterMap_nil]
  | @cons name gap hgap more s _ ih =>
    have hname := hnames name List.mem_cons_self
    have hno : ',' ∉ lead ++ name.toList := fun hmem =>
      (List.mem_append.mp hmem).elim (hcomma hlead) hname.no_comma
    rw [splitNames, ← List.append_assoc, splitAll_append _ hno,
      List.filterMap_cons_some (nameIn?_append hname hlead)]
    exact congrArg (name :: ·) (ih (fun n hn => hnames n (List.mem_cons_of_mem _ hn)) hgap.blank)

theorem NamesText.no_close {names : List String} {s : List Char} (h : NamesText names s)
    (hnames : ∀ n ∈ names, IsColumnName n) : ')' ∉ s := by
  induction h with
  | last name => exact (hnames name List.mem_cons_self).no_close
  | @cons name gap hgap more s _ ih =>
    have hrest := ih fun n hn => hnames n (List.mem_cons_of_mem _ hn)
    have hblank : ')' ∉ gap := fun hmem => absurd (hgap.blank _ hmem) (by decide)
    simp only [List.mem_append, List.mem_cons, not_or]
    exact ⟨(hnames name List.mem_cons_self).no_close, by decide, hblank, hrest⟩

theorem NamesText.ne_nil {names : List String} {s : List Char} (h : NamesText names s) :
    names ≠ [] := by
  cases h with
  | last name => exact List.cons_ne_nil _ _
  | cons name => exact List.cons_ne_nil _ _

theorem ColumnsText.head {names : List String} {columns gap : List Char}
    (h : ColumnsText names columns) (hgap : IsGap gap) (rest : List Char) :
    ∀ c ∈ (columns ++ (gap ++ rest)).head?, isBlank c = true := by
  cases h with
  | none => exact hgap.head rest
  | some hgap' =>
    rw [List.append_assoc]
    exact hgap'.head _

/-- The columns are those in the brackets, and none where no bracket stands. -/
theorem matchColumns_columnsText (table : List Char) {names : List String}
    {columns : List Char} (h : ColumnsText names columns)
    (hnames : ∀ n ∈ names, IsColumnName n) {gap direction rest : List Char} (hgap : IsGap gap)
    {d : Direction} (hdirection : DirectionText d direction) {target : List Char}
    {clause? : Option (List Char)}
    (hrest : ∀ make, matchTarget make rest = some (make target clause?)) :
    ∃ columns?, matchColumns table (columns ++ (gap ++ (direction ++ rest))) =
        some ⟨table, columns?, d, target, clause?⟩ ∧
      (columns?.map splitNames).getD [] = names ∧
      (columns?.isSome && names.isEmpty) = false := by
  cases h with
  | none =>
    refine ⟨none, ?_, rfl, rfl⟩
    have hword := hdirection.head rest
    have hstop : ∀ c ∈ (direction ++ rest).head?, isBlank c = false := fun c hc =>
      isBlank_of_isWord (hword c hc)
    have hempty : gap.isEmpty = false := by
      rw [List.isEmpty_eq_false_iff]
      exact hgap.ne_nil
    rw [List.nil_append]
    refine greedy_append hgap.blank hstop ?_
    have hopen : ∀ next : Next Pieces, mark '(' next (direction ++ rest) = none := by
      intro next
      rw [Option.eq_none_iff_forall_ne_some]
      intro b hb
      obtain ⟨after, htext, -⟩ := mark_eq_some hb
      rw [htext] at hword
      exact absurd (hword '(' rfl) (by decide)
    rw [hopen]
    refine matchBlanksDirection_directionText (List.forall_mem_nil _) ?_ hdirection (hrest _)
    rw [hempty, Bool.and_false, Bool.false_and]
  | @some gap' hgap' _ s hs =>
    refine ⟨some s, ?_, splitNames_namesText hs hnames (List.forall_mem_nil _), ?_⟩
    · rw [List.append_assoc]
      refine greedy_append hgap'.blank (by rintro c ⟨⟩; decide) ?_
      have hinside : ∀ c ∈ s, (c != ')') = true := by
        intro c hc
        rw [bne_iff_ne]
        rintro rfl
        exact hs.no_close hnames hc
      have hmatch : mark '(' (greedy (· != ')') fun columns =>
          mark ')' (matchBlanksDirection (fun d t c => ⟨table, some columns, d, t, c⟩) false))
          ('(' :: (s ++ ')' :: (gap ++ (direction ++ rest)))) =
            some ⟨table, some s, d, target, clause?⟩ := by
        rw [mark, if_pos rfl]
        refine greedy_append hinside (by rintro c ⟨⟩; rfl) ?_
        rw [mark, if_pos rfl]
        exact matchBlanksDirection_directionText hgap.blank rfl hdirection (hrest _)
      rw [List.cons_append, List.append_assoc, List.singleton_append, hmatch]
      rfl
    · rw [List.isEmpty_eq_false_iff.mpr hs.ne_nil, Bool.and_false]

/-! ## Whole commands -/

theorem IsWritable.isTableChar {t : Transfer} (h : IsWritable t) :
    ∀ c ∈ t.table.toList, isTableChar c = true := by
  intro c hc
  unfold Command.isTableChar
  rcases h.table c hc with hword | rfl
  · rw [hword, Bool.true_or, Bool.true_or]
  · rfl

/-- A table name has no quotes to lose. -/
theorem IsWritable.filter_table {t : Transfer} (h : IsWritable t) :
    t.table.toList.filter (· != '"') = t.table.toList := by
  rw [List.filter_eq_self]
  intro c hc
  rw [bne_iff_ne]
  rintro rfl
  exact absurd (h.table _ hc) (by decide)

/-- The pieces of a command are those of which it was put together. -/
theorem pieces?_commandText {t : Transfer} (ht : IsWritable t) {pairs : List (String × String)}
    (hkeys : ∀ p ∈ pairs, IsOptionName p.1) {s : List Char} (h : CommandText t pairs s) :
    ∃ columns? target clause?,
      pieces? s = some ⟨t.table.toList, columns?, t.direction, target, clause?⟩ ∧
      (columns?.map splitNames).getD [] = t.columns ∧
      (columns?.isSome && t.columns.isEmpty) = false ∧ TargetText t.target target ∧
      (clause?.map parseOptions).getD (.ok .empty) = .ok (Options.ofPairs pairs) := by
  obtain ⟨hlead, hcopy, hgap, hcolumns, hgap₁, hdirection, hgap₂, htarget, hclause, htail⟩ := h
  rename_i lead copy gap columns gap₁ direction gap₂ target clause tail
  obtain ⟨clause?, hmatch, hoptions⟩ := matchClause_clauseText hkeys hclause htail
  have hrest : ∀ make, matchTarget make (gap₂ ++ (target ++ (clause ++ tail))) =
      some (make target clause?) := by
    intro make
    refine someBlanks_gap hgap₂ (htarget.head _) ?_
    exact htarget.operand_eq (hclause.stopsWord htail) (hmatch _)
  obtain ⟨columns?, hcols, hnames, hsome⟩ :=
    matchColumns_columnsText t.table.toList hcolumns ht.columns hgap₁ hdirection hrest
  refine ⟨columns?, target, clause?, ?_, hnames, hsome, htarget, hoptions⟩
  refine greedy_append hlead ?_ ?_
  · intro c hc
    exact isBlank_of_isWord (hcopy.head (by decide) (by decide) _ c hc)
  · rw [keyword_letters hcopy]
    refine someBlanks_gap hgap ?_ (greedySome_append ht.table_ne_nil ht.isTableChar ?_ hcols)
    · obtain ⟨d, more, htable⟩ := List.exists_cons_of_ne_nil ht.table_ne_nil
      intro c hc
      rw [htable] at hc
      obtain rfl : d = c := Option.some.inj hc
      refine Statement.isBlank_of_isTableChar (ht.isTableChar d ?_)
      rw [htable]
      exact List.mem_cons_self
    · intro c hc
      exact Statement.isTableChar_of_isBlank (hcolumns.head hgap₁ _ c hc)

/-- Every transfer is read from the commands that spell it. -/
theorem command_reads_back (home : String) {t : Transfer} (ht : IsWritable t)
    {pairs : List (String × String)} (hkeys : ∀ p ∈ pairs, IsOptionName p.1)
    (hpairs : (pairs.map fun p => (uppered p.1, p.2)).Perm t.options.values) {command : String}
    (hcommand : CommandText t pairs command.toList) : parse home command = .ok t := by
  obtain ⟨columns?, target, clause?, hpieces, hnames, hsome, htarget, hoptions⟩ :=
    pieces?_commandText ht hkeys hcommand
  have hvalues : Options.ofPairs pairs = t.options := by
    have hof := (values_ofPairs pairs).trans (Keyed.ofPairs_of_perm hpairs ht.options)
    cases hset : Options.ofPairs pairs with
    | mk values =>
      rw [hset] at hof
      exact congrArg Options.mk hof
  rw [parse, hpieces]
  simp only [hnames, hsome, hoptions, ht.filter_table, String.ofList_toList,
    targetOf_targetText home htarget ht.target, hvalues, Bool.false_eq_true, if_false]

/-- The path has a quote, a semicolon and a line break, and words of the grammar stand in the path
and in a value. -/
theorem command_reads_back_nested :
    parse "/home/user" ("copy ks.users (id,  full name) FrOM 'a''b; WITH X=1\n' " ++
        "With null='' And Delim=''' AND K=''';") =
      .ok ⟨"ks.users", ["id", "full name"], .importing, .path "a'b; WITH X=1\n",
        ⟨[("DELIM", "' AND K='"), ("NULL", "")]⟩⟩ := by
  have hspace : IsGap [' '] := ⟨by decide, List.all_eq_true.mp (by decide)⟩
  have hspaces : IsGap [' ', ' '] := ⟨by decide, List.all_eq_true.mp (by decide)⟩
  have hnames : NamesText ["id", "full name"] "id,  full name".toList :=
    .cons "id" hspaces (.last "full name")
  have hoptions : OptionsText [("null", ""), ("Delim", "' AND K='")]
      "null='' And Delim=''' AND K='''".toList :=
    .cons ("null", "") hspace (rfl : IsKeyword "AND" "And".toList) hspace
      (.last ("Delim", "' AND K='"))
  have htail : EndText [';'] := .semicolon (List.forall_mem_nil _) (List.forall_mem_nil _)
  have hcolumn : ∀ n ∈ ["id", "full name"], IsColumnName n := by
    intro n hn
    simp only [List.mem_cons, List.not_mem_nil, or_false] at hn
    rcases hn with rfl | rfl <;>
      exact ⟨by decide, by rintro c ⟨⟩; decide, by rintro c ⟨⟩; decide, by decide, by decide,
        by decide⟩
  have hkeys : ∀ p ∈ [("null", ""), ("Delim", "' AND K='")], IsOptionName p.1 := by
    intro p hp
    simp only [List.mem_cons, List.not_mem_nil, or_false] at hp
    rcases hp with rfl | rfl
    · exact ⟨'n', "ull".toList, by decide, by decide, List.all_eq_true.mp (by decide)⟩
    · exact ⟨'D', "elim".toList, by decide, by decide, List.all_eq_true.mp (by decide)⟩
  have hpath : ∀ file, Target.path "a'b; WITH X=1\n" = .path file →
      ¬ "~/".toList <+: file.toList := by
    rintro file ⟨⟩
    decide
  have hincreasing : Keyed.IsIncreasing [("DELIM", "' AND K='"), ("NULL", "")] :=
    List.pairwise_pair.mpr (by decide)
  have hdirection : DirectionText .importing "FrOM".toList := rfl
  have htext := CommandText.of (t := ⟨"ks.users", ["id", "full name"], .importing,
      .path "a'b; WITH X=1\n", ⟨[("DELIM", "' AND K='"), ("NULL", "")]⟩⟩)
    (List.forall_mem_nil _) (rfl : IsKeyword "COPY" "copy".toList) hspace (.some hspace hnames)
    hspace hdirection hspace (.path _)
    (.some hspace (rfl : IsKeyword "WITH" "With".toList) hspace hoptions) htail
  have htable : ∀ c ∈ "ks.users".toList, isWord c = true ∨ c = '.' := by
    have hall : "ks.users".toList.all (fun c => isWord c || c == '.') = true := by decide
    intro c hc
    have hchar := List.all_eq_true.mp hall c hc
    rwa [Bool.or_eq_true, beq_iff_eq] at hchar
  refine command_reads_back "/home/user" ⟨by decide, htable, hcolumn, hpath, hincreasing⟩ hkeys
    (.trans (.of_eq ?_) (.swap _ _ _)) ?_
  · decide
  · exact htext

end BulkTransfer.Command
