import BulkTransfer.Proofs.Session.Execute
import BulkTransfer.Proofs.Session.Query

/-!
Column names in statements. The list of a query is read whole, whatever its names hold: where the
word `FROM` stands inside a name, no table follows it up to the end. The list of a statement that
inserts a row ends at the first closing bracket. Names are then cut at commas and lose the quotes
around them, but quotes inside stay doubled.

- `Statement.not_from_inside`: no part of the list is taken for the end of it.
- `Statement.query?_select_names`: the pieces of a query for named columns.
- `Statement.insertion?_names_iff`: when the names of a statement that inserts a row are read back.
- `Session.column_names_read_back_iff`: which column names are read back from both statements.
-/

namespace BulkTransfer

open Text Text.Pattern

namespace Statement

/-! ## Keywords and limits -/

/-- The letters of the keywords behind the list are no blanks. -/
theorem isBlank_of_isKeyLetter {word : List Char} (hword : word ⊆ "FROMLIT".toList) {c : Char}
    (h : ∃ w ∈ word, isKeyLetter w c = true) : isBlank c = false := by
  rw [Bool.eq_false_iff]
  intro hblank
  have hall : ∀ n ∈ blankCodes,
      ("FROMLIT".toList.all fun w => !isKeyLetter w (Char.ofNat n)) = true := by decide +kernel
  obtain ⟨w, hw, hc⟩ := h
  have hnot := List.all_eq_true.mp (hall c.toNat (toNat_mem_blankCodes hblank)) w (hword hw)
  rw [Char.ofNat_toNat, hc] at hnot
  nomatch hnot

/-- What may follow the table of a query: it starts with no character of a name, and the letter that
starts the word before the table is not in it. -/
theorem matchLimit_eq_some {make : Option (List Char) → Query} {s : List Char} {q : Query}
    (h : matchLimit make s = some q) :
    'F' ∉ s ∧ ∀ c ∈ s.head?, isBlank c = true ∨ c = ';' := by
  have hend : ∀ {b : Query} {s : List Char}, finish b s = some q → 'F' ∉ s := by
    intro b s hs hmem
    exact absurd (mem_of_finish hs 'F' hmem) (by decide)
  unfold matchLimit orElse at h
  split at h
  · next hlimit =>
    obtain rfl := Option.some.inj h
    obtain ⟨gap, rest, rfl, hgapne, hgap, hlimit⟩ := greedySome_eq_some hlimit
    obtain ⟨letters, rest, rfl, -, hletters, hlimit⟩ := exists_letters_of_keyword hlimit
    obtain ⟨space, rest, rfl, -, hspace, hlimit⟩ := greedySome_eq_some hlimit
    obtain ⟨digits, rest, rfl, -, hdigits, hlimit⟩ := greedySome_eq_some hlimit
    constructor
    · simp only [List.mem_append, not_or]
      refine ⟨fun hmem => absurd (hgap 'F' hmem) (by decide), fun hmem => ?_,
        fun hmem => absurd (hspace 'F' hmem) (by decide),
        fun hmem => absurd (hdigits 'F' hmem) (by decide), hend hlimit⟩
      obtain ⟨w, hw, hF⟩ := hletters 'F' hmem
      have hall : ∀ w ∈ "LIMIT".toList, (!isKeyLetter w 'F') = true :=
        List.all_eq_true.mp (by decide)
      have hnot := hall w hw
      rw [hF] at hnot
      nomatch hnot
    · obtain ⟨d, more, rfl⟩ := List.exists_cons_of_ne_nil hgapne
      intro c hc
      obtain rfl : d = c := Option.some.inj hc
      exact .inl (hgap d List.mem_cons_self)
  · refine ⟨hend h, fun c hc => ?_⟩
    exact mem_of_finish h c (List.mem_of_mem_head? hc)

/-- The end of a query: its limit, if it has one. -/
def limitText : Option Nat → List Char
  | none => []
  | some n => ' ' :: ("LIMIT".toList ++ ' ' :: Integer.digits n)

theorem isNumeral_digits (n : Nat) : ∀ c ∈ Integer.digits n, isNumeral c = true := by
  intro c hc
  have hcode := Integer.toNat_of_isDigit (Integer.isDigit_digits n c hc)
  have hdigit : c.isDigit = true := by
    unfold Char.isDigit
    rw [Bool.and_eq_true, decide_eq_true_eq, decide_eq_true_eq]
    exact ⟨UInt32.le_iff_toNat_le.mpr hcode.1, UInt32.le_iff_toNat_le.mpr hcode.2⟩
  unfold isNumeral
  rw [if_pos (by omega), hdigit]

theorem isBlank_head_digits {n : Nat} : ∀ c ∈ (Integer.digits n).head?, isBlank c = false := by
  intro c hc
  have hcode := Integer.toNat_of_isDigit
    (Integer.isDigit_digits n c (List.mem_of_mem_head? hc))
  simp only [isBlank, Bool.or_eq_false_iff, Bool.and_eq_false_iff, beq_eq_false_iff_ne,
    decide_eq_false_iff_not]
  omega

theorem matchLimit_limitText (make : Option (List Char) → Query) (limit? : Option Nat) :
    matchLimit make (limitText limit?) = some (make (limit?.map Integer.digits)) := by
  cases limit? with
  | none => rfl
  | some n =>
    have hword : ∀ c ∈ "LIMIT".toList, isKeyLetter c c = true := List.all_eq_true.mp (by decide)
    have hdigits : greedySome isNumeral (fun digits => finish (make (some digits)))
        (Integer.digits n ++ []) = some (make (some (Integer.digits n))) :=
      greedySome_append (Integer.digits_ne_nil n) (isNumeral_digits n) (by simp) rfl
    rw [List.append_nil] at hdigits
    have hlimit : someBlanks (keyword "LIMIT".toList (someBlanks (greedySome isNumeral fun digits =>
        finish (make (some digits))))) (limitText (some n)) =
          some (make (some (Integer.digits n))) := by
      refine someBlanks_space (by simp; decide) ?_
      rw [keyword_append hword]
      exact someBlanks_space isBlank_head_digits hdigits
    unfold matchLimit
    rw [hlimit]
    rfl

/-! ## The table of a query -/

section Table

variable {table : List Char} (hne : table ≠ [])
  (htable : ∀ c ∈ table, Command.isTableChar c = true)
include hne htable

/-- A table is no limit: behind its name no number follows. -/
theorem no_limit_in_table (next : List Char → Next Query) (limit? : Option Nat) :
    keyword "LIMIT".toList (someBlanks (greedySome isNumeral next))
      (table ++ limitText limit?) = none := by
  refine Option.eq_none_iff_forall_ne_some.mpr fun q hq => ?_
  obtain ⟨letters, behind, hsplit, -, hletters, hkey⟩ := exists_letters_of_keyword hq
  obtain ⟨gap, rest, rfl, hgap, hblanks, hnext⟩ := greedySome_eq_some hkey
  obtain ⟨b, gap, rfl⟩ := List.exists_cons_of_ne_nil hgap
  have hb := hblanks b List.mem_cons_self
  have hword : ∀ c ∈ letters, (!isBlank c) = true := by
    intro c hc
    rw [isBlank_of_isKeyLetter (by decide) (hletters c hc)]
    rfl
  have hstop : (!isBlank ' ') = false := by decide
  have hnot : b ∉ table := fun hmem => by
    rw [isBlank_of_isTableChar (htable b hmem)] at hb
    nomatch hb
  cases limit? with
  | none =>
    rw [limitText, List.append_nil] at hsplit
    exact hnot (hsplit ▸ by simp)
  | some n =>
    obtain ⟨inner, rfl, hbehind⟩ := exists_of_run_append hword hstop hsplit.symm
    cases inner with
    | nil =>
      obtain ⟨-, htail⟩ := List.cons.inj hbehind
      have hletter : gap ++ rest = [] ++ 'L' :: ("IMIT".toList ++ ' ' :: Integer.digits n) := htail
      obtain ⟨inner, hnil, rfl⟩ := exists_of_run_append (List.forall_mem_cons.mp hblanks).2
        (show isBlank 'L' = false by decide) hletter
      obtain ⟨-, rfl⟩ := List.append_eq_nil_iff.mp hnil.symm
      rw [List.nil_append, greedySome_of_stop (by decide)] at hnext
      nomatch hnext
    | cons d inner =>
      obtain ⟨rfl, -⟩ := List.cons.inj hbehind
      exact hnot (by simp)

theorem head_table (rest : List Char) : ∀ c ∈ (table ++ rest).head?, isBlank c = false := by
  obtain ⟨d, more, rfl⟩ := List.exists_cons_of_ne_nil hne
  intro c hc
  obtain rfl : d = c := Option.some.inj hc
  exact isBlank_of_isTableChar (htable d List.mem_cons_self)

/-- The table of a query is not taken for its end. -/
theorem matchLimit_table (make : Option (List Char) → Query) (limit? : Option Nat) :
    matchLimit make (' ' :: (table ++ limitText limit?)) = none := by
  unfold matchLimit
  rw [someBlanks_space_eq (head_table hne htable _), no_limit_in_table hne htable]
  refine Option.eq_none_iff_forall_ne_some.mpr fun q hq => ?_
  obtain ⟨c, more, rfl⟩ := List.exists_cons_of_ne_nil hne
  have hc := htable c List.mem_cons_self
  rcases mem_of_finish hq c (List.mem_cons_of_mem _ List.mem_cons_self) with hblank | rfl
  · rw [isBlank_of_isTableChar hc] at hblank
    nomatch hblank
  · exact absurd hc (by decide)

/-- What follows the table matches for the whole of it. -/
theorem matchTable_append (make : List Char → Option (List Char) → Query) (limit? : Option Nat) :
    greedySome Command.isTableChar (fun t => matchLimit (make t)) (table ++ limitText limit?) =
      some (make table (limit?.map Integer.digits)) := by
  refine greedySome_append hne htable ?_ (matchLimit_limitText _ limit?)
  cases limit? with
  | none => simp [limitText]
  | some n => simp [limitText]; decide

end Table

/-- No table ends before a word that starts as the one in front of it does. -/
theorem greedySome_before_from (make : List Char → Option (List Char) → Query)
    (before behind : List Char) :
    greedySome Command.isTableChar (fun t => matchLimit (make t))
      (before ++ ' ' :: 'F' :: behind) = none := by
  refine Option.eq_none_iff_forall_ne_some.mpr fun q hq => ?_
  obtain ⟨run, rest, hsplit, -, hrun, hlimit⟩ := greedySome_eq_some hq
  obtain ⟨more, -, rfl⟩ := exists_of_run_append hrun (show Command.isTableChar ' ' = false by decide)
    hsplit.symm
  exact (matchLimit_eq_some hlimit).1 (by simp)

/-- The word in front of the table is not taken for the table. -/
theorem greedySome_from {table : List Char} (hne : table ≠ [])
    (htable : ∀ c ∈ table, Command.isTableChar c = true)
    (make : List Char → Option (List Char) → Query) (limit? : Option Nat) :
    greedySome Command.isTableChar (fun t => matchLimit (make t))
      ("FROM".toList ++ ' ' :: (table ++ limitText limit?)) = none := by
  refine Option.eq_none_iff_forall_ne_some.mpr fun q hq => ?_
  obtain ⟨run, rest, hsplit, -, hrun, hlimit⟩ := greedySome_eq_some hq
  obtain ⟨inner, hword, rfl⟩ := exists_of_run_append hrun
    (show Command.isTableChar ' ' = false by decide) hsplit.symm
  cases inner with
  | nil =>
    rw [List.nil_append, matchLimit_table hne htable] at hlimit
    nomatch hlimit
  | cons c inner =>
    have hmem : c ∈ "FROM".toList := by
      rw [hword]
      simp
    have hall : ∀ c ∈ "FROM".toList, (!isBlank c && c != ';') = true :=
      List.all_eq_true.mp (by decide)
    obtain ⟨hblank, hend⟩ := Bool.and_eq_true_iff.mp (hall c hmem)
    rcases (matchLimit_eq_some hlimit).2 c rfl with h | rfl
    · rw [h] at hblank
      nomatch hblank
    · nomatch hend

/-- No part of a list is taken for its end: where the word in front of the table stands inside of
it, no table follows that word up to the end. -/
theorem not_from_inside {table : List Char} (hne : table ≠ [])
    (htable : ∀ c ∈ table, Command.isTableChar c = true)
    (make : List Char → Option (List Char) → Query) (limit? : Option Nat) {part : List Char}
    (hpart : part ≠ []) (hlast : ∀ c ∈ part.getLast?, isBlank c = false) :
    someBlanks (keyword "FROM".toList (someBlanks
      (greedySome Command.isTableChar fun t => matchLimit (make t))))
      (part ++ ' ' :: ("FROM".toList ++ ' ' :: (table ++ limitText limit?))) = none := by
  refine Option.eq_none_iff_forall_ne_some.mpr fun q hq => ?_
  obtain ⟨start, last, rfl⟩ : ∃ start last, part = start ++ [last] :=
    ⟨_, _, (List.dropLast_concat_getLast hpart).symm⟩
  have hlast := hlast last (by rw [List.getLast?_concat, Option.mem_some])
  have hword : ∀ {c : Char}, (∃ w ∈ "FROM".toList, isKeyLetter w c = true) → (!isBlank c) = true := by
    intro c hc
    rw [isBlank_of_isKeyLetter (by decide) hc]
    rfl
  have hspace : (!isBlank ' ') = false := by decide
  -- The blanks end before the last character of the part, and the word at the blank behind it.
  obtain ⟨gap, rest, hsplit, -, hgap, hq⟩ := greedySome_eq_some hq
  rw [List.append_assoc, List.singleton_append] at hsplit
  obtain ⟨inner, rfl, rfl⟩ := exists_of_run_append hgap hlast hsplit.symm
  obtain ⟨letters, rest, hletters, -, hkey, hq⟩ := exists_letters_of_keyword hq
  rw [List.append_cons] at hletters
  obtain ⟨tail, -, rfl⟩ := exists_of_run_append (fun c hc => hword (hkey c hc)) hspace hletters.symm
  -- So the blanks before the table end at the blank in front of the true word, or before it.
  obtain ⟨space, rest, htail, -, hspaces, hq⟩ := greedySome_eq_some hq
  obtain ⟨behind, hfrom⟩ : ∃ behind,
      "FROM".toList ++ ' ' :: (table ++ limitText limit?) = 'F' :: behind := ⟨_, rfl⟩
  have hnone := greedySome_from hne htable make limit?
  rw [hfrom] at htail hnone
  rw [List.append_cons] at htail
  obtain ⟨between, hbetween, rfl⟩ := exists_of_run_append hspaces
    (show isBlank 'F' = false by decide) htail.symm
  rcases List.eq_nil_or_concat between with rfl | ⟨before, c, rfl⟩
  · exact absurd (hnone.symm.trans hq) nofun
  · have hc : ' ' = c := by
      have hend := congrArg List.getLast? hbetween
      rw [List.concat_eq_append, ← List.append_assoc, List.getLast?_concat,
        List.getLast?_concat] at hend
      exact Option.some.inj hend
    subst hc
    rw [List.concat_eq_append, List.append_assoc, List.singleton_append,
      greedySome_before_from] at hq
    nomatch hq

/-! ## Lists of names -/

/-- A text with no blank at either end that does not start as the choice of all columns does. -/
structure HasEdges (s : List Char) : Prop where
  first : ∃ c rest, s = c :: rest ∧ isBlank c = false ∧ c ≠ '*'
  last : ∀ c ∈ s.getLast?, isBlank c = false

theorem hasEdges_quoteName (name : List Char) : HasEdges (quoteName name) := by
  unfold quoteName
  split
  · next hplain =>
    have hchars := isPlainNameChar_of_mem hplain
    obtain ⟨c, rest, rfl⟩ : ∃ c rest, name = c :: rest := by
      cases name with
      | nil => nomatch hplain
      | cons c rest => exact ⟨c, rest, rfl⟩
    refine ⟨⟨c, rest, rfl, isBlank_of_isPlainNameChar (hchars c List.mem_cons_self), ?_⟩, ?_⟩
    · rintro rfl
      exact absurd (hchars '*' List.mem_cons_self) (by decide)
    · intro d hd
      exact isBlank_of_isPlainNameChar (hchars d (List.mem_of_getLast? hd))
  · refine ⟨⟨'"', _, rfl, by decide, by decide⟩, fun c hc => ?_⟩
    rw [List.getLast?_concat, Option.mem_some] at hc
    subst hc
    decide

theorem hasEdges_nameList {list : List String} (hne : list ≠ []) :
    HasEdges (nameList list).toList := by
  rw [toList_nameList]
  induction list with
  | nil => exact absurd rfl hne
  | cons n more ih =>
    have hn := hasEdges_quoteName n.toList
    cases more with
    | nil => exact hn
    | cons m more =>
      have hmore := ih (List.cons_ne_nil m more)
      obtain ⟨c, rest, hfirst, hc⟩ := hn.first
      rw [List.map_cons] at hmore
      rw [List.map_cons, List.map_cons, joinWith]
      · refine ⟨⟨c, _, by rw [hfirst]; rfl, hc⟩, fun d hd => hmore.last d ?_⟩
        obtain ⟨e, tail, htail, -⟩ := hmore.first
        rw [List.getLast?_append, htail] at hd
        rw [htail]
        rw [List.getLast?_eq_some_getLast (List.cons_ne_nil e tail)] at hd ⊢
        exact hd
      · simp

theorem toList_select_names {names : List String} (hne : names ≠ []) (table : String)
    (limit? : Option Nat) :
    (select table names limit?).toList = "SELECT".toList ++ ' ' :: ((nameList names).toList ++
      ' ' :: ("FROM".toList ++ ' ' :: (table.toList ++ limitText limit?))) := by
  have hsome : names.isEmpty = false := List.isEmpty_eq_false_iff.mpr hne
  cases limit? with
  | none =>
    simp only [select, hsome, Bool.false_eq_true, if_false, String.toList_append,
      List.append_assoc, limitText, List.append_nil]
    rfl
  | some n =>
    simp only [select, hsome, Bool.false_eq_true, if_false, String.toList_append,
      List.append_assoc, limitText, Integer.natText, String.toList_ofList]
    rfl

/-- A query for named columns is read as the list, the table and the limit of which it was made,
whatever the names hold. -/
theorem query?_select_names {names : List String} (hnames : names ≠ []) {table : String}
    (hne : table.toList ≠ []) (htable : ∀ c ∈ table.toList, Command.isTableChar c = true)
    (limit? : Option Nat) :
    query? (select table names limit?).toList =
      some ⟨(nameList names).toList, table.toList, limit?.map Integer.digits⟩ := by
  have hselect : ∀ c ∈ "SELECT".toList, isKeyLetter c c = true := List.all_eq_true.mp (by decide)
  have hfrom : ∀ c ∈ "FROM".toList, isKeyLetter c c = true := List.all_eq_true.mp (by decide)
  have hedges := hasEdges_nameList hnames
  obtain ⟨c, rest, hlist, hc, -⟩ := hedges.first
  have hlast := hedges.last
  rw [toList_select_names hnames]
  rw [hlist] at hlast ⊢
  unfold query?
  refine (greedy_of_stop (by simp; decide)).trans ?_
  rw [keyword_append hselect]
  refine someBlanks_space (by simpa using hc) ?_
  refine fewest_append (fun before after hsplit hafter => ?_) ?_
  · refine not_from_inside hne htable (fun t limit? => ⟨c :: before, t, limit?⟩) limit? hafter ?_
    intro d hd
    refine hlast d ?_
    rw [hsplit, ← List.cons_append, List.getLast?_append, Option.mem_def.mp hd]
    rfl
  · refine someBlanks_space (by simp; decide) ?_
    rw [keyword_append hfrom]
    refine someBlanks_space (head_table hne htable _) ?_
    exact matchTable_append hne htable (fun t limit? => ⟨c :: rest, t, limit?⟩) limit?

/-! ## Statements that insert a row -/

/-- The list of a statement that inserts a row ends at the first closing bracket. -/
theorem close_not_mem_columns {s : List Char} {i : Insertion} (h : insertion? s = some i) :
    ')' ∉ i.columns := by
  obtain ⟨_, _, -, -, h⟩ := greedy_eq_some h
  obtain ⟨_, -, h⟩ := keyword_eq_some h
  obtain ⟨_, _, -, -, -, h⟩ := greedySome_eq_some h
  obtain ⟨_, -, h⟩ := keyword_eq_some h
  obtain ⟨_, _, -, -, -, h⟩ := greedySome_eq_some h
  obtain ⟨_, _, -, -, -, -, hclose⟩ := matchTable_eq_some h
  exact hclose

theorem toList_insertStart (table : String) (columns : List Column) (body : String) :
    (insertStart table columns ++ body ++ ")").toList =
      "INSERT INTO ".toList ++ (table.toList ++ ' ' :: '(' ::
        ((nameList (columns.map Column.name)).toList ++ ')' :: ' ' ::
          ("VALUES".toList ++ ' ' :: '(' :: (body.toList ++ [')'])))) := by
  simp only [insertStart, String.toList_append, List.append_assoc]
  rfl

section Insertion

variable {table : String} (hne : table.toList ≠ [])
  (htable : ∀ c ∈ table.toList, Command.isTableChar c = true)
include hne htable

/-- The names of a statement that inserts a row are read back just when its list can carry them,
whatever its values are. -/
theorem insertion?_names_iff (columns : List Column) (body : String) :
    (∃ i, insertion? (insertStart table columns ++ body ++ ")").toList = some i ∧
      names i.columns = columns.map Column.name) ↔ ∀ c ∈ columns, IsListable c.name := by
  rw [toList_insertStart]
  constructor
  · rintro ⟨i, hi, hnames⟩
    have hclose : ∀ n ∈ columns.map Column.name, ')' ∉ n.toList := by
      intro n hn
      rw [← hnames] at hn
      exact not_mem_of_names (.inr (close_not_mem_columns hi)) hn
    rw [insertion?_pieces hne htable (close_not_mem_nameList hclose)] at hi
    obtain rfl := Option.some.inj hi
    intro c hc
    have hmem : c.name ∈ columns.map Column.name := List.mem_map_of_mem hc
    obtain ⟨hsome, hquote, hcomma⟩ := names_nameList_iff.mp hnames c.name hmem
    exact ⟨hsome, hquote, hcomma, hclose c.name hmem⟩
  · intro h
    have hall : ∀ n ∈ columns.map Column.name, IsListable n := by
      intro n hn
      obtain ⟨c, hc, rfl⟩ := List.mem_map.mp hn
      exact h c hc
    refine ⟨_, insertion?_pieces hne htable
      (close_not_mem_nameList fun n hn => (hall n hn).no_close) body.toList, ?_⟩
    exact names_nameList_iff.mpr fun n hn => (hall n hn).isSelectable

end Insertion

end Statement

/-! ## Columns of a table -/

namespace Session

/-- Columns are selected under their own names. -/
theorem names_of_selectColumns {table : List Column} {names : List String} {columns : List Column}
    (h : selectColumns table names = .ok columns) : columns.map Column.name = names := by
  induction names generalizing columns with
  | nil =>
    obtain rfl := Except.ok.inj h
    rfl
  | cons name more ih =>
    rw [selectColumns] at h
    split at h
    · cases h
    · next c hc =>
      split at h
      · next rest hrest =>
        obtain rfl := Except.ok.inj h
        have hname : c.name = name := by simpa using List.find?_some hc
        rw [List.map_cons, ih hrest, hname]
      · cases h

/-- Names select columns of a table just when they are those of the columns. -/
theorem selectColumns_eq_ok_iff {table columns : List Column}
    (htable : (table.map Column.name).Nodup) (hcolumns : ∀ c ∈ columns, c ∈ table)
    {names : List String} :
    selectColumns table names = .ok columns ↔ names = columns.map Column.name := by
  constructor
  · intro h
    exact (names_of_selectColumns h).symm
  · rintro rfl
    exact selectColumns_names fun c hc => Column.find?_of_mem htable (hcolumns c hc)

/-- A write statement is taken to name these columns of the table that it names. -/
def Resolves (s : Session) (statement : String) (columns : List Column) : Prop :=
  ∃ i key t, Statement.insertion? statement.toList = some i ∧
    s.table? (String.ofList i.table) = .ok (key, t) ∧
    selectColumns t.columns (Statement.names i.columns) = .ok columns

theorem length_of_parseValues {text : List Char} {types : List (Option ColumnType)}
    {values : List Value} (h : Literal.parseValues text types = .ok values) :
    values.length = types.length := by
  rw [Literal.parseValues] at h
  obtain ⟨opened, -, h⟩ := bind_eq_ok.mp h
  obtain ⟨⟨read, rest⟩, -, h⟩ := bind_eq_ok.mp h
  obtain ⟨_, -, h⟩ := bind_eq_ok.mp h
  dsimp only at h
  split at h
  · cases h
  · next hlength =>
    obtain rfl := Except.ok.inj h
    exact Decidable.not_not.mp hlength

/-- A row that is added has a value under the name of each column. -/
theorem row_of_insertion {s : Session} {table : String} (hne : table.toList ≠ [])
    (htable : ∀ c ∈ table.toList, Command.isTableChar c = true) {columns : List Column}
    (hlistable : ∀ c ∈ columns, Statement.IsListable c.name) {body key : String} {u : Table}
    {row : Row}
    (h : s.insertion (Statement.insertStart table columns ++ body ++ ")") = .ok (key, u, row)) :
    ∃ values, values.length = columns.length ∧
      row = Row.ofFields ((columns.map Column.name).zip values) := by
  obtain ⟨i, types, values, hi, -, -, htypes, hvalues, hrow⟩ := insertion_eq_ok h
  obtain ⟨j, hj, hnames⟩ :=
    (Statement.insertion?_names_iff hne htable columns body).mpr hlistable
  obtain rfl := Option.some.inj (hi.symm.trans hj)
  have hlength : types.length = columns.length := by
    rw [typesOf_eq_ok htypes, hnames, List.length_map, List.length_map]
  exact ⟨values, (length_of_parseValues hvalues).trans hlength, hnames ▸ hrow⟩

/-- A list of names is not the asterisk for all columns. -/
theorem projected_nameList (columns : List Column) {names : List String} (hnames : names ≠ []) :
    projected columns (Statement.nameList names).toList =
      selectColumns columns (Statement.names (Statement.nameList names).toList) := by
  have hedges := Statement.hasEdges_nameList hnames
  obtain ⟨c, rest, hlist, hc, hstar⟩ := hedges.first
  have htrim : Text.trim (Statement.nameList names).toList =
      (Statement.nameList names).toList := by
    refine trim_eq_self (fun d hd => ?_) hedges.last
    rw [hlist, List.head?_cons, Option.mem_some] at hd
    exact hd ▸ hc
  unfold projected
  rw [htrim, if_neg]
  intro hall
  rw [hlist] at hall
  exact hstar (List.cons.inj hall).1

section Columns

variable {s : Session} {table : String} (hne : table.toList ≠ [])
  (htable : ∀ c ∈ table.toList, Command.isTableChar c = true) {t : Table}
  (ht : s.tables.get? (s.qualify table) = some t)
include hne htable ht

/-- The columns of a query are those that its list of names selects. -/
theorem columns_query_select {names : List String} (hnames : names ≠ []) (limit? : Option Nat) :
    (s.query (Statement.select table names limit?)).map QueryResult.columns =
      selectColumns t.columns (Statement.names (Statement.nameList names).toList) := by
  unfold query
  rw [Statement.query?_select_names hnames hne htable]
  dsimp only
  rw [String.ofList_toList, table?_of_get? ht]
  dsimp only
  rw [projected_nameList t.columns hnames]
  cases selectColumns t.columns (Statement.names (Statement.nameList names).toList) <;> rfl

theorem resolves_iff (hnodup : (t.columns.map Column.name).Nodup) {columns : List Column}
    (hmem : ∀ c ∈ columns, c ∈ t.columns) (body : String) :
    s.Resolves (Statement.insertStart table columns ++ body ++ ")") columns ↔
      ∀ c ∈ columns, Statement.IsListable c.name := by
  have htext := Statement.toList_insertStart table columns body
  have hfound : ∀ i, Statement.insertion?
      (Statement.insertStart table columns ++ body ++ ")").toList = some i →
        s.table? (String.ofList i.table) = .ok (s.qualify table, t) := by
    intro i hi
    rw [htext] at hi
    rw [Statement.table_insertion? hi, Statement.targetName_eq_self htable, String.ofList_toList]
    exact table?_of_get? ht
  rw [← Statement.insertion?_names_iff hne htable columns body]
  constructor
  · rintro ⟨i, key, u, hi, hu, hselect⟩
    obtain ⟨-, rfl⟩ := Prod.mk.inj (Except.ok.inj (hu.symm.trans (hfound i hi)))
    exact ⟨i, hi, (selectColumns_eq_ok_iff hnodup hmem).mp hselect⟩
  · rintro ⟨i, hi, hnames⟩
    exact ⟨i, _, t, hi, hfound i hi, (selectColumns_eq_ok_iff hnodup hmem).mpr hnames⟩

end Columns

/-- Columns of a table are found by the query that names them just when their names have neither
quotes nor commas, and by the statement that inserts a row just when they have no closing brackets
either; that row has its values under these names. No other text in a name hinders, not even words
of a statement. -/
theorem column_names_read_back_iff {s : Session} {table : String} (hne : table.toList ≠ [])
    (htable : ∀ c ∈ table.toList, Command.isTableChar c = true) {t : Table}
    (ht : s.tables.get? (s.qualify table) = some t)
    (hnodup : (t.columns.map Column.name).Nodup) {columns : List Column} (hcolumns : columns ≠ [])
    (hmem : ∀ c ∈ columns, c ∈ t.columns) :
    (∀ limit?, (s.query (Statement.select table (columns.map Column.name) limit?)).map
        QueryResult.columns = .ok columns ↔ ∀ c ∈ columns, Statement.IsSelectable c.name) ∧
    ∀ body, let statement := Statement.insertStart table columns ++ body ++ ")"
      (s.Resolves statement columns ↔ ∀ c ∈ columns, Statement.IsListable c.name) ∧
      ((∀ c ∈ columns, Statement.IsListable c.name) → ∀ key u row,
        s.insertion statement = .ok (key, u, row) →
          ∃ values, values.length = columns.length ∧
            row = Row.ofFields ((columns.map Column.name).zip values)) := by
  refine ⟨fun limit? => ?_, fun body => ⟨?_, ?_⟩⟩
  · have hnames : columns.map Column.name ≠ [] := fun hnil =>
      hcolumns (List.map_eq_nil_iff.mp hnil)
    rw [columns_query_select hne htable ht hnames, selectColumns_eq_ok_iff hnodup hmem,
      Statement.names_nameList_iff, List.forall_mem_map]
  · exact resolves_iff hne htable ht hnodup hmem body
  · intro hlistable key u row hrow
    exact row_of_insertion hne htable hlistable hrow

/-- Names with blanks, brackets and the words of statements are read back. -/
theorem column_names_read_back_words :
    let columns : List Column := [⟨"n FROM t LIMIT 1", some .int⟩, ⟨"Values (", some .text⟩]
    let s := (Session.new none).createTable "t" columns
    (s.query (Statement.select "t" (columns.map Column.name) (some 5))).map QueryResult.columns =
        .ok columns ∧
      s.Resolves (Statement.insertStart "t" columns ++ "1, 'a')" ++ ")") columns := by
  intro columns s
  have hlistable : ∀ c ∈ columns, Statement.IsListable c.name := by
    simp only [columns, List.forall_mem_cons]
    exact ⟨by decide, by decide, List.forall_mem_nil _⟩
  obtain ⟨hselect, hinsert⟩ := column_names_read_back_iff (s := s) (t := ⟨columns, []⟩)
    (show "t".toList ≠ [] by decide) (List.all_eq_true.mp (by decide)) rfl (by decide)
    (List.cons_ne_nil _ _) fun c hc => hc
  exact ⟨(hselect (some 5)).mpr fun c hc => (hlistable c hc).isSelectable,
    (hinsert _).1.mpr hlistable⟩

/-- A column whose name has a quote is not found: the name is read with its quote doubled. -/
theorem column_with_quote_not_found :
    let columns : List Column := [⟨"a\"b", some .int⟩]
    let s := (Session.new none).createTable "t" columns
    s.query (Statement.select "t" ["a\"b"] none) =
        .error (.execution (.undefinedColumn "a\"\"b")) ∧
      s.insertion (Statement.insertStart "t" columns ++ "1" ++ ")") =
        .error (.execution (.undefinedColumn "a\"\"b")) :=
  ⟨rfl, rfl⟩

end Session

end BulkTransfer
