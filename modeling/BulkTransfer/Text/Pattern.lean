import BulkTransfer.Text.Blank

/-!
Matching with preferences. A pattern is given what comes next; where it can match in several ways
it tries them in a fixed order and keeps the first with which the rest of the text matches too.

- `greedy_of_next`: a greedy run that the rest accepts takes all it can.
- `greedy_eq_some`, `greedySome_eq_some`, `mark_eq_some`: what a match says about the text.
- `fewest_append`: a shortest run ends where the rest first matches.
-/

namespace BulkTransfer.Text.Pattern

variable {β : Type}

/-- What follows in the pattern: it gets the text still to match. -/
abbrev Next (β : Type) := List Char → Option β

/-- The first of two ways that matches. -/
def orElse (first : Option β) (second : Unit → Option β) : Option β :=
  match first with
  | some b => some b
  | none => second ()

/-- Any number of characters of a class, as many as possible. -/
def greedy (p : Char → Bool) (next : List Char → Next β) : List Char → Option β
  | [] => next [] []
  | c :: rest =>
    if p c then orElse (greedy p (fun m => next (c :: m)) rest) fun _ => next [] (c :: rest)
    else next [] (c :: rest)

/-- One or more characters of a class, as many as possible. -/
def greedySome (p : Char → Bool) (next : List Char → Next β) : List Char → Option β
  | [] => none
  | c :: rest => if p c then greedy p (fun m => next (c :: m)) rest else none

/-- Any number of characters, as few as possible. -/
def fewest (next : List Char → Next β) : List Char → Option β
  | [] => next [] []
  | c :: rest => orElse (next [] (c :: rest)) fun _ => fewest (fun m => next (c :: m)) rest

/-- One or more characters, as few as possible. -/
def fewestSome (next : List Char → Next β) : List Char → Option β
  | [] => none
  | c :: rest => fewest (fun m => next (c :: m)) rest

/-- Any number of blanks. -/
def blanks (next : Next β) : Next β := greedy isBlank fun _ => next

/-- One or more blanks. -/
def someBlanks (next : Next β) : Next β := greedySome isBlank fun _ => next

/-- One given character. -/
def mark (c : Char) (next : Next β) : Next β
  | [] => none
  | d :: rest => if d = c then next rest else none

/-- Whether a character is a capital letter of a keyword, in any case. The Kelvin sign counts as
`K` and the long s as `S`. -/
def isKeyLetter (capital c : Char) : Bool :=
  c.toUpper == capital || (capital == 'K' && c.toNat == 0x212a) ||
    (capital == 'S' && c.toNat == 0x17f)

/-- A keyword given in capitals, in any case. -/
def keyword : List Char → Next β → Next β
  | [], next, s => next s
  | _ :: _, _, [] => none
  | w :: ws, next, c :: rest => if isKeyLetter w c then keyword ws next rest else none

/-- The inside of single quotes, where a quote is written twice, as much as possible. -/
def doubledQuotes (next : List Char → Next β) : List Char → Option β
  | [] => next [] []
  | '\'' :: '\'' :: rest =>
    orElse (doubledQuotes (fun m => next ('\'' :: '\'' :: m)) rest) fun _ =>
      next [] ('\'' :: '\'' :: rest)
  | '\'' :: rest => next [] ('\'' :: rest)
  | c :: rest => orElse (doubledQuotes (fun m => next (c :: m)) rest) fun _ => next [] (c :: rest)

/-- A word in single quotes. -/
def singleQuoted (next : List Char → Next β) : Next β :=
  mark '\'' (doubledQuotes fun m => mark '\'' (next ('\'' :: m ++ ['\''])))

/-- A word in double quotes. -/
def doubleQuoted (next : List Char → Next β) : Next β :=
  mark '"' (greedy (· != '"') fun m => mark '"' (next ('"' :: m ++ ['"'])))

/-- A quoted word, or a word that ends before a blank or a semicolon. -/
def operand (next : List Char → Next β) : Next β := fun s =>
  orElse (singleQuoted next s) fun _ => orElse (doubleQuoted next s) fun _ =>
    greedySome (fun c => !(isBlank c || c == ';')) next s

/-- The end of the text, behind blanks and at most one semicolon. -/
def finish (b : β) : Next β :=
  blanks fun s => orElse (mark ';' (blanks endOfText) s) fun _ => blanks endOfText s
where
  /-- Matches only where nothing is left. -/
  endOfText : Next β
    | [] => some b
    | _ :: _ => none

theorem greedy_of_next {p : Char → Bool} {next : List Char → Next β} {s : List Char} {b : β}
    (h : next (s.takeWhile p) (s.dropWhile p) = some b) : greedy p next s = some b := by
  induction s generalizing next with
  | nil => exact h
  | cons c rest ih =>
    simp only [greedy]
    split
    · next hc =>
      simp only [List.takeWhile_cons, List.dropWhile_cons, hc, if_true] at h
      have : greedy p (fun m => next (c :: m)) rest = some b := ih h
      rw [this]
      rfl
    · next hc =>
      simp only [List.takeWhile_cons, List.dropWhile_cons, hc] at h
      exact h

theorem greedy_of_stop {p : Char → Bool} {next : List Char → Next β} {s : List Char}
    (h : ∀ c ∈ s.head?, p c = false) : greedy p next s = next [] s := by
  cases s with
  | nil => rfl
  | cons c rest => simp only [greedy, h c rfl, Bool.false_eq_true, if_false]

theorem greedySome_of_stop {p : Char → Bool} {next : List Char → Next β} {c : Char}
    (h : p c = false) (s : List Char) : greedySome p next (c :: s) = none := by
  rw [greedySome, h]
  rfl

/-- A run up to where the class ends matches if what follows it does. -/
theorem greedy_append {p : Char → Bool} {next : List Char → Next β} {run rest : List Char} {b : β}
    (hrun : ∀ c ∈ run, p c = true) (hrest : ∀ c ∈ rest.head?, p c = false)
    (h : next run rest = some b) : greedy p next (run ++ rest) = some b := by
  refine greedy_of_next ?_
  have hstop : rest.takeWhile p = [] ∧ rest.dropWhile p = rest := by
    cases rest with
    | nil => exact ⟨rfl, rfl⟩
    | cons c more =>
      have hc : ¬ p c = true := by
        rw [hrest c rfl]
        exact Bool.false_ne_true
      exact ⟨List.takeWhile_cons_of_neg hc, List.dropWhile_cons_of_neg hc⟩
  rw [List.takeWhile_append_of_pos hrun, List.dropWhile_append_of_pos hrun, hstop.1, hstop.2,
    List.append_nil]
  exact h

theorem greedySome_append {p : Char → Bool} {next : List Char → Next β} {run rest : List Char}
    {b : β} (hne : run ≠ []) (hrun : ∀ c ∈ run, p c = true)
    (hrest : ∀ c ∈ rest.head?, p c = false) (h : next run rest = some b) :
    greedySome p next (run ++ rest) = some b := by
  obtain ⟨c, more, rfl⟩ := List.exists_cons_of_ne_nil hne
  rw [List.cons_append, greedySome, if_pos (hrun c List.mem_cons_self)]
  exact greedy_append (fun d hd => hrun d (List.mem_cons_of_mem c hd)) hrest h

/-- A single space is passed over. -/
theorem blanks_space {next : Next β} {s : List Char} {b : β}
    (hs : ∀ c ∈ s.head?, isBlank c = false) (h : next s = some b) :
    blanks next (' ' :: s) = some b := by
  have hspace : ∀ c ∈ [' '], isBlank c = true := List.all_eq_true.mp (by decide)
  exact greedy_append hspace hs h

theorem someBlanks_space_eq {next : Next β} {s : List Char}
    (hs : ∀ c ∈ s.head?, isBlank c = false) : someBlanks next (' ' :: s) = next s := by
  have hrest : greedy isBlank (fun _ => next) s = next s := greedy_of_stop hs
  rw [← hrest]
  rfl

theorem someBlanks_space {next : Next β} {s : List Char} {b : β}
    (hs : ∀ c ∈ s.head?, isBlank c = false) (h : next s = some b) :
    someBlanks next (' ' :: s) = some b :=
  (someBlanks_space_eq hs).trans h

/-- A keyword in capitals is passed over. -/
theorem keyword_append {word : List Char} (hword : ∀ c ∈ word, isKeyLetter c c = true)
    (next : Next β) (s : List Char) : keyword word next (word ++ s) = next s := by
  induction word with
  | nil => rfl
  | cons c rest ih =>
    rw [List.cons_append, keyword, if_pos (hword c List.mem_cons_self)]
    exact ih fun d hd => hword d (List.mem_cons_of_mem c hd)

/-- The shortest run is tried first. -/
theorem fewest_of_next {next : List Char → Next β} {s : List Char} {b : β}
    (h : next [] s = some b) : fewest next s = some b := by
  cases s with
  | nil => exact h
  | cons c rest =>
    rw [fewest, h]
    rfl

/-- A run of any characters leaves the last one where all of them are too many. -/
theorem greedy_concat {next : List Char → Next β} {s : List Char} {c : Char} {b : β}
    (hall : next (s ++ [c]) [] = none) (h : next s [c] = some b) :
    greedy (fun _ => true) next (s ++ [c]) = some b := by
  induction s generalizing next with
  | nil =>
    simp only [List.nil_append] at hall
    simp only [List.nil_append, greedy, if_true, hall, orElse]
    exact h
  | cons d rest ih =>
    simp only [List.cons_append, greedy, if_true]
    rw [ih hall h]
    rfl

/-- A run that matches is one of characters of the class. -/
theorem greedy_eq_some {p : Char → Bool} {next : List Char → Next β} {s : List Char} {b : β}
    (h : greedy p next s = some b) :
    ∃ run rest, s = run ++ rest ∧ (∀ c ∈ run, p c = true) ∧ next run rest = some b := by
  induction s generalizing next with
  | nil => exact ⟨[], [], rfl, by simp, h⟩
  | cons c rest ih =>
    simp only [greedy] at h
    split at h
    · next hc =>
      unfold orElse at h
      split at h
      · next hlong =>
        obtain rfl := Option.some.inj h
        obtain ⟨run, behind, hrest, hrun, hnext⟩ := ih hlong
        refine ⟨c :: run, behind, by rw [hrest]; rfl, ?_, hnext⟩
        exact List.forall_mem_cons.mpr ⟨hc, hrun⟩
      · exact ⟨[], c :: rest, rfl, by simp, h⟩
    · exact ⟨[], c :: rest, rfl, by simp, h⟩

theorem greedySome_eq_some {p : Char → Bool} {next : List Char → Next β} {s : List Char} {b : β}
    (h : greedySome p next s = some b) :
    ∃ run rest, s = run ++ rest ∧ run ≠ [] ∧ (∀ c ∈ run, p c = true) ∧ next run rest = some b := by
  cases s with
  | nil => nomatch h
  | cons c rest =>
    simp only [greedySome] at h
    split at h
    · next hc =>
      obtain ⟨run, behind, hrest, hrun, hnext⟩ := greedy_eq_some h
      refine ⟨c :: run, behind, by rw [hrest]; rfl, List.cons_ne_nil _ _, ?_, hnext⟩
      exact List.forall_mem_cons.mpr ⟨hc, hrun⟩
    · nomatch h

theorem mark_eq_some {c : Char} {next : Next β} {s : List Char} {b : β}
    (h : mark c next s = some b) : ∃ rest, s = c :: rest ∧ next rest = some b := by
  cases s with
  | nil => nomatch h
  | cons d rest =>
    simp only [mark] at h
    split at h
    · next hd => exact ⟨rest, by rw [hd], h⟩
    · nomatch h

/-- Behind a keyword that matches, what follows it matches. -/
theorem keyword_eq_some {word : List Char} {next : Next β} {s : List Char} {b : β}
    (h : keyword word next s = some b) :
    ∃ rest, s = s.take word.length ++ rest ∧ next rest = some b := by
  induction word generalizing s with
  | nil =>
    rw [keyword] at h
    exact ⟨s, rfl, h⟩
  | cons w ws ih =>
    cases s with
    | nil => nomatch h
    | cons c rest =>
      simp only [keyword] at h
      split at h
      · obtain ⟨behind, hrest, hnext⟩ := ih h
        refine ⟨behind, ?_, hnext⟩
        rw [List.length_cons, List.take_succ_cons, List.cons_append, ← hrest]
      · nomatch h

/-- A keyword that matches stands there in its letters. -/
theorem exists_letters_of_keyword {word : List Char} {next : Next β} {s : List Char} {b : β}
    (h : keyword word next s = some b) :
    ∃ letters rest, s = letters ++ rest ∧ letters.length = word.length ∧
      (∀ c ∈ letters, ∃ w ∈ word, isKeyLetter w c = true) ∧ next rest = some b := by
  induction word generalizing s with
  | nil => exact ⟨[], s, rfl, rfl, List.forall_mem_nil _, h⟩
  | cons w ws ih =>
    cases s with
    | nil => nomatch h
    | cons c rest =>
      simp only [keyword] at h
      split at h
      · next hc =>
        obtain ⟨letters, behind, rfl, hlength, hletters, hnext⟩ := ih h
        refine ⟨c :: letters, behind, rfl, by rw [List.length_cons, hlength, List.length_cons],
          List.forall_mem_cons.mpr ⟨⟨w, List.mem_cons_self, hc⟩, fun d hd => ?_⟩, hnext⟩
        obtain ⟨v, hv, hd⟩ := hletters d hd
        exact ⟨v, List.mem_cons_of_mem w hv, hd⟩
      · nomatch h

theorem endOfText_eq_some {b c : β} {s : List Char} (h : finish.endOfText b s = some c) :
    c = b ∧ s = [] := by
  cases s with
  | nil => exact ⟨(Option.some.inj h).symm, rfl⟩
  | cons d rest => nomatch h

/-- The end of the text gives the value that was made before it. -/
theorem finish_eq_some {b c : β} {s : List Char} (h : finish b s = some c) : c = b := by
  have hend : ∀ s, blanks (finish.endOfText b) s = some c → c = b := by
    intro s h
    obtain ⟨_, _, -, -, h⟩ := greedy_eq_some h
    exact (endOfText_eq_some h).1
  obtain ⟨_, rest, -, -, h⟩ := greedy_eq_some h
  unfold orElse at h
  split at h
  · next hmark =>
    obtain rfl := Option.some.inj h
    obtain ⟨_, -, h⟩ := mark_eq_some hmark
    exact hend _ h
  · exact hend _ h

/-- A keyword is passed over whatever the case of its letters. -/
theorem keyword_letters {word letters : List Char} (h : letters.map Char.toUpper = word)
    (next : Next β) (s : List Char) : keyword word next (letters ++ s) = next s := by
  subst h
  induction letters with
  | nil => rfl
  | cons c rest ih =>
    have hc : isKeyLetter c.toUpper c = true := by
      unfold isKeyLetter
      rw [beq_self_eq_true, Bool.true_or, Bool.true_or]
    rw [List.map_cons, List.cons_append, keyword, if_pos hc]
    exact ih

/-- The shortest run behind which the rest matches is taken. -/
theorem fewest_append {next : List Char → Next β} {run rest : List Char} {b : β}
    (hnone : ∀ before after, run = before ++ after → after ≠ [] →
      next before (after ++ rest) = none)
    (h : next run rest = some b) : fewest next (run ++ rest) = some b := by
  induction run generalizing next with
  | nil => exact fewest_of_next h
  | cons c more ih =>
    have hfirst : next [] (c :: (more ++ rest)) = none :=
      hnone [] (c :: more) rfl (List.cons_ne_nil _ _)
    rw [List.cons_append, fewest, hfirst]
    refine ih ?_ h
    intro before after hmore hne
    exact hnone (c :: before) after (by rw [hmore, List.cons_append]) hne

/-- A run of a class that starts a text ends before the first character outside of the class. -/
theorem exists_of_run_append {p : Char → Bool} {run rest before behind : List Char} {c : Char}
    (hrun : ∀ d ∈ run, p d = true) (hc : p c = false) (h : run ++ rest = before ++ c :: behind) :
    ∃ more, before = run ++ more ∧ rest = more ++ c :: behind := by
  induction run generalizing before with
  | nil => exact ⟨before, rfl, h⟩
  | cons d run ih =>
    cases before with
    | nil =>
      obtain ⟨rfl, -⟩ := List.cons.inj h
      rw [hrun d List.mem_cons_self] at hc
      nomatch hc
    | cons e before =>
      obtain ⟨rfl, htail⟩ := List.cons.inj h
      obtain ⟨more, rfl, hrest⟩ := ih (fun e he => hrun e (List.mem_cons_of_mem d he)) htail
      exact ⟨more, rfl, hrest⟩

/-- Only blanks and semicolons end a text. -/
theorem mem_of_finish {b c : β} {s : List Char} (h : finish b s = some c) :
    ∀ d ∈ s, isBlank d = true ∨ d = ';' := by
  have hend : ∀ s, blanks (finish.endOfText b) s = some c →
      ∀ d ∈ s, isBlank d = true ∨ d = ';' := by
    intro s hs d hd
    obtain ⟨run, rest, rfl, hrun, hrest⟩ := greedy_eq_some hs
    rw [(endOfText_eq_some hrest).2, List.append_nil] at hd
    exact .inl (hrun d hd)
  intro d hd
  obtain ⟨run, rest, rfl, hrun, hrest⟩ := greedy_eq_some h
  rcases List.mem_append.mp hd with hmem | hmem
  · exact .inl (hrun d hmem)
  · unfold orElse at hrest
    split at hrest
    · next hmark =>
      obtain rfl := Option.some.inj hrest
      obtain ⟨after, rfl, hafter⟩ := mark_eq_some hmark
      rcases List.mem_cons.mp hmem with rfl | hd'
      · exact .inr rfl
      · exact hend _ hafter d hd'
    · exact hend _ hrest d hmem

theorem blanks_endOfText (b : β) {s : List Char} (h : ∀ c ∈ s, isBlank c = true) :
    blanks (finish.endOfText b) s = some b := by
  have hall : blanks (finish.endOfText b) (s ++ []) = some b := greedy_append h (by simp) rfl
  rwa [List.append_nil] at hall

theorem finish_blanks (b : β) {s : List Char} (h : ∀ c ∈ s, isBlank c = true) :
    finish b s = some b := by
  have hall : finish b (s ++ []) = some b := greedy_append h (by simp) rfl
  rwa [List.append_nil] at hall

theorem finish_semicolon (b : β) {s s' : List Char} (h : ∀ c ∈ s, isBlank c = true)
    (h' : ∀ c ∈ s', isBlank c = true) : finish b (s ++ ';' :: s') = some b := by
  refine greedy_append h (by simp; decide) ?_
  rw [mark, if_pos rfl, blanks_endOfText b h']
  rfl

end BulkTransfer.Text.Pattern
