import BulkTransfer.Literal.Conform
import BulkTransfer.Literal.Printer

/-!
Reading the tokens and sequences that the printer writes. A literal is read back whatever text
follows it, as long as that text cannot go on with the literal: it is empty, or its first character
ends a bare word and is no quote.

- `Stops`: the texts that may follow a literal.
- `readValue_word`, `readValue_quoted`: bare words and quoted texts.
- `Gives`, `GivesEach`: what written items are read as by the readers for their places.
- `readSequence_outcomes`: items with commas between, behind an opening and before a closing
  character.
-/

namespace BulkTransfer.Literal

open Text

/-- A text that can stand behind a literal: its first character ends a bare word and is no
quote. -/
def Stops (s : List Char) : Prop := ∀ c ∈ s.head?, isBare c = false ∧ c ≠ '\''

theorem stops_nil : Stops [] := by simp [Stops]

theorem stops_cons {c : Char} {s : List Char} (h : isBare c = false) (hq : c ≠ '\'') :
    Stops (c :: s) := by
  intro d hd
  rw [List.head?_cons, Option.mem_some] at hd
  subst hd
  exact ⟨h, hq⟩

/-! ## Quoted texts -/

theorem readQuoted_doubleQuote (quote : Char) (s : List Char) {rest : List Char}
    (hr : ∀ c ∈ rest.head?, c ≠ quote) :
    readQuoted quote (doubleQuote quote s ++ quote :: rest) = .ok (s, rest) := by
  induction s with
  | nil =>
    cases rest with
    | nil => simp [doubleQuote, readQuoted]
    | cons d rest =>
      have hd : d ≠ quote := hr d (by simp)
      simp [doubleQuote, readQuoted, hd]
  | cons c s ih =>
    have hcons : doubleQuote quote (c :: s) =
        (if c = quote then [c, c] else [c]) ++ doubleQuote quote s := rfl
    rw [hcons]
    split
    · next hc =>
      subst hc
      simp only [List.cons_append, List.nil_append, readQuoted, if_true, ih]
    · next hc =>
      have hne : doubleQuote quote s ++ quote :: rest ≠ [] := by simp
      obtain ⟨d, tail, hd⟩ := List.exists_cons_of_ne_nil hne
      rw [List.append_assoc, hd, List.singleton_append, readQuoted, if_neg hc, ← hd, ih]

/-! ## Bare words -/

theorem bareWord_append {word rest : List Char} (hw : ∀ c ∈ word, isBare c = true)
    (hr : Stops rest) : bareWord (word ++ rest) = word := by
  rw [bareWord, List.takeWhile_append_of_pos hw]
  cases rest with
  | nil => simp
  | cons c rest => simp [(hr c rfl).1]

theorem afterBareWord_append {word rest : List Char} (hw : ∀ c ∈ word, isBare c = true)
    (hr : Stops rest) : afterBareWord (word ++ rest) = rest := by
  rw [afterBareWord, List.dropWhile_append_of_pos hw]
  cases rest with
  | nil => simp
  | cons c rest => simp [(hr c rfl).1]

theorem isBlank_of_isBare {c : Char} (h : isBare c = true) : isBlank c = false := by
  simp only [isBare, Bool.not_eq_true', Bool.or_eq_false_iff] at h
  exact h.1.1.1.1.1.1.1.1.1

/-- A bare word is read for itself and then fitted to the type, whatever may follow it. -/
theorem readValue_word_eq {word rest : List Char} (levels size : Nat) (type? : Option ColumnType)
    (hne : word ≠ []) (hw : ∀ c ∈ word, isBare c = true) (hr : Stops rest) :
    readValue (levels + 1) size type? (word ++ rest) =
      (Value.ofBareWord word).bind fun v =>
        (typed (readValue levels) v type?).map fun w => (w, rest) := by
  obtain ⟨c, tail, rfl⟩ := List.exists_cons_of_ne_nil hne
  have hc := hw c (by simp)
  have htrim : trimStart (c :: tail ++ rest) = c :: (tail ++ rest) :=
    trimStart_eq_self (isBlank_of_isBare hc)
  have hne' : ∀ d, isBare d = false → c ≠ d := by
    rintro d hd rfl
    rw [hc] at hd
    exact absurd hd (by decide)
  have h1 := hne' '\'' (by decide)
  have h2 := hne' '[' (by decide)
  have h3 := hne' '{' (by decide)
  have h4 := hne' '(' (by decide)
  have hword : bareWord (c :: (tail ++ rest)) = c :: tail := bareWord_append hw hr
  have hafter : afterBareWord (c :: (tail ++ rest)) = rest := afterBareWord_append hw hr
  rw [readValue, htrim]
  simp only [hword, hafter]
  split <;> simp_all [bind, Except.bind, pure, Except.pure]
  cases Value.ofBareWord (c :: tail) with
  | error e => rfl
  | ok v => cases typed (readValue levels) v type? <;> rfl

theorem readValue_word {word rest : List Char} {levels size : Nat} {type? : Option ColumnType}
    {v : Value} (hne : word ≠ []) (hw : ∀ c ∈ word, isBare c = true) (hr : Stops rest)
    (hv : Value.ofBareWord word = .ok v) :
    readValue (levels + 1) size type? (word ++ rest) =
      (typed (readValue levels) v type?).map fun w => (w, rest) := by
  rw [readValue_word_eq levels size type? hne hw hr, hv]
  rfl

/-- A bare word is read, and fitted to the type, whatever may follow it. -/
theorem readValue_bare {word rest : List Char} {levels size : Nat} {type? : Option ColumnType}
    {v w : Value} (hne : word ≠ []) (hw : ∀ c ∈ word, isBare c = true) (hr : Stops rest)
    (hv : Value.ofBareWord word = .ok v) (ht : typed (readValue levels) v type? = .ok w) :
    readValue (levels + 1) size type? (word ++ rest) = .ok (w, rest) := by
  rw [readValue_word hne hw hr hv, ht]
  rfl

/-- A quoted text is fitted to the type, whatever may follow it. -/
theorem readValue_quoted_eq {rest : List Char} (levels size : Nat) (type? : Option ColumnType)
    (s : List Char) (hr : Stops rest) :
    readValue (levels + 1) size type? (Value.quoted s ++ rest) =
      (typed (readValue levels) (.text (String.ofList s)) type?).map fun w => (w, rest) := by
  have hq := readQuoted_doubleQuote '\'' s fun c hc => (hr c hc).2
  have htrim : trimStart (Value.quoted s ++ rest) =
      '\'' :: (doubleQuote '\'' s ++ '\'' :: rest) := by
    rw [Value.quoted, List.append_assoc, List.cons_append]
    exact trimStart_eq_self (by decide)
  rw [readValue, htrim]
  simp only [hq, bind, Except.bind, pure, Except.pure]
  cases typed (readValue levels) (.text (String.ofList s)) type? <;> rfl

theorem readValue_quoted {s rest : List Char} {levels size : Nat} {type? : Option ColumnType}
    {w : Value} (hr : Stops rest)
    (ht : typed (readValue levels) (.text (String.ofList s)) type? = .ok w) :
    readValue (levels + 1) size type? (Value.quoted s ++ rest) = .ok (w, rest) := by
  rw [readValue_quoted_eq levels size type? s hr, ht]
  rfl

/-! ## Sequences -/

/-- The characters that close a sequence. -/
def IsClosing (c : Char) : Prop := c = ']' ∨ c = '}' ∨ c = ')'

instance (c : Char) : Decidable (IsClosing c) := inferInstanceAs (Decidable (_ ∨ _))

theorem IsClosing.isBlank {c : Char} (h : IsClosing c) : isBlank c = false := by
  rcases h with rfl | rfl | rfl <;> decide

theorem IsClosing.stops {c : Char} (h : IsClosing c) (rest : List Char) : Stops (c :: rest) := by
  rcases h with rfl | rfl | rfl <;> exact stops_cons (by decide) (by decide)

theorem IsClosing.ne_comma {c : Char} (h : IsClosing c) : c ≠ ',' := by
  rcases h with rfl | rfl | rfl <;> decide

/-- A literal starts with neither a blank nor a closing character. -/
def StartsOpen (s : List Char) : Prop :=
  ∃ c rest, s = c :: rest ∧ isBlank c = false ∧ ¬ IsClosing c

theorem startsOpen_cons {c : Char} (rest : List Char) (hb : isBlank c = false)
    (hc : ¬ IsClosing c) : StartsOpen (c :: rest) := ⟨c, rest, rfl, hb, hc⟩

theorem startsOpen_of_bare {s : List Char} (hne : s ≠ []) (h : ∀ c ∈ s, isBare c = true) :
    StartsOpen s := by
  obtain ⟨c, rest, rfl⟩ := List.exists_cons_of_ne_nil hne
  have hc := h c (by simp)
  refine ⟨c, rest, rfl, isBlank_of_isBare hc, ?_⟩
  rintro (rfl | rfl | rfl) <;> exact absurd hc (by decide)

theorem StartsOpen.append {s : List Char} (h : StartsOpen s) (rest : List Char) :
    StartsOpen (s ++ rest) := by
  obtain ⟨c, tail, rfl, hb, hc⟩ := h
  exact ⟨c, tail ++ rest, rfl, hb, hc⟩

variable {α : Type}

/-- A written item has an outcome, whatever may follow it. -/
def Gives (item : Step α) (text : List Char) (outcome : Except ValueFailure α) : Prop :=
  ∀ rest, Stops rest → item (text ++ rest) = outcome.map fun a => (a, rest)

/-- Each of some written items has an outcome at its place. -/
def GivesEach (item : Nat → Step α) : Nat → List (Except ValueFailure α × List Char) → Prop
  | _, [] => True
  | index, (outcome, text) :: more =>
    Gives (item index) text outcome ∧ GivesEach item (index + 1) more

/-- Each of some written items is read back by the reader for its place, whatever may follow. -/
def ReadsEach (item : Nat → Step α) : Nat → List (α × List Char) → Prop
  | _, [] => True
  | index, (a, text) :: more =>
    (∀ rest, Stops rest → item index (text ++ rest) = .ok (a, rest)) ∧
      ReadsEach item (index + 1) more

/-- Items with commas and blanks between. -/
def commaSeparated (texts : List (List Char)) : List Char := joinWith [',', ' '] texts

/-- Each item takes a character or stands behind a comma. -/
theorem length_le_commaSeparated (texts : List (List Char)) :
    texts.length ≤ (commaSeparated texts).length + 1 := by
  induction texts with
  | nil => simp
  | cons text more ih =>
    cases more with
    | nil => simp
    | cons next more =>
      simp only [commaSeparated, joinWith, List.length_append, List.length_cons] at ih ⊢
      omega

/-- No item is longer than the whole sequence. -/
theorem length_le_of_mem {text : List Char} {texts : List (List Char)} (h : text ∈ texts) :
    text.length ≤ (commaSeparated texts).length := by
  induction texts with
  | nil => simp at h
  | cons first more ih =>
    cases more with
    | nil =>
      rw [List.mem_singleton] at h
      rw [h]
      exact Nat.le_refl _
    | cons next more =>
      have hlen : (commaSeparated (first :: next :: more)).length =
          first.length + 2 + (commaSeparated (next :: more)).length := by
        simp [commaSeparated, joinWith]
        omega
      rw [hlen]
      rcases List.mem_cons.mp h with rfl | h
      · omega
      · have := ih h
        omega

theorem givesEach_of_getElem? {item : Nat → Step α}
    {parts : List (Except ValueFailure α × List Char)} {index : Nat}
    (h : ∀ (i : Nat) p, parts[i]? = some p → Gives (item (index + i)) p.2 p.1) :
    GivesEach item index parts := by
  induction parts generalizing index with
  | nil => trivial
  | cons p more ih =>
    refine ⟨h 0 p rfl, ih fun i q hq => ?_⟩
    rw [Nat.add_assoc, Nat.add_comm 1 i]
    exact h (i + 1) q hq

theorem ReadsEach.givesEach {item : Nat → Step α} {parts : List (α × List Char)} {index : Nat}
    (h : ReadsEach item index parts) :
    GivesEach item index (parts.map fun p => (.ok p.1, p.2)) := by
  induction parts generalizing index with
  | nil => trivial
  | cons p more ih => exact ⟨h.1, ih h.2⟩

/-- Readers of items that pass a blank pass it in front of a sequence too. -/
theorem readItems_blank {close : Char} {item : Nat → Step α}
    (hblank : ∀ i s, item i (' ' :: s) = item i s) (steps index : Nat) (s : List Char) :
    readItems close item steps index (' ' :: s) = readItems close item steps index s := by
  cases steps with
  | zero => rfl
  | succ n => simp only [readItems, hblank]

theorem commaSeparated_cons (text next : List Char) (more : List (List Char)) (rest : List Char) :
    commaSeparated (text :: next :: more) ++ rest =
      text ++ ',' :: ' ' :: (commaSeparated (next :: more) ++ rest) := by
  simp [commaSeparated, joinWith]

/-- Items are read one after the other, up to the first that fails. -/
theorem readItems_commaSeparated {close : Char} (hclose : IsClosing close) {item : Nat → Step α}
    (hblank : ∀ i s, item i (' ' :: s) = item i s) (rest : List Char)
    {parts : List (Except ValueFailure α × List Char)} (hne : parts ≠ []) {index steps : Nat}
    (hparts : GivesEach item index parts) (hsteps : parts.length ≤ steps) :
    readItems close item steps index (commaSeparated (parts.map Prod.snd) ++ close :: rest) =
      (parts.mapM Prod.fst).map fun items => (items, rest) := by
  induction parts generalizing index steps with
  | nil => exact absurd rfl hne
  | cons p more ih =>
    obtain ⟨outcome, text⟩ := p
    obtain ⟨hfirst, hmore⟩ := hparts
    obtain ⟨steps, rfl⟩ : ∃ n, steps = n + 1 := ⟨steps - 1, by simp at hsteps; omega⟩
    rw [List.mapM_cons]
    cases more with
    | nil =>
      have hread := hfirst (close :: rest) (hclose.stops rest)
      have hsplit : commaSeparated ([(outcome, text)].map Prod.snd) ++ close :: rest =
          text ++ close :: rest := rfl
      rw [hsplit, readItems, hread]
      cases outcome with
      | error e => rfl
      | ok a =>
        simp only [Except.map, trimStart_eq_self hclose.isBlank, if_neg hclose.ne_comma, if_true,
          bind, Except.bind, pure, Except.pure, List.mapM_nil]
    | cons q more =>
      have hread := hfirst
        (',' :: ' ' :: (commaSeparated ((q :: more).map Prod.snd) ++ close :: rest))
        (stops_cons (by decide) (by decide))
      -- The reader of items sees the blank behind a comma.
      have hlen : (q :: more).length ≤ steps := by
        simp only [List.length_cons] at hsteps ⊢
        omega
      have hnext := ih (by simp) hmore hlen
      have hsplit : commaSeparated (((outcome, text) :: q :: more).map Prod.snd) ++ close :: rest =
          text ++ ',' :: ' ' :: (commaSeparated ((q :: more).map Prod.snd) ++ close :: rest) :=
        commaSeparated_cons ..
      rw [hsplit, readItems, hread]
      cases outcome with
      | error e => rfl
      | ok a =>
        simp only [Except.map, trimStart_eq_self (show isBlank ',' = false by decide), if_true,
          readItems_blank hblank, hnext, bind, Except.bind, pure, Except.pure]
        cases (q :: more).mapM Prod.fst <;> rfl

/-- Items are read where the text does not close at once. -/
theorem readSequence_eq_readItems {close : Char} (hclose : IsClosing close) {item : Nat → Step α}
    (rest : List Char) {text : List Char} {more : List (List Char)} (hstart : StartsOpen text) :
    readSequence close item (commaSeparated (text :: more) ++ close :: rest) =
      readItems close item ((commaSeparated (text :: more) ++ close :: rest).length + 1) 0
        (commaSeparated (text :: more) ++ close :: rest) := by
  obtain ⟨c, s, rfl, hc, hopen⟩ := hstart
  have hne : c ≠ close := fun heq => hopen (heq ▸ hclose)
  obtain ⟨tail, htail⟩ : ∃ tail,
      commaSeparated ((c :: s) :: more) ++ close :: rest = c :: tail := by
    cases more <;> simp [commaSeparated, joinWith]
  rw [htail, readSequence, trimStart_eq_self hc]
  simp only [if_neg hne]

/-- A written sequence is read item by item, up to the first that fails. -/
theorem readSequence_outcomes {close : Char} (hclose : IsClosing close) {item : Nat → Step α}
    (hblank : ∀ i s, item i (' ' :: s) = item i s) (rest : List Char)
    {parts : List (Except ValueFailure α × List Char)} (hparts : GivesEach item 0 parts)
    (hstart : ∀ p ∈ parts, StartsOpen p.2) :
    readSequence close item (commaSeparated (parts.map Prod.snd) ++ close :: rest) =
      (parts.mapM Prod.fst).map fun items => (items, rest) := by
  cases parts with
  | nil =>
    rw [List.mapM_nil]
    simp [commaSeparated, joinWith, readSequence, trimStart_eq_self hclose.isBlank, pure,
      Except.pure, Except.map]
  | cons p more =>
    have hsteps : (p :: more).length ≤
        (commaSeparated ((p :: more).map Prod.snd) ++ close :: rest).length + 1 := by
      have := length_le_commaSeparated ((p :: more).map Prod.snd)
      rw [List.length_map] at this
      rw [List.length_append]
      omega
    rw [List.map_cons, readSequence_eq_readItems hclose rest (hstart p List.mem_cons_self)]
    exact readItems_commaSeparated hclose hblank rest (by simp) hparts hsteps

/-- Outcomes that are all there are there together. -/
theorem mapM_ok {β : Type} (f : β → α) (l : List β) :
    l.mapM (fun b => (.ok (f b) : Except ValueFailure α)) = .ok (l.map f) := by
  induction l with
  | nil => rfl
  | cons b more ih =>
    rw [List.mapM_cons, ih]
    rfl

/-- A written sequence is read back. -/
theorem readSequence_commaSeparated {close : Char} (hclose : IsClosing close)
    {item : Nat → Step α} (hblank : ∀ i s, item i (' ' :: s) = item i s) (rest : List Char)
    {parts : List (α × List Char)} (hparts : ReadsEach item 0 parts)
    (hstart : ∀ p ∈ parts, StartsOpen p.2) :
    readSequence close item (commaSeparated (parts.map Prod.snd) ++ close :: rest) =
      .ok (parts.map Prod.fst, rest) := by
  have hread := readSequence_outcomes hclose hblank rest hparts.givesEach fun q hq => by
    obtain ⟨p, hp, rfl⟩ := List.mem_map.mp hq
    exact hstart p hp
  rw [List.map_map, List.mapM_map] at hread
  exact hread.trans (congrArg (Except.map _) (mapM_ok Prod.fst parts))

end BulkTransfer.Literal
