import BulkTransfer.Proofs.Literal.Items
import BulkTransfer.Proofs.Literal.Token

/-!
Where the reading of a literal comes to no end. A value is read at a place: a text under a declared
type. Its parts are read at later places of the text, and a text under a type with parts is read as
a literal of its own. All of these are shorter, except for a bare word that is kept as a text: it is
read again as the same word under the same type.

- `Place.Calls`: the places where the reading at a place has other values read.
- `Place.Calls.length_lt`: all calls are on shorter texts, those of kept words apart.
- `Place.read_succ_endless_iff`: a reading is cut off exactly where one of its calls is.
- `Place.ComesToWord`: calls lead from the place to a kept word.
- `reading_ends_unless_word_is_kept`: which readings come to an end.
-/

namespace BulkTransfer.Literal

open Text ValueFailure

/-! ## Calls -/

/-- A place where a value is read: a text under a declared type, in a literal of so many bytes. -/
structure Place where
  size : Nat
  type? : Option ColumnType
  text : List Char

namespace Place

/-- The reading at the place, cut off below so many levels. -/
def read (p : Place) (levels : Nat) : Except ValueFailure (Value × List Char) :=
  readValue levels p.size p.type? p.text

/-- The place of a text that is a literal of its own. -/
def whole (type? : Option ColumnType) (s : List Char) : Place := ⟨Bytes.lengthOf s, type?, s⟩

/-- The bare word at the place. -/
def word (p : Place) : List Char := bareWord (trimStart p.text)

/-- A bare word that is kept as a text stands where a type with parts is declared. -/
def IsKeptWord (p : Place) : Prop :=
  p.word ≠ [] ∧ ∃ type text, p.type? = some type ∧ type.isComposite = true ∧
    Value.ofBareWord p.word = .ok (.text text)

/-- The reading at a place has a value read at another one: a quoted or a bare text under a type
with parts, or a value of an item. What stands before that item was read with so many levels. -/
inductive CallsWithin (levels : Nat) (p : Place) : Place → Prop
  | quoted {type : ColumnType} {rest text r : List Char} (htype : p.type? = some type)
      (hparts : type.isComposite = true) (hquote : trimStart p.text = '\'' :: rest)
      (htext : readQuoted '\'' rest = .ok (text, r)) : CallsWithin levels p (whole (some type) text)
  | word {type : ColumnType} {text : String} (htype : p.type? = some type)
      (hparts : type.isComposite = true) (hword : p.word ≠ [])
      (hkept : Value.ofBareWord p.word = .ok (.text text)) :
      CallsWithin levels p (whole (some type) text.toList)
  | item {c close : Char} {rest s t : List Char} {form : Form} {i : Nat}
      {type? : Option ColumnType} (hopen : trimStart p.text = c :: rest)
      (hform : Form.of? p.type? c = some (form, close))
      (hstart : Starts close (form.pass levels p.size) rest i s)
      (hasks : form.Asks levels p.size i s type? t) : CallsWithin levels p ⟨p.size, type?, t⟩

/-- The reading at the first place has a value read at the second. -/
def Calls (p q : Place) : Prop := ∃ levels, p.CallsWithin levels q

/-- Calls lead from the place to a kept word. -/
inductive ComesToWord : Place → Prop
  | here {p : Place} (h : p.IsKeptWord) : ComesToWord p
  | call {p q : Place} (h : p.Calls q) (hq : ComesToWord q) : ComesToWord p

variable {p q : Place} {levels : Nat}

theorem CallsWithin.mono {more : Nat} (h : p.CallsWithin levels q) (hle : levels ≤ more) :
    p.CallsWithin more q := by
  cases h with
  | quoted htype hparts hquote htext => exact .quoted htype hparts hquote htext
  | word htype hparts hword hkept => exact .word htype hparts hword hkept
  | item hopen hform hstart hasks =>
    exact .item hopen hform (hstart.mono fun _ _ _ => Form.pass_mono hle) (hasks.mono hle)

/-- The place of a call has a shorter text, unless a kept word is read again. -/
theorem Calls.length_lt (h : p.Calls q) (hkept : ¬ p.IsKeptWord) :
    q.text.length < p.text.length := by
  obtain ⟨levels, h⟩ := h
  cases h with
  | @quoted type rest text r htype hparts hquote htext =>
    have hrest := length_lt_of_trimStart hquote
    have hquoted := length_readQuoted htext
    show text.length < p.text.length
    omega
  | word htype hparts hword htext => exact absurd ⟨hword, _, _, htype, hparts, htext⟩ hkept
  | @item c close rest s t form i type? hopen hform hstart hasks =>
    have hrest := length_lt_of_trimStart hopen
    have hs := hstart.length_le fun _ _ _ => Form.length_pass
    have ht := hasks.length_le_of fun _ _ _ _ => length_readValue
    show t.length < p.text.length
    omega

/-! ### One level -/

theorem readAll_endless_iff {read : Step Value} {s : List Char} :
    readAll read s = .error endless ↔ read s = .error endless := by
  unfold readAll
  constructor
  · intro h
    rcases bind_eq_endless.mp h with h | ⟨⟨v, r⟩, -, h⟩
    · exact h
    rcases bind_eq_endless.mp h with h | ⟨_, -, h⟩
    · exact absurd h (finish_ne_endless _)
    · cases h
  · exact fun h => bind_eq_endless.mpr (.inl h)

/-- Fitting a value to a type is cut off where it reads a text as a literal of its own. -/
theorem typed_endless_iff {v : Value} {type? : Option ColumnType} :
    typed (readValue levels) v type? = .error endless ↔
      ∃ type text, type? = some type ∧ type.isComposite = true ∧ v = .text text ∧
        (whole (some type) text.toList).read levels = .error endless := by
  constructor
  · intro h
    unfold typed at h
    split at h
    · cases h
    · next type =>
      split at h
      · next text =>
        split at h
        · next hparts => exact ⟨type, text, rfl, hparts, rfl, readAll_endless_iff.mp h⟩
        · exact absurd h (fitScalar_ne_endless _ _)
      · exact absurd h (fitScalar_ne_endless _ _)
  · rintro ⟨type, text, rfl, hparts, rfl, h⟩
    unfold typed
    dsimp only
    rw [if_pos hparts]
    exact readAll_endless_iff.mpr h

theorem isMark_of_isBare {c : Char} (h : isBare c = true) : isMark c = false := by
  refine Bool.eq_false_iff.mpr fun hmark => ?_
  rcases isMark_iff.mp hmark with rfl | rfl | rfl | rfl <;> exact absurd h (by decide)

theorem exists_unmarked (h : p.word ≠ []) :
    ∃ c rest, trimStart p.text = c :: rest ∧ isMark c = false := by
  unfold word at h
  cases hs : trimStart p.text with
  | nil =>
    rw [hs] at h
    exact absurd rfl h
  | cons c rest =>
    refine ⟨c, rest, rfl, isMark_of_isBare ?_⟩
    rw [hs] at h
    exact Classical.byContradiction fun hc => h (List.takeWhile_cons_of_neg hc)

theorem read_quote_endless_iff {rest : List Char} (hquote : trimStart p.text = '\'' :: rest) :
    p.read (levels + 1) = .error endless ↔
      ∃ type text r, p.type? = some type ∧ type.isComposite = true ∧
        readQuoted '\'' rest = .ok (text, r) ∧
        (whole (some type) text).read levels = .error endless := by
  unfold read
  rw [readValue_quote hquote]
  constructor
  · intro h
    rcases bind_eq_endless.mp h with h | ⟨⟨text, r⟩, htext, h⟩
    · exact absurd h (readQuoted_ne_endless _ _)
    rcases bind_eq_endless.mp h with h | ⟨w, -, h⟩
    · obtain ⟨type, t, htype, hparts, ht, hend⟩ := typed_endless_iff.mp h
      obtain rfl := Value.text.inj ht
      rw [String.toList_ofList] at hend
      exact ⟨type, text, r, htype, hparts, htext, hend⟩
    · cases h
  · rintro ⟨type, text, r, htype, hparts, htext, hend⟩
    refine bind_eq_endless.mpr (.inr ⟨_, htext, bind_eq_endless.mpr (.inl ?_)⟩)
    refine typed_endless_iff.mpr ⟨type, _, htype, hparts, rfl, ?_⟩
    rw [String.toList_ofList]
    exact hend

theorem read_word_endless_iff {c : Char} {rest : List Char} (hs : trimStart p.text = c :: rest)
    (hmark : isMark c = false) :
    p.read (levels + 1) = .error endless ↔
      ∃ type text, p.type? = some type ∧ type.isComposite = true ∧ p.word ≠ [] ∧
        Value.ofBareWord p.word = .ok (.text text) ∧
        (whole (some type) text.toList).read levels = .error endless := by
  have hword : p.word = bareWord (c :: rest) := congrArg bareWord hs
  unfold read
  rw [readValue_unmarked hs hmark, ← hword]
  by_cases hempty : p.word = []
  · rw [if_pos hempty]
    constructor
    · intro h
      cases h
    · rintro ⟨_, _, -, -, hne, -⟩
      exact absurd hempty hne
  · rw [if_neg hempty]
    constructor
    · intro h
      rcases bind_eq_endless.mp h with h | ⟨v, hv, h⟩
      · exact absurd h (ofBareWord_ne_endless _)
      rcases bind_eq_endless.mp h with h | ⟨w, -, h⟩
      · obtain ⟨type, text, htype, hparts, rfl, hend⟩ := typed_endless_iff.mp h
        exact ⟨type, text, htype, hparts, hempty, hv, hend⟩
      · cases h
    · rintro ⟨type, text, htype, hparts, -, hkept, hend⟩
      refine bind_eq_endless.mpr (.inr ⟨_, hkept, bind_eq_endless.mpr (.inl ?_)⟩)
      exact typed_endless_iff.mpr ⟨type, text, htype, hparts, rfl, hend⟩

theorem read_opens_endless_iff {c close : Char} {rest : List Char} {form : Form}
    (hs : trimStart p.text = c :: rest) (hform : Form.of? p.type? c = some (form, close)) :
    p.read (levels + 1) = .error endless ↔
      ∃ i s type? t, Starts close (form.pass levels p.size) rest i s ∧
        form.Asks levels p.size i s type? t ∧ readValue levels p.size type? t = .error endless := by
  obtain ⟨α, item, make, heq, hitem, hmake⟩ := readValue_opens levels p.size hs hform
  have hsequence : readSequence close item rest = .error endless ↔ _ :=
    readSequence_endless_iff hitem fun _ _ _ => Form.length_pass
  unfold read
  rw [heq]
  constructor
  · intro h
    rcases bind_eq_endless.mp h with h | ⟨⟨items, r⟩, -, h⟩
    · obtain ⟨i, s, hstart, hend⟩ := hsequence.mp h
      obtain ⟨type?, t, hasks, hend⟩ := Form.pass_endless_iff.mp hend
      exact ⟨i, s, type?, t, hstart, hasks, hend⟩
    rcases bind_eq_endless.mp h with h | ⟨v, -, h⟩
    · exact absurd h (hmake _)
    · cases h
  · rintro ⟨i, s, type?, t, hstart, hasks, hend⟩
    refine bind_eq_endless.mpr (.inl (hsequence.mpr ⟨i, s, hstart, ?_⟩))
    exact Form.pass_endless_iff.mpr ⟨type?, t, hasks, hend⟩

/-- A reading is cut off exactly where one of its calls is, with one level less. -/
theorem read_succ_endless_iff (p : Place) (levels : Nat) :
    p.read (levels + 1) = .error endless ↔
      ∃ q, p.CallsWithin levels q ∧ q.read levels = .error endless := by
  constructor
  · intro h
    cases hs : trimStart p.text with
    | nil =>
      unfold read at h
      rw [readValue_nil hs] at h
      cases h
    | cons c rest =>
      cases hmark : isMark c with
      | false =>
        obtain ⟨type, text, htype, hparts, hword, hkept, hend⟩ :=
          (read_word_endless_iff hs hmark).mp h
        exact ⟨_, .word htype hparts hword hkept, hend⟩
      | true =>
        by_cases hquote : c = '\''
        · subst hquote
          obtain ⟨type, text, r, htype, hparts, htext, hend⟩ := (read_quote_endless_iff hs).mp h
          exact ⟨_, .quoted htype hparts hs htext, hend⟩
        · obtain ⟨form, close, hform⟩ := exists_form p.type? hmark hquote
          obtain ⟨i, s, type?, t, hstart, hasks, hend⟩ := (read_opens_endless_iff hs hform).mp h
          exact ⟨_, .item hs hform hstart hasks, hend⟩
  · rintro ⟨q, hcalls, hend⟩
    cases hcalls with
    | quoted htype hparts hquote htext =>
      exact (read_quote_endless_iff hquote).mpr ⟨_, _, _, htype, hparts, htext, hend⟩
    | word htype hparts hword hkept =>
      obtain ⟨c, rest, hs, hmark⟩ := exists_unmarked hword
      exact (read_word_endless_iff hs hmark).mpr ⟨_, _, htype, hparts, hword, hkept, hend⟩
    | item hopen hform hstart hasks =>
      exact (read_opens_endless_iff hopen hform).mpr ⟨_, _, _, _, hstart, hasks, hend⟩

/-! ### All levels -/

theorem ofBareWord_eq_text {word : List Char} {text : String}
    (h : Value.ofBareWord word = .ok (.text text)) : text = String.ofList word := by
  unfold Value.ofBareWord at h
  repeat' split at h
  all_goals first | exact (Value.text.inj (Except.ok.inj h)).symm | cases h

theorem bareWord_trimStart_word (p : Place) : bareWord (trimStart p.word) = p.word := by
  have hbare : ∀ c ∈ p.word, isBare c = true := List.all_eq_true.mp List.all_takeWhile
  have htrim : trimStart p.word = p.word := by
    cases hword : p.word with
    | nil => rfl
    | cons c rest => exact trimStart_eq_self (isBlank_of_isBare (hbare c (by simp [hword])))
  have hall := bareWord_append hbare stops_nil
  rw [List.append_nil] at hall
  rw [htrim, hall]

/-- A kept word is read again as a kept word. -/
theorem IsKeptWord.calls (h : p.IsKeptWord) (levels : Nat) :
    ∃ q, p.CallsWithin levels q ∧ q.IsKeptWord := by
  obtain ⟨hword, type, text, htype, hparts, hkept⟩ := h
  have hsame : (whole (some type) text.toList).word = p.word := by
    rw [ofBareWord_eq_text hkept]
    unfold whole
    rw [String.toList_ofList]
    exact bareWord_trimStart_word p
  refine ⟨_, .word htype hparts hword hkept, ?_⟩
  unfold IsKeptWord
  rw [hsame]
  exact ⟨hword, type, text, rfl, hparts, hkept⟩

theorem IsKeptWord.read_endless (h : p.IsKeptWord) (levels : Nat) :
    p.read levels = .error endless := by
  induction levels generalizing p with
  | zero => rfl
  | succ levels ih =>
    obtain ⟨q, hcalls, hq⟩ := h.calls levels
    exact (read_succ_endless_iff p levels).mpr ⟨q, hcalls, ih hq⟩

/-- A reading that comes to a kept word is cut off below any number of levels. -/
theorem ComesToWord.read_endless (h : p.ComesToWord) (levels : Nat) :
    p.read levels = .error endless := by
  induction h generalizing levels with
  | here hkept => exact hkept.read_endless levels
  | @call p q hcalls _ ih =>
    -- With more levels the calls before this one have the outcomes that they came to.
    obtain ⟨n, hcalls⟩ := hcalls
    have hle : n ≤ max levels n := Nat.le_max_right _ _
    have hmore : p.read (max levels n + 1) = .error endless :=
      (read_succ_endless_iff p _).mpr ⟨q, hcalls.mono hle, ih _⟩
    exact (readValue_below (by omega) _ _ _).eq_endless hmore

/-- Any other reading needs no more levels than its text has characters, and one. -/
theorem read_ne_endless (h : ¬ p.ComesToWord) (hlevels : p.text.length < levels) :
    p.read levels ≠ .error endless := by
  induction levels generalizing p with
  | zero => exact absurd hlevels (Nat.not_lt_zero _)
  | succ levels ih =>
    intro hend
    obtain ⟨q, hcalls, hq⟩ := (read_succ_endless_iff p levels).mp hend
    have hlt := Calls.length_lt ⟨levels, hcalls⟩ fun hkept => h (.here hkept)
    exact ih (fun hword => h (.call ⟨levels, hcalls⟩ hword)) (by omega) hq

theorem read_eq (h : ¬ p.ComesToWord) {more : Nat} (hlevels : p.text.length < levels)
    (hmore : p.text.length < more) : p.read levels = p.read more := by
  have hleft := readValue_below (Nat.le_max_left levels more) p.size p.type? p.text
  have hright := readValue_below (Nat.le_max_right levels more) p.size p.type? p.text
  rw [show p.read levels = _ from hleft.resolve_left (read_ne_endless h hlevels)]
  exact (hright.resolve_left (read_ne_endless h hmore)).symm

/-- The calls from a place are well founded, unless they lead to a kept word. -/
theorem acc_iff (p : Place) : Acc (fun q p => Calls p q) p ↔ ¬ p.ComesToWord := by
  constructor
  · intro hacc
    induction hacc with
    | intro p _ ih =>
      intro hcomes
      cases hcomes with
      | here hkept =>
        obtain ⟨q, hcalls, hq⟩ := hkept.calls 0
        exact ih q ⟨0, hcalls⟩ (.here hq)
      | call hcalls hq => exact ih _ hcalls hq
  · intro h
    induction hn : p.text.length using Nat.strongRecOn generalizing p with
    | ind n ih =>
      refine Acc.intro p fun q hcalls => ?_
      have hlt := hcalls.length_lt fun hkept => h (.here hkept)
      exact ih _ (by omega) q (fun hword => h (.call hcalls hword)) rfl

end Place

open Place

/-- The reading of a text under a declared type ends, with a value or a failure, unless its calls
lead to a bare word that is kept as a text under a type with parts; then it is cut off below any
number of levels. Levels beyond the length of the text change nothing. Every call but that of a kept
word is on a shorter text and every item uses up text, so that all other calls are well founded. -/
theorem reading_ends_unless_word_is_kept (s : List Char) (type? : Option ColumnType) :
    let start := whole type? s
    let outcome (levels : Nat) := readAll (readValue levels start.size type?) s
    ((∃ levels, outcome levels ≠ .error endless) ↔ ¬ start.ComesToWord) ∧
      (∀ levels, s.length < levels → outcome levels = parse s type?) ∧
      (Acc (fun q p => Calls p q) start ↔ ¬ start.ComesToWord) ∧
      (∀ p q, Calls p q → ¬ p.IsKeptWord → q.text.length < p.text.length) ∧
      (∀ (p : Place) levels v r, p.read levels = .ok (v, r) → r.length < p.text.length) ∧
      ∀ (form : Form) levels size i t r, form.pass levels size i t = .ok r →
        r.length < t.length := by
  intro start outcome
  have hends : ¬ start.ComesToWord → ∀ levels, s.length < levels →
      outcome levels ≠ .error endless := by
    intro h levels hlevels hend
    exact read_ne_endless h hlevels (readAll_endless_iff.mp hend)
  have hendless : start.ComesToWord → ∀ levels, outcome levels = .error endless :=
    fun h levels => readAll_endless_iff.mpr (h.read_endless levels)
  refine ⟨⟨?_, ?_⟩, ?_, acc_iff start, fun p q h => h.length_lt, fun p levels v r =>
    length_readValue, fun form levels size i t r => Form.length_pass⟩
  · rintro ⟨levels, hlevels⟩ h
    exact hlevels (hendless h levels)
  · exact fun h => ⟨s.length + 1, hends h _ (Nat.lt_succ_self _)⟩
  · intro levels hlevels
    by_cases h : start.ComesToWord
    · exact (hendless h levels).trans (hendless h _).symm
    · unfold parse
      have hread : start.read levels = start.read (s.length + 1) :=
        read_eq h hlevels (Nat.lt_succ_self _)
      show (start.read levels >>= _) = _
      rw [hread]
      rfl

-- The quoted text is read as a list of its own, which is the bare word.
example : (whole (some (.list .int)) "'x'".toList).ComesToWord :=
  .call ⟨0, .quoted rfl rfl rfl rfl⟩ (.here ⟨by decide, _, _, rfl, rfl, rfl⟩)

end BulkTransfer.Literal
