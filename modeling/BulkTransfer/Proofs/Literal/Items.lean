import BulkTransfer.Proofs.Literal.Levels

/-!
The items of the sequences in a literal. Each item starts behind the opening character or a comma,
has one or two values read, and uses up text, so that a sequence comes to its end if its items do.

- `length_readQuoted` and the like: what is read leaves a shorter text.
- `Starts`: where the items of a sequence start.
- `readSequence_endless_iff`: a sequence is cut off exactly where one of its items is.
- `readEntry_endless_iff` and the like: where a key with its value is cut off.
- `Form`: the kinds of items, with the text behind one and the values that it asks for.
- `Form.pass_endless_iff`: an item is cut off exactly where one of its values is.
- `readValue_opens`: a value with parts is put together from the items of its form.
- `length_readValue`: every reading uses up text.
-/

namespace BulkTransfer.Literal

open Text ValueFailure

/-! ## Failures of their own -/

theorem expect_ne_endless (size : Nat) (want : Char) (s : List Char) :
    expect size want s ≠ .error endless := by
  unfold expect
  split
  · intro h
    cases h
  · split <;> (intro h; cases h)

theorem finish_ne_endless (s : List Char) : finish s ≠ .error endless := by
  unfold finish
  split <;> (intro h; cases h)

theorem readQuoted_ne_endless (quote : Char) (s : List Char) :
    readQuoted quote s ≠ .error endless := by
  fun_induction readQuoted quote s <;> simp_all

theorem readFieldName_ne_endless (s : List Char) : readFieldName s ≠ .error endless := by
  unfold readFieldName
  split
  · next rest _ =>
    have hquoted := readQuoted_ne_endless '"' rest
    split
    · intro h
      cases h
    · next e he =>
      rw [he] at hquoted
      exact fun h => hquoted (congrArg Except.error (Except.error.inj h))
  · split <;> (intro h; cases h)

theorem ofBraced_ne_endless (items : List Braced) : ofBraced items ≠ .error endless := by
  unfold ofBraced
  repeat' split
  all_goals
    intro h
    cases h

theorem ofBareWord_ne_endless (word : List Char) : Value.ofBareWord word ≠ .error endless := by
  unfold Value.ofBareWord
  repeat' split
  all_goals
    intro h
    cases h

theorem readText_ne_endless (s : String) :
    Value.readInteger s ≠ .error endless ∧ Value.readFloat s ≠ .error endless ∧
      Value.readVarint s ≠ .error endless ∧ Value.readDecimal s ≠ .error endless ∧
      Value.readBoolean s ≠ .error endless ∧ Value.readBlob s ≠ .error endless ∧
      Value.readUuid s ≠ .error endless ∧ Value.readInstant s ≠ .error endless := by
  unfold Value.readInteger Value.readFloat Value.readVarint Value.readDecimal Value.readBoolean
    Value.readBlob Value.readUuid Value.readInstant
  dsimp only
  refine ⟨?_, ?_, ?_, ?_, ?_, ?_, ?_, ?_⟩
  all_goals
    repeat' split
    all_goals
      intro h
      cases h

theorem ofText_ne_endless (s : String) (type : ColumnType) :
    Value.ofText s type ≠ .error endless := by
  obtain ⟨hinteger, hfloat, hvarint, hdecimal, hboolean, hblob, huuid, hinstant⟩ :=
    readText_ne_endless s
  cases type with
  | uuid | timeuuid => exact huuid
  | bigint | int | smallint | tinyint | counter => exact hinteger
  | float | double => exact hfloat
  | varint => exact hvarint
  | decimal => exact hdecimal
  | boolean => exact hboolean
  | blob => exact hblob
  | timestamp => exact hinstant
  | _ =>
    intro h
    cases h

theorem fitScalar_ne_endless (v : Value) (type : ColumnType) :
    v.fitScalar type ≠ .error endless := by
  cases v with
  | text s => exact ofText_ne_endless s type
  | decimal s =>
    have hfloat := (readText_ne_endless s).2.1
    simp only [Value.fitScalar, Value.ofDecimal]
    repeat' split
    all_goals first | exact hfloat | (intro h; cases h)
  | _ =>
    simp only [Value.fitScalar, Value.ofInt, Value.ofFloat, Value.ofBool, Value.ofInstant]
    repeat' split
    all_goals
      intro h
      cases h

/-! ## Texts get shorter -/

theorem length_lt_of_trimStart {s rest : List Char} {c : Char} (h : trimStart s = c :: rest) :
    rest.length < s.length := by
  have hle := length_trimStart_le s
  rw [h, List.length_cons] at hle
  exact hle

theorem length_expect {size : Nat} {want : Char} {s r : List Char}
    (h : expect size want s = .ok r) : r.length < s.length := by
  unfold expect at h
  split at h
  · cases h
  · next c rest hs =>
    split at h
    · obtain rfl := Except.ok.inj h
      exact length_lt_of_trimStart hs
    · cases h

theorem length_readQuoted {quote : Char} {s text r : List Char}
    (h : readQuoted quote s = .ok (text, r)) : text.length + r.length < s.length := by
  fun_induction readQuoted quote s generalizing text r with
  | case2 =>
    obtain ⟨rfl, rfl⟩ := Prod.mk.inj (Except.ok.inj h)
    exact Nat.one_pos
  | case4 rest t u ht ih =>
    obtain ⟨rfl, rfl⟩ := Prod.mk.inj (Except.ok.inj h)
    have := ih ht
    simp only [List.length_cons]
    omega
  | case6 =>
    obtain ⟨rfl, rfl⟩ := Prod.mk.inj (Except.ok.inj h)
    simp
  | case7 c d rest hc t u ht ih =>
    obtain ⟨rfl, rfl⟩ := Prod.mk.inj (Except.ok.inj h)
    have := ih ht
    simp only [List.length_cons] at this ⊢
    omega
  | _ => cases h

theorem length_afterBareWord {s : List Char} (h : bareWord s ≠ []) :
    (afterBareWord s).length < s.length := by
  have hall : (bareWord s).length + (afterBareWord s).length = s.length := by
    unfold bareWord afterBareWord
    rw [← List.length_append, List.takeWhile_append_dropWhile]
  have hpos := List.length_pos_iff.mpr h
  omega

theorem length_readFieldName {s r : List Char} {name : String}
    (h : readFieldName s = .ok (name, r)) : r.length < s.length := by
  unfold readFieldName at h
  split at h
  · next rest hs =>
    have hlt := length_lt_of_trimStart hs
    split at h
    · next hquoted =>
      have hshort := length_readQuoted hquoted
      obtain ⟨-, rfl⟩ := Prod.mk.inj (Except.ok.inj h)
      omega
    · cases h
  · split at h
    · cases h
    · next hword =>
      obtain ⟨-, rfl⟩ := Prod.mk.inj (Except.ok.inj h)
      exact Nat.lt_of_lt_of_le (length_afterBareWord hword) (length_trimStart_le s)

/-! ## Sequences -/

section Sequences

variable {α : Type} {close : Char} {item : Nat → Step α}
  {pass : Nat → List Char → Except ValueFailure (List Char)} {s : List Char}

/-- Where the items of a sequence start, if each leaves the text that `pass` tells: the first one
behind the opening character, the others behind commas. -/
inductive Starts (close : Char) (pass : Nat → List Char → Except ValueFailure (List Char))
    (s : List Char) : Nat → List Char → Prop
  | first (h : ∀ rest, trimStart s ≠ close :: rest) : Starts close pass s 0 (trimStart s)
  | next {i : Nat} {t r rest : List Char} (h : Starts close pass s i t) (hpass : pass i t = .ok r)
      (hcomma : trimStart r = ',' :: rest) : Starts close pass s (i + 1) rest

/-- The items leave what `pass` tells. -/
def Leaves (item : Nat → Step α) (pass : Nat → List Char → Except ValueFailure (List Char)) :
    Prop :=
  ∀ i t, (item i t).map Prod.snd = pass i t

theorem Leaves.ok (h : Leaves item pass) {i : Nat} {t r : List Char} {a : α}
    (ha : item i t = .ok (a, r)) : pass i t = .ok r := by
  rw [← h, ha]
  rfl

theorem Leaves.exists_ok (h : Leaves item pass) {i : Nat} {t r : List Char}
    (hr : pass i t = .ok r) : ∃ a, item i t = .ok (a, r) := by
  rw [← h] at hr
  obtain ⟨⟨a, u⟩, ha, rfl⟩ := map_eq_ok.mp hr
  exact ⟨a, ha⟩

theorem Leaves.endless_iff (h : Leaves item pass) {i : Nat} {t : List Char} :
    pass i t = .error endless ↔ item i t = .error endless := by
  rw [← h]
  exact map_eq_endless

theorem readSequence_eq_readItems_trimStart (h : ∀ rest, trimStart s ≠ close :: rest) :
    readSequence close item s = readItems close item (s.length + 1) 0 (trimStart s) := by
  unfold readSequence
  split
  · next c rest hs =>
    have hc : c ≠ close := by
      rintro rfl
      exact h rest hs
    rw [hs, if_neg hc]
  · next hs => rw [hs]

/-- All items use up text, so that no more of them start than the steps allow. -/
theorem readItems_endless {steps index : Nat} {t : List Char} (hitem : Leaves item pass)
    (hshort : ∀ i t r, pass i t = .ok r → r.length < t.length) (hsteps : t.length < steps)
    (hstart : Starts close pass s index t)
    (h : readItems close item steps index t = .error endless) :
    ∃ i t, Starts close pass s i t ∧ pass i t = .error endless := by
  induction steps generalizing index t with
  | zero => exact absurd hsteps (Nat.not_lt_zero _)
  | succ steps ih =>
    rw [readItems] at h
    rcases bind_eq_endless.mp h with hend | ⟨⟨a, r⟩, ha, h⟩
    · exact ⟨index, t, hstart, hitem.endless_iff.mpr hend⟩
    · have hpass := hitem.ok ha
      have hlt := hshort index t r hpass
      dsimp only at h
      split at h
      · cases h
      · next c rest hr =>
        split at h
        · next hcomma =>
          subst hcomma
          have hrest := length_lt_of_trimStart hr
          rcases bind_eq_endless.mp h with hend | ⟨p, -, hp⟩
          · exact ih (by omega) (hstart.next hpass hr) hend
          · cases hp
        · split at h <;> cases h

theorem readSequence_of_starts {i : Nat} {t : List Char} (hitem : Leaves item pass)
    (hstart : Starts close pass s i t)
    (h : ∀ steps, readItems close item steps i t = .error endless) :
    readSequence close item s = .error endless := by
  induction hstart with
  | first hopen =>
    rw [readSequence_eq_readItems_trimStart hopen]
    exact h _
  | @next i t r rest hstart hpass hcomma ih =>
    refine ih fun steps => ?_
    cases steps with
    | zero => rfl
    | succ steps =>
      obtain ⟨a, ha⟩ := hitem.exists_ok hpass
      rw [readItems, ha]
      refine bind_eq_endless.mpr (.inr ⟨(a, r), rfl, ?_⟩)
      dsimp only
      rw [hcomma]
      exact bind_eq_endless.mpr (.inl (h steps))

/-- A sequence is cut off exactly where one of the items that it comes to is. -/
theorem readSequence_endless_iff (hitem : Leaves item pass)
    (hshort : ∀ i t r, pass i t = .ok r → r.length < t.length) :
    readSequence close item s = .error endless ↔
      ∃ i t, Starts close pass s i t ∧ pass i t = .error endless := by
  constructor
  · intro h
    by_cases hopen : ∀ rest, trimStart s ≠ close :: rest
    · rw [readSequence_eq_readItems_trimStart hopen] at h
      have hle := length_trimStart_le s
      exact readItems_endless hitem hshort (by omega) (.first hopen) h
    · obtain ⟨rest, hrest⟩ := Classical.not_forall.mp hopen
      have hclosed : readSequence close item s = .ok ([], rest) := by
        unfold readSequence
        rw [Classical.not_not.mp hrest]
        exact if_pos rfl
      rw [hclosed] at h
      cases h
  · rintro ⟨i, t, hstart, hend⟩
    refine readSequence_of_starts hitem hstart fun steps => ?_
    cases steps with
    | zero => rfl
    | succ steps =>
      rw [readItems]
      exact bind_eq_endless.mpr (.inl (hitem.endless_iff.mp hend))

theorem Starts.length_le (hshort : ∀ i t r, pass i t = .ok r → r.length < t.length) {i : Nat}
    {t : List Char} (h : Starts close pass s i t) : t.length ≤ s.length := by
  induction h with
  | first => exact length_trimStart_le s
  | @next i t r rest hstart hpass hcomma ih =>
    have hr := hshort i t r hpass
    have hrest := length_lt_of_trimStart hcomma
    omega

theorem Starts.mono {more : Nat → List Char → Except ValueFailure (List Char)}
    (hmore : ∀ i t r, pass i t = .ok r → more i t = .ok r) {i : Nat} {t : List Char}
    (h : Starts close pass s i t) : Starts close more s i t := by
  induction h with
  | first hopen => exact .first hopen
  | next hstart hpass hcomma ih => exact ih.next (hmore _ _ _ hpass) hcomma

theorem length_readItems (hshort : ∀ i t a r, item i t = .ok (a, r) → r.length < t.length)
    {steps index : Nat} {r : List Char} {items : List α}
    (h : readItems close item steps index s = .ok (items, r)) : r.length < s.length := by
  induction steps generalizing index s items r with
  | zero => cases h
  | succ steps ih =>
    rw [readItems] at h
    obtain ⟨⟨a, t⟩, ha, h⟩ := bind_eq_ok.mp h
    have ht := hshort _ _ _ _ ha
    dsimp only at h
    split at h
    · cases h
    · next c rest hrest =>
      have hlt := length_lt_of_trimStart hrest
      split at h
      · obtain ⟨⟨more, u⟩, hmore, h⟩ := bind_eq_ok.mp h
        obtain ⟨-, rfl⟩ := Prod.mk.inj (Except.ok.inj h)
        have hu : u.length < rest.length := ih hmore
        show u.length < s.length
        omega
      · split at h
        · obtain ⟨-, rfl⟩ := Prod.mk.inj (Except.ok.inj h)
          omega
        · cases h

theorem length_readSequence (hshort : ∀ i t a r, item i t = .ok (a, r) → r.length < t.length)
    {r : List Char} {items : List α} (h : readSequence close item s = .ok (items, r)) :
    r.length < s.length := by
  have hle := length_trimStart_le s
  unfold readSequence at h
  split at h
  · next c rest hs =>
    rw [hs] at hle
    split at h
    · obtain ⟨-, rfl⟩ := Prod.mk.inj (Except.ok.inj h)
      exact hle
    · exact Nat.lt_of_lt_of_le (length_readItems hshort h) hle
  · exact absurd (length_readItems hshort h) (Nat.not_lt_zero _)

end Sequences

/-! ## Keys and names -/

section Keys

variable {size : Nat} {s : List Char}

/-- A key with its value is cut off where one of them is. -/
theorem readEntry_endless_iff {key value : Step Value} :
    readEntry size key value s = .error endless ↔ key s = .error endless ∨
      ∃ v r t, key s = .ok (v, r) ∧ expect size ':' r = .ok t ∧ value t = .error endless := by
  unfold readEntry
  constructor
  · intro h
    rcases bind_eq_endless.mp h with h | ⟨⟨v, r⟩, hkey, h⟩
    · exact .inl h
    rcases bind_eq_endless.mp h with h | ⟨t, hcolon, h⟩
    · exact absurd h (expect_ne_endless _ _ _)
    rcases bind_eq_endless.mp h with h | ⟨p, -, h⟩
    · exact .inr ⟨v, r, t, hkey, hcolon, h⟩
    · cases h
  · rintro (h | ⟨v, r, t, hkey, hcolon, h⟩)
    · exact bind_eq_endless.mpr (.inl h)
    · refine bind_eq_endless.mpr (.inr ⟨_, hkey, ?_⟩)
      refine bind_eq_endless.mpr (.inr ⟨_, hcolon, ?_⟩)
      exact bind_eq_endless.mpr (.inl h)

theorem readField_endless_iff {value : Step Value} :
    readField size value s = .error endless ↔ ∃ name r t, readFieldName s = .ok (name, r) ∧
      expect size ':' r = .ok t ∧ value t = .error endless := by
  unfold readField
  constructor
  · intro h
    rcases bind_eq_endless.mp h with h | ⟨⟨name, r⟩, hname, h⟩
    · exact absurd h (readFieldName_ne_endless _)
    rcases bind_eq_endless.mp h with h | ⟨t, hcolon, h⟩
    · exact absurd h (expect_ne_endless _ _ _)
    rcases bind_eq_endless.mp h with h | ⟨p, -, h⟩
    · exact ⟨name, r, t, hname, hcolon, h⟩
    · cases h
  · rintro ⟨name, r, t, hname, hcolon, h⟩
    refine bind_eq_endless.mpr (.inr ⟨_, hname, ?_⟩)
    refine bind_eq_endless.mpr (.inr ⟨_, hcolon, ?_⟩)
    exact bind_eq_endless.mpr (.inl h)

theorem readKey_endless_iff {value : Step Value} :
    readKey value s = .error endless ↔
      (∀ rest, trimStart s ≠ '"' :: rest) ∧ value (trimStart s) = .error endless := by
  by_cases hplain : ∀ rest, trimStart s ≠ '"' :: rest
  · rw [readKey_plain hplain]
    exact (and_iff_right hplain).symm
  · refine iff_of_false (fun h => ?_) fun h => hplain h.1
    obtain ⟨rest, hrest⟩ := Classical.not_forall.mp hplain
    rw [readKey_quote (Classical.not_not.mp hrest)] at h
    rcases bind_eq_endless.mp h with h | ⟨p, -, h⟩
    · exact absurd h (readQuoted_ne_endless _ _)
    · cases h

/-- An item between braces is cut off where its key is, or the value behind a colon. -/
theorem readBraced_endless_iff {value : Step Value} :
    readBraced value s = .error endless ↔ readKey value s = .error endless ∨
      ∃ v r t, readKey value s = .ok (v, r) ∧ trimStart r = ':' :: t ∧
        value t = .error endless := by
  rw [readBraced_eq]
  constructor
  · intro h
    rcases bind_eq_endless.mp h with h | ⟨⟨v, r⟩, hkey, h⟩
    · exact .inl h
    dsimp only at h
    split at h
    · next t hcolon =>
      rcases bind_eq_endless.mp h with h | ⟨p, -, h⟩
      · exact .inr ⟨v, r, t, hkey, hcolon, h⟩
      · cases h
    · cases h
  · rintro (h | ⟨v, r, t, hkey, hcolon, h⟩)
    · exact bind_eq_endless.mpr (.inl h)
    · refine bind_eq_endless.mpr (.inr ⟨_, hkey, ?_⟩)
      dsimp only
      rw [hcolon]
      exact bind_eq_endless.mpr (.inl h)

end Keys

/-! ## Items -/

/-- The items of a sequence: values of types told by their indices, keys with values, names with
values, or what stands between braces without a type. -/
inductive Form where
  | value (type? : Nat → Option ColumnType)
  | entry (key element : ColumnType)
  | field
  | braced

namespace Form

/-- The text behind an item whose values are read with so many levels. -/
def pass (levels size : Nat) : Form → Nat → List Char → Except ValueFailure (List Char)
  | value type?, i, s => (readValue levels size (type? i) s).map Prod.snd
  | entry k e, _, s =>
    (readEntry size (readValue levels size (some k)) (readValue levels size (some e)) s).map
      Prod.snd
  | field, _, s => (readField size (readValue levels size none) s).map Prod.snd
  | braced, _, s => (readBraced (readValue levels size none) s).map Prod.snd

/-- The item at the text has a value of the type read at another text: its own, or the one behind
its key or name and a colon. -/
inductive Asks (levels size i : Nat) (s : List Char) : Form → Option ColumnType → List Char → Prop
  | value (type? : Nat → Option ColumnType) : Asks levels size i s (.value type?) (type? i) s
  | key (k e : ColumnType) : Asks levels size i s (.entry k e) (some k) s
  | element {k e : ColumnType} {v : Value} {r t : List Char}
      (hkey : readValue levels size (some k) s = .ok (v, r)) (hcolon : expect size ':' r = .ok t) :
      Asks levels size i s (.entry k e) (some e) t
  | named {name : String} {r t : List Char} (hname : readFieldName s = .ok (name, r))
      (hcolon : expect size ':' r = .ok t) : Asks levels size i s .field none t
  | single (hplain : ∀ rest, trimStart s ≠ '"' :: rest) :
      Asks levels size i s .braced none (trimStart s)
  | keyed {v : Value} {r t : List Char} (hkey : readKey (readValue levels size none) s = .ok (v, r))
      (hcolon : trimStart r = ':' :: t) : Asks levels size i s .braced none t

/-- The items between braces, by the declared type. -/
def ofBraces : Option ColumnType → Form
  | some (.set e) => value fun _ => some e
  | some (.map k e) => entry k e
  | some (.userDefined _) => field
  | _ => braced

/-- The items of the sequence that a character opens, and the character that closes it. -/
def of? (type? : Option ColumnType) : Char → Option (Form × Char)
  | '[' => some (value fun _ => type?.bind ColumnType.element?, ']')
  | '(' => some (value (itemType? type?), ')')
  | '{' => some (ofBraces type?, '}')
  | _ => none

variable {levels size i : Nat} {s : List Char} {form : Form}

/-- An item is cut off exactly where one of its values is. -/
theorem pass_endless_iff :
    form.pass levels size i s = .error endless ↔
      ∃ type? t, form.Asks levels size i s type? t ∧
        readValue levels size type? t = .error endless := by
  cases form with
  | value type? =>
    rw [pass, map_eq_endless]
    constructor
    · exact fun h => ⟨_, _, .value type?, h⟩
    · rintro ⟨_, _, ⟨⟩, h⟩
      exact h
  | entry k e =>
    rw [pass, map_eq_endless, readEntry_endless_iff]
    constructor
    · rintro (h | ⟨v, r, t, hkey, hcolon, h⟩)
      · exact ⟨_, _, .key k e, h⟩
      · exact ⟨_, _, .element hkey hcolon, h⟩
    · rintro ⟨_, t, hasks, h⟩
      cases hasks with
      | key => exact .inl h
      | element hkey hcolon => exact .inr ⟨_, _, t, hkey, hcolon, h⟩
  | field =>
    rw [pass, map_eq_endless, readField_endless_iff]
    constructor
    · rintro ⟨name, r, t, hname, hcolon, h⟩
      exact ⟨_, _, .named hname hcolon, h⟩
    · rintro ⟨_, t, hasks, h⟩
      cases hasks with
      | named hname hcolon => exact ⟨_, _, t, hname, hcolon, h⟩
  | braced =>
    rw [pass, map_eq_endless, readBraced_endless_iff, readKey_endless_iff]
    constructor
    · rintro (⟨hplain, h⟩ | ⟨v, r, t, hkey, hcolon, h⟩)
      · exact ⟨_, _, .single hplain, h⟩
      · exact ⟨_, _, .keyed hkey hcolon, h⟩
    · rintro ⟨_, t, hasks, h⟩
      cases hasks with
      | single hplain => exact .inl ⟨hplain, h⟩
      | keyed hkey hcolon => exact .inr ⟨_, _, t, hkey, hcolon, h⟩

/-! ### Lengths -/

section Lengths

variable (hvalue : ∀ type? t v r, readValue levels size type? t = .ok (v, r) → r.length < t.length)

include hvalue

theorem length_readKey {v : Value} {r : List Char}
    (h : readKey (readValue levels size none) s = .ok (v, r)) : r.length < s.length := by
  by_cases hplain : ∀ rest, trimStart s ≠ '"' :: rest
  · rw [readKey_plain hplain] at h
    exact Nat.lt_of_lt_of_le (hvalue _ _ _ _ h) (length_trimStart_le s)
  · obtain ⟨rest, hrest⟩ := Classical.not_forall.mp hplain
    have hs := Classical.not_not.mp hrest
    have hlt := length_lt_of_trimStart hs
    rw [readKey_quote hs] at h
    obtain ⟨⟨name, t⟩, hname, h⟩ := bind_eq_ok.mp h
    obtain ⟨-, rfl⟩ := Prod.mk.inj (Except.ok.inj h)
    have hquoted := length_readQuoted hname
    show t.length < s.length
    omega

/-- Every item uses up text. -/
theorem length_pass_of {r : List Char} (h : form.pass levels size i s = .ok r) :
    r.length < s.length := by
  cases form with
  | value type? =>
    obtain ⟨⟨v, u⟩, hv, rfl⟩ := map_eq_ok.mp h
    exact hvalue _ _ _ _ hv
  | entry k e =>
    obtain ⟨⟨p, u⟩, hp, rfl⟩ := map_eq_ok.mp h
    rw [readEntry] at hp
    obtain ⟨⟨v, a⟩, hkey, hp⟩ := bind_eq_ok.mp hp
    obtain ⟨b, hcolon, hp⟩ := bind_eq_ok.mp hp
    obtain ⟨⟨w, c⟩, helement, hp⟩ := bind_eq_ok.mp hp
    obtain ⟨-, rfl⟩ := Prod.mk.inj (Except.ok.inj hp)
    have ha := hvalue _ _ _ _ hkey
    have hb := length_expect hcolon
    have hc := hvalue _ _ _ _ helement
    dsimp only at hb hc ⊢
    omega
  | field =>
    obtain ⟨⟨p, u⟩, hp, rfl⟩ := map_eq_ok.mp h
    rw [readField] at hp
    obtain ⟨⟨name, a⟩, hname, hp⟩ := bind_eq_ok.mp hp
    obtain ⟨b, hcolon, hp⟩ := bind_eq_ok.mp hp
    obtain ⟨⟨w, c⟩, helement, hp⟩ := bind_eq_ok.mp hp
    obtain ⟨-, rfl⟩ := Prod.mk.inj (Except.ok.inj hp)
    have ha := length_readFieldName hname
    have hb := length_expect hcolon
    have hc := hvalue _ _ _ _ helement
    dsimp only at hb hc ⊢
    omega
  | braced =>
    obtain ⟨⟨p, u⟩, hp, rfl⟩ := map_eq_ok.mp h
    rw [readBraced_eq] at hp
    obtain ⟨⟨v, a⟩, hkey, hp⟩ := bind_eq_ok.mp hp
    have ha := length_readKey hvalue hkey
    dsimp only at hp
    split at hp
    · next b hcolon =>
      obtain ⟨⟨w, c⟩, helement, hp⟩ := bind_eq_ok.mp hp
      obtain ⟨-, rfl⟩ := Prod.mk.inj (Except.ok.inj hp)
      have hb := length_lt_of_trimStart hcolon
      have hc := hvalue _ _ _ _ helement
      dsimp only at hb hc ⊢
      omega
    · obtain ⟨-, rfl⟩ := Prod.mk.inj (Except.ok.inj hp)
      exact Nat.lt_of_le_of_lt (length_trimStart_le a) ha

theorem Asks.length_le_of {type? : Option ColumnType} {t : List Char}
    (h : form.Asks levels size i s type? t) : t.length ≤ s.length := by
  cases h with
  | value | key => exact Nat.le_refl _
  | element hkey hcolon =>
    have hr := hvalue _ _ _ _ hkey
    have ht := length_expect hcolon
    omega
  | named hname hcolon =>
    have hr := length_readFieldName hname
    have ht := length_expect hcolon
    omega
  | single => exact length_trimStart_le s
  | keyed hkey hcolon =>
    have hr := length_readKey hvalue hkey
    have ht := length_lt_of_trimStart hcolon
    omega

end Lengths

/-! ### More levels -/

variable {more : Nat}

theorem pass_mono (h : levels ≤ more) {r : List Char} (hr : form.pass levels size i s = .ok r) :
    form.pass more size i s = .ok r := by
  have hbelow := fun type? t => readValue_below h size type? t
  cases form with
  | value type? =>
    obtain ⟨p, hp, rfl⟩ := map_eq_ok.mp hr
    exact map_eq_ok.mpr ⟨p, (hbelow _ _).eq_ok hp, rfl⟩
  | entry k e =>
    obtain ⟨p, hp, rfl⟩ := map_eq_ok.mp hr
    exact map_eq_ok.mpr ⟨p, (readEntry_below (hbelow _) (hbelow _) s).eq_ok hp, rfl⟩
  | field =>
    obtain ⟨p, hp, rfl⟩ := map_eq_ok.mp hr
    exact map_eq_ok.mpr ⟨p, (readField_below (hbelow _) s).eq_ok hp, rfl⟩
  | braced =>
    obtain ⟨p, hp, rfl⟩ := map_eq_ok.mp hr
    exact map_eq_ok.mpr ⟨p, (readBraced_below (hbelow _) s).eq_ok hp, rfl⟩

theorem Asks.mono (h : levels ≤ more) {type? : Option ColumnType} {t : List Char}
    (hasks : form.Asks levels size i s type? t) : form.Asks more size i s type? t := by
  cases hasks with
  | value type? => exact .value type?
  | key k e => exact .key k e
  | element hkey hcolon => exact .element ((readValue_below h _ _ _).eq_ok hkey) hcolon
  | named hname hcolon => exact .named hname hcolon
  | single hplain => exact .single hplain
  | keyed hkey hcolon =>
    exact .keyed ((readKey_below (readValue_below h _ _) s).eq_ok hkey) hcolon

end Form

/-! ## Values that open a sequence -/

/-- A value that opens a sequence is put together from the items of its form. -/
theorem readValue_opens (levels size : Nat) {type? : Option ColumnType} {s rest : List Char}
    {c close : Char} {form : Form} (hs : trimStart s = c :: rest)
    (hform : Form.of? type? c = some (form, close)) :
    ∃ (α : Type) (item : Nat → Step α) (make : List α → Except ValueFailure Value),
      readValue (levels + 1) size type? s =
        (readSequence close item rest >>= fun p => make p.1 >>= fun v => .ok (v, p.2)) ∧
      Leaves item (form.pass levels size) ∧ ∀ items, make items ≠ .error endless := by
  unfold Form.of? at hform
  split at hform
  · obtain ⟨rfl, rfl⟩ := Prod.mk.inj (Option.some.inj hform)
    exact ⟨Value, _, fun items => .ok (ofBracketed type? items), readValue_bracket hs,
      fun _ _ => rfl, fun _ => ok_ne_endless _⟩
  · obtain ⟨rfl, rfl⟩ := Prod.mk.inj (Option.some.inj hform)
    exact ⟨Value, _, fun items => .ok (.tuple items), readValue_parenthesis hs,
      fun _ _ => rfl, fun _ => ok_ne_endless _⟩
  · obtain ⟨rfl, rfl⟩ := Prod.mk.inj (Option.some.inj hform)
    rw [readValue_brace hs]
    unfold readBraces
    split
    · exact ⟨Value, _, fun items => .ok (.set items), rfl, fun _ _ => rfl, fun _ => ok_ne_endless _⟩
    · exact ⟨Value × Value, _, fun items => .ok (.map items), rfl, fun _ _ => rfl,
        fun _ => ok_ne_endless _⟩
    · exact ⟨String × Value, _, fun items => .ok (.fields items), rfl, fun _ _ => rfl,
        fun _ => ok_ne_endless _⟩
    · next hset hmap hnamed =>
      have hbraced : Form.ofBraces type? = .braced := by
        unfold Form.ofBraces
        split
        · exact absurd rfl (hset _)
        · exact absurd rfl (hmap _ _)
        · exact absurd rfl (hnamed _)
        · rfl
      rw [hbraced]
      exact ⟨Braced, _, ofBraced, rfl, fun _ _ => rfl, ofBraced_ne_endless⟩
  · cases hform

/-- A marked character is a quote or opens a sequence. -/
theorem exists_form {c : Char} (type? : Option ColumnType) (h : isMark c = true) (hc : c ≠ '\'') :
    ∃ form close, Form.of? type? c = some (form, close) := by
  rcases isMark_iff.mp h with rfl | rfl | rfl | rfl
  · exact absurd rfl hc
  all_goals exact ⟨_, _, rfl⟩

/-- Every reading uses up text. -/
theorem length_readValue {levels size : Nat} {type? : Option ColumnType} {s r : List Char}
    {v : Value} (h : readValue levels size type? s = .ok (v, r)) : r.length < s.length := by
  induction levels generalizing size type? s v r with
  | zero => cases h
  | succ levels ih =>
    cases hs : trimStart s with
    | nil =>
      rw [readValue_nil hs] at h
      cases h
    | cons c rest =>
      have hlt := length_lt_of_trimStart hs
      cases hmark : isMark c with
      | false =>
        rw [readValue_unmarked hs hmark] at h
        split at h
        · cases h
        · next hword =>
          obtain ⟨w, -, h⟩ := bind_eq_ok.mp h
          obtain ⟨u, -, h⟩ := bind_eq_ok.mp h
          obtain ⟨-, rfl⟩ := Prod.mk.inj (Except.ok.inj h)
          have hafter := length_afterBareWord hword
          rw [List.length_cons] at hafter
          omega
      | true =>
        by_cases hquote : c = '\''
        · subst hquote
          rw [readValue_quote hs] at h
          obtain ⟨⟨text, t⟩, htext, h⟩ := bind_eq_ok.mp h
          obtain ⟨w, -, h⟩ := bind_eq_ok.mp h
          obtain ⟨-, rfl⟩ := Prod.mk.inj (Except.ok.inj h)
          have hquoted := length_readQuoted htext
          show t.length < s.length
          omega
        · obtain ⟨form, close, hform⟩ := exists_form type? hmark hquote
          obtain ⟨α, item, make, heq, hitem, -⟩ := readValue_opens levels size hs hform
          rw [heq] at h
          obtain ⟨⟨items, t⟩, hitems, h⟩ := bind_eq_ok.mp h
          obtain ⟨w, -, h⟩ := bind_eq_ok.mp h
          obtain ⟨-, rfl⟩ := Prod.mk.inj (Except.ok.inj h)
          have hshort : ∀ i t a r, item i t = .ok (a, r) → r.length < t.length :=
            fun i t a r ha => Form.length_pass_of (fun _ _ _ _ => ih) (hitem.ok ha)
          have ht := length_readSequence hshort hitems
          show t.length < s.length
          omega

theorem Form.length_pass {levels size i : Nat} {s r : List Char} {form : Form}
    (h : form.pass levels size i s = .ok r) : r.length < s.length :=
  length_pass_of (fun _ _ _ _ => length_readValue) h

end BulkTransfer.Literal
