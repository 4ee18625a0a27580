import BulkTransfer.Json.Reader
import BulkTransfer.Proofs.Keyed

/-!
JSON values are read from their compact written form as they are, with whatever follows it left to
read. Numbers with a fraction are left out; the names in an object must increase.

- `Takes`: a reader takes a text for a value and stops behind it.
- `takes_readString`: a string in its escapes.
- `takes_readNumber`: the digits of a whole number.
- `takes_fields`: the fields of an object, in whatever order they are written.
- `IsReadable.takes`: so every value, by induction on its nesting.
-/

namespace BulkTransfer.Json

/-- The reader takes the text for a value, wherever the text begins, and stops behind it. -/
def Takes {α : Type} (read : Cursor → Except Failure (α × Cursor)) (s : List Char) (a : α)
    (rest : List Char) : Prop :=
  ∀ p, ∃ q, read ⟨s ++ rest, p⟩ = .ok (a, ⟨rest, q⟩)

/-- What may follow a value: the end of the text, a comma or a closing mark. -/
def EndsValue (rest : List Char) : Prop := ∀ c ∈ rest.head?, c = ',' ∨ c = ']' ∨ c = '}'

theorem endsValue_cons {c : Char} (h : c = ',' ∨ c = ']' ∨ c = '}') (rest : List Char) :
    EndsValue (c :: rest) := by
  rintro d ⟨⟩
  exact h

theorem skipSpace_of_not_isSpace {c : Char} (h : Cursor.isSpace c = false) (rest : List Char)
    (p : Position) : Cursor.skipSpace ⟨c :: rest, p⟩ = ⟨c :: rest, p⟩ := by
  show Cursor.skipSpaceFrom p (c :: rest) = _
  rw [Cursor.skipSpaceFrom, h]
  rfl

/-- Behind a part stands the comma of the next one, or the mark that closes them all. -/
theorem endsValue_behind {β : Type} (f : β → List Char) (more : List β) {close : Char}
    (h : close = ']' ∨ close = '}') (rest : List Char) :
    EndsValue (more.flatMap (fun b => ',' :: f b) ++ close :: rest) := by
  cases more with
  | nil => exact endsValue_cons (.inr h) rest
  | cons b more => exact endsValue_cons (.inl rfl) _

/-- Each part behind the first takes at least its comma. -/
theorem length_le_flatMap {β : Type} (f : β → List Char) (more : List β) :
    more.length ≤ (more.flatMap fun b => ',' :: f b).length := by
  induction more with
  | nil => exact Nat.le_refl _
  | cons b more ih =>
    rw [List.flatMap_cons, List.length_append, List.length_cons, List.length_cons]
    omega

/-! ## Strings -/

theorem hexValue?_hexDigit {n : Nat} (h : n < 16) : hexValue? (hexDigit n) = some n := by
  have hall : ∀ m ∈ List.range 16, hexValue? (hexDigit m) = some m := by decide
  exact hall n (List.mem_range.mpr h)

/-- The escape of a control character is read as this character. -/
theorem takes_control {c : Char} (h : c.toNat < 32) (rest : List Char) :
    Takes readEscape ['u', '0', '0', hexDigit (c.toNat / 16), hexDigit (c.toNat % 16)] c rest := by
  have hhigh := hexValue?_hexDigit (n := c.toNat / 16) (by omega)
  have hlow := hexValue?_hexDigit (n := c.toNat % 16) (by omega)
  have hzero : hexValue? '0' = some 0 := by decide
  have hvalue : ((0 * 16 + 0) * 16 + c.toNat / 16) * 16 + c.toNat % 16 = c.toNat := by omega
  intro p
  refine ⟨⟨(Cursor.after p 'u').line, (Cursor.after p 'u').column + 4⟩, ?_⟩
  show readUnicode ⟨'0' :: '0' :: hexDigit (c.toNat / 16) :: hexDigit (c.toNat % 16) :: rest,
    Cursor.after p 'u'⟩ = _
  unfold readUnicode readHex
  simp only [hzero, hhigh, hlow, hvalue, Char.ofNat_toNat]
  rw [if_neg (by omega), if_neg (by omega)]

/-- A character stands for itself or is read from its escape. -/
theorem escapeChar_cases (c : Char) :
    (escapeChar c = [c] ∧ c ≠ '"' ∧ c ≠ '\\' ∧ ¬ c.toNat < 32) ∨
      ∃ tail, escapeChar c = '\\' :: tail ∧ ∀ rest, Takes readEscape tail c rest := by
  have hof : ∀ {n : Nat}, c.toNat = n → c = Char.ofNat n := by
    rintro _ rfl
    exact (Char.ofNat_toNat c).symm
  unfold escapeChar
  split
  · next h => exact .inr ⟨_, rfl, fun rest p => ⟨_, by rw [h]; rfl⟩⟩
  rename_i hquote
  split
  · next h => exact .inr ⟨_, rfl, fun rest p => ⟨_, by rw [h]; rfl⟩⟩
  rename_i hback
  split
  · next h => exact .inr ⟨_, rfl, fun rest p => ⟨_, by rw [h]; rfl⟩⟩
  split
  · next h => exact .inr ⟨_, rfl, fun rest p => ⟨_, by rw [h]; rfl⟩⟩
  split
  · next h => exact .inr ⟨_, rfl, fun rest p => ⟨_, by rw [h]; rfl⟩⟩
  split
  · next h => exact .inr ⟨_, rfl, fun rest p => ⟨_, by rw [hof h]; rfl⟩⟩
  split
  · next h => exact .inr ⟨_, rfl, fun rest p => ⟨_, by rw [hof h]; rfl⟩⟩
  split
  · next h => exact .inr ⟨_, rfl, takes_control h⟩
  · next h => exact .inl ⟨rfl, hquote, hback, h⟩

/-- The characters of a string, each in its escape, are read up to the quote that ends it. -/
theorem takes_readChars (s rest : List Char) {steps : Nat} (hsteps : s.length < steps) :
    Takes (readChars steps) (s.flatMap escapeChar ++ ['"']) s rest := by
  induction s generalizing steps with
  | nil =>
    obtain ⟨steps, rfl⟩ := Nat.exists_eq_add_of_le' hsteps
    exact fun p => ⟨Cursor.after p '"', rfl⟩
  | cons c s ih =>
    obtain ⟨steps, rfl⟩ := Nat.exists_eq_add_of_le' (Nat.lt_of_le_of_lt (Nat.zero_le _) hsteps)
    have hmore : Takes (readChars steps) (s.flatMap escapeChar ++ ['"']) s rest := by
      refine ih ?_
      rw [List.length_cons] at hsteps
      omega
    have htext : (c :: s).flatMap escapeChar ++ ['"'] ++ rest =
        escapeChar c ++ (s.flatMap escapeChar ++ ['"'] ++ rest) := by
      simp only [List.flatMap_cons, List.append_assoc]
    intro p
    rw [htext]
    rcases escapeChar_cases c with ⟨hself, hquote, hback, hcontrol⟩ | ⟨tail, hescape, htakes⟩
    · obtain ⟨q, hq⟩ := hmore (Cursor.after p c)
      refine ⟨q, ?_⟩
      rw [hself, List.singleton_append, readChars]
      dsimp only [Cursor.pass]
      rw [if_neg hquote, if_neg hback, if_neg hcontrol, hq]
    · obtain ⟨q, hq⟩ := htakes (s.flatMap escapeChar ++ ['"'] ++ rest) (Cursor.after p '\\')
      obtain ⟨q', hq'⟩ := hmore q
      refine ⟨q', ?_⟩
      rw [hescape, List.cons_append, readChars]
      dsimp only [Cursor.pass]
      rw [if_neg (by decide), if_pos rfl, hq]
      dsimp only
      rw [hq']

theorem length_le_flatMap_escapeChar (s : List Char) :
    s.length ≤ (s.flatMap escapeChar).length := by
  induction s with
  | nil => exact Nat.le_refl _
  | cons c s ih =>
    have hpos : 0 < (escapeChar c).length := by
      rcases escapeChar_cases c with ⟨hself, -⟩ | ⟨tail, hescape, -⟩
      · rw [hself]
        exact Nat.one_pos
      · rw [hescape]
        exact Nat.succ_pos _
    rw [List.flatMap_cons, List.length_append, List.length_cons]
    omega

/-- A string is read behind its opening quote. -/
theorem takes_readString (s : String) (rest : List Char) :
    Takes readString (s.toList.flatMap escapeChar ++ ['"']) s rest := by
  intro p
  have hsteps : s.toList.length <
      (s.toList.flatMap escapeChar ++ ['"'] ++ rest).length + 1 := by
    have := length_le_flatMap_escapeChar s.toList
    simp only [List.length_append]
    omega
  obtain ⟨q, hq⟩ := takes_readChars s.toList rest hsteps p
  refine ⟨q, ?_⟩
  rw [readString]
  dsimp only
  rw [hq]
  dsimp only
  rw [String.ofList_toList]

/-! ## Numbers -/

theorem le_of_readFrom? {value n : Nat} {s : List Char} (h : Integer.readFrom? value s = some n) :
    value ≤ n := by
  induction s generalizing value with
  | nil => exact Nat.le_of_eq (Option.some.inj h)
  | cons c s ih =>
    rw [Integer.readFrom?] at h
    split at h
    · have := ih h
      omega
    · cases h

/-- Digits of a number that is not too large are all collected. -/
theorem collectWhole_append {value n : Nat} {s : List Char}
    (h : Integer.readFrom? value s = some n) (hn : n ≤ maxDigits) {rest : List Char}
    (hrest : ∀ c ∈ rest.head?, Integer.digitValue? c = none) (p : Position) :
    ∃ q, collectWhole value p (s ++ rest) = (n, true, ⟨rest, q⟩) := by
  induction s generalizing value p with
  | nil =>
    obtain rfl : value = n := Option.some.inj h
    refine ⟨p, ?_⟩
    cases rest with
    | nil => rfl
    | cons c rest => rw [List.nil_append, collectWhole, hrest c rfl]
  | cons c s ih =>
    rw [Integer.readFrom?] at h
    split at h
    · next d hd =>
      have hle := le_of_readFrom? h
      rw [List.cons_append, collectWhole, hd]
      dsimp only
      rw [if_neg (by omega)]
      exact ih h _
    · cases h

/-- The digits of a number start with zero only if it is zero. -/
theorem digits_eq_cons {n : Nat} (h : n ≠ 0) :
    ∃ c more d, Integer.digits n = c :: more ∧ Integer.digitValue? c = some (d + 1) ∧
      Integer.readFrom? (d + 1) more = some n := by
  have hfirst : ∀ n, n ≠ 0 → ∃ c more d, Integer.digits n = c :: more ∧
      Integer.digitValue? c = some (d + 1) := by
    intro n
    induction n using Nat.strongRecOn with
    | ind n ih =>
      intro hn
      rw [Integer.digits]
      split
      · next hlt =>
        refine ⟨Integer.digitChar n, [], n - 1, rfl, ?_⟩
        rw [Integer.digitValue?_digitChar hlt, Nat.sub_add_cancel (Nat.pos_of_ne_zero hn)]
      · next hge =>
        obtain ⟨c, more, d, heq, hd⟩ := ih (n / 10) (by omega) (by omega)
        exact ⟨c, more ++ [Integer.digitChar (n % 10)], d, by rw [heq]; rfl, hd⟩
  obtain ⟨c, more, d, heq, hd⟩ := hfirst n h
  refine ⟨c, more, d, heq, hd, ?_⟩
  have hread := Integer.readFrom?_digits n
  rw [heq, Integer.readFrom?, hd] at hread
  simpa using hread

theorem EndsValue.not_digit {rest : List Char} (h : EndsValue rest) :
    ∀ c ∈ rest.head?, Integer.digitValue? c = none := by
  intro c hc
  rcases h c hc with rfl | rfl | rfl <;> decide

theorem EndsValue.readWhole_eq {rest : List Char} (h : EndsValue rest) (positive : Bool)
    (n : Nat) (p : Position) :
    readWhole positive n ⟨rest, p⟩ = .ok (wholeNumber positive n, ⟨rest, p⟩) := by
  cases rest with
  | nil => rfl
  | cons c rest => rcases h c rfl with rfl | rfl | rfl <;> rfl

/-- The digits of a whole number are read as the number. -/
theorem takes_readNumber (positive : Bool) {n : Nat} (hn : n ≤ maxDigits) {rest : List Char}
    (hrest : EndsValue rest) :
    Takes (readNumber positive) (Integer.digits n) (wholeNumber positive n) rest := by
  intro p
  by_cases hzero : n = 0
  · subst hzero
    have hdigits : Integer.digits 0 = ['0'] := by
      rw [Integer.digits]
      rfl
    refine ⟨Cursor.after p '0', ?_⟩
    rw [hdigits, List.singleton_append, readNumber]
    cases rest with
    | nil => rfl
    | cons c more =>
      have hdigit : ¬ Integer.isDigit c = true := by
        rw [Integer.isDigit, hrest.not_digit c rfl]
        exact Bool.false_ne_true
      refine (if_neg hdigit).trans ?_
      exact hrest.readWhole_eq positive 0 _
  · obtain ⟨c, more, d, hdigits, hd, hread⟩ := digits_eq_cons hzero
    obtain ⟨q, hq⟩ := collectWhole_append hread hn hrest.not_digit (Cursor.after p c)
    refine ⟨q, ?_⟩
    rw [hdigits, List.cons_append, readNumber]
    simp only [hd, hq]
    exact hrest.readWhole_eq positive n q

/-! ## Arrays and objects -/

theorem renderItems_cons (j : Json) (more : List Json) :
    renderItems (j :: more) = render j ++ more.flatMap fun k => ',' :: render k := by
  induction more generalizing j with
  | nil => rw [renderItems, List.flatMap_nil, List.append_nil]
  | cons k more ih =>
    rw [renderItems, ih, List.flatMap_cons, List.cons_append]
    exact List.cons_ne_nil k more

/-- A value starts with a character that is no space and no closing mark. -/
def StartsValue (s : List Char) : Prop :=
  ∃ c more, s = c :: more ∧ Cursor.isSpace c = false ∧ c ≠ ']'

theorem isSpace_of_isDigit {c : Char} (h : Integer.isDigit c = true) :
    Cursor.isSpace c = false := by
  rw [Bool.eq_false_iff]
  intro hspace
  simp only [Cursor.isSpace, Bool.or_eq_true, beq_iff_eq] at hspace
  rcases hspace with ((rfl | rfl) | rfl) | rfl <;> exact absurd h (by decide)

theorem startsValue_digits (n : Nat) : StartsValue (Integer.digits n) := by
  obtain ⟨c, more, hcons⟩ := List.exists_cons_of_ne_nil (Integer.digits_ne_nil n)
  have hdigit : Integer.isDigit c = true := by
    apply Integer.isDigit_digits n
    rw [hcons]
    exact List.mem_cons_self
  refine ⟨c, more, hcons, isSpace_of_isDigit hdigit, ?_⟩
  rintro rfl
  exact absurd hdigit (by decide)

section Parts

variable {item : Cursor → Except Failure (Json × Cursor)}

/-- One item and those behind it. -/
theorem readItems_cons {steps : Nat} {first : Bool} {c c' c'' : Cursor} {a : Json} {after : Cursor}
    {more : List Json} {last : Cursor} (hnext : nextItem first c = .ok (some c', c''))
    (hitem : item c' = .ok (a, after))
    (hmore : readItems item steps false after = .ok (more, last)) :
    readItems item (steps + 1) first c = .ok (a :: more, last) := by
  rw [readItems, hnext]
  simp only [bind, Except.bind, hitem, hmore]
  rfl

theorem nextItem_first {s : List Char} (h : StartsValue s) (p : Position) :
    nextItem true ⟨s, p⟩ = .ok (some ⟨s, p⟩, ⟨s, p⟩) := by
  obtain ⟨c, more, rfl, hspace, hclose⟩ := h
  rw [nextItem, skipSpace_of_not_isSpace hspace]
  dsimp only
  split
  · next heq => cases heq
  · next heq => exact absurd (List.cons.inj heq).1 hclose
  · rfl

theorem nextItem_comma {s : List Char} (h : StartsValue s) (p : Position) :
    nextItem false ⟨',' :: s, p⟩ = .ok (some ⟨s, Cursor.after p ','⟩, ⟨s, Cursor.after p ','⟩) := by
  obtain ⟨c, more, rfl, hspace, hclose⟩ := h
  have hskip : (Cursor.pass ⟨',' :: c :: more, p⟩ ',' (c :: more)).skipSpace =
      ⟨c :: more, Cursor.after p ','⟩ := skipSpace_of_not_isSpace hspace more _
  rw [nextItem, skipSpace_of_not_isSpace (by decide)]
  dsimp only
  split
  · next heq => cases heq
  · next heq => exact absurd (List.cons.inj heq).1 (by decide)
  · next heq =>
    obtain ⟨rfl, rfl⟩ := List.cons.inj heq
    rw [if_neg Bool.false_ne_true, if_pos rfl, hskip]
    dsimp only
    split
    · next hnil => cases hnil
    · next hend => exact absurd (List.cons.inj hend).1 hclose
    · rfl

theorem nextItem_close (first : Bool) (rest : List Char) (p : Position) :
    nextItem first ⟨']' :: rest, p⟩ = .ok (none, ⟨']' :: rest, p⟩) := by
  rw [nextItem, skipSpace_of_not_isSpace (by decide)]
  rfl

/-- Items behind the first, each behind its comma, are read up to the bracket that closes them. -/
theorem takes_moreItems {items : List Json}
    (hstart : ∀ j ∈ items, ∀ rest, StartsValue (render j ++ rest))
    (hitem : ∀ j ∈ items, ∀ rest, EndsValue rest → Takes item (render j) j rest)
    (rest : List Char) {steps : Nat} (hsteps : items.length < steps) (p : Position) :
    ∃ q, readItems item steps false ⟨items.flatMap (fun j => ',' :: render j) ++ ']' :: rest, p⟩ =
      .ok (items, ⟨']' :: rest, q⟩) := by
  induction items generalizing steps p with
  | nil =>
    obtain ⟨steps, rfl⟩ := Nat.exists_eq_succ_of_ne_zero (Nat.ne_zero_of_lt hsteps)
    refine ⟨p, ?_⟩
    rw [List.flatMap_nil, List.nil_append, readItems, nextItem_close]
    rfl
  | cons j items ih =>
    obtain ⟨steps, rfl⟩ := Nat.exists_eq_succ_of_ne_zero (Nat.ne_zero_of_lt hsteps)
    have htext : (j :: items).flatMap (fun k => ',' :: render k) ++ ']' :: rest =
        ',' :: (render j ++ (items.flatMap (fun k => ',' :: render k) ++ ']' :: rest)) := by
      simp only [List.flatMap_cons, List.cons_append, List.append_assoc]
    have hends := endsValue_behind render items (.inl rfl) rest
    obtain ⟨q, hq⟩ := hitem j List.mem_cons_self _ hends (Cursor.after p ',')
    obtain ⟨q', hq'⟩ := ih (fun k hk => hstart k (List.mem_cons_of_mem j hk))
      (fun k hk => hitem k (List.mem_cons_of_mem j hk)) (Nat.lt_of_succ_lt_succ hsteps) q
    refine ⟨q', ?_⟩
    rw [htext]
    exact readItems_cons (nextItem_comma (hstart j List.mem_cons_self _) p) hq hq'

/-- The items of an array are read up to the bracket that closes it. -/
theorem takes_items {items : List Json}
    (hstart : ∀ j ∈ items, ∀ rest, StartsValue (render j ++ rest))
    (hitem : ∀ j ∈ items, ∀ rest, EndsValue rest → Takes item (render j) j rest)
    (rest : List Char) {steps : Nat} (hsteps : items.length < steps) (p : Position) :
    ∃ q, readItems item steps true ⟨renderItems items ++ ']' :: rest, p⟩ =
      .ok (items, ⟨']' :: rest, q⟩) := by
  obtain ⟨steps, rfl⟩ := Nat.exists_eq_succ_of_ne_zero (Nat.ne_zero_of_lt hsteps)
  cases items with
  | nil =>
    refine ⟨p, ?_⟩
    rw [renderItems, List.nil_append, readItems, nextItem_close]
    rfl
  | cons j items =>
    have hends := endsValue_behind render items (.inl rfl) rest
    obtain ⟨q, hq⟩ := hitem j List.mem_cons_self _ hends p
    obtain ⟨q', hq'⟩ := takes_moreItems (fun k hk => hstart k (List.mem_cons_of_mem j hk))
      (fun k hk => hitem k (List.mem_cons_of_mem j hk)) rest (Nat.lt_of_succ_lt_succ hsteps) q
    refine ⟨q', ?_⟩
    rw [renderItems_cons, List.append_assoc]
    exact readItems_cons (nextItem_first (hstart j List.mem_cons_self _) p) hq hq'

/-- A field and those behind it, from where its name begins. -/
theorem readFields_field {field : String × Json} {rest : List Char}
    (hitem : Takes item (render field.2) field.2 rest) {first : Bool} {c c' : Cursor}
    {p : Position} (hnext : nextName first c = .ok (some ⟨field.1.toList.flatMap escapeChar ++
      ['"'] ++ ':' :: (render field.2 ++ rest), p⟩, c')) {steps : Nat}
    {more : List (String × Json)} {after : List Char}
    (hmore : ∀ p, ∃ q, readFields item steps false ⟨rest, p⟩ = .ok (more, ⟨after, q⟩)) :
    ∃ q, readFields item (steps + 1) first c = .ok (field :: more, ⟨after, q⟩) := by
  obtain ⟨behind, hname⟩ := takes_readString field.1 (':' :: (render field.2 ++ rest)) p
  have hcolon : passColon ⟨':' :: (render field.2 ++ rest), behind⟩ =
      .ok ⟨render field.2 ++ rest, Cursor.after behind ':'⟩ := rfl
  obtain ⟨middle, hvalue⟩ := hitem (Cursor.after behind ':')
  obtain ⟨q, hq⟩ := hmore middle
  refine ⟨q, ?_⟩
  rw [readFields, hnext]
  simp only [bind, Except.bind, hname, hcolon, hvalue, hq]
  rfl

theorem quote_append (s : String) (rest : List Char) :
    quote s ++ rest = '"' :: (s.toList.flatMap escapeChar ++ ['"'] ++ rest) := rfl

/-- A name and its value. -/
def fieldText (field : String × Json) : List Char := quote field.1 ++ ':' :: render field.2

theorem fieldText_append (field : String × Json) (rest : List Char) :
    fieldText field ++ rest =
      '"' :: (field.1.toList.flatMap escapeChar ++ ['"'] ++ ':' :: (render field.2 ++ rest)) := by
  rw [fieldText, List.append_assoc, quote_append, List.cons_append]

theorem renderFields_cons (field : String × Json) (more : List (String × Json)) :
    renderFields (field :: more) = fieldText field ++ more.flatMap fun f => ',' :: fieldText f := by
  induction more generalizing field with
  | nil => rw [renderFields, List.flatMap_nil, List.append_nil, fieldText]
  | cons next more ih =>
    rw [renderFields, ih, List.flatMap_cons, List.cons_append]
    · rfl
    · exact List.cons_ne_nil next more

/-- Fields behind the first, each behind its comma, are read up to the brace that closes them. -/
theorem takes_moreFields {fields : List (String × Json)}
    (hitem : ∀ f ∈ fields, ∀ rest, EndsValue rest → Takes item (render f.2) f.2 rest)
    (rest : List Char) {steps : Nat} (hsteps : fields.length < steps) (p : Position) :
    ∃ q, readFields item steps false
        ⟨fields.flatMap (fun f => ',' :: fieldText f) ++ '}' :: rest, p⟩ =
      .ok (fields, ⟨'}' :: rest, q⟩) := by
  induction fields generalizing steps p with
  | nil =>
    obtain ⟨steps, rfl⟩ := Nat.exists_eq_succ_of_ne_zero (Nat.ne_zero_of_lt hsteps)
    exact ⟨p, rfl⟩
  | cons f fields ih =>
    obtain ⟨steps, rfl⟩ := Nat.exists_eq_succ_of_ne_zero (Nat.ne_zero_of_lt hsteps)
    have hends := endsValue_behind fieldText fields (.inr rfl) rest
    have hmore := ih (fun g hg => hitem g (List.mem_cons_of_mem f hg))
      (Nat.lt_of_succ_lt_succ hsteps)
    rw [List.flatMap_cons, List.cons_append, List.cons_append, List.append_assoc, fieldText_append]
    exact readFields_field (hitem f List.mem_cons_self _ hends) rfl hmore

/-- The fields of an object are read up to the brace that closes it. -/
theorem takes_fields {fields : List (String × Json)}
    (hitem : ∀ f ∈ fields, ∀ rest, EndsValue rest → Takes item (render f.2) f.2 rest)
    (rest : List Char) {steps : Nat} (hsteps : fields.length < steps) (p : Position) :
    ∃ q, readFields item steps true ⟨renderFields fields ++ '}' :: rest, p⟩ =
      .ok (fields, ⟨'}' :: rest, q⟩) := by
  obtain ⟨steps, rfl⟩ := Nat.exists_eq_succ_of_ne_zero (Nat.ne_zero_of_lt hsteps)
  cases fields with
  | nil => exact ⟨p, rfl⟩
  | cons f fields =>
    have hends := endsValue_behind fieldText fields (.inr rfl) rest
    have hmore := takes_moreFields (fun g hg => hitem g (List.mem_cons_of_mem f hg)) rest
      (Nat.lt_of_succ_lt_succ hsteps)
    rw [renderFields_cons, List.append_assoc, fieldText_append]
    exact readFields_field (hitem f List.mem_cons_self _ hends) rfl hmore

end Parts

/-! ## Values -/

/-- Values that are read from their written form as they are, with at most so many arrays and
objects inside each other: whole numbers of 64 bits, and objects whose names increase. -/
inductive IsReadable : Nat → Json → Prop
  | null (room : Nat) : IsReadable room .null
  | bool (room : Nat) (b : Bool) : IsReadable room (.bool b)
  | int (room : Nat) {i : Int} (hlow : Integer.min64 ≤ i) (hhigh : i ≤ maxDigits) :
    IsReadable room (.int i)
  | string (room : Nat) (s : String) : IsReadable room (.string s)
  | array {room : Nat} {items : List Json} (h : ∀ j ∈ items, IsReadable room j) :
    IsReadable (room + 1) (.array items)
  | object {room : Nat} {fields : List (String × Json)} (hfields : Keyed.IsIncreasing fields)
      (h : ∀ f ∈ fields, IsReadable room f.2) : IsReadable (room + 1) (.object fields)

theorem StartsValue.append {s : List Char} (h : StartsValue s) (rest : List Char) :
    StartsValue (s ++ rest) := by
  obtain ⟨c, more, rfl, hspace, hclose⟩ := h
  exact ⟨c, more ++ rest, rfl, hspace, hclose⟩

theorem IsReadable.startsValue {room : Nat} {j : Json} (h : IsReadable room j) :
    StartsValue (render j) := by
  cases h with
  | null => exact ⟨'n', "ull".toList, rfl, by decide, by decide⟩
  | bool room b =>
    cases b with
    | true => exact ⟨'t', "rue".toList, rfl, by decide, by decide⟩
    | false => exact ⟨'f', "alse".toList, rfl, by decide, by decide⟩
  | @int _ i =>
    rw [render, Integer.render]
    split
    · exact ⟨'-', _, rfl, by decide, by decide⟩
    · exact startsValue_digits _
  | string room s => exact ⟨'"', _, rfl, by decide, by decide⟩
  | array => exact ⟨'[', _, by rw [render]; rfl, by decide, by decide⟩
  | object => exact ⟨'{', _, by rw [render]; rfl, by decide, by decide⟩

theorem passWord_append (word rest : List Char) (p : Position) :
    ∃ q, Cursor.passWord word ⟨word ++ rest, p⟩ = .ok ⟨rest, q⟩ := by
  induction word generalizing p with
  | nil => exact ⟨p, rfl⟩
  | cons c word ih =>
    rw [List.cons_append, Cursor.passWord]
    dsimp only
    rw [if_pos rfl]
    exact ih (Cursor.after p c)

/-- A value that starts with a digit is a number. -/
theorem readValue_of_digit {d : Char} (h : Integer.isDigit d = true) (room : Nat)
    (rest : List Char) (p : Position) :
    readValue room ⟨d :: rest, p⟩ = readNumber true ⟨d :: rest, p⟩ := by
  have hother : ∀ {e : Char} {more : List Char}, d :: rest = e :: more →
      Integer.isDigit e = true := by
    rintro e more ⟨⟩
    exact h
  unfold readValue
  rw [skipSpace_of_not_isSpace (isSpace_of_isDigit h)]
  dsimp only
  split <;> rename_i heq
  case h_1 => cases heq
  case h_9 =>
    obtain ⟨rfl, rfl⟩ := List.cons.inj heq
    exact if_pos h
  all_goals exact absurd (hother heq) (by decide)

theorem takes_int {room : Nat} {i : Int} (hlow : Integer.min64 ≤ i) (hhigh : i ≤ maxDigits)
    {rest : List Char} (hrest : EndsValue rest) :
    Takes (readValue room) (render (.int i)) (.int i) rest := by
  unfold Integer.min64 at hlow
  unfold maxDigits at hhigh
  rw [render, Integer.render]
  split
  · next hneg =>
    have hwhole : wholeNumber false i.natAbs = .int i := by
      rw [wholeNumber, if_neg Bool.false_ne_true, if_neg (by omega)]
      congr 1
      omega
    intro p
    obtain ⟨q, hq⟩ := takes_readNumber false (n := i.natAbs) (by unfold maxDigits; omega) hrest
      (Cursor.after p '-')
    refine ⟨q, ?_⟩
    rw [readValue]
    exact hq.trans (by rw [hwhole])
  · next hpos =>
    have hwhole : wholeNumber true i.natAbs = .int i := by
      rw [wholeNumber, if_pos rfl]
      congr 1
      omega
    obtain ⟨d, more, hdigits⟩ := List.exists_cons_of_ne_nil (Integer.digits_ne_nil i.natAbs)
    have hdigit : Integer.isDigit d = true := by
      apply Integer.isDigit_digits i.natAbs
      rw [hdigits]
      exact List.mem_cons_self
    intro p
    obtain ⟨q, hq⟩ := takes_readNumber true (n := i.natAbs) (by unfold maxDigits; omega) hrest p
    refine ⟨q, ?_⟩
    rw [hdigits, List.cons_append] at hq ⊢
    rw [readValue_of_digit hdigit, hq, hwhole]

/-- An object is read as the map of its fields, whatever the order in which they are written. -/
theorem takes_object {room : Nat} {fields : List (String × Json)}
    (hitem : ∀ f ∈ fields, ∀ rest, EndsValue rest → Takes (readValue room) (render f.2) f.2 rest)
    (rest : List Char) :
    Takes (readValue (room + 1)) (render (.object fields)) (.object (Keyed.ofPairs fields))
      rest := by
  intro p
  have hsteps : fields.length < (renderFields fields ++ '}' :: rest).length + 1 := by
    cases fields with
    | nil => exact Nat.succ_pos _
    | cons f more =>
      have hle := length_le_flatMap fieldText more
      rw [renderFields_cons]
      simp only [List.length_append, List.length_cons]
      omega
  obtain ⟨q, hq⟩ := takes_fields hitem rest hsteps (Cursor.after p '{')
  refine ⟨Cursor.after q '}', ?_⟩
  rw [render, List.cons_append, List.cons_append, List.append_assoc, List.singleton_append,
    readValue, skipSpace_of_not_isSpace (by decide)]
  simp only [bind, Except.bind, Cursor.pass, hq]
  rfl

theorem takes_array {room : Nat} {items : List Json}
    (hstart : ∀ j ∈ items, StartsValue (render j))
    (hitem : ∀ j ∈ items, ∀ rest, EndsValue rest → Takes (readValue room) (render j) j rest)
    (rest : List Char) :
    Takes (readValue (room + 1)) (render (.array items)) (.array items) rest := by
  intro p
  have hsteps : items.length < (renderItems items ++ ']' :: rest).length + 1 := by
    cases items with
    | nil => exact Nat.succ_pos _
    | cons j more =>
      have hle := length_le_flatMap render more
      rw [renderItems_cons]
      simp only [List.length_append, List.length_cons]
      omega
  obtain ⟨q, hq⟩ := takes_items (fun j hj rest => (hstart j hj).append rest) hitem rest hsteps
    (Cursor.after p '[')
  refine ⟨Cursor.after q ']', ?_⟩
  rw [render, List.cons_append, List.cons_append, List.append_assoc, List.singleton_append,
    readValue, skipSpace_of_not_isSpace (by decide)]
  simp only [bind, Except.bind, Cursor.pass, hq]
  rfl

/-- Every readable value is read from its written form. -/
theorem IsReadable.takes {room : Nat} {j : Json} (h : IsReadable room j) :
    ∀ rest, EndsValue rest → Takes (readValue room) (render j) j rest := by
  induction h with
  | null room =>
    intro rest _ p
    obtain ⟨q, hq⟩ := passWord_append "ull".toList rest (Cursor.after p 'n')
    refine ⟨q, ?_⟩
    rw [readValue]
    exact congrArg (Except.map fun c => (Json.null, c)) hq
  | bool room b =>
    intro rest _ p
    cases b with
    | true =>
      obtain ⟨q, hq⟩ := passWord_append "rue".toList rest (Cursor.after p 't')
      refine ⟨q, ?_⟩
      rw [readValue]
      exact congrArg (Except.map fun c => (Json.bool true, c)) hq
    | false =>
      obtain ⟨q, hq⟩ := passWord_append "alse".toList rest (Cursor.after p 'f')
      refine ⟨q, ?_⟩
      rw [readValue]
      exact congrArg (Except.map fun c => (Json.bool false, c)) hq
  | int room hlow hhigh => exact fun rest hrest => takes_int hlow hhigh hrest
  | string room s =>
    intro rest _ p
    obtain ⟨q, hq⟩ := takes_readString s rest (Cursor.after p '"')
    refine ⟨q, ?_⟩
    rw [render, quote_append, readValue]
    exact congrArg (Except.map fun r : String × Cursor => (Json.string r.1, r.2)) hq
  | array h ih =>
    intro rest _
    exact takes_array (fun j hj => (h j hj).startsValue) ih rest
  | object hfields h ih =>
    intro rest _
    have hread := takes_object ih rest
    rwa [Keyed.ofPairs_of_perm (.refl _) hfields] at hread

/-- A whole text that is an object of readable values is read as the map of its fields. -/
theorem parse_object {fields : List (String × Json)}
    (h : ∀ f ∈ fields, IsReadable (maxNesting - 1) f.2) :
    parse (render (.object fields)) = .ok (.object (Keyed.ofPairs fields)) := by
  have hread := takes_object (fun f hf => (h f hf).takes) []
  obtain ⟨q, hq⟩ := hread ⟨1, 0⟩
  rw [List.append_nil] at hq
  have hstart : readValue maxNesting (Cursor.start (render (.object fields))) =
      .ok (.object (Keyed.ofPairs fields), ⟨[], q⟩) := hq
  rw [parse, hstart]
  rfl

end BulkTransfer.Json
