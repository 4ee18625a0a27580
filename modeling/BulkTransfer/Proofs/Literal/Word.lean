import BulkTransfer.Proofs.Literal.Token
import BulkTransfer.Proofs.Value.Canonical

/-!
Values without parts: the words that the printer writes for them, what these words are read as, and
how the result is fitted to a declared type.

- `isBare_render`, `isBare_encode`, `isBare_of_hyphenated`: integers, bytes and identifiers are
  bare words.
- `mem_renderInt`, `mem_floatLiteral`, `mem_render`: the characters of numbers and instants.
- `ofBareWord_render`, `ofBareWord_bytes`: integers and bytes are read from their words.
- `ofText_textual`, `ofText_uuid`, `readInstant_render`: texts that a type keeps or reads.
-/

namespace BulkTransfer.Literal

open Value Text

/-! ## Bare characters -/

theorem isBare_of_isHexDigit {c : Char} (h : Uuid.isHexDigit c = true) : isBare c = true := by
  have hn := Uuid.isHexDigit_toNat h
  have hb : isBlank c = false := by
    simp only [isBlank, Bool.or_eq_false_iff, Bool.and_eq_false_iff, beq_eq_false_iff_ne,
      decide_eq_false_iff_not]
    omega
  have hne : ∀ d : Char, Uuid.isHexDigit d = false → (c == d) = false := by
    intro d hd
    rw [beq_eq_false_iff_ne]
    rintro rfl
    rw [h] at hd
    exact absurd hd (by decide)
  simp [isBare, hb, hne ',' (by decide), hne '[' (by decide), hne ']' (by decide),
    hne '{' (by decide), hne '}' (by decide), hne '(' (by decide), hne ')' (by decide),
    hne ':' (by decide), hne '\'' (by decide)]

theorem isHexDigit_of_isDigit {c : Char} (h : Integer.isDigit c = true) :
    Uuid.isHexDigit c = true := by
  have hn := Integer.toNat_of_isDigit h
  simp [Uuid.isHexDigit, Uuid.digitValue?, hn.1, hn.2]

theorem isHexDigit_digit {n : Nat} (h : n < 16) : Uuid.isHexDigit (Hex.digit n) = true := by
  rw [Uuid.isHexDigit, Uuid.digitValue?_digit h]
  rfl

theorem isBare_of_hyphenated {s : List Char} (h : Uuid.Hyphenated s) :
    ∀ c ∈ s, isBare c = true := by
  intro c hc
  rcases h.chars c hc with hx | rfl
  · exact isBare_of_isHexDigit hx
  · decide

/-- A whole number is written with digits and a sign. -/
theorem mem_renderInt {i : Int} {c : Char} (h : c ∈ Integer.render i) :
    Integer.isDigit c = true ∨ c = '-' := by
  unfold Integer.render at h
  split at h
  · rcases List.mem_cons.mp h with hsign | hdigits
    · exact .inr hsign
    · exact .inl (Integer.isDigit_digits _ c hdigits)
  · exact .inl (Integer.isDigit_digits _ c h)

theorem isBare_render (i : Int) : ∀ c ∈ Integer.render i, isBare c = true := by
  intro c hc
  rcases mem_renderInt hc with hdigit | rfl
  · exact isBare_of_isHexDigit (isHexDigit_of_isDigit hdigit)
  · decide

theorem render_ne_nil (i : Int) : Integer.render i ≠ [] := by
  unfold Integer.render
  split
  · simp
  · exact Integer.digits_ne_nil _

/-- Digits at their place have digits and a point. -/
theorem mem_positional {n : Nat} {exponent : Int} {c : Char}
    (h : c ∈ Binary64.positional (Integer.digits n) exponent) :
    Integer.isDigit c = true ∨ c = '.' := by
  have hdigits : c ∈ Integer.digits n → Integer.isDigit c = true := Integer.isDigit_digits n c
  have hzeros : ∀ k, c ∈ List.replicate k '0' → Integer.isDigit c = true := by
    intro k hk
    rw [List.eq_of_mem_replicate hk]
    decide
  unfold Binary64.positional at h
  split at h
  · rcases List.mem_append.mp h with hc | hc
    · exact .inl (hdigits hc)
    · exact .inl (hzeros _ hc)
  · dsimp only at h
    split at h
    · rcases List.mem_cons.mp h with rfl | hc
      · exact .inl (by decide)
      · rcases List.mem_cons.mp hc with hpoint | hc
        · exact .inr hpoint
        · rcases List.mem_append.mp hc with hc | hc
          · exact .inl (hzeros _ hc)
          · exact .inl (hdigits hc)
    · rcases List.mem_append.mp h with hc | hc
      · exact .inl (hdigits (List.mem_of_mem_take hc))
      · rcases List.mem_cons.mp hc with hpoint | hc
        · exact .inr hpoint
        · exact .inl (hdigits (List.mem_of_mem_drop hc))

/-- A number is written with digits and, where it is no whole one, with a point, a sign or a
name. -/
theorem mem_floatLiteral {x : Binary64} {c : Char} (h : c ∈ floatLiteral x) :
    Integer.isDigit c = true ∨ c ∈ "-.NaInfinity".toList := by
  have hsign : x.signText ⊆ "-.NaInfinity".toList := by
    unfold Binary64.signText
    split <;> decide
  unfold floatLiteral at h
  split at h
  · exact .inr ((by decide : "NaN".toList ⊆ "-.NaInfinity".toList) h)
  · next hnan =>
    split at h
    · split at h
      · exact .inr ((by decide : "-Infinity".toList ⊆ "-.NaInfinity".toList) h)
      · exact .inr ((by decide : "Infinity".toList ⊆ "-.NaInfinity".toList) h)
    · next hinfinite =>
      unfold Binary64.plain at h
      rw [if_neg hnan, if_neg hinfinite] at h
      split at h
      · rcases List.mem_append.mp h with hc | hc
        · exact .inr (hsign hc)
        · rw [List.mem_singleton.mp hc]
          exact .inl (by decide)
      · rcases List.mem_append.mp h with hc | hc
        · exact .inr (hsign hc)
        · refine (mem_positional hc).imp_right ?_
          rintro rfl
          decide

theorem isBare_floatLiteral (x : Binary64) : ∀ c ∈ floatLiteral x, isBare c = true := by
  intro c hc
  rcases mem_floatLiteral hc with hdigit | hother
  · exact isBare_of_isHexDigit (isHexDigit_of_isDigit hdigit)
  · exact List.all_eq_true.mp (by decide : "-.NaInfinity".toList.all isBare = true) c hother

theorem floatLiteral_ne_nil (x : Binary64) : floatLiteral x ≠ [] := by
  have hpositional : ∀ n exponent, Binary64.positional (Integer.digits n) exponent ≠ [] := by
    intro n exponent
    unfold Binary64.positional
    split
    · exact List.append_ne_nil_of_left_ne_nil (Integer.digits_ne_nil n) _
    · dsimp only
      split
      · exact List.cons_ne_nil _ _
      · exact List.append_ne_nil_of_right_ne_nil _ (List.cons_ne_nil _ _)
  unfold floatLiteral
  split
  · decide
  · next hnan =>
    split
    · split <;> decide
    · next hinfinite =>
      unfold Binary64.plain
      rw [if_neg hnan, if_neg hinfinite]
      split
      · exact List.append_ne_nil_of_right_ne_nil _ (List.cons_ne_nil _ _)
      · exact List.append_ne_nil_of_right_ne_nil _ (hpositional _ _)

/-- An instant is written with digits and the signs between them. -/
theorem mem_render {t : Instant} {c : Char} (h : c ∈ t.render) :
    Integer.isDigit c = true ∨ c ∈ "-+T:.Z".toList := by
  refine Classical.or_iff_not_imp_left.mpr fun hnot => ?_
  have hpadded : ∀ width n, c ∉ Integer.padded width n := fun width n hc =>
    hnot (Integer.isDigit_padded width n c hc)
  have hyear : c ∈ Instant.yearText t.date.year → c ∈ "-+T:.Z".toList := by
    intro hc
    unfold Instant.yearText at hc
    split at hc
    · exact absurd hc (hpadded _ _)
    · rcases List.mem_cons.mp hc with rfl | hc
      · split <;> decide
      · exact absurd hc (hpadded _ _)
  unfold Instant.render Instant.dateText Instant.twoDigits at h
  simp only [List.mem_append, List.mem_cons, List.not_mem_nil, hpadded, or_false] at h
  rcases h with ((((((h | rfl) | rfl) | rfl) | rfl) | rfl) | rfl) | rfl
  · exact hyear h
  all_goals decide

theorem isBare_encode (b : Bytes) : ∀ c ∈ Hex.encode b, isBare c = true := by
  intro c hc
  obtain ⟨n, hn, rfl⟩ := Hex.exists_digit_of_mem_encode hc
  exact isBare_of_isHexDigit (isHexDigit_digit hn)

/-! ## Bare words -/

theorem toLower_eq_self {c : Char} (h : c.toNat < 65) : c.toLower = c := by
  have hlow : ¬ (c.val ≥ 'A'.val ∧ c.val ≤ 'Z'.val) := by
    intro hc
    have : 'A'.val.toNat ≤ c.val.toNat := UInt32.le_iff_toNat_le.mp hc.1
    have h65 : 'A'.val.toNat = 65 := by decide
    have : c.val.toNat < 65 := h
    omega
  unfold Char.toLower
  rw [dif_neg hlow]

/-- A word is none of those with a meaning of their own if its first character is no letter. -/
theorem sameWord_of_first {c : Char} {s : List Char} (hc : c.toNat < 65) {word : String} {w : Char}
    {ws : List Char} (hword : word.toList.map Char.toLower = w :: ws) (hw : 65 ≤ w.toNat) :
    sameWord (c :: s) word = false := by
  rw [sameWord, equalsIgnoringAsciiCase, beq_eq_false_iff_ne, hword, List.map_cons,
    toLower_eq_self hc]
  intro heq
  rw [(List.cons.inj heq).1] at hc
  omega

/-- A word that starts with no letter, and not as bytes do, is read as a number if it is one. -/
theorem ofBareWord_of_first {c : Char} {s : List Char} (hc : c.toNat < 65)
    (hx : ∀ d ∈ s.head?, d ≠ 'x' ∧ d ≠ 'X') :
    ofBareWord (c :: s) = match Integer.readSigned? (c :: s) with
      | some i => .ok (int i)
      | none => match Binary64.read? (c :: s) with
        | some x => .ok (float x)
        | none => .ok (text (String.ofList (c :: s))) := by
  have hnull : sameWord (c :: s) "null" = false := sameWord_of_first hc rfl (by decide)
  have htrue : sameWord (c :: s) "true" = false := sameWord_of_first hc rfl (by decide)
  have hfalse : sameWord (c :: s) "false" = false := sameWord_of_first hc rfl (by decide)
  unfold ofBareWord
  rw [hnull, htrue, hfalse]
  simp only [Bool.false_eq_true, if_false]
  split
  · next heq => exact absurd rfl (hx 'x' (by simp [(List.cons.inj heq).2])).1
  · next heq => exact absurd rfl (hx 'X' (by simp [(List.cons.inj heq).2])).2
  · rfl

theorem ofBareWord_render {i : Int} (h : InWidth 64 i) :
    ofBareWord (Integer.render i) = .ok (int i) := by
  have hread : Integer.readSigned? (Integer.render i) = some i :=
    Integer.read?_render h.1 (Int.le_of_lt_add_one h.2)
  have hchars : ∀ c ∈ Integer.render i, c.toNat < 65 := by
    intro c hc
    rcases mem_renderInt hc with hdigit | rfl
    · have := Integer.toNat_of_isDigit hdigit
      omega
    · decide
  obtain ⟨c, s, hs⟩ := List.exists_cons_of_ne_nil (render_ne_nil i)
  rw [hs] at hread hchars ⊢
  rw [ofBareWord_of_first (hchars c (by simp)), hread]
  intro d hd
  have := hchars d (by simp [List.mem_of_mem_head? hd])
  constructor <;> (rintro rfl; exact absurd this (by decide))

theorem ofBareWord_bytes (b : Bytes) : ofBareWord ('0' :: 'x' :: Hex.encode b) = .ok (bytes b) := by
  have hnull : sameWord ('0' :: 'x' :: Hex.encode b) "null" = false :=
    sameWord_of_first (by decide) rfl (by decide)
  have htrue : sameWord ('0' :: 'x' :: Hex.encode b) "true" = false :=
    sameWord_of_first (by decide) rfl (by decide)
  have hfalse : sameWord ('0' :: 'x' :: Hex.encode b) "false" = false :=
    sameWord_of_first (by decide) rfl (by decide)
  rw [ofBareWord, hnull, htrue, hfalse]
  simp only [Bool.false_eq_true, if_false, Hex.decodeText_encode]

/-! ## Fitting to a type -/

/-- Under a type without parts every value that was read is fitted to it. -/
theorem typed_scalar {type : ColumnType} (htype : type.isComposite = false)
    (read : Nat → Option ColumnType → Step Value) (v : Value) :
    typed read v (some type) = v.fitScalar type := by
  unfold typed
  dsimp only
  split
  · rw [if_neg (by rw [htype]; decide)]
  · rfl

theorem isComposite_of_isTextual {type : ColumnType} (h : type.isTextual = true) :
    type.isComposite = false := by
  cases type <;> simp_all [ColumnType.isTextual, ColumnType.isComposite]

theorem isComposite_of_isUuid {type : ColumnType} (h : type.isUuid = true) :
    type.isComposite = false := by
  cases type <;> simp_all [ColumnType.isUuid, ColumnType.isComposite]

theorem isComposite_of_bits? {type : ColumnType} {bits : Nat} (h : type.bits? = some bits) :
    type.isComposite = false := by
  cases type <;> simp_all [ColumnType.bits?, ColumnType.isComposite]

theorem isInteger_of_bits? {type : ColumnType} {bits : Nat} (h : type.bits? = some bits) :
    type.isInteger = true := by
  cases type <;> simp_all [ColumnType.bits?, ColumnType.isInteger]

theorem inWidth_64 {type : ColumnType} {bits : Nat} (h : type.bits? = some bits) {i : Int}
    (hi : InWidth bits i) : InWidth 64 i := by
  cases type <;> simp only [ColumnType.bits?, Option.some.injEq, reduceCtorEq] at h <;> subst h <;>
    simp only [InWidth] at hi ⊢ <;> omega

theorem ofText_textual {type : ColumnType} (h : type.isTextual = true) (s : String) :
    ofText s type = .ok (text s) := by
  cases type <;> simp_all [ColumnType.isTextual, ofText]

theorem trim_of_bare {s : List Char} (h : ∀ c ∈ s, isBare c = true) : trim s = s := by
  refine trim_eq_self (fun c hc => ?_) (fun c hc => ?_)
  · exact isBlank_of_isBare (h c (List.mem_of_mem_head? hc))
  · exact isBlank_of_isBare (h c (List.mem_of_mem_getLast? hc))

theorem ofText_uuid {type : ColumnType} (h : type.isUuid = true) {s : String}
    (hs : Uuid.IsCanonical s) : ofText s type = .ok (text s) := by
  obtain ⟨u, hu, heq⟩ := hs
  have hread : readUuid s = .ok (text s) := by
    rw [readUuid, heq, trim_of_bare (isBare_of_hyphenated (Uuid.hyphenated_render hu)),
      Uuid.parse?_render hu]
    show Except.ok (text (String.ofList u.render)) = _
    rw [← heq, String.ofList_toList]
  cases type <;> simp_all [ColumnType.isUuid, ofText]

theorem ofInt_integer {type : ColumnType} (h : type.isInteger = true) (i : Int) :
    ofInt i type = .ok (int i) := by
  unfold ofInt
  rw [if_pos h]

theorem readInstant_render {t : Instant} (h : t.IsWhole) :
    readInstant t.text = .ok (instant t) := by
  rw [readInstant, Instant.text, String.toList_ofList, Instant.read?_render h]

theorem readInteger_text {i : Int} (h : InWidth 64 i) :
    readInteger (String.ofList (Integer.render i)) = .ok (int i) := by
  have htrim : trim (Integer.render i) = Integer.render i := trim_of_bare (isBare_render i)
  have hread : Integer.readSigned? (Integer.render i) = some i :=
    Integer.read?_render h.1 (Int.le_of_lt_add_one h.2)
  rw [readInteger, String.toList_ofList, htrim, hread]

theorem readBoolean_literal (column : String) (type? : Option ColumnType) (b : Bool) :
    readBoolean (String.ofList (literal column type? (bool b))) = .ok (bool b) := by
  cases b with
  | true =>
    have hword : lower (trim "true".toList) = "true".toList := by decide
    rw [literal_bool, if_pos rfl, readBoolean, String.toList_ofList, hword]
    simp
  | false =>
    have hword : lower (trim "false".toList) = "false".toList := by decide
    rw [literal_bool, if_neg Bool.false_ne_true, readBoolean, String.toList_ofList, hword]
    simp

theorem readBlob_text (b : Bytes) :
    readBlob (String.ofList ('0' :: 'x' :: Hex.encode b)) = .ok (bytes b) := by
  have htrim : trim ('0' :: 'x' :: Hex.encode b) = '0' :: 'x' :: Hex.encode b := by
    refine trim_of_bare fun c hc => ?_
    simp only [List.mem_cons] at hc
    rcases hc with rfl | rfl | hc
    · decide
    · decide
    · exact isBare_encode b c hc
  rw [readBlob, String.toList_ofList, htrim, dropHexMark, Hex.decodeText_encode]

end BulkTransfer.Literal
