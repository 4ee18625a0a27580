import BulkTransfer.Proofs.Literal.RoundTrip
import BulkTransfer.Proofs.Value.Fitted

/-!
Numbers of any size on their way into a table. A field keeps all digits of a number, and so does its
literal; where the literal is read, a word is first taken for a number of 64 bits, then for a
floating-point number, and only then fitted to the declared type.

- `Binary64.isNumeral_of_read?`: the characters of a finite number.
- `Binary64.isSome_read?`: signs and digits are a floating-point number where they are an integer.
- `Literal.parse_varint`: the literal of a whole number beyond 64 bits is rejected.
- `Literal.parse_decimal`: that of a decimal number becomes the nearest floating-point number.
-/

namespace BulkTransfer

open Text

/-! ## Characters of numbers -/

namespace Integer

/-- Whether the character is a sign. -/
def isSign (c : Char) : Bool := c == '-' || c == '+'

theorem eq_of_isSign {c : Char} (h : isSign c = true) : c = '-' ∨ c = '+' := by
  unfold isSign at h
  rw [Bool.or_eq_true, beq_iff_eq, beq_iff_eq] at h
  exact h

theorem isDigit_of_readNatural? {s : List Char} {n : Nat} (h : readNatural? s = some n) :
    ∀ c ∈ s, isDigit c = true := by
  intro c hc
  cases hdigit : isDigit c with
  | true => rfl
  | false =>
    rw [readNatural?_eq_none hc hdigit] at h
    nomatch h

theorem ne_nil_of_readNatural? {s : List Char} {n : Nat} (h : readNatural? s = some n) : s ≠ [] := by
  rintro rfl
  nomatch h

/-- An integer has one sign at most, and digits. -/
theorem readInt?_cases {s : List Char} {i : Int} (h : readInt? s = some i) :
    ∃ signs digits, s = signs ++ digits ∧ (∀ c ∈ signs, isSign c = true) ∧ digits ≠ [] ∧
      ∀ c ∈ digits, isDigit c = true := by
  unfold readInt? at h
  split at h
  · next rest =>
    obtain ⟨n, hn, -⟩ := Option.map_eq_some_iff.mp h
    exact ⟨['-'], rest, rfl, List.forall_mem_singleton.mpr rfl, ne_nil_of_readNatural? hn,
      isDigit_of_readNatural? hn⟩
  · next rest =>
    obtain ⟨n, hn, -⟩ := Option.map_eq_some_iff.mp h
    exact ⟨['+'], rest, rfl, List.forall_mem_singleton.mpr rfl, ne_nil_of_readNatural? hn,
      isDigit_of_readNatural? hn⟩
  · obtain ⟨n, hn, -⟩ := Option.map_eq_some_iff.mp h
    exact ⟨[], s, rfl, List.forall_mem_nil _, ne_nil_of_readNatural? hn, isDigit_of_readNatural? hn⟩

theorem readInt?_of_ne {s : List Char} (hminus : ∀ rest, s ≠ '-' :: rest)
    (hplus : ∀ rest, s ≠ '+' :: rest) :
    readInt? s = (readNatural? s).map fun n : Nat => (n : Int) := by
  unfold readInt?
  split
  · exact absurd rfl (hminus _)
  · exact absurd rfl (hplus _)
  · rfl

end Integer

namespace Binary64

open Integer

/-- Whether the character may stand in a finite number. -/
def isNumeral (c : Char) : Bool := isDigit c || isSign c || c == '.' || c == 'e' || c == 'E'

/-- A word of the characters of numbers, of which the first is no letter. -/
structure IsNumeral (s : List Char) : Prop where
  chars : ∀ c ∈ s, isNumeral c = true
  first : ∃ c rest, s = c :: rest ∧ c.toNat < 65

theorem isNumeral_of_isDigit {c : Char} (h : isDigit c = true) : isNumeral c = true := by
  simp [isNumeral, h]

theorem isNumeral_of_isSign {c : Char} (h : isSign c = true) : isNumeral c = true := by
  simp [isNumeral, h]

theorem toNat_of_isSign {c : Char} (h : isSign c = true) : c.toNat < 65 := by
  obtain rfl | rfl := eq_of_isSign h
  · decide
  · decide

theorem chars_of_readExponent? {s : List Char} {e : Int} (h : readExponent? s = some e) :
    ∀ c ∈ s, isNumeral c = true := by
  unfold readExponent? at h
  split at h
  · exact List.forall_mem_nil _
  · next mark rest =>
    split at h
    · next hmark =>
      obtain ⟨signs, digits, rfl, hsigns, -, hdigits⟩ := readInt?_cases h
      intro c hc
      rw [List.mem_cons, List.mem_append] at hc
      obtain rfl | hc | hc := hc
      · obtain rfl | rfl := hmark
        · decide
        · decide
      · exact isNumeral_of_isSign (hsigns c hc)
      · exact isNumeral_of_isDigit (hdigits c hc)
    · nomatch h

theorem isDigit_takeWhile (s : List Char) : ∀ c ∈ s.takeWhile isDigit, isDigit c = true :=
  fun c hc => List.all_eq_true.mp List.all_takeWhile c hc

theorem isNumeral_of_readUnsigned? {s : List Char} {u : Unsigned} (h : readUnsigned? s = some u) :
    IsNumeral s := by
  have hwhole := isDigit_takeWhile s
  have hsplit := List.takeWhile_append_dropWhile (p := isDigit) (l := s)
  unfold readUnsigned? at h
  generalize s.takeWhile isDigit = whole at h hwhole hsplit
  generalize s.dropWhile isDigit = rest at h hsplit
  subst hsplit
  have hdigits : ∀ c ∈ whole, isNumeral c = true := fun c hc => isNumeral_of_isDigit (hwhole c hc)
  -- The first character is a digit of the whole part, or what stands behind an empty one.
  have hfirst : ∀ tail : List Char, (whole = [] → ∃ c more, tail = c :: more ∧ c.toNat < 65) →
      ∃ c more, whole ++ tail = c :: more ∧ c.toNat < 65 := by
    intro tail htail
    cases whole with
    | nil => exact htail rfl
    | cons c more =>
      have hc := toNat_of_isDigit (hwhole c List.mem_cons_self)
      exact ⟨c, more ++ tail, rfl, by omega⟩
  dsimp only at h
  split at h
  · next more =>
    split at h
    · nomatch h
    · obtain ⟨e, he, -⟩ := Option.map_eq_some_iff.mp h
      refine ⟨fun c hc => ?_, hfirst _ fun _ => ⟨'.', more, rfl, by decide⟩⟩
      rw [← List.takeWhile_append_dropWhile (p := isDigit) (l := more), List.mem_append,
        List.mem_cons, List.mem_append] at hc
      obtain hc | rfl | hc | hc := hc
      · exact hdigits c hc
      · decide
      · exact isNumeral_of_isDigit (isDigit_takeWhile more c hc)
      · exact chars_of_readExponent? he c hc
  · split at h
    · nomatch h
    · next hne =>
      obtain ⟨e, he, -⟩ := Option.map_eq_some_iff.mp h
      refine ⟨fun c hc => ?_, hfirst _ fun hnil => absurd (by rw [hnil]; rfl) hne⟩
      obtain hc | hc := List.mem_append.mp hc
      · exact hdigits c hc
      · exact chars_of_readExponent? he c hc

theorem readUnsigned?_of_readMagnitude? {negative : Bool} {s : List Char} {x : Binary64}
    (h : readMagnitude? negative s = some x) (hfinite : x.isFinite = true) :
    ∃ u, readUnsigned? s = some u := by
  unfold readMagnitude? at h
  dsimp only at h
  split at h
  · obtain rfl := Option.some.inj h
    cases negative <;> exact absurd hfinite (by decide)
  · split at h
    · obtain rfl := Option.some.inj h
      cases negative <;> exact absurd hfinite (by decide)
    · split at h
      · nomatch h
      · next u hu => exact ⟨u, hu⟩

theorem IsNumeral.sign {sign : Char} (hsign : isSign sign = true) {s : List Char}
    (h : ∀ c ∈ s, isNumeral c = true) : IsNumeral (sign :: s) :=
  ⟨List.forall_mem_cons.mpr ⟨isNumeral_of_isSign hsign, h⟩, sign, s, rfl, toNat_of_isSign hsign⟩

/-- The characters of a finite number. -/
theorem isNumeral_of_read? {s : List Char} {x : Binary64} (h : read? s = some x)
    (hfinite : x.isFinite = true) : IsNumeral s := by
  unfold read? at h
  split at h
  · next rest =>
    obtain ⟨u, hu⟩ := readUnsigned?_of_readMagnitude? h hfinite
    exact .sign (by decide) (isNumeral_of_readUnsigned? hu).chars
  · next rest =>
    obtain ⟨u, hu⟩ := readUnsigned?_of_readMagnitude? h hfinite
    exact .sign (by decide) (isNumeral_of_readUnsigned? hu).chars
  · obtain ⟨u, hu⟩ := readUnsigned?_of_readMagnitude? h hfinite
    exact isNumeral_of_readUnsigned? hu

/-! ## Signs and digits -/

/-- Signs with digits behind them, as a field for a whole number of any size may hold. -/
def IsSigned (s : List Char) : Prop := ∃ signs digits, s = signs ++ digits ∧
  (∀ c ∈ signs, isSign c = true) ∧ ∀ c ∈ digits, isDigit c = true

theorem isNumeral_of_isSigned {s : List Char} (h : IsSigned s) (hne : s ≠ []) : IsNumeral s := by
  obtain ⟨signs, digits, rfl, hsigns, hdigits⟩ := h
  have hcode : ∀ c ∈ signs ++ digits, c.toNat < 65 := by
    intro c hc
    obtain hc | hc := List.mem_append.mp hc
    · exact toNat_of_isSign (hsigns c hc)
    · have := toNat_of_isDigit (hdigits c hc)
      omega
  refine ⟨fun c hc => ?_, ?_⟩
  · obtain hc | hc := List.mem_append.mp hc
    · exact isNumeral_of_isSign (hsigns c hc)
    · exact isNumeral_of_isDigit (hdigits c hc)
  · obtain ⟨c, rest, hs⟩ := List.exists_cons_of_ne_nil hne
    exact ⟨c, rest, hs, hcode c (hs ▸ List.mem_cons_self)⟩

theorem IsSigned.tail {c : Char} {s : List Char} (h : IsSigned (c :: s)) : IsSigned s := by
  obtain ⟨signs, digits, heq, hsigns, hdigits⟩ := h
  cases signs with
  | nil =>
    rw [List.nil_append] at heq
    subst heq
    exact ⟨[], s, rfl, List.forall_mem_nil _, (List.forall_mem_cons.mp hdigits).2⟩
  | cons sign signs =>
    obtain ⟨rfl, rfl⟩ := List.cons.inj heq
    exact ⟨signs, digits, rfl, (List.forall_mem_cons.mp hsigns).2, hdigits⟩

/-- A word that starts with no letter is none of the special values. -/
theorem readMagnitude?_of_first (negative : Bool) {c : Char} (hc : c.toNat < 65) (s : List Char) :
    readMagnitude? negative (c :: s) = (readUnsigned? (c :: s)).bind fun u =>
      (readFrom? 0 (u.whole ++ u.fraction)).map fun digits =>
        ofDecimal negative digits (u.exponent - u.fraction.length) := by
  have hword : ∀ {w : Char} {ws : List Char}, 65 ≤ w.toNat → (c :: s).map Char.toLower ≠ w :: ws := by
    intro w ws hw heq
    rw [List.map_cons, Literal.toLower_eq_self hc] at heq
    rw [(List.cons.inj heq).1] at hc
    omega
  have hinf : ¬ ((c :: s).map Char.toLower = "inf".toList ∨
      (c :: s).map Char.toLower = "infinity".toList) :=
    not_or.mpr ⟨hword (by decide), hword (by decide)⟩
  have hnan : (c :: s).map Char.toLower ≠ "nan".toList := hword (by decide)
  unfold readMagnitude?
  dsimp only
  rw [if_neg hinf, if_neg hnan]
  cases readUnsigned? (c :: s) with
  | none => rfl
  | some u =>
    dsimp only [Option.bind_some]
    cases readFrom? 0 (u.whole ++ u.fraction) <;> rfl

theorem exists_readFrom? {s : List Char} (h : ∀ c ∈ s, isDigit c = true) (value : Nat) :
    ∃ n, readFrom? value s = some n := by
  induction s generalizing value with
  | nil => exact ⟨value, rfl⟩
  | cons c rest ih =>
    obtain ⟨d, hd⟩ := Option.isSome_iff_exists.mp (h c List.mem_cons_self)
    rw [readFrom?, hd]
    exact ih (fun e he => h e (List.mem_cons_of_mem c he)) _

theorem readUnsigned?_digits {s : List Char} (hne : s ≠ []) (h : ∀ c ∈ s, isDigit c = true) :
    readUnsigned? s = some ⟨s, [], 0⟩ := by
  have htake : s.takeWhile isDigit = s := by
    simpa using @List.takeWhile_append_of_pos _ isDigit s [] h
  have hdrop : s.dropWhile isDigit = [] := by
    simpa using @List.dropWhile_append_of_pos _ isDigit s [] h
  unfold readUnsigned?
  rw [htake, hdrop]
  simp [hne, readExponent?]

theorem readUnsigned?_sign {c : Char} (h : isSign c = true) (rest : List Char) :
    readUnsigned? (c :: rest) = none := by
  obtain rfl | rfl := eq_of_isSign h
  · rfl
  · rfl

/-- Signs and digits are a floating-point number where they are digits alone. -/
theorem isSome_readMagnitude? (negative : Bool) {s : List Char} (h : IsSigned s) :
    (readMagnitude? negative s).isSome = (readNatural? s).isSome := by
  cases s with
  | nil => cases negative <;> rfl
  | cons c rest =>
    obtain ⟨d, more, heq, hd⟩ := (isNumeral_of_isSigned h (List.cons_ne_nil c rest)).first
    obtain ⟨rfl, rfl⟩ := List.cons.inj heq
    obtain ⟨signs, digits, heq, hsigns, hdigits⟩ := h
    rw [readMagnitude?_of_first negative hd]
    cases signs with
    | nil =>
      rw [List.nil_append] at heq
      rw [← heq] at hdigits
      obtain ⟨n, hn⟩ := exists_readFrom? hdigits 0
      rw [readUnsigned?_digits (List.cons_ne_nil c rest) hdigits,
        readNatural?_eq (List.cons_ne_nil c rest), hn]
      simp [hn]
    | cons sign signs =>
      have hsign := hsigns sign List.mem_cons_self
      obtain ⟨rfl, -⟩ := List.cons.inj (heq.trans List.cons_append)
      have hdigit : isDigit c = false := by
        obtain rfl | rfl := eq_of_isSign hsign
        · decide
        · decide
      rw [readUnsigned?_sign hsign, readNatural?_eq_none List.mem_cons_self hdigit]
      rfl

/-- Signs and digits are a floating-point number where they are an integer. -/
theorem isSome_read? {s : List Char} (h : IsSigned s) : (read? s).isSome = (readInt? s).isSome := by
  unfold read?
  split
  · rw [isSome_readMagnitude? true h.tail]
    exact Option.isSome_map.symm
  · rw [isSome_readMagnitude? false h.tail]
    exact Option.isSome_map.symm
  · next hminus hplus =>
    rw [readInt?_of_ne hminus hplus, Option.isSome_map, isSome_readMagnitude? false h]

end Binary64

/-! ## Literals of numbers -/

namespace Literal

open Value Binary64

theorem isBare_of_isNumeral {c : Char} (h : Binary64.isNumeral c = true) : isBare c = true := by
  unfold Binary64.isNumeral at h
  rw [Bool.or_eq_true, Bool.or_eq_true, Bool.or_eq_true, Bool.or_eq_true, beq_iff_eq, beq_iff_eq,
    beq_iff_eq] at h
  obtain (((hdigit | hsign) | rfl) | rfl) | rfl := h
  · exact isBare_of_isHexDigit (isHexDigit_of_isDigit hdigit)
  · obtain rfl | rfl := Integer.eq_of_isSign hsign
    · decide
    · decide
  · decide
  · decide
  · decide

/-- A word of a type without parts is fitted to the type. -/
theorem parse_word {word : List Char} {v : Value} {type : ColumnType} (hne : word ≠ [])
    (hbare : ∀ c ∈ word, isBare c = true) (hword : ofBareWord word = .ok v)
    (htype : type.isComposite = false) : parse word (some type) = v.fitScalar type := by
  have hread : readValue (word.length + 1) (Bytes.lengthOf word) (some type) (word ++ []) = _ :=
    readValue_word hne hbare stops_nil hword
  rw [List.append_nil, typed_scalar htype] at hread
  unfold parse readAll
  rw [hread]
  cases v.fitScalar type <;> rfl

/-- A number is read for itself, as one of 64 bits or as a floating-point number, and then fitted to
the type. -/
theorem ofBareWord_numeral {s : List Char} (h : IsNumeral s) :
    ofBareWord s = match Integer.readSigned? s with
      | some i => .ok (int i)
      | none => match Binary64.read? s with
        | some x => .ok (float x)
        | none => .ok (text (String.ofList s)) := by
  obtain ⟨c, rest, rfl, hc⟩ := h.first
  apply ofBareWord_of_first hc
  intro d hd
  have hnumeral := h.chars d (List.mem_cons_of_mem c (List.mem_of_mem_head? hd))
  refine ⟨?_, ?_⟩
  · rintro rfl
    exact absurd hnumeral (by decide)
  · rintro rfl
    exact absurd hnumeral (by decide)

theorem parse_numeral {s : List Char} (h : IsNumeral s) {v : Value} (hword : ofBareWord s = .ok v)
    {type : ColumnType} (htype : type.isComposite = false) :
    parse s (some type) = v.fitScalar type := by
  obtain ⟨c, rest, rfl, -⟩ := h.first
  exact parse_word (List.cons_ne_nil c rest) (fun d hd => isBare_of_isNumeral (h.chars d hd)) hword
    htype

theorem inWidth_of_readSigned? {s : List Char} {i : Int} (h : Integer.readSigned? s = some i) :
    Integer.readInt? s = some i ∧ Integer.min64 ≤ i ∧ i ≤ Integer.max64 := by
  unfold Integer.readSigned? Integer.read? at h
  split at h
  · next j hj =>
    split at h
    · next hbounds =>
      obtain rfl := Option.some.inj h
      exact ⟨hj, hbounds⟩
    · nomatch h
  · nomatch h

/-- A field for a whole number is one of 64 bits, or signs and digits that are kept. -/
theorem readVarint_cases {s : String} {v : Value} (h : readVarint s = .ok v) :
    (∃ i, Integer.readSigned? (trim s.toList) = some i ∧ v = int i) ∨
      Integer.readSigned? (trim s.toList) = none ∧ IsSigned (trim s.toList) ∧
        trim s.toList ≠ [] ∧ v = decimal (String.ofList (trim s.toList)) := by
  unfold readVarint at h
  dsimp only at h
  split at h
  · next i hi => exact .inl ⟨i, hi, (Except.ok.inj h).symm⟩
  · next hbig =>
    split at h
    · next hshape =>
      rw [Bool.and_eq_true, Bool.not_eq_true', List.isEmpty_eq_false_iff] at hshape
      have hsigned : IsSigned (trim s.toList) :=
        ⟨(trim s.toList).takeWhile Integer.isSign, (trim s.toList).dropWhile Integer.isSign,
          List.takeWhile_append_dropWhile.symm,
          fun c hc => List.all_eq_true.mp List.all_takeWhile c hc, List.all_eq_true.mp hshape.2⟩
      exact .inr ⟨hbig, hsigned, hshape.1, (Except.ok.inj h).symm⟩
    · nomatch h

/-- A whole number is read from its trimmed text as well. -/
theorem readVarint_trim {s : String} {v : Value} (h : readVarint s = .ok v) :
    readVarint (String.ofList (trim s.toList)) = .ok v := by
  unfold readVarint at h ⊢
  rw [String.toList_ofList, trim_trim]
  dsimp only at h ⊢
  split at h
  · exact h
  · split at h
    · next hshape => exact (if_pos hshape).trans h
    · nomatch h

/-- The literal of a whole number that a field gave is read back if the number has 64 bits. Beyond
them it is taken for a floating-point number, which does not fit. -/
theorem parse_varint (column : String) {s : String} {v : Value} (h : readVarint s = .ok v) :
    parse (literal column (some .varint) v) (some .varint) =
      match Integer.readInt? (trim s.toList) with
      | some i =>
        if Integer.min64 ≤ i ∧ i ≤ Integer.max64 then .ok v
        else .error (.cannotConvert "float" .varint)
      | none => .ok v := by
  obtain ⟨i, hi, rfl⟩ | ⟨hbig, hsigned, hne, rfl⟩ := readVarint_cases h
  · obtain ⟨hint, hbounds⟩ := inWidth_of_readSigned? hi
    have hword : ofBareWord (Integer.render i) = .ok (int i) :=
      ofBareWord_render ⟨hbounds.1, Int.lt_add_one_of_le hbounds.2⟩
    rw [literal, hint]
    dsimp only
    rw [if_pos hbounds]
    exact parse_word (render_ne_nil i) (isBare_render i) hword rfl
  · have hnumeral := isNumeral_of_isSigned hsigned hne
    have hword := ofBareWord_numeral hnumeral
    have hsome := isSome_read? hsigned
    rw [hbig] at hword
    rw [literal, String.toList_ofList]
    cases hint : Integer.readInt? (trim s.toList) with
    | some i =>
      have hbounds : ¬ (Integer.min64 ≤ i ∧ i ≤ Integer.max64) := by
        intro hbounds
        unfold Integer.readSigned? Integer.read? at hbig
        rw [hint] at hbig
        dsimp only at hbig
        rw [if_pos hbounds] at hbig
        cases hbig
      rw [hint, Option.isSome_some] at hsome
      obtain ⟨x, hx⟩ := Option.isSome_iff_exists.mp hsome
      rw [hx] at hword
      dsimp only
      rw [if_neg hbounds]
      exact parse_numeral hnumeral hword rfl
    | none =>
      rw [hint, Option.isSome_none, Option.isSome_eq_false_iff, Option.isNone_iff_eq_none] at hsome
      rw [hsome] at hword
      -- The word is kept as a text, which the type reads as the field was read.
      rw [parse_numeral hnumeral hword rfl, fitScalar, ofText]
      exact readVarint_trim h

theorem readDecimal_eq_ok_iff {s : String} {v : Value} :
    readDecimal s = .ok v ↔ ∃ x, Binary64.read? (trim s.toList) = some x ∧ x.isFinite = true ∧
      v = decimal (String.ofList (trim s.toList)) := by
  unfold readDecimal
  dsimp only
  refine ⟨fun h => ?_, ?_⟩
  · split at h
    · next x hx =>
      split at h
      · next hfinite => exact ⟨x, hx, hfinite, (Except.ok.inj h).symm⟩
      · nomatch h
    · nomatch h
  · rintro ⟨x, hx, hfinite, rfl⟩
    rw [hx]
    exact if_pos hfinite

/-- The literal of a decimal number that a field gave is read as the whole number of 64 bits that it
is, or as the nearest floating-point number. -/
theorem parse_decimal (column : String) {s : String} {v : Value} (h : readDecimal s = .ok v) :
    ∃ x, Binary64.read? (trim s.toList) = some x ∧ x.isFinite = true ∧
      parse (literal column (some .decimal) v) (some .decimal) =
        match Integer.readSigned? (trim s.toList) with
        | some i => .ok (int i)
        | none => .ok (float x) := by
  obtain ⟨x, hx, hfinite, rfl⟩ := readDecimal_eq_ok_iff.mp h
  have hnumeral := isNumeral_of_read? hx hfinite
  have hword := ofBareWord_numeral hnumeral
  refine ⟨x, hx, hfinite, ?_⟩
  rw [literal, String.toList_ofList]
  rw [hx] at hword
  cases hi : Integer.readSigned? (trim s.toList) with
  | some i =>
    rw [hi] at hword
    exact parse_numeral hnumeral hword rfl
  | none =>
    rw [hi] at hword
    exact parse_numeral hnumeral hword rfl

/-- The literal of a number that a field of any length gave is read as follows. A whole number of 64
bits is read back, one beyond them is rejected, and other spellings of signs and digits are kept. A
decimal number becomes a whole number of 64 bits or the nearest floating-point number, and never
keeps its digits. -/
theorem accepted_numbers_read_back (column s : String) (v : Value) :
    (ofField s (some .varint) = .ok v →
      parse (literal column (some .varint) v) (some .varint) =
        match Integer.readInt? (trim s.toList) with
        | some i =>
          if Integer.min64 ≤ i ∧ i ≤ Integer.max64 then .ok v
          else .error (.cannotConvert "float" .varint)
        | none => .ok v) ∧
    (ofField s (some .decimal) = .ok v →
      ∃ x, Binary64.read? (trim s.toList) = some x ∧ x.isFinite = true ∧
        parse (literal column (some .decimal) v) (some .decimal) =
          match Integer.readSigned? (trim s.toList) with
          | some i => .ok (int i)
          | none => .ok (float x)) :=
  ⟨parse_varint column, parse_decimal column⟩

/-- A whole number of 64 bits comes back, a fraction becomes a floating-point number. -/
theorem accepted_numbers_read_back_small :
    parse (literal "n" (some .varint) (int 12)) (some .varint) = .ok (int 12) ∧
    ∃ x, Binary64.read? "2.5".toList = some x ∧ x.isFinite = true ∧
      parse (literal "n" (some .decimal) (decimal "2.5")) (some .decimal) = .ok (float x) := by
  have hread : Binary64.read? (trim "2.5".toList) = some ⟨0x4004000000000000⟩ := by decide +kernel
  have hfield : ofField "2.5" (some .decimal) = .ok (decimal "2.5") :=
    readDecimal_eq_ok_iff.mpr ⟨_, hread, by decide, rfl⟩
  exact ⟨(accepted_numbers_read_back "n" " 12" (int 12)).1 rfl,
    (accepted_numbers_read_back "n" "2.5" (decimal "2.5")).2 hfield⟩

/-- The first whole number beyond 64 bits is accepted from a field and rejected from its own literal,
and a tenth loses its digits. -/
theorem varint_beyond_64_bits_rejected :
    ofField "9223372036854775808" (some .varint) = .ok (decimal "9223372036854775808") ∧
    parse (literal "n" (some .varint) (decimal "9223372036854775808")) (some .varint) =
      .error (.cannotConvert "float" .varint) ∧
    ofField "0.1" (some .decimal) = .ok (decimal "0.1") ∧
    parse (literal "n" (some .decimal) (decimal "0.1")) (some .decimal) =
      .ok (float ⟨0x3fb999999999999a⟩) := by
  have hlarge : readVarint "9223372036854775808" = .ok (decimal "9223372036854775808") := rfl
  have hread : Binary64.read? (trim "0.1".toList) = some ⟨0x3fb999999999999a⟩ := by decide +kernel
  have htenth : readDecimal "0.1" = .ok (decimal "0.1") :=
    readDecimal_eq_ok_iff.mpr ⟨_, hread, by decide, rfl⟩
  obtain ⟨x, hx, -, hparse⟩ := parse_decimal "n" htenth
  obtain rfl := Option.some.inj (hread.symm.trans hx)
  exact ⟨hlarge, parse_varint "n" hlarge, htenth, hparse⟩

end Literal

end BulkTransfer
