import BulkTransfer.Proofs.Instant.Reading
import BulkTransfer.Proofs.Literal.Number

/-!
Texts of numbers under types of another kind. The text of a number has few characters, and what
they can spell besides is an identifier of plain digits, bytes, or a count of milliseconds.

- `Binary64.isSpelling_of_read?`: the characters of a number, finite or not.
- `Binary64.read?_of_readSigned?`: an integer as a floating-point number keeps the sign of zero.
- `Instant.read?_number`: no date begins with a number.
- `Uuid.isSome_parse?_number`, `Hex.isOk_decodeText`: numbers that are identifiers or bytes.
- `Value.toOption_readBoolean_number`: only `0` and `1` are truth values.
-/

namespace BulkTransfer

open Text

namespace Binary64

open Integer

/-! ## Characters -/

/-- The letters of the names of numbers that are not finite. -/
def nameLetters : List Char := "infinityan".toList

/-- Whether the character may stand in the text of a number. -/
def isSpelling (c : Char) : Bool := isNumeral c || nameLetters.contains c.toLower

theorem toNat_of_isSpelling {c : Char} (h : isSpelling c = true) : c.toNat < 128 := by
  unfold isSpelling at h
  rcases Bool.or_eq_true _ _ ▸ h with h | h
  · unfold isNumeral at h
    simp only [Bool.or_eq_true, beq_iff_eq] at h
    obtain (((hdigit | hsign) | rfl) | rfl) | rfl := h
    · have := toNat_of_isDigit hdigit
      omega
    · have := toNat_of_isSign hsign
      omega
    all_goals decide
  · refine Nat.lt_of_not_le fun hlarge => ?_
    have hself : c.toLower = c := by
      have hno : ¬ (c.val ≥ 'A'.val ∧ c.val ≤ 'Z'.val) := by
        intro hc
        have : c.val.toNat ≤ 'Z'.val.toNat := UInt32.le_iff_toNat_le.mp hc.2
        have h90 : 'Z'.val.toNat = 90 := by decide
        have : 128 ≤ c.val.toNat := hlarge
        omega
      unfold Char.toLower
      rw [dif_neg hno]
    rw [hself, List.contains_iff_mem] at h
    have hsmall : nameLetters.all (fun d => d.toNat < 128) = true := by decide
    have hc := List.all_eq_true.mp hsmall c h
    exact absurd (of_decide_eq_true hc) (Nat.not_lt.mpr hlarge)

/-- What holds of the ASCII characters that may stand in a number holds of all that may. -/
theorem of_isSpelling {P : Char → Prop}
    (hall : ∀ n, n < 128 → isSpelling (Char.ofNat n) = true → P (Char.ofNat n)) {c : Char}
    (h : isSpelling c = true) : P c := by
  have hc := hall c.toNat (toNat_of_isSpelling h)
  rw [Char.ofNat_toNat] at hc
  exact hc h

theorem isBlank_of_isSpelling {c : Char} (h : isSpelling c = true) : isBlank c = false :=
  of_isSpelling (P := fun c => isBlank c = false) (by decide +kernel) h

theorem isSpelling_toLower {c : Char} (h : isSpelling c = true) : isSpelling c.toLower = true :=
  of_isSpelling (P := fun c => isSpelling c.toLower = true) (by decide +kernel) h

theorem eq_of_toLower_digit {c : Char} (h : isSpelling c = true) (hc : isDigit c.toLower = true) :
    c.toLower = c :=
  of_isSpelling (P := fun c => isDigit c.toLower = true → c.toLower = c) (by decide +kernel) h hc

theorem readMagnitude?_cases {negative : Bool} {s : List Char} {x : Binary64}
    (h : readMagnitude? negative s = some x) :
    (∃ word ∈ ["inf".toList, "infinity".toList, "nan".toList], s.map Char.toLower = word) ∨
      ∃ u, readUnsigned? s = some u := by
  unfold readMagnitude? at h
  dsimp only at h
  split at h
  · next hword =>
    obtain hword | hword := hword
    · exact .inl ⟨_, by decide, hword⟩
    · exact .inl ⟨_, by decide, hword⟩
  · split at h
    · next hword => exact .inl ⟨_, by decide, hword⟩
    · split at h
      · nomatch h
      · next u hu => exact .inr ⟨u, hu⟩

theorem isSpelling_of_readMagnitude? {negative : Bool} {s : List Char} {x : Binary64}
    (h : readMagnitude? negative s = some x) : ∀ c ∈ s, isSpelling c = true := by
  intro c hc
  obtain ⟨word, hword, heq⟩ | ⟨u, hu⟩ := readMagnitude?_cases h
  · have hlower : c.toLower ∈ word := heq ▸ List.mem_map_of_mem hc
    have hletters : ∀ w ∈ ["inf".toList, "infinity".toList, "nan".toList],
        w.all nameLetters.contains = true := by decide
    rw [isSpelling, List.all_eq_true.mp (hletters word hword) _ hlower, Bool.or_true]
  · rw [isSpelling, (isNumeral_of_readUnsigned? hu).chars c hc, Bool.true_or]

/-- The characters of a number. -/
theorem isSpelling_of_read? {s : List Char} {x : Binary64} (h : read? s = some x) :
    ∀ c ∈ s, isSpelling c = true := by
  unfold read? at h
  split at h
  · exact List.forall_mem_cons.mpr ⟨by decide, isSpelling_of_readMagnitude? h⟩
  · exact List.forall_mem_cons.mpr ⟨by decide, isSpelling_of_readMagnitude? h⟩
  · exact isSpelling_of_readMagnitude? h

theorem trim_number {s : List Char} {x : Binary64} (h : read? s = some x) : trim s = s :=
  dropEnds_eq_self fun c hc => isBlank_of_isSpelling (isSpelling_of_read? h c hc)

/-! ## Integers -/

theorem readMagnitude?_digits {s : List Char} {n : Nat} (h : readNatural? s = some n)
    (negative : Bool) : readMagnitude? negative s = some (ofDecimal negative n 0) := by
  have hne := ne_nil_of_readNatural? h
  have hdigits := isDigit_of_readNatural? h
  obtain ⟨c, rest, rfl⟩ := List.exists_cons_of_ne_nil hne
  have hc := toNat_of_isDigit (hdigits c List.mem_cons_self)
  rw [readNatural?_eq hne] at h
  rw [readMagnitude?_of_first negative (by omega), readUnsigned?_digits hne hdigits]
  simp [h]

/-- A whole number of 64 bits is not too large for its nearest number to be computed. -/
theorem ofDecimal_whole (negative : Bool) {n : Nat} (hn : n ≠ 0) (h : n ≤ 2 ^ 63) :
    ofDecimal negative n 0 = ofRatio negative n 1 := by
  have hlength : (Nat.toDigits 10 n).length ≤ 19 :=
    (Nat.length_toDigits_le_iff (by decide) (by decide)).mpr (Nat.lt_of_le_of_lt h (by decide))
  unfold ofDecimal
  rw [if_neg hn]
  dsimp only
  rw [if_neg (by omega), if_neg (by omega)]
  simp

/-- An integer as a floating-point number; a zero keeps its sign. -/
theorem read?_of_readSigned? {s : List Char} {i : Int} (h : readSigned? s = some i) :
    read? s = some (if i = 0 ∧ s.head? = some '-' then zero true else ofInt i) := by
  obtain ⟨hint, hlow, hhigh⟩ := Literal.inWidth_of_readSigned? h
  rw [min64] at hlow
  rw [max64] at hhigh
  have hpositive : ∀ {digits : List Char} {n : Nat}, readNatural? digits = some n → (n : Int) = i →
      readMagnitude? false digits = some (ofInt i) := by
    rintro digits n hn rfl
    rw [readMagnitude?_digits hn]
    by_cases hzero : n = 0
    · subst hzero
      rfl
    · rw [ofDecimal_whole false hzero (by omega), ofInt, Int.natAbs_natCast,
        decide_eq_false (by omega)]
  unfold readInt? at hint
  split at hint
  · next digits =>
    obtain ⟨n, hn, rfl⟩ := Option.map_eq_some_iff.mp hint
    show readMagnitude? true digits = _
    rw [readMagnitude?_digits hn]
    by_cases hzero : n = 0
    · subst hzero
      rfl
    · rw [if_neg (by omega), ofDecimal_whole true hzero (by omega), ofInt, Int.natAbs_neg,
        Int.natAbs_natCast, decide_eq_true (by omega)]
  · next digits =>
    obtain ⟨n, hn, hi⟩ := Option.map_eq_some_iff.mp hint
    rw [if_neg (fun hsign => absurd (Option.some.inj hsign.2) (by decide))]
    exact hpositive hn hi
  · next hminus hplus =>
    obtain ⟨n, hn, hi⟩ := Option.map_eq_some_iff.mp hint
    rw [if_neg (fun hsign => (List.head?_eq_some_iff.mp hsign.2).elim hminus)]
    unfold read?
    split
    · exact absurd rfl (hminus _)
    · exact absurd rfl (hplus _)
    · exact hpositive hn hi

/-! ## Hyphens -/

/-- Behind the digits that a number begins with there is no hyphen. -/
theorem dropDigits_ne_hyphen {negative : Bool} {s : List Char} {x : Binary64}
    (h : readMagnitude? negative s = some x) (rest : List Char) :
    s.dropWhile isDigit ≠ '-' :: rest := by
  intro hrest
  obtain ⟨word, hword, heq⟩ | ⟨u, hu⟩ := readMagnitude?_cases h
  · have hmem : '-' ∈ s := (List.dropWhile_sublist isDigit).subset (hrest ▸ List.mem_cons_self)
    have hlower : '-' ∈ word := heq ▸ List.mem_map.mpr ⟨'-', hmem, by decide⟩
    have hnone : ∀ w ∈ ["inf".toList, "infinity".toList, "nan".toList], '-' ∉ w := by decide
    exact hnone word hword hlower
  · have hexponent : readExponent? ('-' :: rest) = none := rfl
    simp [readUnsigned?, hrest, hexponent] at hu

/-- No digits that lead a number, or stand behind its sign, have a hyphen behind them. -/
theorem not_digits_hyphen {s : List Char} {x : Binary64} (h : read? s = some x)
    {signs digits rest : List Char} (hsigns : signs = [] ∨ signs = ['-'] ∨ signs = ['+'])
    (hne : digits ≠ []) (hdigits : ∀ c ∈ digits, isDigit c = true) :
    s ≠ signs ++ (digits ++ '-' :: rest) := by
  rintro rfl
  have hdrop : (digits ++ '-' :: rest).dropWhile isDigit = '-' :: rest := by
    rw [List.dropWhile_append_of_pos hdigits]
    rfl
  obtain ⟨c, more, rfl⟩ := List.exists_cons_of_ne_nil hne
  have hc := hdigits c List.mem_cons_self
  obtain rfl | rfl | rfl := hsigns
  · unfold read? at h
    split at h
    · next heq =>
      rw [(List.cons.inj heq).1] at hc
      nomatch hc
    · next heq =>
      rw [(List.cons.inj heq).1] at hc
      nomatch hc
    · exact dropDigits_ne_hyphen h rest hdrop
  · exact dropDigits_ne_hyphen h rest hdrop
  · exact dropDigits_ne_hyphen h rest hdrop

end Binary64

/-! ## Instants -/

namespace Instant

open Integer Binary64

theorem takeNumber_eq_some {least most n : Nat} {s rest : List Char} (hleast : 1 ≤ least)
    (h : takeNumber least most s = some (n, rest)) :
    ∃ digits, s = digits ++ rest ∧ digits ≠ [] ∧ ∀ c ∈ digits, isDigit c = true := by
  unfold takeNumber at h
  dsimp only at h
  split at h
  · nomatch h
  · next hlength =>
    obtain ⟨m, -, heq⟩ := Option.map_eq_some_iff.mp h
    obtain ⟨-, rfl⟩ := Prod.mk.inj heq
    refine ⟨(s.take most).takeWhile isDigit, ?_, ?_, isDigit_takeWhile _⟩
    · have hfirst := (List.takeWhile_prefix isDigit (l := s.take most)).trans
        (List.take_prefix most s)
      exact (List.prefix_iff_eq_append.mp hfirst).symm
    · intro hnil
      rw [hnil] at hlength
      exact hlength hleast

variable {s : List Char} {x : Binary64} (h : Binary64.read? s = some x)

include h

theorem passMark_takeNumber {signs rest after : List Char} {least most n : Nat}
    (hsigns : signs = [] ∨ signs = ['-'] ∨ signs = ['+']) (hs : s = signs ++ rest)
    (hleast : 1 ≤ least) (htake : takeNumber least most rest = some (n, after)) :
    passMark '-' after = none := by
  obtain ⟨digits, rfl, hne, hdigits⟩ := takeNumber_eq_some hleast htake
  cases after with
  | nil => rfl
  | cons c more =>
    refine if_neg ?_
    rintro rfl
    exact not_digits_hyphen h hsigns hne hdigits hs

theorem readStrict?_number : readStrict? s = none := by
  unfold readStrict?
  cases htake : takeNumber 4 4 s with
  | none => rfl
  | some found =>
    obtain ⟨year, after⟩ := found
    have hmark := passMark_takeNumber h (.inl rfl) rfl (by decide) htake
    rw [Option.bind_eq_bind, Option.bind_some]
    dsimp only
    rw [hmark]
    rfl

theorem passMark_takeYear {year : Int} {after : List Char}
    (htake : takeYear s = some (year, after)) : passMark '-' after = none := by
  have hstart : trimStart s = s := by
    cases s with
    | nil => rfl
    | cons c rest =>
      have hc := isSpelling_of_read? h c List.mem_cons_self
      exact trimStart_eq_self (isBlank_of_isSpelling hc)
  unfold takeYear at htake
  rw [hstart] at htake
  split at htake
  · next rest =>
    obtain ⟨⟨n, r⟩, hn, heq⟩ := Option.map_eq_some_iff.mp htake
    obtain ⟨-, rfl⟩ := Prod.mk.inj heq
    exact passMark_takeNumber h (.inr (.inl rfl)) rfl (by decide) hn
  · next rest =>
    obtain ⟨⟨n, r⟩, hn, heq⟩ := Option.map_eq_some_iff.mp htake
    obtain ⟨-, rfl⟩ := Prod.mk.inj heq
    exact passMark_takeNumber h (.inr (.inr rfl)) rfl (by decide) hn
  · obtain ⟨⟨n, r⟩, hn, heq⟩ := Option.map_eq_some_iff.mp htake
    obtain ⟨-, rfl⟩ := Prod.mk.inj heq
    exact passMark_takeNumber h (.inl rfl) rfl (by decide) hn

/-- Every loose spelling has a hyphen behind the year. -/
theorem readLoose?_number (more : List Part) :
    readLoose? (.year :: .mark '-' :: more) s = none := by
  unfold readLoose?
  rw [readParts]
  cases hyear : takeYear s with
  | none => simp only [readPart, hyear, Option.map_none, Option.bind_none]
  | some found =>
    obtain ⟨year, after⟩ := found
    have hmark := passMark_takeYear h hyear
    simp only [readPart, hyear, Option.map_some, readParts, hmark, Option.map_none,
      Option.bind_none]

/-- A number is no date, and an instant only where it is a count of milliseconds. -/
theorem read?_number : read? s = (readSigned? s).bind ofMillis? := by
  have hloose : (looseSpellings.findSome? fun parts => readLoose? parts s) = none := by
    rw [List.findSome?_eq_none_iff]
    intro parts hparts
    have hshape : ∀ parts ∈ looseSpellings, parts.take 2 = [.year, .mark '-'] := by decide
    rw [← List.take_append_drop 2 parts, hshape parts hparts]
    exact readLoose?_number h _
  unfold read?
  rw [trim_number h]
  dsimp only
  rw [readStrict?_number h]
  dsimp only
  rw [hloose]

end Instant

/-! ## Identifiers -/

namespace Uuid

theorem exists_takeDigits? {s : List Char} (h : ∀ c ∈ s, isHexDigit c = true) :
    ∃ ds, takeDigits? s.length s = some (ds, []) := by
  induction s with
  | nil => exact ⟨[], rfl⟩
  | cons c rest ih =>
    obtain ⟨d, hd⟩ := Option.isSome_iff_exists.mp (h c List.mem_cons_self)
    obtain ⟨ds, hds⟩ := ih fun e he => h e (List.mem_cons_of_mem c he)
    refine ⟨d :: ds, ?_⟩
    simp only [List.length_cons, takeDigits?, hd, hds, Option.bind_eq_bind, Option.bind_some]

/-- Plain digits are an identifier if there are so many of them, and nothing else. -/
theorem isSome_complete?_takeDigits? {n : Nat} {s : List Char} :
    (complete? (takeDigits? n s)).isSome = true ↔
      s.length = n ∧ ∀ c ∈ s, isHexDigit c = true := by
  constructor
  · intro h
    obtain ⟨u, hu⟩ := Option.isSome_iff_exists.mp h
    obtain ⟨first, hs, hlength, hfirst, -⟩ := takeDigits?_eq_some (complete?_eq_some hu)
    rw [List.append_nil] at hs
    rw [hs]
    exact ⟨hlength, hfirst⟩
  · rintro ⟨rfl, hs⟩
    obtain ⟨ds, hds⟩ := exists_takeDigits? hs
    rw [hds]
    rfl

/-- A number is an identifier only where it is plain digits. -/
theorem isSome_parse?_number {s : List Char} {x : Binary64} (h : Binary64.read? s = some x) :
    (parse? s).isSome = true ↔ s.length = 32 ∧ ∀ c ∈ s, isHexDigit c = true := by
  have hchars := Binary64.isSpelling_of_read? h
  have hhyphenated : parseHyphenated? s = none := by
    cases hread : parseHyphenated? s with
    | none => rfl
    | some u =>
      have hform : isHyphenated s = true := by
        rw [isHyphenated, hread]
        rfl
      rw [Value.read?_hyphenated (hyphenated_of_isHyphenated hform)] at h
      cases h
  rw [← isSome_complete?_takeDigits?]
  unfold parse?
  split
  · exact absurd (hchars _ List.mem_cons_self) (by decide)
  · exact absurd (hchars _ List.mem_cons_self) (by decide)
  · rw [hhyphenated]

end Uuid

/-! ## Bytes -/

namespace Hex

theorem isOk_decodePairs (position : Nat) (b : Bytes) :
    (decodePairs position b).isOk = true ↔
      b.length % 2 = 0 ∧ ∀ x ∈ b, (digitValue? x).isSome = true := by
  fun_induction decodePairs position b with
  | case1 position => exact ⟨fun _ => ⟨rfl, List.forall_mem_nil _⟩, fun _ => rfl⟩
  | case2 position x => exact ⟨nofun, fun h => absurd h.1 (by simp)⟩
  | case3 position hi lo rest hhi =>
    refine ⟨nofun, fun h => ?_⟩
    have hsome := h.2 hi List.mem_cons_self
    rw [hhi] at hsome
    nomatch hsome
  | case4 position hi lo rest m hhi hlo =>
    refine ⟨nofun, fun h => ?_⟩
    have hsome := h.2 lo (List.mem_cons_of_mem hi List.mem_cons_self)
    rw [hlo] at hsome
    nomatch hsome
  | case5 position hi lo rest m hhi l hlo e hrest ih =>
    rw [hrest] at ih
    refine ⟨nofun, fun h => ih.mpr ⟨?_, fun x hx => h.2 x ?_⟩⟩
    · have heven := h.1
      rw [List.length_cons, List.length_cons] at heven
      omega
    · exact List.mem_cons_of_mem hi (List.mem_cons_of_mem lo hx)
  | case6 position hi lo rest m hhi l hlo bytes hrest ih =>
    rw [hrest] at ih
    refine ⟨fun _ => ?_, fun _ => rfl⟩
    obtain ⟨heven, hall⟩ := ih.mp rfl
    refine ⟨?_, List.forall_mem_cons.mpr ⟨?_, List.forall_mem_cons.mpr ⟨?_, hall⟩⟩⟩
    · rw [List.length_cons, List.length_cons]
      omega
    · rw [hhi]
      rfl
    · rw [hlo]
      rfl

theorem isSome_digitValue?_ascii {c : Char} (h : c.toNat < 128) :
    (digitValue? (UInt8.ofNat c.toNat)).isSome = Uuid.isHexDigit c := by
  have hcode : (UInt8.ofNat c.toNat).toNat = c.toNat := by
    rw [UInt8.toNat_ofNat']
    omega
  unfold digitValue? Uuid.isHexDigit Uuid.digitValue?
  rw [hcode]

/-- A text of ASCII characters is bytes if it is pairs of digits. -/
theorem isOk_decodeText {s : List Char} (h : ∀ c ∈ s, c.toNat < 128) :
    (decodeText s).isOk = true ↔ s.length % 2 = 0 ∧ ∀ c ∈ s, Uuid.isHexDigit c = true := by
  have hdigits : (∀ x ∈ s.map fun c => UInt8.ofNat c.toNat, (digitValue? x).isSome = true) ↔
      ∀ c ∈ s, Uuid.isHexDigit c = true := by
    rw [List.forall_mem_map]
    refine forall₂_congr fun c hc => ?_
    rw [isSome_digitValue?_ascii (h c hc)]
  unfold decodeText decode
  rw [Bytes.ofText_ascii h, List.length_map]
  split
  · next hodd => exact ⟨nofun, fun heven => absurd heven.1 (by omega)⟩
  · rw [isOk_decodePairs, List.length_map, hdigits]

end Hex

/-! ## Fields -/

namespace Value

variable {v : String} {x : Binary64} (h : Binary64.read? v.toList = some x)

include h

theorem isOk_readUuid_number : (readUuid v).isOk = true ↔
    v.toList.length = 32 ∧ ∀ c ∈ v.toList, Uuid.isHexDigit c = true := by
  rw [← Uuid.isSome_parse?_number h]
  unfold readUuid
  rw [Binary64.trim_number h]
  cases Uuid.parse? v.toList with
  | none => exact Iff.rfl
  | some u => exact Iff.rfl

theorem isOk_readBlob_number : (readBlob v).isOk = true ↔
    v.toList.length % 2 = 0 ∧ ∀ c ∈ v.toList, Uuid.isHexDigit c = true := by
  have hchars := Binary64.isSpelling_of_read? h
  have hmark : dropHexMark v.toList = v.toList := by
    unfold dropHexMark
    split
    · next rest heq =>
      rw [heq] at hchars
      exact absurd (hchars 'x' (by simp)) (by decide)
    · rfl
  rw [← Hex.isOk_decodeText fun c hc => Binary64.toNat_of_isSpelling (hchars c hc)]
  unfold readBlob
  rw [Binary64.trim_number h, hmark]
  cases Hex.decodeText v.toList with
  | error e => exact Iff.rfl
  | ok b => exact Iff.rfl

theorem toOption_readInstant_number : (readInstant v).toOption =
    ((Integer.readSigned? v.toList).bind Instant.ofMillis?).map instant := by
  unfold readInstant
  rw [Instant.read?_number h]
  cases (Integer.readSigned? v.toList).bind Instant.ofMillis? with
  | none => rfl
  | some t => rfl

/-- A word for a truth value that has a letter of its own is no number. -/
theorem lowered_ne (word : String) (hword : ∃ c ∈ word.toList, Binary64.isSpelling c = false) :
    String.ofList (v.toList.map Char.toLower) ≠ word := by
  rintro rfl
  obtain ⟨c, hc, hno⟩ := hword
  rw [String.toList_ofList] at hc
  obtain ⟨d, hd, rfl⟩ := List.mem_map.mp hc
  rw [Binary64.isSpelling_toLower (Binary64.isSpelling_of_read? h d hd)] at hno
  nomatch hno

theorem lowered_eq_digit_iff {d : Char} (hd : Integer.isDigit d = true) :
    String.ofList (v.toList.map Char.toLower) = String.ofList [d] ↔ v = String.ofList [d] := by
  constructor
  · intro heq
    obtain ⟨c, hc, hlower⟩ := List.map_eq_singleton_iff.mp (String.ofList_injective heq)
    have hmem : c ∈ v.toList := hc ▸ List.mem_cons_self
    have hself := Binary64.eq_of_toLower_digit (Binary64.isSpelling_of_read? h c hmem)
      (hlower ▸ hd)
    rw [← hlower, hself, ← hc, String.ofList_toList]
  · rintro rfl
    have hcode := Integer.toNat_of_isDigit hd
    rw [String.toList_ofList, List.map_singleton, Literal.toLower_eq_self (by omega)]

/-- Of all numbers only `0` and `1` are words for truth values. -/
theorem toOption_readBoolean_number : (readBoolean v).toOption =
    if v = "1" then some (bool true) else if v = "0" then some (bool false) else none := by
  have hlower : lower (trim v.toList) = v.toList.map Char.toLower := by
    rw [Binary64.trim_number h]
    exact lower_ascii _ fun c hc =>
      Binary64.toNat_of_isSpelling (Binary64.isSpelling_of_read? h c hc)
  have hone : String.ofList (v.toList.map Char.toLower) = "1" ↔ v = "1" :=
    lowered_eq_digit_iff h (d := '1') (by decide)
  have hzero : String.ofList (v.toList.map Char.toLower) = "0" ↔ v = "0" :=
    lowered_eq_digit_iff h (d := '0') (by decide)
  unfold readBoolean
  rw [hlower]
  simp only [lowered_ne h "true" ⟨'r', by decide⟩, lowered_ne h "yes" ⟨'s', by decide⟩,
    lowered_ne h "false" ⟨'l', by decide⟩, lowered_ne h "no" ⟨'o', by decide⟩, false_or, hone,
    hzero]
  split
  · rfl
  · split <;> rfl

end Value

end BulkTransfer
