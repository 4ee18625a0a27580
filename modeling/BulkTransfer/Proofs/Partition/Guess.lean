import BulkTransfer.Partition.Reader
import BulkTransfer.Proofs.Literal.Shape
import BulkTransfer.Proofs.Literal.Spelling

/-!
Values that directory names give to rows. The type of the column is not known when a dataset is
read, so the kind of value is guessed from the text: a whole number, a floating-point number, or the
text itself; no text stands for null. Only later the guess is fitted to the type, and it need not
mean what the text in a field of this type means.

- `get?_complete`: the guess is what rows without the column get.
- `keepsWhole`, `keepsFloat`: under which types a guessed number means what its text means.
- `guessed_value_agrees_iff`: the guess agrees with the field exactly there.
-/

namespace BulkTransfer.Partition

open Value Literal

/-! ## Rows without the column -/

theorem get?_complete_of_get? {extra : List (String × Value)} {row : Row} {k : String} {u : Value}
    (h : row.get? k = some u) : (complete extra row).get? k = some u := by
  induction extra generalizing row with
  | nil => exact h
  | cons e more ih =>
    show (complete more (if row.contains e.1 then row else row.insert e.1 e.2)).get? k = some u
    refine ih ?_
    split
    · exact h
    · next hlacks =>
      have hne : k ≠ e.1 := by
        rintro rfl
        rw [Row.contains, h] at hlacks
        exact hlacks rfl
      rw [Row.get?_insert_of_ne hne, h]

/-- A row that lacks a column gets the first value that there is for it. -/
theorem get?_complete {extra : List (String × Value)} {row : Row} {k : String} {u : Value}
    (hextra : extra.lookup k = some u) (hlacks : row.contains k = false) :
    (complete extra row).get? k = some u := by
  induction extra generalizing row with
  | nil => nomatch hextra
  | cons e more ih =>
    obtain ⟨name, value⟩ := e
    show (complete more (if row.contains name then row else row.insert name value)).get? k = some u
    by_cases hname : k = name
    · subst hname
      rw [List.lookup_cons_self] at hextra
      rw [hlacks, if_neg Bool.false_ne_true, ← Option.some.inj hextra]
      exact get?_complete_of_get? (Row.get?_insert_self row k value)
    · have hmore : more.lookup k = some u := by
        rw [List.lookup_cons, beq_eq_false_iff_ne.mpr hname] at hextra
        exact hextra
      refine ih hmore ?_
      split
      · exact hlacks
      · rw [Row.contains, Row.get?_insert_of_ne hname]
        exact hlacks

theorem DataFile.lookup_extra {f : DataFile} {k : String} {v? : Option String}
    (hvalue : f.values.lookup k = some v?) (hplain : isDotted k = false) :
    f.extra.lookup k = some (typedValue v?) := by
  obtain ⟨path, names, values⟩ := f
  unfold DataFile.extra
  dsimp only at hvalue ⊢
  induction values with
  | nil => nomatch hvalue
  | cons e more ih =>
    obtain ⟨name, value?⟩ := e
    rw [List.lookup_cons] at hvalue
    rw [List.filterMap_cons]
    by_cases hname : k = name
    · subst hname
      rw [beq_self_eq_true] at hvalue
      obtain rfl := Option.some.inj hvalue
      simp [hplain]
    · rw [beq_eq_false_iff_ne.mpr hname] at hvalue
      by_cases hdotted : isDotted name = true
      · rw [if_pos hdotted]
        exact ih hvalue
      · rw [if_neg hdotted]
        dsimp only
        rw [List.lookup_cons, beq_eq_false_iff_ne.mpr hname]
        exact ih hvalue

/-! ## Numbers under a type -/

/-- Whether the text of a number is also the text of an identifier or of bytes. -/
def isDigitsOf (v : String) : ColumnType → Bool
  | .uuid | .timeuuid => v.toList.length == 32 && v.toList.all Uuid.isHexDigit
  | .blob => v.toList.length % 2 == 0 && v.toList.all Uuid.isHexDigit
  | _ => false

/-- Whether a whole number that was guessed from a text means under a type what the text means. -/
def keepsWhole (v : String) (i : Int) (type : ColumnType) : Bool :=
  if type.isTextual then v == Integer.text i
  else match type with
    | .float | .double => !(i == 0 && v.toList.head? == some '-')
    | .decimal => false
    | .boolean => v == Integer.text i || !(i == 0 || i == 1)
    | type => !isDigitsOf v type

/-- Whether a floating-point number that was guessed from a text means under a type what the text
means. -/
def keepsFloat (v : String) (x : Binary64) (type : ColumnType) : Bool :=
  if type.isTextual then v == x.plainText
  else if type.isInteger then
    match x.toInt? with
    | some i => decide (wholeBound.natAbs ≤ i.natAbs)
    | none => true
  else match type with
    | .varint => !(Integer.readInt? v.toList).isSome
    | .decimal => false
    | type => !isDigitsOf v type

/-- Whether the value that is guessed from a text means under a type what the text means. -/
def keepsMeaning (v : String) (type : ColumnType) : Bool :=
  match typedValue (some v) with
  | .null => false
  | .int i => keepsWhole v i type
  | .float x => keepsFloat v x type
  | _ => true

theorem none_eq_toOption_iff {a : Except ValueFailure Value} {accepts : Bool}
    (h : a.isOk = accepts) : none = a.toOption ↔ (!accepts) = true := by
  subst h
  cases a with
  | error e => exact ⟨fun _ => rfl, fun _ => rfl⟩
  | ok u => exact ⟨nofun, nofun⟩

theorem isOk_readUuid {v : String} {x : Binary64} (h : Binary64.read? v.toList = some x) :
    (readUuid v).isOk = isDigitsOf v .uuid := by
  rw [Bool.eq_iff_iff, isOk_readUuid_number h]
  simp [isDigitsOf]

theorem isOk_readBlob {v : String} {x : Binary64} (h : Binary64.read? v.toList = some x) :
    (readBlob v).isOk = isDigitsOf v .blob := by
  rw [Bool.eq_iff_iff, isOk_readBlob_number h]
  simp [isDigitsOf]

theorem readDecimal_ne {v : String} {u : Value} (h : ∀ s, u ≠ .decimal s) :
    some u ≠ (readDecimal v).toOption := by
  intro heq
  cases hread : readDecimal v with
  | error e =>
    rw [hread] at heq
    nomatch heq
  | ok w =>
    rw [hread] at heq
    obtain rfl := Option.some.inj heq
    obtain ⟨x, -, -, hu⟩ := readDecimal_eq_ok_iff.mp hread
    exact h _ hu

theorem zero_ne : Binary64.ofInt 0 ≠ Binary64.zero true := by decide

theorem ofInt_boolean_agrees_iff {v : String} {i : Int}
    (hi : Integer.readSigned? v.toList = some i) {x : Binary64}
    (hread : Binary64.read? v.toList = some x) :
    (ofInt i .boolean).toOption = (readBoolean v).toOption ↔
      (v == Integer.text i || !(i == 0 || i == 1)) = true := by
  have hone : v = "1" → i = 1 := by
    rintro rfl
    exact (Option.some.inj hi).symm
  have hzero : v = "0" → i = 0 := by
    rintro rfl
    exact (Option.some.inj hi).symm
  rw [toOption_readBoolean_number hread]
  by_cases hfalse : i = 0
  · have htext : Integer.text 0 = "0" := by decide +kernel
    subst hfalse
    rw [if_neg fun h => absurd (hone h) (by decide), htext]
    show some (bool false) = (if v = "0" then some (bool false) else none) ↔
      (v == "0" || false) = true
    simp
  · by_cases htrue : i = 1
    · have htext : Integer.text 1 = "1" := by decide +kernel
      subst htrue
      rw [htext]
      show some (bool true) = (if v = "1" then some (bool true)
        else if v = "0" then some (bool false) else none) ↔ (v == "1" || false) = true
      split
      · next heq => simp [heq]
      · next hne =>
        rw [if_neg fun h => absurd (hzero h) (by decide)]
        simp [hne]
    · have hother : (i == 0 || i == 1) = false := by simp [hfalse, htrue]
      have hreject : ofInt i .boolean = .error (.cannotConvert "int" .boolean) := by
        show (if i = 0 then _ else if i = 1 then _ else _) = _
        rw [if_neg hfalse, if_neg htrue]
      rw [if_neg fun h => htrue (hone h), if_neg fun h => hfalse (hzero h), hother, hreject,
        Bool.not_false, Bool.or_true]
      exact ⟨fun _ => rfl, fun _ => rfl⟩

theorem toOption_ofInt_timestamp (i : Int) :
    (ofInt i .timestamp).toOption = (Instant.ofMillis? i).map instant := by
  unfold ofInt
  cases Instant.ofMillis? i with
  | none => rfl
  | some t => rfl

/-- A whole number is fitted to a type as its text is, where it keeps the meaning of the text. -/
theorem ofInt_agrees_iff {v : String} {i : Int} (hi : Integer.readSigned? v.toList = some i)
    {type : ColumnType} (hscalar : type.isComposite = false) :
    (ofInt i type).toOption = (ofText v type).toOption ↔ keepsWhole v i type = true := by
  have hread := Binary64.read?_of_readSigned? hi
  have htrim := Binary64.trim_number hread
  have htextual : some (text (Integer.text i)) = some (text v) ↔ (v == Integer.text i) = true := by
    rw [Option.some_inj, text.injEq, beq_iff_eq, eq_comm]
  have hinteger : readInteger v = .ok (int i) := by
    rw [readInteger, htrim, hi]
  have hvarint : readVarint v = .ok (int i) := by
    unfold readVarint
    dsimp only
    rw [htrim, hi]
  cases type with
  | ascii | text | date | time | duration | inet => exact htextual
  | bigint | int | smallint | tinyint | counter =>
    show some (int i) = (readInteger v).toOption ↔ _
    rw [hinteger]
    exact ⟨fun _ => rfl, fun _ => rfl⟩
  | varint =>
    show some (int i) = (readVarint v).toOption ↔ _
    rw [hvarint]
    exact ⟨fun _ => rfl, fun _ => rfl⟩
  | float | double =>
    show some (float (Binary64.ofInt i)) = (readFloat v).toOption ↔
      (!(i == 0 && v.toList.head? == some '-')) = true
    rw [readFloat, htrim, hread]
    by_cases hzero : i = 0 ∧ v.toList.head? = some '-'
    · rw [if_pos hzero]
      obtain ⟨rfl, hsign⟩ := hzero
      rw [hsign]
      exact ⟨fun heq => absurd (float.inj (Option.some.inj heq)) zero_ne,
        fun hfalse => absurd hfalse Bool.false_ne_true⟩
    · have hplain : (i == 0 && v.toList.head? == some '-') = false := by
        simpa using hzero
      rw [if_neg hzero, hplain]
      exact ⟨fun _ => rfl, fun _ => rfl⟩
  | decimal =>
    exact ⟨fun heq => absurd heq (readDecimal_ne (by simp)),
      fun hfalse => absurd hfalse Bool.false_ne_true⟩
  | boolean => exact ofInt_boolean_agrees_iff hi hread
  | blob => exact none_eq_toOption_iff (isOk_readBlob hread)
  | timestamp =>
    show (ofInt i .timestamp).toOption = (readInstant v).toOption ↔ true = true
    rw [toOption_readInstant_number hread, hi, toOption_ofInt_timestamp]
    exact ⟨fun _ => rfl, fun _ => rfl⟩
  | uuid | timeuuid => exact none_eq_toOption_iff (isOk_readUuid hread)
  | list | set | map | tuple | vector | userDefined => cases hscalar

/-- A number beyond 64 bits is a field for a whole number if it is a sign and digits. -/
theorem isOk_readVarint {v : String} {x : Binary64} (hread : Binary64.read? v.toList = some x) :
    (readVarint v).isOk = (Integer.readInt? v.toList).isSome := by
  have htrim := Binary64.trim_number hread
  rw [Bool.eq_iff_iff]
  constructor
  · intro hok
    cases hvarint : readVarint v with
    | error e =>
      rw [hvarint] at hok
      nomatch hok
    | ok u =>
      obtain ⟨i, hi, -⟩ | ⟨-, hsigned, -, -⟩ := readVarint_cases hvarint
      · rw [htrim] at hi
        rw [(inWidth_of_readSigned? hi).1]
        rfl
      · rw [htrim] at hsigned
        rw [← Binary64.isSome_read? hsigned, hread]
        rfl
  · intro hsome
    obtain ⟨i, hi⟩ := Option.isSome_iff_exists.mp hsome
    obtain ⟨signs, digits, hs, hsigns, hne, hdigits⟩ := Integer.readInt?_cases hi
    have hdrop : ((signs ++ digits).dropWhile fun c => c == '-' || c == '+') =
        digits.dropWhile _ := List.dropWhile_append_of_pos hsigns
    have hshape : (!v.toList.isEmpty &&
        (v.toList.dropWhile fun c => c == '-' || c == '+').all Integer.isDigit) = true := by
      rw [hs, hdrop, Bool.and_eq_true, List.all_eq_true]
      refine ⟨by simp [hne], fun c hc => hdigits c ?_⟩
      exact (List.dropWhile_sublist _).subset hc
    unfold readVarint
    dsimp only
    rw [htrim, if_pos hshape]
    cases Integer.readSigned? v.toList with
    | some j => rfl
    | none => rfl

/-- A text that is no 64-bit integer fails under an integer type, but a floating-point number that
is whole and not too large does not. -/
theorem ofFloat_integer_agrees_iff {v : String} {x : Binary64}
    (hlarge : Integer.readSigned? v.toList = none) (hread : Binary64.read? v.toList = some x)
    {type : ColumnType} (hinteger : type.isInteger = true) :
    (ofFloat x type).toOption = (readInteger v).toOption ↔ keepsFloat v x type = true := by
  have htextual : type.isTextual = false := by
    cases type <;> first | rfl | cases hinteger
  unfold ofFloat keepsFloat readInteger
  rw [if_pos hinteger, htextual, if_neg Bool.false_ne_true, if_pos hinteger,
    Binary64.trim_number hread, hlarge]
  cases x.toInt? with
  | none => exact ⟨fun _ => rfl, fun _ => rfl⟩
  | some i =>
    dsimp only
    rw [decide_eq_true_iff]
    split
    · next hlt => exact ⟨nofun, fun hle => absurd hlt (Nat.not_lt.mpr hle)⟩
    · next hle => exact ⟨fun _ => Nat.not_lt.mp hle, fun _ => rfl⟩

/-- A floating-point number is fitted to a type as its text is, where it keeps the meaning of the
text. -/
theorem ofFloat_agrees_iff {v : String} {x : Binary64}
    (hlarge : Integer.readSigned? v.toList = none) (hread : Binary64.read? v.toList = some x)
    {type : ColumnType} (hscalar : type.isComposite = false) :
    (ofFloat x type).toOption = (ofText v type).toOption ↔ keepsFloat v x type = true := by
  have htrim := Binary64.trim_number hread
  have htextual : some (text x.plainText) = some (text v) ↔ (v == x.plainText) = true := by
    rw [Option.some_inj, text.injEq, beq_iff_eq, eq_comm]
  cases type with
  | ascii | text | date | time | duration | inet => exact htextual
  | bigint | int | smallint | tinyint | counter =>
    exact ofFloat_integer_agrees_iff hlarge hread rfl
  | varint => exact none_eq_toOption_iff (isOk_readVarint hread)
  | float | double =>
    show some (float x) = (readFloat v).toOption ↔ true = true
    rw [readFloat, htrim, hread]
    exact ⟨fun _ => rfl, fun _ => rfl⟩
  | decimal =>
    exact ⟨fun heq => absurd heq (readDecimal_ne (by simp)),
      fun hfalse => absurd hfalse Bool.false_ne_true⟩
  | boolean =>
    show none = (readBoolean v).toOption ↔ true = true
    have hone : v ≠ "1" := by
      rintro rfl
      cases hlarge
    have hzero : v ≠ "0" := by
      rintro rfl
      cases hlarge
    rw [toOption_readBoolean_number hread, if_neg hone, if_neg hzero]
    exact ⟨fun _ => rfl, fun _ => rfl⟩
  | blob => exact none_eq_toOption_iff (isOk_readBlob hread)
  | timestamp =>
    show none = (readInstant v).toOption ↔ true = true
    rw [toOption_readInstant_number hread, hlarge]
    exact ⟨fun _ => rfl, fun _ => rfl⟩
  | uuid | timeuuid => exact none_eq_toOption_iff (isOk_readUuid hread)
  | list | set | map | tuple | vector | userDefined => cases hscalar

/-! ## Guesses -/

theorem ofText_empty_ne_null {type : ColumnType} (hscalar : type.isComposite = false) :
    some null ≠ (ofText "" type).toOption := by
  cases type with
  | list | set | map | tuple | vector | userDefined => nomatch hscalar
  | _ => nofun

theorem typedValue_cases (v : String) :
    v = "" ∧ typedValue (some v) = .null ∨
    (∃ i, Integer.readSigned? v.toList = some i ∧ typedValue (some v) = .int i) ∨
    (∃ x, Integer.readSigned? v.toList = none ∧ Binary64.read? v.toList = some x ∧
      typedValue (some v) = .float x) ∨
    typedValue (some v) = .text v := by
  unfold typedValue
  dsimp only
  split
  · next hempty => exact .inl ⟨String.isEmpty_iff.mp hempty, rfl⟩
  · split
    · next i hi => exact .inr (.inl ⟨i, hi, rfl⟩)
    · next hlarge =>
      split
      · next x hx => exact .inr (.inr (.inl ⟨x, hlarge, hx, rfl⟩))
      · exact .inr (.inr (.inr rfl))

/-- A guess fitted to a type agrees with the field of its text exactly if it keeps the meaning. -/
theorem typedValue_agrees_iff (v : String) {type : ColumnType}
    (hscalar : type.isComposite = false) :
    (conform (typedValue (some v)) type).toOption = (ofField v (some type)).toOption ↔
      keepsMeaning v type = true := by
  have hfield : ofField v (some type) = ofText v type := conform_scalar hscalar rfl
  unfold keepsMeaning
  rw [hfield]
  obtain ⟨rfl, hguess⟩ | ⟨i, hi, hguess⟩ | ⟨x, hlarge, hx, hguess⟩ | hguess := typedValue_cases v
  · rw [hguess, conform_scalar hscalar rfl]
    exact ⟨fun heq => absurd heq (ofText_empty_ne_null hscalar), nofun⟩
  · rw [hguess, conform_scalar hscalar rfl]
    exact ofInt_agrees_iff hi hscalar
  · rw [hguess, conform_scalar hscalar rfl]
    exact ofFloat_agrees_iff hlarge hx hscalar
  · rw [hguess, conform_scalar hscalar rfl]
    exact ⟨fun _ => rfl, fun _ => rfl⟩

/-- A row that lacks a column gets the value that is guessed from the name of a directory. Fitted
to a type without parts, this value and a delimited field with the same text both fail or both give
the same value if and only if the guess keeps the meaning of the text. -/
theorem guessed_value_agrees_iff {f : DataFile} {k v : String}
    (hvalue : f.values.lookup k = some (some v)) (hplain : isDotted k = false) {row : Row}
    (hlacks : row.contains k = false) {type : ColumnType} (hscalar : type.isComposite = false) :
    (complete f.extra row).get? k = some (typedValue (some v)) ∧
      ((conform (typedValue (some v)) type).toOption = (ofField v (some type)).toOption ↔
        keepsMeaning v type = true) :=
  ⟨get?_complete (f.lookup_extra hvalue hplain) hlacks, typedValue_agrees_iff v hscalar⟩

/-- A year is taken for a whole number, and under text becomes its digits again. -/
theorem guessed_value_agrees_iff_year :
    let f := dataFile "d" ["year=2024", "part-00000.parquet"]
    (complete f.extra ⟨[("id", .int 1)]⟩).get? "year" = some (.int 2024) ∧
      (conform (.int 2024) .text).toOption = (ofField "2024" (some .text)).toOption := by
  intro f
  have hvalue : f.values.lookup "year" = some (some "2024") := by decide +kernel
  have hlacks : Row.contains ⟨[("id", .int 1)]⟩ "year" = false := by decide
  have hscalar : ColumnType.isComposite .text = false := rfl
  have hguess : typedValue (some "2024") = .int 2024 := rfl
  obtain ⟨hfound, hagrees⟩ := guessed_value_agrees_iff hvalue (by decide) hlacks hscalar
  rw [hguess] at hfound hagrees
  exact ⟨hfound, hagrees.mpr (by decide +kernel)⟩

/-- Zeros that lead are lost in a column of text, and no text becomes null. -/
theorem guessed_text_loses_zeros :
    conform (typedValue (some "007")) .text = .ok (text "7") ∧
    ofField "007" (some .text) = .ok (text "007") ∧
    conform (typedValue (some "")) .text = .ok null ∧
    ofField "" (some .text) = .ok (text "") := by
  have hguess : typedValue (some "007") = .int 7 := rfl
  have hdigits : Integer.text 7 = "7" := by decide +kernel
  have hwhole : conform (.int 7) .text = .ok (text (Integer.text 7)) := rfl
  rw [hguess, hwhole, hdigits]
  exact ⟨rfl, rfl, rfl, rfl⟩

end BulkTransfer.Partition
