import BulkTransfer.Proofs.Literal.Number
import BulkTransfer.Proofs.Literal.RoundTrip

/-!
Values of user-defined types. The declared type covers the outermost fields alone: a value inside is
read by its looks, and braces are taken for fields only if every key could be a field name. The
printer leaves plain names bare, and some of these are no names to the reader: words with a meaning
of their own and words that start with an underscore.

- `ofBareWord_plain`: what a bare name is read as.
- `Value.reread`: what is read of a value whose type is not known.
- `readsAs_reread`: such a value is read as that, whatever may follow it.
- `reread_eq_self_iff`: it is the value itself just when no name inside is lost.
- `fields_read_back_iff`: which values of user-defined types are read back.
-/

namespace BulkTransfer.Literal

open Value Text

/-! ## Plain names -/

theorem isBare_of_isPlainNameChar {c : Char} (h : isPlainNameChar c = true) :
    isBare c = true := by
  have hblank := isBlank_of_isPlainNameChar h
  have hne : ∀ d : Char, isPlainNameChar d = false → (c == d) = false := by
    intro d hd
    rw [beq_eq_false_iff_ne]
    rintro rfl
    exact absurd h (Bool.eq_false_iff.mp hd)
  simp [isBare, hblank, hne ',' (by decide), hne '[' (by decide), hne ']' (by decide),
    hne '{' (by decide), hne '}' (by decide), hne '(' (by decide), hne ')' (by decide),
    hne ':' (by decide), hne '\'' (by decide)]

theorem toLower_of_isPlainNameChar {c : Char} (h : isPlainNameChar c = true) : c.toLower = c := by
  have hcode := toNat_of_isPlainNameChar h
  have hupper : ¬ (c.val ≥ 'A'.val ∧ c.val ≤ 'Z'.val) := by
    intro hc
    have hlow : 'A'.val.toNat ≤ c.toNat := UInt32.le_iff_toNat_le.mp hc.1
    have hhigh : c.toNat ≤ 'Z'.val.toNat := UInt32.le_iff_toNat_le.mp hc.2
    have h65 : 'A'.val.toNat = 65 := by decide
    have h90 : 'Z'.val.toNat = 90 := by decide
    omega
  unfold Char.toLower
  rw [dif_neg hupper]

section Plain

variable {name : List Char} (h : isPlainName name = true)
include h

theorem exists_first_of_plain : ∃ c rest, name = c :: rest ∧ (c.isLower = true ∨ c = '_') := by
  cases name with
  | nil => cases h
  | cons c rest =>
    simp only [isPlainName, Bool.and_eq_true, Bool.or_eq_true, beq_iff_eq] at h
    exact ⟨c, rest, rfl, h.1⟩

theorem isBare_of_plain : ∀ c ∈ name, isBare c = true := fun c hc =>
  isBare_of_isPlainNameChar (isPlainNameChar_of_mem h c hc)

theorem ne_nil_of_plain : name ≠ [] := by
  obtain ⟨c, rest, rfl, -⟩ := exists_first_of_plain h
  exact List.cons_ne_nil c rest

/-- A plain name starts with no character of a number. -/
theorem le_toNat_first_of_plain {c : Char} {rest : List Char} (hname : name = c :: rest) :
    95 ≤ c.toNat := by
  obtain ⟨d, more, hfirst, hd⟩ := exists_first_of_plain h
  obtain ⟨rfl, rfl⟩ := List.cons.inj (hname.symm.trans hfirst)
  rcases hd with hd | rfl
  · unfold Char.isLower at hd
    simp only [Bool.and_eq_true, decide_eq_true_eq, UInt32.le_iff_toNat_le, ge_iff_le] at hd
    exact Nat.le_trans (by decide) hd.1
  · decide

theorem map_toLower_of_plain : name.map Char.toLower = name := by
  have hmap : name.map Char.toLower = name.map id :=
    List.map_congr_left fun c hc => toLower_of_isPlainNameChar (isPlainNameChar_of_mem h c hc)
  rw [hmap, List.map_id]

theorem sameWord_of_plain {word : String} (hword : word.toList.map Char.toLower = word.toList) :
    sameWord name word = (name == word.toList) := by
  rw [sameWord, equalsIgnoringAsciiCase, map_toLower_of_plain h, hword]

theorem readSigned?_of_plain : Integer.readSigned? name = none := by
  have hnone : Integer.readInt? name = none := by
    refine Option.eq_none_iff_forall_ne_some.mpr fun i hi => ?_
    obtain ⟨signs, digits, hsplit, hsigns, hne, hdigits⟩ := Integer.readInt?_cases hi
    have hnumeral := Binary64.isNumeral_of_isSigned ⟨signs, digits, hsplit, hsigns, hdigits⟩
      (ne_nil_of_plain h)
    obtain ⟨c, rest, hname, hc⟩ := hnumeral.first
    have := le_toNat_first_of_plain h hname
    omega
  rw [Integer.readSigned?, Integer.read?, hnone]

/-- Of the plain names only those of the special values are numbers. -/
theorem read?_of_plain : Binary64.read? name =
    if name = "inf".toList ∨ name = "infinity".toList then some (.infinity false)
    else if name = "nan".toList then some .nan else none := by
  have hcode : ∀ c rest, name = c :: rest → 95 ≤ c.toNat :=
    fun _ _ => le_toNat_first_of_plain h
  have hmagnitude : Binary64.read? name = Binary64.readMagnitude? false name := by
    unfold Binary64.read?
    split
    · next rest => exact absurd (hcode '-' rest rfl) (by decide)
    · next rest => exact absurd (hcode '+' rest rfl) (by decide)
    · rfl
  have hunsigned : Binary64.readUnsigned? name = none := by
    refine Option.eq_none_iff_forall_ne_some.mpr fun u hu => ?_
    obtain ⟨c, rest, hname, hc⟩ := (Binary64.isNumeral_of_readUnsigned? hu).first
    have := hcode c rest hname
    omega
  rw [hmagnitude, Binary64.readMagnitude?, map_toLower_of_plain h, hunsigned]
  rfl

end Plain

/-! ## Keys between braces -/

/-- What the key that is written for a name is read as: a plain name is left bare, and some bare
words have a meaning of their own. -/
def keyOf (name : String) : Value :=
  if isPlainName name.toList then
    if name = "null" then .null
    else if name = "true" then .bool true
    else if name = "false" then .bool false
    else if name = "inf" ∨ name = "infinity" then .float (.infinity false)
    else if name = "nan" then .float .nan
    else .text name
  else .text name

/-- Whether the key that is written for a name is taken for one. -/
def isFieldKey (name : String) : Bool :=
  startsName (quoteName name.toList) && !isReserved (keyOf name)

theorem ofBareWord_plain {name : String} (h : isPlainName name.toList = true) :
    ofBareWord name.toList = .ok (keyOf name) := by
  have hword : ∀ word : String, (name.toList == word.toList) = decide (name = word) := by
    intro word
    rw [Bool.beq_eq_decide_eq]
    exact decide_eq_decide.mpr String.toList_inj
  have hlist : ∀ word : String, name.toList = word.toList ↔ name = word :=
    fun word => String.toList_inj
  unfold ofBareWord keyOf
  rw [if_pos h, sameWord_of_plain h (by decide), sameWord_of_plain h (by decide),
    sameWord_of_plain h (by decide), hword, hword, hword]
  simp only [decide_eq_true_eq]
  split
  · rfl
  split
  · rfl
  split
  · rfl
  split
  · next hname => exact absurd (le_toNat_first_of_plain h hname) (by decide)
  · next hname => exact absurd (le_toNat_first_of_plain h hname) (by decide)
  · rw [readSigned?_of_plain h, read?_of_plain h]
    simp only [hlist, String.ofList_toList]
    by_cases hinf : name = "inf" ∨ name = "infinity"
    · rw [if_pos hinf, if_pos hinf]
    · rw [if_neg hinf, if_neg hinf]
      by_cases hnan : name = "nan"
      · rw [if_pos hnan, if_pos hnan]
      · rw [if_neg hnan, if_neg hnan]

/-- The names that are lost where no type tells of them: plain ones that start with an underscore or
are words with a meaning of their own. The word `inf` is a number that is written as it stands. -/
def isLostName (name : String) : Bool :=
  isPlainName name.toList &&
    (name.toList.head? == some '_' || ["null", "true", "false", "infinity", "nan"].contains name)

theorem startsName_quoteName (name : List Char) (rest : List Char) :
    startsName (quoteName name ++ rest) = startsName (quoteName name) := by
  unfold quoteName
  split
  · next h =>
    obtain ⟨c, more, rfl, -⟩ := exists_first_of_plain h
    rfl
  · rfl

theorem startsName_plain {name : List Char} (h : isPlainName name = true) :
    startsName name = !(name.head? == some '_') := by
  obtain ⟨c, rest, rfl, hc⟩ := exists_first_of_plain h
  show (isLetter c || c == '"') = !(some c == some '_')
  rcases hc with hlower | rfl
  · have halpha : (c.isUpper || c.isLower) = true := by rw [hlower, Bool.or_true]
    have hletter : isLetter c = true := isLetter_of_isAlpha halpha
    have hne : c ≠ '_' := by
      rintro rfl
      exact absurd hlower (by decide)
    rw [hletter, Bool.true_or, beq_eq_false_iff_ne.mpr (by simpa using hne)]
    rfl
  · decide

/-- A name is kept just when its key is taken for a name, and for this one. -/
theorem isLostName_eq_false_iff (name : String) :
    isLostName name = false ↔ isFieldKey name = true ∧ nameOf (keyOf name) = name := by
  unfold isLostName isFieldKey quoteName
  by_cases hplain : isPlainName name.toList = true
  · rw [if_pos hplain, hplain, startsName_plain hplain]
    simp only [Bool.true_and, keyOf, if_pos hplain]
    by_cases hword : name ∈ ["null", "true", "false", "infinity", "nan", "inf"]
    · simp only [List.mem_cons, List.not_mem_nil, or_false] at hword
      rcases hword with rfl | rfl | rfl | rfl | rfl | rfl <;> decide
    · simp only [List.mem_cons, List.not_mem_nil, or_false, not_or] at hword
      simp [hword, isReserved, nameOf]
  · simp [hplain, keyOf, isReserved, nameOf, startsName]

end BulkTransfer.Literal

namespace BulkTransfer.Value

open Literal

/-! ## What is read without a type -/

/-- Values without a declared type that have parts only in lists, tuples and named fields. A value
with no fields is left out, as is a field whose name tells of sets. -/
inductive IsUntyped : Value → Prop
  | null : IsUntyped null
  | bool (b : Bool) : IsUntyped (bool b)
  | int {i : Int} (h : InWidth 64 i) : IsUntyped (int i)
  | text (s : String) : IsUntyped (text s)
  | bytes (b : Bytes) : IsUntyped (bytes b)
  | list {items : List Value} (h : ∀ v ∈ items, IsUntyped v) : IsUntyped (list items)
  | tuple {items : List Value} (h : ∀ v ∈ items, IsUntyped v) : IsUntyped (tuple items)
  | fields {items : List (String × Value)} (hne : items ≠ [])
      (hset : ∀ p ∈ items, isSetColumn p.1 = false) (h : ∀ p ∈ items, IsUntyped p.2) :
    IsUntyped (fields items)

/-- What keys with their values make: fields if all keys are taken for names, else a map. -/
def ofKeys (items : List (String × Value)) : Value :=
  if items.all fun p => isFieldKey p.1 then fields (items.map fun p => (nameOf (keyOf p.1), p.2))
  else map (items.map fun p => (keyOf p.1, p.2))

mutual

/-- What is read of a value whose type is not known. -/
def reread : Value → Value
  | list items => list (rereadItems items)
  | tuple items => tuple (rereadItems items)
  | fields items => ofKeys (rereadFields items)
  | v => v

/-- What is read of items. -/
def rereadItems : List Value → List Value
  | [] => []
  | v :: more => reread v :: rereadItems more

/-- What is read of the values of fields. -/
def rereadFields : List (String × Value) → List (String × Value)
  | [] => []
  | (n, v) :: more => (n, reread v) :: rereadFields more

end

theorem rereadItems_eq (items : List Value) : rereadItems items = items.map reread := by
  induction items with
  | nil => rfl
  | cons v more ih => rw [rereadItems, ih, List.map_cons]

theorem rereadFields_eq (items : List (String × Value)) :
    rereadFields items = items.map fun p => (p.1, reread p.2) := by
  induction items with
  | nil => rfl
  | cons p more ih => rw [rereadFields, ih, List.map_cons]

/-- No name of a field in the value is lost, at any level. -/
inductive KeepsNames : Value → Prop
  | scalar {v : Value} (h : v.isScalar = true) : KeepsNames v
  | list {items : List Value} (h : ∀ v ∈ items, KeepsNames v) : KeepsNames (list items)
  | tuple {items : List Value} (h : ∀ v ∈ items, KeepsNames v) : KeepsNames (tuple items)
  | fields {items : List (String × Value)} (hname : ∀ p ∈ items, isLostName p.1 = false)
      (h : ∀ p ∈ items, KeepsNames p.2) : KeepsNames (fields items)

theorem map_eq_self_iff {α : Type} {f : α → α} {l : List α} :
    l.map f = l ↔ ∀ a ∈ l, f a = a := by
  induction l with
  | nil => simp
  | cons a l ih => rw [List.map_cons, List.cons.injEq, ih, List.forall_mem_cons]

/-- Keys make the fields that they were written for just when no name is lost. -/
theorem ofKeys_reread_eq_iff {items : List (String × Value)} :
    ofKeys (items.map fun p => (p.1, reread p.2)) = fields items ↔
      (∀ p ∈ items, isLostName p.1 = false) ∧ ∀ p ∈ items, reread p.2 = p.2 := by
  have hlost : (∀ p ∈ items, isLostName p.1 = false) ↔
      (∀ p ∈ items, isFieldKey p.1 = true) ∧ ∀ p ∈ items, nameOf (keyOf p.1) = p.1 := by
    simp only [isLostName_eq_false_iff]
    exact ⟨fun h => ⟨fun p hp => (h p hp).1, fun p hp => (h p hp).2⟩,
      fun h p hp => ⟨h.1 p hp, h.2 p hp⟩⟩
  have hall : ((items.map fun p => (p.1, reread p.2)).all fun p => isFieldKey p.1) =
      items.all fun p => isFieldKey p.1 := List.all_map
  rw [hlost, ofKeys, hall, ← List.all_eq_true]
  split
  · next hkeys =>
    rw [Value.fields.injEq, List.map_map, map_eq_self_iff]
    simp only [Function.comp, hkeys, true_and]
    exact ⟨fun h => ⟨fun p hp => congrArg Prod.fst (h p hp), fun p hp =>
        congrArg Prod.snd (h p hp)⟩, fun h p hp => Prod.ext (h.1 p hp) (h.2 p hp)⟩
  · next hkeys => exact ⟨nofun, fun h => absurd h.1.1 hkeys⟩

/-- A value is read as itself just when no name inside is lost. -/
theorem reread_eq_self_iff {v : Value} (h : IsUntyped v) : reread v = v ↔ KeepsNames v := by
  induction h with
  | null | bool | int | text | bytes =>
    rw [reread]
    · exact iff_of_true rfl (.scalar rfl)
    all_goals nofun
  | @list items h ih =>
    rw [reread, rereadItems_eq, Value.list.injEq, map_eq_self_iff]
    constructor
    · intro hself
      exact .list fun v hv => (ih v hv).mp (hself v hv)
    · intro hkeeps v hv
      cases hkeeps with
      | scalar hscalar => cases hscalar
      | list hkeeps => exact (ih v hv).mpr (hkeeps v hv)
  | @tuple items h ih =>
    rw [reread, rereadItems_eq, Value.tuple.injEq, map_eq_self_iff]
    constructor
    · intro hself
      exact .tuple fun v hv => (ih v hv).mp (hself v hv)
    · intro hkeeps v hv
      cases hkeeps with
      | scalar hscalar => cases hscalar
      | tuple hkeeps => exact (ih v hv).mpr (hkeeps v hv)
  | @fields items hne hset h ih =>
    rw [reread, rereadFields_eq, ofKeys_reread_eq_iff]
    constructor
    · rintro ⟨hnames, hself⟩
      exact .fields hnames fun p hp => (ih p hp).mp (hself p hp)
    · intro hkeeps
      cases hkeeps with
      | scalar hscalar => cases hscalar
      | fields hnames hkeeps => exact ⟨hnames, fun p hp => (ih p hp).mpr (hkeeps p hp)⟩

end BulkTransfer.Value

namespace BulkTransfer.Literal

open Value Text

/-! ## Reading without a type -/

/-- The literal of a value is read without a type as another value, whatever may follow it. -/
def ReadsAs (column : String) (v w : Value) : Prop :=
  ∀ levels size, (literal column none v).length ≤ levels →
    Gives (readValue levels size none) (literal column none v) (.ok w)

theorem readsAs_of_word {column : String} {v w : Value} {word : List Char}
    (hlit : literal column none v = word) (hne : word ≠ []) (hbare : ∀ c ∈ word, isBare c = true)
    (hword : ofBareWord word = .ok w) : ReadsAs column v w := by
  intro levels size hlen rest hr
  rw [hlit] at hlen ⊢
  have hpos := List.length_pos_iff.mpr hne
  obtain ⟨n, rfl⟩ : ∃ n, levels = n + 1 := ⟨levels - 1, by omega⟩
  exact readValue_bare hne hbare hr hword rfl

theorem readsAs_text (column s : String) : ReadsAs column (text s) (text s) := by
  by_cases hb : standsBare column none s = true
  · have hh := hyphenated_of_standsBare hb
    have hword := ofBareWord_hyphenated hh
    rw [String.ofList_toList] at hword
    exact readsAs_of_word (by rw [literal, if_pos hb]) (List.ne_nil_of_mem hh.mem_hyphen)
      (isBare_of_hyphenated hh) hword
  · intro levels size hlen rest hr
    have hlit : literal column none (text s) = quoted s.toList := by rw [literal, if_neg hb]
    rw [hlit] at hlen ⊢
    obtain ⟨n, rfl⟩ : ∃ n, levels = n + 1 := ⟨levels - 1, by simp [quoted] at hlen; omega⟩
    rw [readValue_quoted_eq n size none s.toList hr, String.ofList_toList]
    rfl

theorem startsOpen_of_isUntyped {column : String} (hset : isSetColumn column = false) {v : Value}
    (h : IsUntyped v) : StartsOpen (literal column none v) := by
  cases h with
  | null => exact startsOpen_of_bare (by simp [literal]) (by simp [literal]; decide)
  | bool b => cases b <;> exact startsOpen_of_bare (by simp [literal]) (by simp [literal]; decide)
  | @int i _ =>
    rw [literal]
    exact startsOpen_of_bare (render_ne_nil i) (isBare_render i)
  | text s =>
    rw [literal]
    split
    · next hb =>
      have hh := hyphenated_of_standsBare hb
      exact startsOpen_of_bare (List.ne_nil_of_mem hh.mem_hyphen) (isBare_of_hyphenated hh)
    · exact startsOpen_cons _ (by decide) (by decide)
  | bytes b => exact startsOpen_cons _ (by decide) (by decide)
  | list _ =>
    rw [literal, inBraces, hset]
    · exact startsOpen_cons _ (by decide) (by decide)
    · rintro _ ⟨⟩
  | tuple _ => rw [literal]; exact startsOpen_cons _ (by decide) (by decide)
  | fields _ _ _ => rw [literal]; exact startsOpen_cons _ (by decide) (by decide)

/-- Items that are all read by one reader are read one after the other. -/
theorem readSequence_map {α β : Type} {close : Char} (hclose : IsClosing close) (item : Step α)
    (hblank : ∀ s, item (' ' :: s) = item s) {items : List β} {text : β → List Char} {f : β → α}
    (hstart : ∀ b ∈ items, StartsOpen (text b))
    (h : ∀ b ∈ items, Gives item (text b) (.ok (f b))) (rest : List Char) :
    readSequence close (fun _ => item) (commaSeparated (items.map text) ++ close :: rest) =
      .ok (items.map f, rest) := by
  let part (b : β) : Except ValueFailure α × List Char := (.ok (f b), text b)
  have hparts : GivesEach (fun _ => item) 0 (items.map part) := by
    refine givesEach_of_getElem? fun i p hp => ?_
    obtain ⟨b, hb, rfl⟩ := List.mem_map.mp (List.mem_of_getElem? hp)
    exact h b hb
  have hread := readSequence_outcomes hclose (fun _ => hblank) rest hparts fun p hp => by
    obtain ⟨b, hb, rfl⟩ := List.mem_map.mp hp
    exact hstart b hb
  rw [List.map_map, List.mapM_map] at hread
  exact hread.trans (congrArg (Except.map _) (mapM_ok f items))

section Items

variable {column : String} {levels : Nat} (size : Nat) (hset : isSetColumn column = false)
  {items : List Value} (hitems : ∀ v ∈ items, IsUntyped v)
  (h : ∀ v ∈ items, ReadsAs column v (reread v))
include hset hitems h

/-- Items of which no type is known are read one after the other. -/
theorem readSequence_untyped {close : Char} (hclose : IsClosing close)
    (hlen : (literals column none items).length ≤ levels) (rest : List Char) :
    readSequence close (fun _ => readValue levels size none)
      (literals column none items ++ close :: rest) = .ok (items.map reread, rest) := by
  rw [literals_eq] at hlen ⊢
  refine readSequence_map hclose _ (readValue_blank levels size none) ?_ ?_ rest
  · intro v hv
    exact startsOpen_of_isUntyped hset (hitems v hv)
  · intro v hv
    exact h v hv levels size (Nat.le_trans (length_le_of_mem (List.mem_map_of_mem hv)) hlen)

theorem readsAs_list : ReadsAs column (list items) (list (items.map reread)) := by
  intro levels size hlen rest hr
  have hlit : literal column none (list items) = '[' :: literals column none items ++ [']'] := by
    rw [literal, inBraces, hset]
    · rfl
    · rintro _ ⟨⟩
  rw [hlit] at hlen ⊢
  obtain ⟨n, rfl, hn, htrim⟩ := level_of_brackets (by decide) hlen rest
  rw [readValue_brackets htrim]
  exact congrArg (· >>= _) (readSequence_untyped size hset hitems h (.inl rfl) hn rest)

theorem readsAs_tuple : ReadsAs column (tuple items) (tuple (items.map reread)) := by
  intro levels size hlen rest hr
  have hitem : ∀ items, itemLiterals column [] items = literals column none items := by
    intro items
    induction items with
    | nil => rw [itemLiterals, literals]
    | cons v more ih =>
      cases more with
      | nil => rw [itemLiterals, literals, List.head?_nil]
      | cons w more =>
        rw [itemLiterals, literals, List.head?_nil, List.tail_nil, ih]
        all_goals rintro ⟨⟩
  have hlit : literal column none (tuple items) = '(' :: literals column none items ++ [')'] := by
    rw [literal, itemTypes, hitem]
    rintro _ ⟨⟩
  rw [hlit] at hlen ⊢
  obtain ⟨n, rfl, hn, htrim⟩ := level_of_brackets (by decide) hlen rest
  rw [readValue_parentheses htrim]
  exact congrArg (· >>= _) (readSequence_untyped size hset hitems h (.inr (.inr rfl)) hn rest)

end Items

/-! ## Named fields -/

/-- The literal of a field. -/
def fieldLiteral (p : String × Value) : List Char :=
  quoteName p.1.toList ++ ':' :: ' ' :: literal p.1 none p.2

theorem fieldLiterals_eq (items : List (String × Value)) :
    fieldLiterals items = commaSeparated (items.map fieldLiteral) := by
  induction items with
  | nil => rw [fieldLiterals]; rfl
  | cons p more ih =>
    obtain ⟨n, v⟩ := p
    cases more with
    | nil => rw [fieldLiterals]; rfl
    | cons q more =>
      rw [fieldLiterals, ih]
      · simp [fieldLiteral, commaSeparated, joinWith]
      · rintro ⟨⟩

theorem literal_fields (column : String) (type? : Option ColumnType)
    (items : List (String × Value)) : literal column type? (fields items) =
      '{' :: commaSeparated (items.map fieldLiteral) ++ ['}'] := by
  rw [literal, fieldLiterals_eq]

theorem startsOpen_quoteName (name : List Char) : StartsOpen (quoteName name) := by
  unfold quoteName
  split
  · next h => exact startsOpen_of_bare (ne_nil_of_plain h) (isBare_of_plain h)
  · exact startsOpen_cons _ (by decide) (by decide)

theorem trimStart_quoteName (name rest : List Char) :
    trimStart (quoteName name ++ rest) = quoteName name ++ rest := by
  obtain ⟨c, tail, hname, hblank, -⟩ := startsOpen_quoteName name
  rw [hname]
  exact trimStart_eq_self hblank

theorem quoteName_of_plain {name : List Char} (h : isPlainName name = true) :
    quoteName name = name := by
  rw [quoteName, if_pos h]

theorem quoteName_append_of_not_plain {name : List Char} (h : ¬ isPlainName name = true)
    (rest : List Char) : quoteName name ++ rest = '"' :: (doubleQuote '"' name ++ '"' :: rest) := by
  rw [quoteName, if_neg h, List.append_assoc, List.cons_append, List.singleton_append]

theorem readQuoted_name (name rest : List Char) :
    readQuoted '"' (doubleQuote '"' name ++ '"' :: ':' :: rest) = .ok (name, ':' :: rest) := by
  refine readQuoted_doubleQuote '"' name fun c hc => ?_
  rw [List.head?_cons, Option.mem_some] at hc
  subst hc
  decide

/-- A bare name does not start as one in quotes does. -/
theorem plain_append_ne {name : List Char} (h : isPlainName name = true) (rest tail : List Char) :
    name ++ rest ≠ '"' :: tail := by
  obtain ⟨c, more, rfl, -⟩ := exists_first_of_plain h
  intro heq
  obtain ⟨rfl, -⟩ := List.cons.inj heq
  exact absurd (isPlainNameChar_of_mem h '"' List.mem_cons_self) (by decide)

/-- A name is read where a field is due, whether it stands bare or in quotes. -/
theorem readFieldName_quoteName (name rest : List Char) :
    readFieldName (quoteName name ++ ':' :: rest) = .ok (String.ofList name, ':' :: rest) := by
  rw [readFieldName, trimStart_quoteName]
  by_cases hplain : isPlainName name = true
  · have hstops : Stops (':' :: rest) := stops_cons (by decide) (by decide)
    rw [quoteName_of_plain hplain]
    split
    · next heq => exact absurd heq (plain_append_ne hplain _ _)
    · rw [bareWord_append (isBare_of_plain hplain) hstops,
        afterBareWord_append (isBare_of_plain hplain) hstops]
      obtain ⟨c, more, rfl, -⟩ := exists_first_of_plain hplain
      rfl
  · rw [quoteName_append_of_not_plain hplain]
    simp only [readQuoted_name]

section Field

variable {levels size : Nat} {p : String × Value} {w : Value} (h : ReadsAs p.1 p.2 w)
  (hlen : (fieldLiteral p).length ≤ levels)
include h hlen

/-- A field is read with its name where a declared type asks for fields. -/
theorem readField_literal (n : Nat) :
    Gives (readField n (readValue levels size none)) (fieldLiteral p) (.ok (p.1, w)) := by
  intro rest hr
  have hlen' : (literal p.1 none p.2).length ≤ levels := by
    simp only [fieldLiteral, List.length_append, List.length_cons] at hlen
    omega
  have hvalue := h levels size hlen' rest hr
  have hsplit : fieldLiteral p ++ rest =
      quoteName p.1.toList ++ ':' :: ' ' :: (literal p.1 none p.2 ++ rest) := by
    simp [fieldLiteral]
  rw [hsplit, readField, readFieldName_quoteName, String.ofList_toList]
  simp only [expect, trimStart_eq_self (show isBlank ':' = false by decide), if_true,
    readValue_blank, hvalue, bind, Except.bind, pure, Except.pure, Except.map]

/-- Without a type the name is read as a key, which may be taken for a name or not. -/
theorem readBraced_literal :
    Gives (readBraced (readValue levels size none)) (fieldLiteral p)
      (.ok (.entry (keyOf p.1) w (isFieldKey p.1))) := by
  intro rest hr
  have hlen' : (quoteName p.1.toList).length + 2 + (literal p.1 none p.2).length ≤ levels := by
    simp only [fieldLiteral, List.length_append, List.length_cons] at hlen
    omega
  have hvalue := h levels size (by omega) rest hr
  have hsplit : fieldLiteral p ++ rest =
      quoteName p.1.toList ++ ':' :: ' ' :: (literal p.1 none p.2 ++ rest) := by
    simp [fieldLiteral]
  rw [hsplit, readBraced, trimStart_quoteName, startsName_quoteName]
  by_cases hplain : isPlainName p.1.toList = true
  · have hkey : readValue levels size none
        (p.1.toList ++ ':' :: ' ' :: (literal p.1 none p.2 ++ rest)) =
          .ok (keyOf p.1, ':' :: ' ' :: (literal p.1 none p.2 ++ rest)) := by
      obtain ⟨n, rfl⟩ : ∃ n, levels = n + 1 := ⟨levels - 1, by omega⟩
      exact readValue_bare (ne_nil_of_plain hplain) (isBare_of_plain hplain)
        (stops_cons (by decide) (by decide)) (ofBareWord_plain hplain) rfl
    rw [isFieldKey, quoteName_of_plain hplain]
    split
    · next heq => exact absurd heq (plain_append_ne hplain _ _)
    · simp only [hkey, trimStart_eq_self (show isBlank ':' = false by decide), readValue_blank,
        hvalue, bind, Except.bind, pure, Except.pure, Except.map]
  · have hkey : keyOf p.1 = .text p.1 := by rw [keyOf, if_neg hplain]
    rw [quoteName_append_of_not_plain hplain, isFieldKey, hkey]
    simp only [readQuoted_name, trimStart_eq_self (show isBlank ':' = false by decide),
      readValue_blank, hvalue, bind, Except.bind, pure, Except.pure, Except.map,
      String.ofList_toList]

end Field

theorem entries_keys (items : List (String × Value)) (make : String × Value → Value) :
    singles (items.map fun p => .entry (keyOf p.1) (make p) (isFieldKey p.1)) = [] ∧
    entries (items.map fun p => .entry (keyOf p.1) (make p) (isFieldKey p.1)) =
      items.map (fun p => (keyOf p.1, make p)) ∧
    allNameLike (items.map fun p => .entry (keyOf p.1) (make p) (isFieldKey p.1)) =
      items.all fun p => isFieldKey p.1 := by
  induction items with
  | nil => exact ⟨rfl, rfl, rfl⟩
  | cons p more ih =>
    obtain ⟨hsingles, hentries, hlike⟩ := ih
    refine ⟨hsingles, ?_, ?_⟩
    · rw [List.map_cons, entries, hentries, List.map_cons]
    · rw [List.map_cons, allNameLike, hlike, List.all_cons]

/-- Braces with keys in them make fields or a map. -/
theorem ofBraced_keys {items : List (String × Value)} (hne : items ≠ []) :
    ofBraced (items.map fun p => .entry (keyOf p.1) (reread p.2) (isFieldKey p.1)) =
      .ok (reread (fields items)) := by
  obtain ⟨hsingles, hentries, hlike⟩ := entries_keys items fun p => reread p.2
  have hsome : (items.map fun p => (keyOf p.1, reread p.2)).isEmpty = false := by
    rw [List.isEmpty_eq_false_iff]
    exact fun hnil => hne (List.map_eq_nil_iff.mp hnil)
  rw [ofBraced, hsingles, hentries, hlike, hsome, reread, rereadFields_eq, ofKeys, List.all_map,
    List.map_map, List.map_map, List.map_map]
  simp only [List.isEmpty_nil, Bool.not_true, Bool.not_false, Bool.false_and, Bool.false_eq_true,
    if_false, Function.comp_def]
  split <;> rfl

section Fields

variable {items : List (String × Value)} (h : ∀ p ∈ items, ReadsAs p.1 p.2 (reread p.2))
include h

theorem readsAs_fields (column : String) (hne : items ≠ []) :
    ReadsAs column (fields items) (reread (fields items)) := by
  intro levels size hlen rest hr
  rw [literal_fields] at hlen ⊢
  obtain ⟨n, rfl, hn, htrim⟩ := level_of_brackets (by decide) hlen rest
  have hread := readSequence_map (.inr (.inl rfl)) (readBraced (readValue n size none))
    (fun _ => rfl) (fun p _ => (startsOpen_quoteName p.1.toList).append _)
    (fun p hp => readBraced_literal (h p hp)
      (Nat.le_trans (length_le_of_mem (List.mem_map_of_mem hp)) hn)) rest
  rw [readValue_braces htrim, readBraces, hread]
  · simp only [bind, Except.bind, ofBraced_keys hne, pure, Except.pure, Except.map]
  all_goals simp

/-- Under a declared type the outermost fields keep their names. -/
theorem hasOutcome_fields (type column : String) :
    HasOutcome column (.userDefined type) (fields items)
      (.ok (fields (items.map fun p => (p.1, reread p.2)))) := by
  intro levels size hlen rest hr
  rw [literal_fields] at hlen ⊢
  obtain ⟨n, rfl, hn, htrim⟩ := level_of_brackets (by decide) hlen rest
  have hread := readSequence_map (.inr (.inl rfl)) (readField size (readValue n size none))
    (fun _ => rfl) (fun p _ => (startsOpen_quoteName p.1.toList).append _)
    (fun p hp => readField_literal (h p hp)
      (Nat.le_trans (length_le_of_mem (List.mem_map_of_mem hp)) hn) size) rest
  rw [readValue_braces htrim, readBraces, hread]
  rfl

end Fields

/-- A value whose type is not known is read by its looks. -/
theorem readsAs_reread {v : Value} (h : IsUntyped v) {column : String}
    (hset : isSetColumn column = false) : ReadsAs column v (reread v) := by
  induction h generalizing column with
  | null =>
    exact readsAs_of_word (by rw [literal]) (by decide) (List.all_eq_true.mp (by decide)) rfl
  | bool b =>
    refine readsAs_of_word (literal_bool column none b) ?_ ?_ ?_
    · cases b <;> decide
    · cases b <;> exact List.all_eq_true.mp (by decide)
    · cases b <;> rfl
  | @int i hi =>
    exact readsAs_of_word (by rw [literal]) (render_ne_nil i) (isBare_render i)
      (ofBareWord_render hi)
  | text s => exact readsAs_text column s
  | bytes b =>
    exact readsAs_of_word (by rw [literal]) (by simp) (List.forall_mem_cons.mpr
      ⟨by decide, List.forall_mem_cons.mpr ⟨by decide, isBare_encode b⟩⟩) (ofBareWord_bytes b)
  | @list items hitems ih =>
    rw [reread, rereadItems_eq]
    exact readsAs_list hset hitems fun v hv => ih v hv hset
  | @tuple items hitems ih =>
    rw [reread, rereadItems_eq]
    exact readsAs_tuple hset hitems fun v hv => ih v hv hset
  | @fields items hne hnames hitems ih =>
    exact readsAs_fields (fun p hp => ih p hp (hnames p hp)) column hne

/-! ## Values of user-defined types -/

/-- A value of a user-defined type is read with its own field names, and with its values as their
looks tell. So it is read back, whatever the column, just when no name of a field further inside is
lost: none that stands bare starts with an underscore or is a word with a meaning of its own. -/
theorem fields_read_back_iff (type column : String) {items : List (String × Value)}
    (hset : ∀ p ∈ items, isSetColumn p.1 = false) (h : ∀ p ∈ items, IsUntyped p.2) :
    let read := parse ((fields items).statementText column (some (.userDefined type))).toList
      (some (.userDefined type))
    read = .ok (fields (items.map fun p => (p.1, reread p.2))) ∧
      (read = .ok (fields items) ↔ ∀ p ∈ items, KeepsNames p.2) := by
  intro read
  have hread : read = .ok (fields (items.map fun p => (p.1, reread p.2))) := by
    dsimp only [read]
    rw [statementText, String.toList_ofList]
    exact parse_of_hasOutcome
      (hasOutcome_fields (fun p hp => readsAs_reread (h p hp) (hset p hp)) type column)
  refine ⟨hread, ?_⟩
  rw [hread, Except.ok.injEq, Value.fields.injEq, map_eq_self_iff]
  constructor
  · intro hself p hp
    exact (reread_eq_self_iff (h p hp)).mp (congrArg Prod.snd (hself p hp))
  · intro hkeeps p hp
    exact Prod.ext rfl ((reread_eq_self_iff (h p hp)).mpr (hkeeps p hp))

/-- Names in quotes and the bare word `inf` are kept further inside, also in a column whose name
tells of sets; outermost names are kept all the same. -/
theorem fields_read_back_nested :
    let inner := Value.fields [("_Code", .int (-1)), ("inf", .list [.tuple [.null, .text "it's"]])]
    let items := [("_id", inner), ("null", Value.bytes [0, 255])]
    (∀ p ∈ items, isSetColumn p.1 = false) ∧ (∀ p ∈ items, IsUntyped p.2) ∧
      parse ((fields items).statementText "tag_set" (some (.userDefined "address"))).toList
        (some (.userDefined "address")) = .ok (fields items) := by
  intro inner items
  have hset : ∀ p ∈ items, isSetColumn p.1 = false := by
    simp only [items, List.forall_mem_cons]
    exact ⟨by decide, by decide, List.forall_mem_nil _⟩
  have htuple : IsUntyped (.tuple [.null, .text "it's"]) :=
    .tuple (List.forall_mem_cons.mpr ⟨.null, List.forall_mem_singleton.mpr (.text _)⟩)
  have hinner : IsUntyped inner := by
    refine .fields (List.cons_ne_nil _ _) ?_ ?_
    · simp only [List.forall_mem_cons]
      exact ⟨by decide, by decide, List.forall_mem_nil _⟩
    · simp only [List.forall_mem_cons]
      exact ⟨.int (by decide), .list (List.forall_mem_singleton.mpr htuple), List.forall_mem_nil _⟩
  have hitems : ∀ p ∈ items, IsUntyped p.2 := by
    simp only [items, List.forall_mem_cons]
    exact ⟨hinner, .bytes _, List.forall_mem_nil _⟩
  have hkeeps : ∀ p ∈ items, KeepsNames p.2 := by
    simp only [items, List.forall_mem_cons]
    refine ⟨.fields ?_ ?_, .scalar rfl, List.forall_mem_nil _⟩
    · simp only [List.forall_mem_cons]
      exact ⟨by decide, by decide, List.forall_mem_nil _⟩
    · simp only [List.forall_mem_cons]
      refine ⟨.scalar rfl, .list (List.forall_mem_singleton.mpr (.tuple ?_)),
        List.forall_mem_nil _⟩
      exact List.forall_mem_cons.mpr ⟨.scalar rfl, List.forall_mem_singleton.mpr (.scalar rfl)⟩
  exact ⟨hset, hitems, (fields_read_back_iff "address" "tag_set" hset hitems).2.mpr hkeeps⟩

/-- A field whose bare name starts with an underscore makes a map of the braces it stands in. -/
theorem underscore_field_read_as_map :
    let v := Value.fields [("city", .fields [("_code", .int 1)])]
    let read := parse (v.statementText "home" (some (.userDefined "address"))).toList
      (some (.userDefined "address"))
    read = .ok (.fields [("city", .map [(.text "_code", .int 1)])]) ∧ read ≠ .ok v := by
  have hlit : statementText "home" (some (.userDefined "address"))
      (.fields [("city", .fields [("_code", .int 1)])]) = "\x7bcity: \x7b_code: 1\x7d\x7d" := by
    decide +kernel
  dsimp only
  rw [hlit]
  exact ⟨rfl, nofun⟩

end BulkTransfer.Literal
