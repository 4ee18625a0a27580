import BulkTransfer.Proofs.Value.Fitted

/-!
The reader of literals undoes the printer. The proof goes by the levels of a value: a literal has an
outcome whatever may follow it (`HasOutcome`), scalars by their words and quoted texts, and values
with parts by the sequence of their items, each of which has an outcome. For canonical values it is
the value.

- `Declared`: values with the parts that their types ask for.
- `hasOutcome_list`, `hasOutcome_set`, `hasOutcome_map`, `hasOutcome_tuple`: values with parts.
- `readsBack_unless_hasList`: every canonical value is read back, unless lists stand in braces.
- `reading_undoes_printing`: so are whole literals of statements and fields of files.
-/

namespace BulkTransfer.Literal

open Value Text

/-! ## Reading back -/

theorem readValue_blank (levels size : Nat) (type? : Option ColumnType) (s : List Char) :
    readValue levels size type? (' ' :: s) = readValue levels size type? s := by
  cases levels with
  | zero => rfl
  | succ n =>
    have htrim : trimStart (' ' :: s) = trimStart s := by
      rw [trimStart, List.dropWhile_cons_of_pos (by decide)]
      rfl
    rw [readValue, readValue, htrim]

/-- The literal of a value of a type has an outcome, whatever may follow it. As many levels as the
literal has characters suffice, since each level takes brackets off. -/
def HasOutcome (column : String) (type : ColumnType) (v : Value)
    (outcome : Except ValueFailure Value) : Prop :=
  ∀ levels size, (literal column (some type) v).length ≤ levels →
    Gives (readValue levels size (some type)) (literal column (some type) v) outcome

/-- The literal of a value of a type is read back, whatever may follow it. -/
def ReadsBack (column : String) (type : ColumnType) (v : Value) : Prop :=
  ∀ levels size rest, (literal column (some type) v).length ≤ levels → Stops rest →
    readValue levels size (some type) (literal column (some type) v ++ rest) = .ok (v, rest)

theorem readsBack_iff {column : String} {type : ColumnType} {v : Value} :
    ReadsBack column type v ↔ HasOutcome column type v (.ok v) :=
  ⟨fun h levels size hlen rest hr => h levels size rest hlen hr,
    fun h levels size rest hlen hr => h levels size hlen rest hr⟩

/-- A value has the parts that its type asks for, at every level, and no named fields. A value
without parts may be of any kind; a number that is kept as text is a word. -/
inductive Declared : ColumnType → Value → Prop
  | null (type : ColumnType) : Declared type null
  | scalar {type : ColumnType} (htype : type.isComposite = false) {v : Value}
      (hv : v.isScalar = true)
      (hword : ∀ s, v = decimal s → s.toList ≠ [] ∧ ∀ c ∈ s.toList, isBare c = true) :
    Declared type v
  | list {e : ColumnType} {items : List Value} (h : ∀ v ∈ items, Declared e v) :
    Declared (.list e) (list items)
  | set {e : ColumnType} {items : List Value} (h : ∀ v ∈ items, Declared e v) :
    Declared (.set e) (set items)
  | vector {e : ColumnType} (n : Nat) {items : List Value} (h : ∀ v ∈ items, Declared e v) :
    Declared (.vector e n) (list items)
  | map {k e : ColumnType} {entries : List (Value × Value)}
      (hk : ∀ p ∈ entries, Declared k p.1) (he : ∀ p ∈ entries, Declared e p.2) :
    Declared (.map k e) (map entries)
  | tuple {types : List ColumnType} {items : List Value} (hlen : items.length = types.length)
      (h : ∀ p ∈ types.zip items, Declared p.1 p.2) : Declared (.tuple types) (tuple items)

theorem declared_of_isScalar {type : ColumnType} (htype : type.isComposite = false) {v : Value}
    (hv : v.isScalar = true) (hword : ∀ s, v ≠ decimal s) : Declared type v :=
  .scalar htype hv fun s heq => absurd heq (hword s)

theorem declared_of_canonical {type : ColumnType} {v : Value} (h : Canonical type v) :
    Declared type v := by
  induction h with
  | null type => exact .null type
  | text h s => exact declared_of_isScalar (isComposite_of_isTextual h) rfl (by simp)
  | uuid h _ => exact declared_of_isScalar (isComposite_of_isUuid h) rfl (by simp)
  | int h hi => exact declared_of_isScalar (isComposite_of_bits? h) rfl (by simp)
  | bool b => exact declared_of_isScalar rfl rfl (by simp)
  | bytes b => exact declared_of_isScalar rfl rfl (by simp)
  | instant _ => exact declared_of_isScalar rfl rfl (by simp)
  | list _ ih => exact .list ih
  | set _ ih => exact .set ih
  | vector n _ ih => exact .vector n ih
  | map _ _ hk he => exact .map hk he
  | tuple hlen _ ih => exact .tuple hlen ih

theorem hyphenated_of_standsBare {column : String} {type? : Option ColumnType} {s : String}
    (h : standsBare column type? s = true) : Uuid.Hyphenated s.toList := by
  simp only [standsBare, Bool.and_eq_true] at h
  exact Uuid.hyphenated_of_isHyphenated h.1

theorem startsOpen_of_declared (column : String) {type : ColumnType} {v : Value}
    (h : Declared type v) : StartsOpen (literal column (some type) v) := by
  have hq : isBlank '\'' = false ∧ ¬ IsClosing '\'' := by decide
  have hl : isBlank '[' = false ∧ ¬ IsClosing '[' := by decide
  have hs : isBlank '{' = false ∧ ¬ IsClosing '{' := by decide
  have ht : isBlank '(' = false ∧ ¬ IsClosing '(' := by decide
  have hnull : StartsOpen (literal column (some type) null) :=
    startsOpen_of_bare (by simp [literal]) (by simp [literal]; decide)
  have hlist : ∀ items, StartsOpen (literal column (some type) (.list items)) := by
    intro items
    rw [literal]
    split
    · exact startsOpen_cons _ hs.1 hs.2
    · exact startsOpen_cons _ hl.1 hl.2
  cases h with
  | null => exact hnull
  | @scalar _ htype v hv hword =>
    cases v with
    | null => exact hnull
    | text s =>
      rw [literal]
      split
      · next hb =>
        have hh := hyphenated_of_standsBare hb
        exact startsOpen_of_bare (List.ne_nil_of_mem hh.mem_hyphen) (isBare_of_hyphenated hh)
      · exact startsOpen_cons _ hq.1 hq.2
    | int i =>
      rw [literal]
      exact startsOpen_of_bare (render_ne_nil i) (isBare_render i)
    | float x =>
      rw [literal]
      exact startsOpen_of_bare (floatLiteral_ne_nil x) (isBare_floatLiteral x)
    | decimal s =>
      rw [literal]
      exact startsOpen_of_bare (hword s rfl).1 (hword s rfl).2
    | bool b => cases b <;> exact startsOpen_of_bare (by simp [literal]) (by simp [literal]; decide)
    | bytes b => exact startsOpen_cons _ (by decide) (by decide)
    | instant _ => exact startsOpen_cons _ hq.1 hq.2
    | list _ | set _ | map _ | fields _ | tuple _ => cases hv
  | list _ => exact hlist _
  | set _ => rw [literal]; exact startsOpen_cons _ hs.1 hs.2
  | vector _ _ => exact hlist _
  | map _ _ => rw [literal]; exact startsOpen_cons _ hs.1 hs.2
  | tuple _ _ => rw [literal]; exact startsOpen_cons _ ht.1 ht.2

theorem startsOpen_literal (column : String) {type : ColumnType} {v : Value}
    (h : Canonical type v) : StartsOpen (literal column (some type) v) :=
  startsOpen_of_declared column (declared_of_canonical h)

/-! ## Sequences -/

theorem literals_eq (column : String) (type? : Option ColumnType) (items : List Value) :
    literals column type? items = commaSeparated (items.map (literal column type?)) := by
  induction items with
  | nil => simp [literals, commaSeparated, joinWith]
  | cons v more ih =>
    cases more with
    | nil => simp [literals, commaSeparated, joinWith]
    | cons w more =>
      rw [literals, ih]
      · simp [commaSeparated, joinWith]
      · simp

/-- The literal of an entry. -/
def entryLiteral (column : String) (key? value? : Option ColumnType) (p : Value × Value) :
    List Char :=
  literal column key? p.1 ++ ':' :: ' ' :: literal column value? p.2

theorem entryLiterals_eq (column : String) (key? value? : Option ColumnType)
    (entries : List (Value × Value)) :
    entryLiterals column key? value? entries =
      commaSeparated (entries.map (entryLiteral column key? value?)) := by
  induction entries with
  | nil => simp [entryLiterals, commaSeparated, joinWith]
  | cons p more ih =>
    obtain ⟨k, v⟩ := p
    cases more with
    | nil => simp [entryLiterals, entryLiteral, commaSeparated, joinWith]
    | cons q more =>
      rw [entryLiterals, ih]
      · simp [entryLiteral, commaSeparated, joinWith]
      · simp

theorem itemLiterals_eq (column : String) {types : List ColumnType} {items : List Value}
    (hlen : items.length = types.length) :
    itemLiterals column types items =
      commaSeparated ((types.zip items).map fun p => literal column (some p.1) p.2) := by
  induction items generalizing types with
  | nil => simp [itemLiterals, commaSeparated, joinWith]
  | cons v more ih =>
    cases types with
    | nil => simp at hlen
    | cons t types =>
      have hlen' : more.length = types.length := by simpa using hlen
      cases more with
      | nil =>
        have hnil : types = [] := List.length_eq_zero_iff.mp (by simpa using hlen'.symm)
        subst hnil
        simp [itemLiterals, commaSeparated, joinWith]
      | cons w more =>
        have htail := ih hlen'
        cases types with
        | nil => simp at hlen'
        | cons t' types =>
          rw [itemLiterals]
          · simp only [List.head?_cons, List.tail_cons, htail]
            simp [commaSeparated, joinWith]
          · simp

section Outcomes

variable {column : String} {levels : Nat} (size : Nat)

/-- Items of one type are read one after the other. -/
theorem readSequence_items {e : ColumnType} {items : List Value} {close : Char}
    (hclose : IsClosing close) {outcome : Value → Except ValueFailure Value}
    (hstart : ∀ v ∈ items, Declared e v) (h : ∀ v ∈ items, HasOutcome column e v (outcome v))
    (hlen : (literals column (some e) items).length ≤ levels) (rest : List Char) :
    readSequence close (fun _ => readValue levels size (some e))
      (literals column (some e) items ++ close :: rest) =
        (items.mapM outcome).map fun items => (items, rest) := by
  rw [literals_eq] at hlen ⊢
  let part (v : Value) := (outcome v, literal column (some e) v)
  have hparts : GivesEach (fun _ => readValue levels size (some e)) 0 (items.map part) := by
    refine givesEach_of_getElem? fun i p hp => ?_
    obtain ⟨v, hv, rfl⟩ := List.mem_map.mp (List.mem_of_getElem? hp)
    exact h v hv levels size (Nat.le_trans (length_le_of_mem (List.mem_map_of_mem hv)) hlen)
  have hread := readSequence_outcomes hclose (fun _ => readValue_blank levels size (some e)) rest
    hparts fun p hp => by
      obtain ⟨v, hv, rfl⟩ := List.mem_map.mp hp
      exact startsOpen_of_declared column (hstart v hv)
  rw [List.map_map, List.mapM_map] at hread
  exact hread

theorem readEntry_blank (levels n : Nat) (key value : Option ColumnType) (s : List Char) :
    readEntry n (readValue levels size key) (readValue levels size value) (' ' :: s) =
      readEntry n (readValue levels size key) (readValue levels size value) s := by
  rw [readEntry, readEntry, readValue_blank]

/-- The outcome of an entry. -/
def entryOutcome (key value : Except ValueFailure Value) :
    Except ValueFailure (Value × Value) := do
  let k ← key
  let v ← value
  pure (k, v)

/-- A written entry is read as its key and its value are. -/
theorem readEntry_literal {k e : ColumnType} {p : Value × Value}
    {key value : Except ValueFailure Value} (hk : HasOutcome column k p.1 key)
    (he : HasOutcome column e p.2 value) (n : Nat)
    (hlen : (entryLiteral column (some k) (some e) p).length ≤ levels) :
    Gives (readEntry n (readValue levels size (some k)) (readValue levels size (some e)))
      (entryLiteral column (some k) (some e) p) (entryOutcome key value) := by
  intro rest hr
  have hlen' : (literal column (some k) p.1).length + 2 + (literal column (some e) p.2).length ≤
      levels := by
    simp only [entryLiteral, List.length_append, List.length_cons] at hlen
    omega
  have hsplit : entryLiteral column (some k) (some e) p ++ rest =
      literal column (some k) p.1 ++ ':' :: ' ' :: (literal column (some e) p.2 ++ rest) := by
    simp [entryLiteral]
  have hkey := hk levels size (by omega)
    (':' :: ' ' :: (literal column (some e) p.2 ++ rest)) (stops_cons (by decide) (by decide))
  have hvalue := he levels size (by omega) rest hr
  have hcolon : trimStart (':' :: ' ' :: (literal column (some e) p.2 ++ rest)) =
      ':' :: ' ' :: (literal column (some e) p.2 ++ rest) := trimStart_eq_self (by decide)
  rw [hsplit, readEntry, hkey]
  cases key with
  | error e => rfl
  | ok k =>
    simp only [Except.map, expect, hcolon, if_true, readValue_blank, hvalue, bind, Except.bind,
      pure, Except.pure]
    cases value <;> rfl

/-- Entries of a map are read one after the other. -/
theorem readSequence_entries {k e : ColumnType} {entries : List (Value × Value)} (n : Nat)
    {key value : Value × Value → Except ValueFailure Value}
    (hstart : ∀ p ∈ entries, Declared k p.1)
    (hk : ∀ p ∈ entries, HasOutcome column k p.1 (key p))
    (he : ∀ p ∈ entries, HasOutcome column e p.2 (value p))
    (hlen : (entryLiterals column (some k) (some e) entries).length ≤ levels) (rest : List Char) :
    readSequence '}'
      (fun _ => readEntry n (readValue levels size (some k)) (readValue levels size (some e)))
      (entryLiterals column (some k) (some e) entries ++ '}' :: rest) =
        (entries.mapM fun p => entryOutcome (key p) (value p)).map fun items => (items, rest) := by
  rw [entryLiterals_eq] at hlen ⊢
  let part (p : Value × Value) :=
    (entryOutcome (key p) (value p), entryLiteral column (some k) (some e) p)
  have hparts : GivesEach
      (fun _ => readEntry n (readValue levels size (some k)) (readValue levels size (some e))) 0
      (entries.map part) := by
    refine givesEach_of_getElem? fun i q hq => ?_
    obtain ⟨p, hp, rfl⟩ := List.mem_map.mp (List.mem_of_getElem? hq)
    exact readEntry_literal size (hk p hp) (he p hp) n
      (Nat.le_trans (length_le_of_mem (List.mem_map_of_mem hp)) hlen)
  have hread := readSequence_outcomes (.inr (.inl rfl))
    (fun _ => readEntry_blank size levels n (some k) (some e)) rest hparts fun q hq => by
      obtain ⟨p, hp, rfl⟩ := List.mem_map.mp hq
      exact (startsOpen_of_declared column (hstart p hp)).append _
  rw [List.map_map, List.mapM_map] at hread
  exact hread

/-- Items of a tuple are read one after the other, by the types at their places. -/
theorem readSequence_tuple {types : List ColumnType} {items : List Value}
    {outcome : ColumnType × Value → Except ValueFailure Value} (hl : items.length = types.length)
    (hstart : ∀ p ∈ types.zip items, Declared p.1 p.2)
    (h : ∀ p ∈ types.zip items, HasOutcome column p.1 p.2 (outcome p))
    (hlen : (itemLiterals column types items).length ≤ levels) (rest : List Char) :
    readSequence ')' (fun i => readValue levels size (itemType? (some (.tuple types)) i))
      (itemLiterals column types items ++ ')' :: rest) =
        ((types.zip items).mapM outcome).map fun items => (items, rest) := by
  rw [itemLiterals_eq column hl] at hlen ⊢
  let part (p : ColumnType × Value) := (outcome p, literal column (some p.1) p.2)
  have hparts : GivesEach (fun i => readValue levels size (itemType? (some (.tuple types)) i)) 0
      ((types.zip items).map part) := by
    refine givesEach_of_getElem? fun i q hq => ?_
    rw [List.getElem?_map] at hq
    obtain ⟨p, hi, rfl⟩ := Option.map_eq_some_iff.mp hq
    have hp := List.mem_of_getElem? hi
    have htype : itemType? (some (.tuple types)) (0 + i) = some p.1 := by
      rw [Nat.zero_add]
      exact (List.getElem?_zip_eq_some.mp hi).1
    rw [htype]
    exact h p hp levels size
      (Nat.le_trans (length_le_of_mem (List.mem_map.mpr ⟨p, hp, rfl⟩)) hlen)
  have hread := readSequence_outcomes (.inr (.inr rfl)) (fun i => readValue_blank levels size _)
    rest hparts fun q hq => by
      obtain ⟨p, hp, rfl⟩ := List.mem_map.mp hq
      exact startsOpen_of_declared column (hstart p hp)
  rw [List.map_map, List.mapM_map] at hread
  exact hread

end Outcomes

/-! ## Values -/

/-- A bare word that is fitted to a type is read back. -/
theorem readsBack_of_word {column : String} {type : ColumnType} {v w : Value} {word : List Char}
    (hlit : literal column (some type) v = word) (hne : word ≠ [])
    (hbare : ∀ c ∈ word, isBare c = true) (hword : ofBareWord word = .ok w)
    (hfit : ∀ read, typed read w (some type) = .ok v) : ReadsBack column type v := by
  intro levels size rest hlen hr
  rw [hlit] at hlen ⊢
  obtain ⟨n, rfl⟩ : ∃ n, levels = n + 1 :=
    ⟨levels - 1, by have := List.length_pos_iff.mpr hne; omega⟩
  exact readValue_bare hne hbare hr hword (hfit _)

/-- A quoted text that is fitted to a type is read back. -/
theorem readsBack_of_quoted {column : String} {type : ColumnType} {v : Value} {s : List Char}
    (hlit : literal column (some type) v = quoted s)
    (hfit : ∀ read, typed read (.text (String.ofList s)) (some type) = .ok v) :
    ReadsBack column type v := by
  intro levels size rest hlen hr
  rw [hlit] at hlen ⊢
  obtain ⟨n, rfl⟩ : ∃ n, levels = n + 1 :=
    ⟨levels - 1, by simp [quoted] at hlen; omega⟩
  exact readValue_quoted hr (hfit _)

theorem readsBack_text {column : String} {type : ColumnType} {s : String}
    (hfit : ∀ read, typed read (.text s) (some type) = .ok (.text s)) :
    ReadsBack column type (.text s) := by
  by_cases hb : standsBare column (some type) s = true
  · have hh := hyphenated_of_standsBare hb
    have hword := ofBareWord_hyphenated hh
    rw [String.ofList_toList] at hword
    exact readsBack_of_word (by rw [literal, if_pos hb]) (List.ne_nil_of_mem hh.mem_hyphen)
      (isBare_of_hyphenated hh) hword hfit
  · refine readsBack_of_quoted (s := s.toList) (by rw [literal, if_neg hb]) ?_
    rw [String.ofList_toList]
    exact hfit

theorem quote_not_mem_render (t : Instant) : '\'' ∉ t.render := by
  intro hmem
  rcases mem_render hmem with hdigit | hother
  · exact absurd hdigit (by decide)
  · exact absurd hother (by decide)

/-- Brackets take one level and leave as many as the inside has characters. -/
theorem level_of_brackets {opening closing : Char} (ho : isBlank opening = false)
    {body : List Char} {levels : Nat} (hlen : (opening :: body ++ [closing]).length ≤ levels)
    (rest : List Char) :
    ∃ n, levels = n + 1 ∧ body.length ≤ n ∧
      trimStart (opening :: body ++ [closing] ++ rest) = opening :: (body ++ closing :: rest) := by
  refine ⟨levels - 1, ?_, ?_, ?_⟩
  · simp at hlen
    omega
  · simp at hlen
    omega
  · rw [List.append_assoc, List.cons_append]
    exact trimStart_eq_self ho

section Brackets

variable {levels size : Nat} {type? : Option ColumnType} {s t : List Char}

theorem readValue_brackets (h : trimStart s = '[' :: t) :
    readValue (levels + 1) size type? s =
      (readSequence ']' (fun _ => readValue levels size (type?.bind ColumnType.element?)) t >>=
        fun p => .ok (ofBracketed type? p.1, p.2)) := by
  rw [readValue, h]
  rfl

theorem readValue_braces (h : trimStart s = '{' :: t) :
    readValue (levels + 1) size type? s = readBraces size (readValue levels size) type? t := by
  rw [readValue, h]
  rfl

theorem readValue_parentheses (h : trimStart s = '(' :: t) :
    readValue (levels + 1) size type? s =
      (readSequence ')' (fun i => readValue levels size (itemType? type? i)) t >>= fun p =>
        .ok (.tuple p.1, p.2)) := by
  rw [readValue, h]
  rfl

end Brackets

/-- What is made of a sequence is made of its outcome. -/
theorem map_bind_eq {α : Type} (outcome : Except ValueFailure α) (make : α → Value)
    (rest : List Char) :
    ((outcome.map fun a => (a, rest)) >>= fun p => .ok (make p.1, p.2)) =
      (outcome.map make).map fun v => (v, rest) := by
  cases outcome <;> rfl

/-- A bracketed list or vector is read item by item. -/
theorem hasOutcome_list {column : String} {type e : ColumnType} {items : List Value}
    {outcome : Value → Except ValueFailure Value}
    (hlit : literal column (some type) (.list items) =
      '[' :: literals column (some e) items ++ [']'])
    (helem : type.element? = some e) (hmake : ofBracketed (some type) = .list)
    (hstart : ∀ v ∈ items, Declared e v) (h : ∀ v ∈ items, HasOutcome column e v (outcome v)) :
    HasOutcome column type (.list items) ((items.mapM outcome).map .list) := by
  intro levels size hlen rest hr
  rw [hlit] at hlen ⊢
  obtain ⟨n, rfl, hn, htrim⟩ := level_of_brackets (by decide) hlen rest
  rw [readValue_brackets htrim, Option.bind_some, helem,
    readSequence_items size (.inl rfl) hstart h hn rest, hmake]
  exact map_bind_eq ..

theorem literal_set (column : String) (e : ColumnType) (items : List Value) :
    literal column (some (.set e)) (.set items) =
      '{' :: literals column (some e) items ++ ['}'] := by
  rw [literal]
  rfl

theorem hasOutcome_set {column : String} {e : ColumnType} {items : List Value}
    {outcome : Value → Except ValueFailure Value} (hstart : ∀ v ∈ items, Declared e v)
    (h : ∀ v ∈ items, HasOutcome column e v (outcome v)) :
    HasOutcome column (.set e) (.set items) ((items.mapM outcome).map .set) := by
  intro levels size hlen rest hr
  rw [literal_set] at hlen ⊢
  obtain ⟨n, rfl, hn, htrim⟩ := level_of_brackets (by decide) hlen rest
  rw [readValue_braces htrim, readBraces,
    readSequence_items size (.inr (.inl rfl)) hstart h hn rest]
  exact map_bind_eq ..

theorem literal_map (column : String) (k e : ColumnType) (entries : List (Value × Value)) :
    literal column (some (.map k e)) (.map entries) =
      '{' :: entryLiterals column (some k) (some e) entries ++ ['}'] := by
  rw [literal]
  rfl

theorem hasOutcome_map {column : String} {k e : ColumnType} {entries : List (Value × Value)}
    {key value : Value × Value → Except ValueFailure Value}
    (hstart : ∀ p ∈ entries, Declared k p.1)
    (hk : ∀ p ∈ entries, HasOutcome column k p.1 (key p))
    (he : ∀ p ∈ entries, HasOutcome column e p.2 (value p)) :
    HasOutcome column (.map k e) (.map entries)
      ((entries.mapM fun p => entryOutcome (key p) (value p)).map .map) := by
  intro levels size hlen rest hr
  rw [literal_map] at hlen ⊢
  obtain ⟨n, rfl, hn, htrim⟩ := level_of_brackets (by decide) hlen rest
  rw [readValue_braces htrim, readBraces, readSequence_entries size size hstart hk he hn rest]
  exact map_bind_eq ..

theorem literal_tuple (column : String) (types : List ColumnType) (items : List Value) :
    literal column (some (.tuple types)) (.tuple items) =
      '(' :: itemLiterals column types items ++ [')'] := by
  rw [literal]
  rfl

theorem hasOutcome_tuple {column : String} {types : List ColumnType} {items : List Value}
    {outcome : ColumnType × Value → Except ValueFailure Value} (hl : items.length = types.length)
    (hstart : ∀ p ∈ types.zip items, Declared p.1 p.2)
    (h : ∀ p ∈ types.zip items, HasOutcome column p.1 p.2 (outcome p)) :
    HasOutcome column (.tuple types) (.tuple items)
      (((types.zip items).mapM outcome).map .tuple) := by
  intro levels size hlen rest hr
  rw [literal_tuple] at hlen ⊢
  obtain ⟨n, rfl, hn, htrim⟩ := level_of_brackets (by decide) hlen rest
  rw [readValue_parentheses htrim, readSequence_tuple size hl hstart h hn rest]
  exact map_bind_eq ..

/-- Where lists stand in brackets, the items of a list or vector do. -/
theorem literal_list {column : String} (hset : isSetColumn column = false) {type e : ColumnType}
    (htype : type = .list e ∨ ∃ n, type = .vector e n) (items : List Value) :
    literal column (some type) (.list items) = '[' :: literals column (some e) items ++ [']'] := by
  rw [literal]
  rcases htype with rfl | ⟨n, rfl⟩ <;> simp [inBraces, hset, ColumnType.element?]

/-- Where lists stand in brackets, a list or vector is read back if its items are. -/
theorem readsBack_list {column : String} (hset : isSetColumn column = false) {type e : ColumnType}
    (htype : type = .list e ∨ ∃ n, type = .vector e n) {items : List Value}
    (hcanon : ∀ v ∈ items, Canonical e v) (h : ∀ v ∈ items, ReadsBack column e v) :
    ReadsBack column type (.list items) := by
  have helem : type.element? = some e := by
    rcases htype with rfl | ⟨n, rfl⟩ <;> rfl
  have hmake : ofBracketed (some type) = .list := by
    rcases htype with rfl | ⟨n, rfl⟩ <;> rfl
  have houtcome := hasOutcome_list (literal_list hset htype items) helem hmake
    (fun v hv => declared_of_canonical (hcanon v hv)) fun v hv => readsBack_iff.mp (h v hv)
  rw [mapM_ok, List.map_id'] at houtcome
  exact readsBack_iff.mpr houtcome

/-- The literal of a canonical value is read back, unless the column is taken for a set and lists
stand in braces there. -/
theorem readsBack_unless_hasList {column : String} {type : ColumnType} {v : Value}
    (h : Canonical type v) (hlists : isSetColumn column = true → ¬ HasList v) :
    ReadsBack column type v := by
  induction h with
  | null type =>
    have hword : ofBareWord "null".toList = .ok .null := rfl
    exact readsBack_of_word (by rw [literal]) (by decide) (List.all_eq_true.mp (by decide)) hword
        fun _ => rfl
  | @text type h s =>
    refine readsBack_text fun read => ?_
    simp only [typed, isComposite_of_isTextual h, Bool.false_eq_true, if_false, fitScalar,
      ofText_textual h]
  | @uuid type h s hs =>
    refine readsBack_text fun read => ?_
    simp only [typed, isComposite_of_isUuid h, Bool.false_eq_true, if_false, fitScalar,
      ofText_uuid h hs]
  | @int type bits h i hi =>
    refine readsBack_of_word (by rw [literal]) (render_ne_nil i) (isBare_render i)
      (ofBareWord_render (inWidth_64 h hi)) fun read => ?_
    simp only [typed, fitScalar, ofInt_integer (isInteger_of_bits? h)]
  | bool b =>
    cases b with
    | true =>
      have hword : ofBareWord "true".toList = .ok (.bool true) := rfl
      exact readsBack_of_word (by rw [literal]) (by decide) (List.all_eq_true.mp (by decide)) hword
        fun _ => rfl
    | false =>
      have hword : ofBareWord "false".toList = .ok (.bool false) := rfl
      exact readsBack_of_word (by rw [literal]) (by decide) (List.all_eq_true.mp (by decide)) hword
        fun _ => rfl
  | bytes b =>
    refine readsBack_of_word (by rw [literal]) (by simp) ?_ (ofBareWord_bytes b) fun _ => rfl
    intro c hc
    simp only [List.mem_cons] at hc
    rcases hc with rfl | rfl | hc
    · decide
    · decide
    · exact isBare_encode b c hc
  | @instant t h =>
    have hfit : fitScalar (.text (String.ofList t.render)) .timestamp = .ok (.instant t) := by
      simp only [fitScalar, ofText]
      exact readInstant_render h
    refine readsBack_of_quoted (s := t.render) ?_ fun read => ?_
    · rw [literal, quoted, doubleQuote_of_not_mem (quote_not_mem_render t)]
    · rw [typed, if_neg (by decide), hfit]
  | @list e items hcanon h =>
    have hset : ¬ isSetColumn column = true := fun hset => hlists hset (.list items)
    exact readsBack_list (Bool.eq_false_iff.mpr hset) (.inl rfl) hcanon fun v hv =>
      h v hv fun htrue => absurd htrue hset
  | @vector e n items hcanon h =>
    have hset : ¬ isSetColumn column = true := fun hset => hlists hset (.list items)
    exact readsBack_list (Bool.eq_false_iff.mpr hset) (.inr ⟨n, rfl⟩) hcanon fun v hv =>
      h v hv fun htrue => absurd htrue hset
  | @set e items hcanon h =>
    have hitems : ∀ v ∈ items, HasOutcome column e v (.ok v) := fun v hv =>
      readsBack_iff.mp (h v hv fun hset hlist => hlists hset (.set hv hlist))
    have houtcome := hasOutcome_set (fun v hv => declared_of_canonical (hcanon v hv)) hitems
    rw [mapM_ok, List.map_id'] at houtcome
    exact readsBack_iff.mpr houtcome
  | @map k e entries hkc hec hk he =>
    have hkeys : ∀ p ∈ entries, HasOutcome column k p.1 (.ok p.1) := fun p hp =>
      readsBack_iff.mp (hk p hp fun hset hlist => hlists hset (.key hp hlist))
    have hvalues : ∀ p ∈ entries, HasOutcome column e p.2 (.ok p.2) := fun p hp =>
      readsBack_iff.mp (he p hp fun hset hlist => hlists hset (.value hp hlist))
    have houtcome := hasOutcome_map (fun p hp => declared_of_canonical (hkc p hp)) hkeys hvalues
    have hall : (entries.mapM fun p => entryOutcome (.ok p.1) (.ok p.2)) = .ok entries := by
      have hentries := mapM_ok (fun p : Value × Value => p) entries
      rw [List.map_id'] at hentries
      exact hentries
    rw [hall] at houtcome
    exact readsBack_iff.mpr houtcome
  | @tuple types items hl hcanon h =>
    have hitems : ∀ p ∈ types.zip items, HasOutcome column p.1 p.2 (.ok p.2) := fun p hp =>
      readsBack_iff.mp (h p hp fun hset hlist =>
        hlists hset (.tuple (List.of_mem_zip hp).2 hlist))
    have houtcome := hasOutcome_tuple hl (fun p hp => declared_of_canonical (hcanon p hp)) hitems
    rw [mapM_ok, List.map_snd_zip (Nat.le_of_eq hl)] at houtcome
    exact readsBack_iff.mpr houtcome

theorem readsBack_of_canonical {column : String} (hset : isSetColumn column = false)
    {type : ColumnType} {v : Value} (h : Canonical type v) : ReadsBack column type v :=
  readsBack_unless_hasList h fun htrue => absurd htrue (Bool.eq_false_iff.mp hset)

/-! ## Statements and files -/

theorem parse_of_hasOutcome {column : String} {type : ColumnType} {v : Value}
    {outcome : Except ValueFailure Value} (h : HasOutcome column type v outcome) :
    parse (literal column (some type) v) (some type) = outcome := by
  have hread := h ((literal column (some type) v).length + 1)
    (Bytes.lengthOf (literal column (some type) v)) (Nat.le_succ _) [] stops_nil
  rw [List.append_nil] at hread
  unfold parse readAll
  rw [hread]
  cases outcome <;> rfl

theorem parse_literal {column : String} (hset : isSetColumn column = false) {type : ColumnType}
    {v : Value} (h : Canonical type v) :
    parse (literal column (some type) v) (some type) = .ok v :=
  parse_of_hasOutcome (readsBack_iff.mp (readsBack_of_canonical hset h))

/-- The field of a value with parts is its literal, which is read by the type. -/
theorem ofField_composite {column : String} (hset : isSetColumn column = false)
    {type : ColumnType} (hc : type.isComposite = true) {v : Value} (h : Canonical type v)
    {raw : String} (hraw : raw = String.ofList (literal column (some type) v)) :
    ofField raw (some type) = .ok v := by
  rw [ofField, conform, conformText, if_pos hc, hraw, String.toList_ofList]
  exact parse_literal hset h

theorem ofField_scalar {type : ColumnType} (hc : type.isComposite = false) (raw : String) :
    ofField raw (some type) = ofText raw type := by
  rw [ofField, conform, conformText, if_neg (by rw [hc]; decide)]

/-- The field of a canonical value that is not null is read back, whatever stands for null. -/
theorem ofField_field {column : String} (hset : isSetColumn column = false) {type : ColumnType}
    {v : Value} (h : Canonical type v) (hnull : v ≠ .null) (token : String) :
    ofField (v.field token column (some type)) (some type) = .ok v := by
  have hcanon := h
  cases h with
  | null => exact absurd rfl hnull
  | text h s => rw [field, ofField_scalar (isComposite_of_isTextual h), ofText_textual h]
  | uuid h hs => rw [field, ofField_scalar (isComposite_of_isUuid h), ofText_uuid h hs]
  | @int type bits h i hi =>
    have hread := readInteger_text (inWidth_64 h hi)
    rw [field, ofField_scalar (isComposite_of_bits? h), literal]
    · cases type <;> simp_all [ColumnType.bits?, ofText]
    all_goals simp
  | bool b =>
    rw [field, ofField_scalar rfl]
    · simpa only [ofText] using readBoolean_literal column (some .boolean) b
    all_goals simp
  | bytes b =>
    rw [field, ofField_scalar rfl, literal]
    · simpa only [ofText] using readBlob_text b
    all_goals simp
  | instant h =>
    rw [field, ofField_scalar rfl]
    simp only [ofText]
    exact readInstant_render h
  | list _ => exact ofField_composite hset rfl hcanon rfl
  | set _ => exact ofField_composite hset rfl hcanon rfl
  | vector _ _ => exact ofField_composite hset rfl hcanon rfl
  | map _ _ => exact ofField_composite hset rfl hcanon rfl
  | tuple _ _ => exact ofField_composite hset rfl hcanon rfl

/-- Reading undoes printing: of a canonical value for a statement, and of one that is not null for
a file, whatever text stands for null there. Only a column that is taken for a set is left out,
since lists are printed in braces there. -/
theorem reading_undoes_printing {column : String} (hset : isSetColumn column = false)
    {type : ColumnType} {v : Value} (h : Canonical type v) :
    parse (v.statementText column (some type)).toList (some type) = .ok v ∧
      (v ≠ .null → ∀ token, ofField (v.field token column (some type)) (some type) = .ok v) := by
  constructor
  · rw [statementText, String.toList_ofList]
    exact parse_literal hset h
  · intro hnull token
    exact ofField_field hset h hnull token

/-- A map from texts with quotes, braces and separators to lists of tuples, with null among them. -/
theorem reading_undoes_printing_nested :
    let type := ColumnType.map .text (.list (.tuple [.uuid, .timestamp, .set .smallint]))
    let v := Value.map [(.text "it's: {a, b}", .list
      [.tuple [.text "00000000-0000-0000-0000-0000000000ab", .instant ⟨946684800, 7000000⟩,
        .set [.int (-32768), .null]], .null])]
    isSetColumn "notes" = false ∧ Canonical type v ∧
      parse (v.statementText "notes" (some type)).toList (some type) = .ok v ∧
      (v ≠ .null →
        ∀ token, ofField (v.field token "notes" (some type)) (some type) = .ok v) := by
  intro type v
  have hid : Uuid.IsCanonical "00000000-0000-0000-0000-0000000000ab" := by
    refine ⟨⟨List.replicate 30 0 ++ [10, 11]⟩, ⟨by decide, by decide⟩, ?_⟩
    decide
  have hset : isSetColumn "notes" = false := by decide
  have hmember : ∀ w ∈ [Value.int (-32768), .null], Canonical .smallint w := by
    simp only [List.mem_cons, List.not_mem_nil, or_false, forall_eq_or_imp, forall_eq]
    exact ⟨.int rfl (by decide), .null _⟩
  have htuple : Canonical (.tuple [.uuid, .timestamp, .set .smallint])
      (.tuple [.text "00000000-0000-0000-0000-0000000000ab", .instant ⟨946684800, 7000000⟩,
        .set [.int (-32768), .null]]) := by
    refine .tuple rfl ?_
    simp only [List.zip_cons_cons, List.zip_nil_left, List.mem_cons, List.not_mem_nil, or_false,
      forall_eq_or_imp, forall_eq]
    exact ⟨.uuid rfl hid, .instant (by decide), .set hmember⟩
  have hitems : ∀ w ∈ [_, Value.null], Canonical (.tuple [.uuid, .timestamp, .set .smallint]) w :=
    List.forall_mem_cons.mpr ⟨htuple, List.forall_mem_cons.mpr ⟨.null _, by simp⟩⟩
  have hv : Canonical type v := by
    refine .map ?_ ?_
    · exact List.forall_mem_cons.mpr ⟨.text rfl _, by simp⟩
    · exact List.forall_mem_cons.mpr ⟨.list hitems, by simp⟩
  exact ⟨hset, hv, reading_undoes_printing hset hv⟩

end BulkTransfer.Literal
