import BulkTransfer.Columnar.Restore
import BulkTransfer.Columnar.Store
import BulkTransfer.Proofs.Literal.RoundTrip
import BulkTransfer.Proofs.Value.Conform

/-!
Canonical values are restored from the cells in which they are stored. Types with a layout of their
own keep their values as they are; all others keep them as literals, which are read back.

- `Columnar.IsRestored`: a value is stored as a cell, from which it is restored.
- `Columnar.isRestored_of_canonical`: canonical values are, unless they are maps with null keys.
-/

namespace BulkTransfer.Columnar

open Value

/-- A value is stored as a cell, from which it is restored. -/
def IsRestored (type : ColumnType) (v : Value) : Prop :=
  ∃ cell, store type v = .ok cell ∧ restore (physicalOf type) (some type) cell = .ok v

theorem restore_null (p : Physical) (type? : Option ColumnType) :
    restore p type? .null = .ok .null := by
  cases p <;> rfl

/-- Null is a cell of every layout. -/
theorem isRestored_null (type : ColumnType) : IsRestored type .null := by
  refine ⟨.null, ?_, restore_null _ _⟩
  unfold store
  exact if_pos rfl

theorem isNull_eq_false {v : Value} (h : v ≠ .null) : v.isNull = false := by
  cases v with
  | null => exact absurd rfl h
  | _ => rfl

/-! ## Literals -/

/-- The text in which a value is kept is read as the value. -/
theorem restoreText_storeText {type : ColumnType} {v : Value} (h : Canonical type v)
    (hnull : v ≠ .null) : restoreText (some type) (v.field "" "" (some type)) = v := by
  have hset : isSetColumn "" = false := by decide
  have hread := Literal.ofField_field hset h hnull ""
  have hconform : conformText (v.field "" "" (some type)) type = .ok v := by
    rw [ofField, conform] at hread
    exact hread
  unfold restoreText
  dsimp only
  rw [hconform]

theorem restore_storeText {type : ColumnType} {v : Value} (h : Canonical type v)
    (hnull : v ≠ .null) : restore .utf8 (some type) (storeText type v) = .ok v :=
  congrArg Except.ok (restoreText_storeText h hnull)

/-! ## Values without parts -/

theorem fit_of_canonical {type : ColumnType} {v : Value} (h : Canonical type v) :
    fit v type = .ok v := by
  unfold fit
  rw [conform_of_canonical h]

theorem isReadable_physicalOf (type : ColumnType) : (physicalOf type).isReadable = true := by
  unfold physicalOf
  split <;> first | rfl | (split <;> rfl)

theorem restoreAll_physicalOf (type : ColumnType) (one : Cell → Except String Value)
    (cells : List Cell) : restoreAll (physicalOf type) one cells = cells.mapM one :=
  if_pos (isReadable_physicalOf type)

theorem isStoredAsText_of_physicalOf {type : ColumnType} (h : physicalOf type = .utf8) :
    isStoredAsText type = true := by
  unfold isStoredAsText
  rw [h]

theorem physicalOf_textual {type : ColumnType} (h : type.isTextual = true) :
    physicalOf type = .utf8 := by
  cases type <;> first | rfl | nomatch h

theorem physicalOf_uuid {type : ColumnType} (h : type.isUuid = true) :
    physicalOf type = .utf8 := by
  cases type <;> first | rfl | nomatch h

theorem storeInt_of_inWidth {bits : Nat} {i : Int} (h : InWidth bits i) :
    storeInt bits i = .ok (.int i) := if_pos h

/-- A number within the width of its type is kept as it is. -/
theorem storeFitted_int {type : ColumnType} {bits : Nat} (h : type.bits? = some bits) {i : Int}
    (hi : InWidth bits i) :
    isStoredAsText type = false ∧ storeFitted type (.int i) = .ok (.int i) ∧
      restore (physicalOf type) (some type) (.int i) = .ok (.int i) := by
  cases type
  case bigint | counter => exact ⟨rfl, rfl, rfl⟩
  case int | smallint | tinyint =>
    obtain rfl := Option.some.inj h
    exact ⟨rfl, storeInt_of_inWidth hi, rfl⟩
  all_goals nomatch h

theorem restore_instant {t : Instant} (h : t.IsWhole) :
    restore (physicalOf .timestamp) (some .timestamp) (.int t.toMillis) = .ok (.instant t) := by
  show Except.ok (restoreInstant .millis t.toMillis) = _
  unfold restoreInstant millisOf
  rw [Instant.ofMillis?_toMillis h]

/-- What a value without parts is stored as is restored. -/
theorem storeScalar_of_canonical {type : ColumnType} (hscalar : type.isComposite = false)
    {v : Value} (h : Canonical type v) :
    ∃ cell, storeScalar type v = .ok cell ∧
      restore (physicalOf type) (some type) cell = .ok v := by
  by_cases hnull : v = .null
  · subst hnull
    refine ⟨.null, ?_, restore_null _ _⟩
    unfold storeScalar
    exact if_pos rfl
  have hfit := fit_of_canonical h
  have htext : physicalOf type = .utf8 → ∃ cell, storeScalar type v = .ok cell ∧
      restore (physicalOf type) (some type) cell = .ok v := by
    intro hlayout
    refine ⟨storeText type v, ?_, ?_⟩
    · unfold storeScalar
      rw [isNull_eq_false hnull, if_neg Bool.false_ne_true,
        if_pos (isStoredAsText_of_physicalOf hlayout)]
    · rw [hlayout]
      exact restore_storeText h hnull
  have hkept : ∀ cell, isStoredAsText type = false → storeFitted type v = .ok cell →
      storeScalar type v = .ok cell := by
    intro cell hlayout hcell
    unfold storeScalar
    rw [isNull_eq_false hnull, if_neg Bool.false_ne_true, hlayout, if_neg Bool.false_ne_true, hfit]
    exact hcell
  cases h with
  | null => exact absurd rfl hnull
  | text h s => exact htext (physicalOf_textual h)
  | uuid h hs => exact htext (physicalOf_uuid h)
  | int h hi =>
    obtain ⟨hlayout, hcell, hrestore⟩ := storeFitted_int h hi
    exact ⟨_, hkept _ hlayout hcell, hrestore⟩
  | bool b => exact ⟨.bool b, hkept _ rfl rfl, rfl⟩
  | bytes b => exact ⟨.bytes b, hkept _ rfl rfl, rfl⟩
  | instant h => exact ⟨_, hkept _ rfl rfl, restore_instant h⟩
  | _ => nomatch hscalar

/-! ## Lists and maps -/

/-- The cells of items are restored one by one. -/
theorem storeItems_of_canonical {e : ColumnType} (hscalar : e.isComposite = false)
    {items : List Value} (h : ∀ v ∈ items, Canonical e v) :
    ∃ cells, storeItems e items = .ok cells ∧
      restoreAll (physicalOf e) (restore (physicalOf e) (some e)) cells = .ok items := by
  simp only [restoreAll_physicalOf]
  induction items with
  | nil => exact ⟨[], rfl, rfl⟩
  | cons v more ih =>
    obtain ⟨cell, hcell, hrestore⟩ := storeScalar_of_canonical hscalar (h v List.mem_cons_self)
    obtain ⟨cells, hcells, hmore⟩ := ih fun w hw => h w (List.mem_cons_of_mem v hw)
    refine ⟨cell :: cells, ?_, ?_⟩
    · rw [storeItems, hcell, hcells]
      rfl
    · rw [List.mapM_cons, hrestore, hmore]
      rfl

/-- The cells of entries are restored one by one, keys and values apart. -/
theorem storeEntries_of_canonical {k e : ColumnType} (hk : k.isComposite = false)
    (he : e.isComposite = false) {entries : List (Value × Value)}
    (hkeys : ∀ p ∈ entries, Canonical k p.1 ∧ p.1 ≠ .null)
    (hvalues : ∀ p ∈ entries, Canonical e p.2) :
    ∃ cells, storeEntries k e entries = .ok cells ∧
      restoreAll (physicalOf k) (restore (physicalOf k) (some k)) (cells.map Prod.fst) =
        .ok (entries.map Prod.fst) ∧
      restoreAll (physicalOf e) (restore (physicalOf e) (some e)) (cells.map Prod.snd) =
        .ok (entries.map Prod.snd) := by
  simp only [restoreAll_physicalOf]
  induction entries with
  | nil => exact ⟨[], rfl, rfl, rfl⟩
  | cons p more ih =>
    obtain ⟨hkey, hnull⟩ := hkeys p List.mem_cons_self
    obtain ⟨first, hfirst, hkeyBack⟩ := storeScalar_of_canonical hk hkey
    obtain ⟨second, hsecond, hvalueBack⟩ :=
      storeScalar_of_canonical he (hvalues p List.mem_cons_self)
    obtain ⟨cells, hcells, hmoreKeys, hmoreValues⟩ :=
      ih (fun q hq => hkeys q (List.mem_cons_of_mem p hq))
        fun q hq => hvalues q (List.mem_cons_of_mem p hq)
    refine ⟨(first, second) :: cells, ?_, ?_, ?_⟩
    · rw [storeEntries, isNull_eq_false hnull, if_neg Bool.false_ne_true, hfirst, hsecond, hcells]
      rfl
    · rw [List.map_cons, List.mapM_cons, hkeyBack, hmoreKeys]
      rfl
    · rw [List.map_cons, List.mapM_cons, hvalueBack, hmoreValues]
      rfl

/-- A map of which a key is null. -/
def HasNullKey : Value → Prop
  | .map entries => ∃ p ∈ entries, p.1 = .null
  | _ => False

theorem isRestored_of_text {type : ColumnType} {v : Value} (h : Canonical type v)
    (hnull : v ≠ .null) (hstore : store type v = .ok (storeText type v))
    (hlayout : physicalOf type = .utf8) : IsRestored type v := by
  refine ⟨_, hstore, ?_⟩
  rw [hlayout]
  exact restore_storeText h hnull

/-- The items of a list or set keep their cells, unless they have parts and the whole is a text. -/
theorem isRestored_of_items {type e : ColumnType} {v : Value} (h : Canonical type v)
    {items : List Value} (hv : v = if isSet (some type) then .set items else .list items)
    (hitems : ∀ w ∈ items, Canonical e w) (helement : type.element? = some e)
    (hstore : store type v = if e.isComposite then .ok (storeText type v) else storeList type e v)
    (hlayout : physicalOf type = if e.isComposite then .utf8 else .list (physicalOf e)) :
    IsRestored type v := by
  cases hparts : e.isComposite with
  | true =>
    rw [hparts, if_pos rfl] at hstore hlayout
    refine isRestored_of_text h ?_ hstore hlayout
    rw [hv]
    split <;> simp
  | false =>
    rw [hparts, if_neg Bool.false_ne_true] at hstore hlayout
    obtain ⟨cells, hcells, hback⟩ := storeItems_of_canonical hparts hitems
    refine ⟨.list cells, ?_, ?_⟩
    · rw [hstore]
      unfold storeList
      rw [fit_of_canonical h, hv]
      cases isSet (some type) with
      | true => exact congrArg (Except.map Cell.list) hcells
      | false => exact congrArg (Except.map Cell.list) hcells
    · rw [hlayout, restore, Option.bind_some, helement, hback, hv]
      rfl

/-- The entries of a map without null keys keep their cells, unless they have parts and the whole is
a text. -/
theorem isRestored_of_entries {k e : ColumnType} {entries : List (Value × Value)}
    (h : Canonical (.map k e) (.map entries)) (hk : ∀ p ∈ entries, Canonical k p.1 ∧ p.1 ≠ .null)
    (he : ∀ p ∈ entries, Canonical e p.2) : IsRestored (.map k e) (.map entries) := by
  cases hparts : (k.isComposite || e.isComposite) with
  | true => exact isRestored_of_text h (by simp) (if_pos hparts) (if_pos hparts)
  | false =>
    have hno : ¬ (k.isComposite || e.isComposite) = true := by
      rw [hparts]
      exact Bool.false_ne_true
    have hlayout : physicalOf (.map k e) = .map (physicalOf k) (physicalOf e) := if_neg hno
    rw [Bool.or_eq_false_iff] at hparts
    obtain ⟨cells, hcells, hkeys, hvalues⟩ := storeEntries_of_canonical hparts.1 hparts.2 hk he
    refine ⟨.map cells, ?_, ?_⟩
    · refine (if_neg hno).trans ?_
      unfold storeMap
      rw [fit_of_canonical h]
      exact congrArg (Except.map Cell.map) hcells
    · rw [hlayout, restore, entryTypes, hkeys, hvalues]
      show Except.ok (Value.map ((entries.map Prod.fst).zip (entries.map Prod.snd))) = _
      rw [List.zip_map', List.map_id']

/-- Canonical values are restored from the cells in which they are stored, unless they are maps with
null keys. -/
theorem isRestored_of_canonical {type : ColumnType} {v : Value} (h : Canonical type v)
    (hkeys : ¬ HasNullKey v) : IsRestored type v := by
  have hcanon := h
  have hscalar : ∀ {type : ColumnType} {v : Value}, type.isComposite = false → Canonical type v →
      store type v = storeScalar type v → IsRestored type v := by
    intro type v htype hv hstore
    obtain ⟨cell, hcell, hback⟩ := storeScalar_of_canonical htype hv
    exact ⟨cell, hstore.trans hcell, hback⟩
  cases h with
  | null => exact isRestored_null type
  | text h s =>
    refine hscalar (Literal.isComposite_of_isTextual h) hcanon ?_
    cases type <;> first | rfl | nomatch h
  | uuid h hs =>
    refine hscalar (Literal.isComposite_of_isUuid h) hcanon ?_
    cases type <;> first | rfl | nomatch h
  | int h hi =>
    refine hscalar (Literal.isComposite_of_bits? h) hcanon ?_
    cases type <;> first | rfl | nomatch h
  | bool b => exact hscalar rfl hcanon rfl
  | bytes b => exact hscalar rfl hcanon rfl
  | instant h => exact hscalar rfl hcanon rfl
  | list hitems => exact isRestored_of_items hcanon rfl hitems rfl rfl rfl
  | set hitems => exact isRestored_of_items hcanon rfl hitems rfl rfl rfl
  | vector n hitems => exact isRestored_of_items hcanon rfl hitems rfl rfl rfl
  | map hk he =>
    exact isRestored_of_entries hcanon
      (fun p hp => ⟨hk p hp, fun hnull => hkeys ⟨p, hp, hnull⟩⟩) he
  | tuple hlen hitems => exact isRestored_of_text hcanon (by simp) rfl rfl

end BulkTransfer.Columnar
