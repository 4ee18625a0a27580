import BulkTransfer.Proofs.Literal.RoundTrip
import BulkTransfer.Proofs.Literal.Shape

/-!
What the name of a column does to a value of a declared type. The name tells whether identifiers
stand bare, which is read all the same, and whether lists stand in braces, which no type undoes: a
list in braces is read as a set, a map or named fields.

- `literal_congr`: a name counts by what it tells of identifiers and of sets.
- `exists_outcome`: a value has one outcome under all names that leave its lists in brackets.
- `MissesOne`: items are read back up to one that is read as another value.
- `misses_of_hasList`: a value with a list is not read back where lists stand in braces.
- `name_changes_value_iff`: which names leave the value, and which change it.
-/

namespace BulkTransfer.Literal

open Value Text

/-! ## Names that tell the same -/

theorem literals_cons (column : String) (type? : Option ColumnType) (v w : Value)
    (more : List Value) : literals column type? (v :: w :: more) =
      literal column type? v ++ ',' :: ' ' :: literals column type? (w :: more) := by
  rw [literals]
  simp

theorem itemLiterals_cons (column : String) (types : List ColumnType) (v w : Value)
    (more : List Value) : itemLiterals column types (v :: w :: more) =
      literal column types.head? v ++
        ',' :: ' ' :: itemLiterals column types.tail (w :: more) := by
  rw [itemLiterals]
  simp

theorem entryLiterals_cons (column : String) (key? value? : Option ColumnType) (k v : Value)
    (p : Value × Value) (more : List (Value × Value)) :
    entryLiterals column key? value? ((k, v) :: p :: more) =
      literal column key? k ++ ':' :: ' ' :: literal column value? v ++
        ',' :: ' ' :: entryLiterals column key? value? (p :: more) := by
  rw [entryLiterals]
  simp

mutual

/-- A value has the same literal under names that tell the same. -/
theorem literal_congr {c₁ c₂ : String} (hset : isSetColumn c₁ = isSetColumn c₂)
    (hid : isIdColumn c₁ = isIdColumn c₂) (type? : Option ColumnType) :
    ∀ v : Value, literal c₁ type? v = literal c₂ type? v
  | .null | .bool true | .bool false | .bytes _ | .instant _ | .int _ | .float _ | .decimal _ => by
    rw [literal, literal]
  | .text s => by
    have hbare : standsBare c₁ type? s = standsBare c₂ type? s := by
      unfold standsBare
      rw [hid]
    rw [literal, literal, hbare]
  | .list items => by
    have hbraces : inBraces c₁ type? = inBraces c₂ type? := by
      unfold inBraces
      rw [hset]
    rw [literal, literal, hbraces, literals_congr hset hid _ items]
  | .set items => by rw [literal, literal, literals_congr hset hid _ items]
  | .map entries => by rw [literal, literal, entryLiterals_congr hset hid _ _ entries]
  | .fields items => by rw [literal, literal]
  | .tuple items => by rw [literal, literal, itemLiterals_congr hset hid _ items]

theorem literals_congr {c₁ c₂ : String} (hset : isSetColumn c₁ = isSetColumn c₂)
    (hid : isIdColumn c₁ = isIdColumn c₂) (type? : Option ColumnType) :
    ∀ items : List Value, literals c₁ type? items = literals c₂ type? items
  | [] => rfl
  | [v] => by rw [literals, literals, literal_congr hset hid type? v]
  | v :: w :: more => by
    rw [literals_cons c₁, literals_cons c₂, literal_congr hset hid type? v,
      literals_congr hset hid type? (w :: more)]

theorem itemLiterals_congr {c₁ c₂ : String} (hset : isSetColumn c₁ = isSetColumn c₂)
    (hid : isIdColumn c₁ = isIdColumn c₂) (types : List ColumnType) :
    ∀ items : List Value, itemLiterals c₁ types items = itemLiterals c₂ types items
  | [] => rfl
  | [v] => by rw [itemLiterals, itemLiterals, literal_congr hset hid _ v]
  | v :: w :: more => by
    rw [itemLiterals_cons c₁, itemLiterals_cons c₂, literal_congr hset hid _ v,
      itemLiterals_congr hset hid types.tail (w :: more)]

theorem entryLiterals_congr {c₁ c₂ : String} (hset : isSetColumn c₁ = isSetColumn c₂)
    (hid : isIdColumn c₁ = isIdColumn c₂) (key? value? : Option ColumnType) :
    ∀ entries : List (Value × Value),
      entryLiterals c₁ key? value? entries = entryLiterals c₂ key? value? entries
  | [] => rfl
  | [(k, v)] => by
    rw [entryLiterals, entryLiterals, literal_congr hset hid key? k,
      literal_congr hset hid value? v]
  | (k, v) :: p :: more => by
    rw [entryLiterals_cons c₁, entryLiterals_cons c₂, literal_congr hset hid key? k,
      literal_congr hset hid value? v, entryLiterals_congr hset hid key? value? (p :: more)]

end

/-! ## Names that leave the value -/

/-- A word under a type without parts is read for itself and fitted to the type. -/
theorem hasOutcome_of_word {column : String} {type : ColumnType} {v : Value} {word : List Char}
    (htype : type.isComposite = false) (hlit : literal column (some type) v = word)
    (hne : word ≠ []) (hbare : ∀ c ∈ word, isBare c = true) :
    HasOutcome column type v ((ofBareWord word).bind fun w => w.fitScalar type) := by
  intro levels size hlen rest hr
  rw [hlit] at hlen ⊢
  have hpos := List.length_pos_iff.mpr hne
  obtain ⟨n, rfl⟩ : ∃ n, levels = n + 1 := ⟨levels - 1, by omega⟩
  rw [readValue_word_eq n size (some type) hne hbare hr]
  cases ofBareWord word with
  | error e => rfl
  | ok w => exact congrArg (Except.map _) (typed_scalar htype _ w)

theorem hasOutcome_of_quoted {column : String} {type : ColumnType} {v : Value} {s : List Char}
    (htype : type.isComposite = false) (hlit : literal column (some type) v = quoted s) :
    HasOutcome column type v ((text (String.ofList s)).fitScalar type) := by
  intro levels size hlen rest hr
  rw [hlit] at hlen ⊢
  obtain ⟨n, rfl⟩ : ∃ n, levels = n + 1 := ⟨levels - 1, by simp [quoted] at hlen; omega⟩
  rw [readValue_quoted_eq n size (some type) s hr, typed_scalar htype]

/-- A text is read as itself and fitted to the type, whether it stands bare or in quotes. -/
theorem hasOutcome_text (column : String) {type : ColumnType} (htype : type.isComposite = false)
    (s : String) : HasOutcome column type (text s) ((text s).fitScalar type) := by
  by_cases hb : standsBare column (some type) s = true
  · have hh := hyphenated_of_standsBare hb
    have houtcome := hasOutcome_of_word htype (v := text s) (by rw [literal, if_pos hb])
      (List.ne_nil_of_mem hh.mem_hyphen) (isBare_of_hyphenated hh)
    rw [ofBareWord_hyphenated hh, String.ofList_toList] at houtcome
    exact houtcome
  · have houtcome := hasOutcome_of_quoted htype (v := text s) (s := s.toList)
      (by rw [literal, if_neg hb])
    rw [String.ofList_toList] at houtcome
    exact houtcome

/-- A value without parts is read the same under all names. -/
theorem exists_outcome_scalar {type : ColumnType} (htype : type.isComposite = false) {v : Value}
    (hv : v.isScalar = true)
    (hword : ∀ s, v = decimal s → s.toList ≠ [] ∧ ∀ c ∈ s.toList, isBare c = true) :
    ∃ outcome, ∀ column, HasOutcome column type v outcome := by
  cases v with
  | text s => exact ⟨_, fun column => hasOutcome_text column htype s⟩
  | instant t =>
    refine ⟨_, fun column => hasOutcome_of_quoted (s := t.render) htype ?_⟩
    rw [literal, quoted, doubleQuote_of_not_mem (quote_not_mem_render t)]
  | null =>
    exact ⟨_, fun column => hasOutcome_of_word htype (by rw [literal]) (by decide)
      (List.all_eq_true.mp (by decide))⟩
  | bool b =>
    refine ⟨_, fun column => hasOutcome_of_word htype (literal_bool column _ b) ?_ ?_⟩
    · cases b <;> decide
    · cases b <;> exact List.all_eq_true.mp (by decide)
  | bytes b =>
    refine ⟨_, fun column => hasOutcome_of_word htype (by rw [literal]) (by simp) ?_⟩
    exact List.forall_mem_cons.mpr
      ⟨by decide, List.forall_mem_cons.mpr ⟨by decide, isBare_encode b⟩⟩
  | int i =>
    exact ⟨_, fun column =>
      hasOutcome_of_word htype (by rw [literal]) (render_ne_nil i) (isBare_render i)⟩
  | float x =>
    exact ⟨_, fun column =>
      hasOutcome_of_word htype (by rw [literal]) (floatLiteral_ne_nil x) (isBare_floatLiteral x)⟩
  | decimal s =>
    exact ⟨_, fun column =>
      hasOutcome_of_word htype (by rw [literal]) (hword s rfl).1 (hword s rfl).2⟩
  | list _ | set _ | map _ | fields _ | tuple _ => cases hv

/-- Outcomes of the members of a list, put together. -/
theorem exists_outcomes {β : Type} {l : List β} {P : β → Except ValueFailure Value → Prop}
    (h : ∀ b ∈ l, ∃ outcome, P b outcome) :
    ∃ outcome : β → Except ValueFailure Value, ∀ b ∈ l, P b (outcome b) := by
  classical
  refine ⟨fun b => if hb : b ∈ l then (h b hb).choose else .ok null, fun b hb => ?_⟩
  simp only [dif_pos hb]
  exact (h b hb).choose_spec

/-- A value of a declared type has one outcome under all names that leave its lists in brackets. -/
theorem exists_outcome {type : ColumnType} {v : Value} (h : Declared type v) :
    ∃ outcome, ∀ column, (isSetColumn column = true → ¬ HasList v) →
      HasOutcome column type v outcome := by
  induction h with
  | null type =>
    exact ⟨_, fun column hlists => readsBack_iff.mp (readsBack_unless_hasList (.null type) hlists)⟩
  | scalar htype hv hword =>
    obtain ⟨outcome, houtcome⟩ := exists_outcome_scalar htype hv hword
    exact ⟨outcome, fun column _ => houtcome column⟩
  | @list e items hstart h =>
    obtain ⟨outcome, houtcome⟩ := exists_outcomes h
    refine ⟨(items.mapM outcome).map .list, fun column hlists => ?_⟩
    have hset : isSetColumn column = false := Bool.eq_false_iff.mpr fun h => hlists h (.list items)
    exact hasOutcome_list (literal_list hset (.inl rfl) items) rfl rfl hstart fun v hv =>
      houtcome v hv column fun htrue => absurd htrue (Bool.eq_false_iff.mp hset)
  | @vector e n items hstart h =>
    obtain ⟨outcome, houtcome⟩ := exists_outcomes h
    refine ⟨(items.mapM outcome).map .list, fun column hlists => ?_⟩
    have hset : isSetColumn column = false := Bool.eq_false_iff.mpr fun h => hlists h (.list items)
    exact hasOutcome_list (literal_list hset (.inr ⟨n, rfl⟩) items) rfl rfl hstart fun v hv =>
      houtcome v hv column fun htrue => absurd htrue (Bool.eq_false_iff.mp hset)
  | @set e items hstart h =>
    obtain ⟨outcome, houtcome⟩ := exists_outcomes h
    exact ⟨_, fun column hlists => hasOutcome_set hstart fun v hv =>
      houtcome v hv column fun hset hlist => hlists hset (.set hv hlist)⟩
  | @map k e entries hk he hkey hvalue =>
    obtain ⟨key, hkey⟩ := exists_outcomes hkey
    obtain ⟨value, hvalue⟩ := exists_outcomes hvalue
    refine ⟨(entries.mapM fun p => entryOutcome (key p) (value p)).map .map, fun column hlists =>
      hasOutcome_map hk (fun p hp => ?_) fun p hp => ?_⟩
    · exact hkey p hp column fun hset hlist => hlists hset (.key hp hlist)
    · exact hvalue p hp column fun hset hlist => hlists hset (.value hp hlist)
  | @tuple types items hl hstart h =>
    obtain ⟨outcome, houtcome⟩ := exists_outcomes h
    refine ⟨((types.zip items).mapM outcome).map .tuple, fun column hlists =>
      hasOutcome_tuple hl hstart fun p hp => ?_⟩
    exact houtcome p hp column fun hset hlist =>
      hlists hset (.tuple (List.of_mem_zip hp).2 hlist)

/-! ## Sequences of which an item is read as another -/

section Sequences

variable {α : Type}

/-- A written item is not read as itself, whatever may follow it. -/
def Misses (item : Step α) (p : α × List Char) : Prop :=
  ∀ rest, Stops rest → ∀ a r, item (p.2 ++ rest) = .ok (a, r) → a ≠ p.1

/-- Written items are read back up to one that is not. -/
def MissesOne (item : Nat → Step α) : Nat → List (α × List Char) → Prop
  | _, [] => False
  | index, p :: more =>
    Misses (item index) p ∨ Gives (item index) p.2 (.ok p.1) ∧ MissesOne item (index + 1) more

/-- The first item that is missed comes behind items that are read back. -/
theorem missesOne_of_getElem? {item : Nat → Step α} {parts : List (α × List Char)} {index : Nat}
    (h : ∀ (i : Nat) p, parts[i]? = some p →
      Gives (item (index + i)) p.2 (.ok p.1) ∨ Misses (item (index + i)) p)
    {j : Nat} {q : α × List Char} (hq : parts[j]? = some q)
    (hmiss : Misses (item (index + j)) q) : MissesOne item index parts := by
  induction parts generalizing index j with
  | nil => cases hq
  | cons p more ih =>
    rcases h 0 p rfl with hread | hfirst
    · refine Classical.or_iff_not_imp_left.mpr fun hnot => ⟨hread, ?_⟩
      cases j with
      | zero =>
        obtain rfl := Option.some.inj hq
        exact absurd hmiss hnot
      | succ j =>
        rw [List.getElem?_cons_succ] at hq
        refine ih (fun i p hp => ?_) hq ?_
        · rw [Nat.add_assoc, Nat.add_comm 1 i]
          exact h (i + 1) p hp
        · rw [Nat.add_assoc, Nat.add_comm 1 j]
          exact hmiss
    · exact .inl hfirst

/-- What a sequence is read as begins with what its first item is read as. -/
theorem readItems_succ_eq_ok {close : Char} {item : Nat → Step α} {steps index : Nat}
    {s rest : List Char} {items : List α}
    (h : readItems close item (steps + 1) index s = .ok (items, rest)) :
    ∃ a t more, item index s = .ok (a, t) ∧ items = a :: more ∧
      ((more = [] ∧ trimStart t = close :: rest) ∨ ∃ u, trimStart t = ',' :: u ∧
        readItems close item steps (index + 1) u = .ok (more, rest)) := by
  rw [readItems] at h
  obtain ⟨⟨a, t⟩, ha, h⟩ := bind_eq_ok.mp h
  dsimp only at h
  split at h
  · cases h
  · next c u htrim =>
    split at h
    · next hcomma =>
      obtain ⟨⟨more, r⟩, hmore, h⟩ := bind_eq_ok.mp h
      obtain ⟨rfl, rfl⟩ := Prod.mk.inj (Except.ok.inj h)
      exact ⟨a, t, more, ha, rfl, .inr ⟨u, hcomma ▸ htrim, hmore⟩⟩
    · split at h
      · next hclose =>
        obtain ⟨rfl, rfl⟩ := Prod.mk.inj (Except.ok.inj h)
        exact ⟨a, t, [], ha, rfl, .inl ⟨rfl, hclose ▸ htrim⟩⟩
      · cases h

theorem readItems_ne {close : Char} (hclose : IsClosing close) {item : Nat → Step α}
    (hblank : ∀ i s, item i (' ' :: s) = item i s) {parts : List (α × List Char)}
    {index steps : Nat} {rest r : List Char} {items : List α} (hparts : MissesOne item index parts)
    (h : readItems close item steps index (commaSeparated (parts.map Prod.snd) ++ close :: rest) =
      .ok (items, r)) : items ≠ parts.map Prod.fst := by
  induction parts generalizing index steps items with
  | nil => exact hparts.elim
  | cons p more ih =>
    obtain ⟨steps, rfl⟩ : ∃ n, steps = n + 1 := by
      cases steps with
      | zero => cases h
      | succ n => exact ⟨n, rfl⟩
    obtain ⟨a, t, bs, ha, rfl, hnext⟩ := readItems_succ_eq_ok h
    intro heq
    obtain ⟨rfl, rfl⟩ := List.cons.inj heq
    have hstops : Stops (close :: rest) := hclose.stops rest
    cases more with
    | nil =>
      rcases hparts with hmiss | ⟨-, hnone⟩
      · exact hmiss _ hstops _ _ ha rfl
      · exact hnone
    | cons q more =>
      rw [List.map_cons, List.map_cons, commaSeparated_cons, ← List.map_cons] at ha
      have hcomma := stops_cons (c := ',') (s := ' ' ::
        (commaSeparated ((q :: more).map Prod.snd) ++ close :: rest)) (by decide) (by decide)
      rcases hparts with hmiss | ⟨hread, hmore⟩
      · exact hmiss _ hcomma _ _ ha rfl
      · obtain ⟨-, rfl⟩ := Prod.mk.inj (Except.ok.inj ((hread _ hcomma).symm.trans ha))
        rw [trimStart_eq_self (by decide)] at hnext
        rcases hnext with ⟨-, hend⟩ | ⟨u, hu, hitems⟩
        · exact hclose.ne_comma (List.cons.inj hend).1.symm
        · obtain ⟨-, rfl⟩ := List.cons.inj hu
          rw [readItems_blank hblank] at hitems
          exact ih hmore hitems rfl

/-- A written sequence of which an item is missed, and each other one read back or missed, is not
read back. -/
theorem readSequence_ne {close : Char} (hclose : IsClosing close) {item : Nat → Step α}
    (hblank : ∀ i s, item i (' ' :: s) = item i s) {parts : List (α × List Char)}
    (hstart : ∀ p ∈ parts, StartsOpen p.2)
    (heach : ∀ (i : Nat) p, parts[i]? = some p →
      Gives (item i) p.2 (.ok p.1) ∨ Misses (item i) p)
    (hone : ∃ (i : Nat) (p : α × List Char), parts[i]? = some p ∧ Misses (item i) p)
    {rest r : List Char} {items : List α}
    (h : readSequence close item (commaSeparated (parts.map Prod.snd) ++ close :: rest) =
      .ok (items, r)) : items ≠ parts.map Prod.fst := by
  obtain ⟨j, q, hq, hmiss⟩ := hone
  cases parts with
  | nil => cases hq
  | cons p more =>
    have hparts : MissesOne item 0 (p :: more) := by
      refine missesOne_of_getElem? (fun i p hp => ?_) hq ?_
      · rw [Nat.zero_add]
        exact heach i p hp
      · rw [Nat.zero_add]
        exact hmiss
    rw [List.map_cons, readSequence_eq_readItems hclose rest (hstart p List.mem_cons_self),
      ← List.map_cons] at h
    exact readItems_ne hclose hblank hparts h

end Sequences

/-! ## Values -/

/-- The literal of a value of a type is not read as the value, whatever may follow it. -/
def ReadsOther (column : String) (type : ColumnType) (v : Value) : Prop :=
  ∀ levels size, (literal column (some type) v).length ≤ levels →
    Misses (readValue levels size (some type)) (v, literal column (some type) v)

/-- A list in braces is read as a set, a map or named fields. -/
theorem readsOther_list {column : String} {type : ColumnType} {items : List Value}
    (hbraces : inBraces column (some type) = true)
    (htype : ∀ size read s, readBraces size read (some type) s =
      (readSequence '}' (fun _ => readBraced (read none)) s >>= fun p =>
        ofBraced p.1 >>= fun v => .ok (v, p.2))) :
    ReadsOther column type (.list items) := by
  intro levels size hlen rest hrest w r hread
  rw [literal, if_pos hbraces] at hlen hread
  obtain ⟨n, rfl, -, htrim⟩ := level_of_brackets (by decide) hlen rest
  rw [readValue_braces htrim, htype] at hread
  obtain ⟨braced, -, hread⟩ := bind_eq_ok.mp hread
  obtain ⟨v, hv, hread⟩ := bind_eq_ok.mp hread
  obtain ⟨rfl, -⟩ := Prod.mk.inj (Except.ok.inj hread)
  rcases ofBraced_eq_ok hv with ⟨vs, rfl⟩ | ⟨es, rfl⟩ | ⟨fs, rfl⟩ <;> simp

section Parts

variable {column : String} {levels size : Nat} {rest r : List Char}

theorem reads_of_not_hasList {type : ColumnType} {v : Value} (h : Canonical type v)
    (hnone : ¬ HasList v) (hlen : (literal column (some type) v).length ≤ levels) :
    Gives (readValue levels size (some type)) (literal column (some type) v) (.ok v) :=
  readsBack_iff.mp (readsBack_unless_hasList h fun _ => hnone) levels size hlen

/-- A written value with a list is missed, and one without is read back. -/
theorem reads_or_misses {type : ColumnType} {v : Value} (h : Canonical type v)
    (hother : HasList v → ReadsOther column type v)
    (hlen : (literal column (some type) v).length ≤ levels) :
    Gives (readValue levels size (some type)) (literal column (some type) v) (.ok v) ∨
      Misses (readValue levels size (some type)) (v, literal column (some type) v) := by
  by_cases hlist : HasList v
  · exact .inr (hother hlist levels size hlen)
  · exact .inl (reads_of_not_hasList h hlist hlen)

/-- Items of one type, of which one has a list, are not read back. -/
theorem readSequence_items_ne {e : ColumnType} {items as : List Value} {v : Value}
    (hcanon : ∀ v ∈ items, Canonical e v)
    (hother : ∀ v ∈ items, HasList v → ReadsOther column e v) (hv : v ∈ items) (hlist : HasList v)
    (hlen : (literals column (some e) items).length ≤ levels)
    (h : readSequence '}' (fun _ => readValue levels size (some e))
      (literals column (some e) items ++ '}' :: rest) = .ok (as, r)) : as ≠ items := by
  rw [literals_eq] at hlen h
  have hlength : ∀ v ∈ items, (literal column (some e) v).length ≤ levels := fun v hv =>
    Nat.le_trans (length_le_of_mem (List.mem_map_of_mem hv)) hlen
  let part (v : Value) : Value × List Char := (v, literal column (some e) v)
  have htexts : items.map (literal column (some e)) = (items.map part).map Prod.snd := by
    rw [List.map_map]
    rfl
  have hvalues : (items.map part).map Prod.fst = items := by
    rw [List.map_map]
    exact List.map_id items
  rw [htexts] at h
  rw [← hvalues]
  have hblank (_ : Nat) := readValue_blank levels size (some e)
  refine readSequence_ne (.inr (.inl rfl)) hblank ?_ ?_ ?_ h
  · intro p hp
    obtain ⟨w, hw, rfl⟩ := List.mem_map.mp hp
    exact startsOpen_literal column (hcanon w hw)
  · intro i p hp
    obtain ⟨w, hw, rfl⟩ := List.mem_map.mp (List.mem_of_getElem? hp)
    exact reads_or_misses (hcanon w hw) (hother w hw) (hlength w hw)
  · obtain ⟨i, hi⟩ := List.getElem?_of_mem (List.mem_map_of_mem hv : part v ∈ items.map part)
    exact ⟨i, _, hi, hother v hv hlist levels size (hlength v hv)⟩

theorem misses_entry_of_key {n : Nat} {key value : Step Value} {p : Value × Value}
    {keyText : List Char} (hkey : Misses key (p.1, keyText)) (valueText : List Char) :
    Misses (readEntry n key value) (p, keyText ++ ':' :: ' ' :: valueText) := by
  rintro rest - q r h rfl
  dsimp only at h
  rw [List.append_assoc, readEntry] at h
  obtain ⟨⟨k, t⟩, hk, h⟩ := bind_eq_ok.mp h
  obtain ⟨u, -, h⟩ := bind_eq_ok.mp h
  obtain ⟨⟨v, t'⟩, -, h⟩ := bind_eq_ok.mp h
  obtain ⟨rfl, -⟩ := Prod.mk.inj (Except.ok.inj h)
  exact hkey _ (stops_cons (by decide) (by decide)) k t hk rfl

theorem misses_entry_of_value {n : Nat} {key value : Step Value} {p : Value × Value}
    {keyText valueText : List Char} (hkey : Gives key keyText (.ok p.1))
    (hblank : ∀ s, value (' ' :: s) = value s) (hvalue : Misses value (p.2, valueText)) :
    Misses (readEntry n key value) (p, keyText ++ ':' :: ' ' :: valueText) := by
  rintro rest hrest q r h rfl
  dsimp only at h
  rw [List.append_assoc, List.cons_append, List.cons_append, readEntry,
    hkey _ (stops_cons (by decide) (by decide))] at h
  obtain ⟨⟨k, t⟩, hk, h⟩ := bind_eq_ok.mp h
  obtain ⟨-, rfl⟩ := Prod.mk.inj (Except.ok.inj hk)
  obtain ⟨u, hu, h⟩ := bind_eq_ok.mp h
  rw [expect, trimStart_eq_self (by decide)] at hu
  obtain rfl := Except.ok.inj hu
  obtain ⟨⟨v, t'⟩, hv, h⟩ := bind_eq_ok.mp h
  obtain ⟨rfl, -⟩ := Prod.mk.inj (Except.ok.inj h)
  rw [hblank] at hv
  exact hvalue rest hrest v t' hv rfl

/-- Entries of a map, of which one has a list, are not read back. -/
theorem readSequence_entries_ne {k e : ColumnType} {entries as : List (Value × Value)} {n : Nat}
    (hk : ∀ p ∈ entries, Canonical k p.1) (he : ∀ p ∈ entries, Canonical e p.2)
    (hkey : ∀ p ∈ entries, HasList p.1 → ReadsOther column k p.1)
    (hvalue : ∀ p ∈ entries, HasList p.2 → ReadsOther column e p.2)
    (hlist : ∃ p ∈ entries, HasList p.1 ∨ HasList p.2)
    (hlen : (entryLiterals column (some k) (some e) entries).length ≤ levels)
    (h : readSequence '}'
      (fun _ => readEntry n (readValue levels size (some k)) (readValue levels size (some e)))
      (entryLiterals column (some k) (some e) entries ++ '}' :: rest) = .ok (as, r)) :
    as ≠ entries := by
  rw [entryLiterals_eq] at hlen h
  let part (p : Value × Value) : (Value × Value) × List Char :=
    (p, entryLiteral column (some k) (some e) p)
  have htexts : entries.map (entryLiteral column (some k) (some e)) =
      (entries.map part).map Prod.snd := by
    rw [List.map_map]
    rfl
  have hvalues : (entries.map part).map Prod.fst = entries := by
    rw [List.map_map]
    exact List.map_id entries
  have hlength : ∀ p ∈ entries, (literal column (some k) p.1).length ≤ levels ∧
      (literal column (some e) p.2).length ≤ levels ∧ (part p).2.length ≤ levels := by
    intro p hp
    have hentry := Nat.le_trans (length_le_of_mem (List.mem_map_of_mem hp)) hlen
    have hparts := hentry
    rw [entryLiteral, List.length_append, List.length_cons, List.length_cons] at hparts
    exact ⟨by omega, by omega, hentry⟩
  have hmiss : ∀ p ∈ entries, HasList p.1 ∨ HasList p.2 → Misses
      (readEntry n (readValue levels size (some k)) (readValue levels size (some e)))
      (part p) := by
    intro p hp hlist
    obtain ⟨hfirst, hsecond, -⟩ := hlength p hp
    by_cases hin : HasList p.1
    · exact misses_entry_of_key (hkey p hp hin levels size hfirst) _
    · refine misses_entry_of_value (reads_of_not_hasList (hk p hp) hin hfirst)
        (readValue_blank levels size (some e)) ?_
      exact hvalue p hp (hlist.resolve_left hin) levels size hsecond
  rw [htexts] at h
  rw [← hvalues]
  have hblank (_ : Nat) := readEntry_blank size levels n (some k) (some e)
  refine readSequence_ne (.inr (.inl rfl)) hblank ?_ ?_ ?_ h
  · intro q hq
    obtain ⟨p, hp, rfl⟩ := List.mem_map.mp hq
    exact (startsOpen_literal column (hk p hp)).append _
  · intro i q hq
    obtain ⟨p, hp, rfl⟩ := List.mem_map.mp (List.mem_of_getElem? hq)
    by_cases hin : HasList p.1 ∨ HasList p.2
    · exact .inr (hmiss p hp hin)
    · have hfirst : ReadsBack column k p.1 :=
        readsBack_unless_hasList (hk p hp) fun _ h => hin (.inl h)
      have hsecond : ReadsBack column e p.2 :=
        readsBack_unless_hasList (he p hp) fun _ h => hin (.inr h)
      exact .inl (readEntry_literal size (readsBack_iff.mp hfirst) (readsBack_iff.mp hsecond) n
        (hlength p hp).2.2)
  · obtain ⟨p, hp, hin⟩ := hlist
    obtain ⟨i, hi⟩ := List.getElem?_of_mem (List.mem_map_of_mem hp : part p ∈ entries.map part)
    exact ⟨i, _, hi, hmiss p hp hin⟩

/-- Items of a tuple, of which one has a list, are not read back. -/
theorem readSequence_tuple_ne {types : List ColumnType} {items as : List Value} {v : Value}
    (hl : items.length = types.length) (hcanon : ∀ p ∈ types.zip items, Canonical p.1 p.2)
    (hother : ∀ p ∈ types.zip items, HasList p.2 → ReadsOther column p.1 p.2) (hv : v ∈ items)
    (hlist : HasList v) (hlen : (itemLiterals column types items).length ≤ levels)
    (h : readSequence ')' (fun i => readValue levels size (itemType? (some (.tuple types)) i))
      (itemLiterals column types items ++ ')' :: rest) = .ok (as, r)) : as ≠ items := by
  rw [itemLiterals_eq column hl] at hlen h
  let part (p : ColumnType × Value) : Value × List Char := (p.2, literal column (some p.1) p.2)
  have htexts : (types.zip items).map (fun p => literal column (some p.1) p.2) =
      ((types.zip items).map part).map Prod.snd := by
    rw [List.map_map]
    rfl
  have hvalues : ((types.zip items).map part).map Prod.fst = items := by
    rw [List.map_map]
    exact List.map_snd_zip (Nat.le_of_eq hl)
  have hlength : ∀ p ∈ types.zip items, (literal column (some p.1) p.2).length ≤ levels :=
    fun p hp => Nat.le_trans (length_le_of_mem (List.mem_map.mpr ⟨p, hp, rfl⟩)) hlen
  have htype : ∀ (i : Nat) p, (types.zip items)[i]? = some p →
      itemType? (some (.tuple types)) i = some p.1 := fun i p hp =>
    (List.getElem?_zip_eq_some.mp hp).1
  rw [htexts] at h
  rw [← hvalues]
  refine readSequence_ne (.inr (.inr rfl)) (fun i => readValue_blank levels size _) ?_ ?_ ?_ h
  · intro q hq
    obtain ⟨p, hp, rfl⟩ := List.mem_map.mp hq
    exact startsOpen_literal column (hcanon p hp)
  · intro i q hq
    rw [List.getElem?_map] at hq
    obtain ⟨p, hi, rfl⟩ := Option.map_eq_some_iff.mp hq
    have hp := List.mem_of_getElem? hi
    rw [htype i p hi]
    exact reads_or_misses (hcanon p hp) (hother p hp) (hlength p hp)
  · rw [← List.map_snd_zip (Nat.le_of_eq hl)] at hv
    obtain ⟨p, hp, rfl⟩ := List.mem_map.mp hv
    obtain ⟨i, hi⟩ := List.getElem?_of_mem hp
    refine ⟨i, part p, by rw [List.getElem?_map, hi]; rfl, ?_⟩
    rw [htype i p hi]
    exact hother p hp hlist levels size (hlength p hp)

end Parts

/-- A value with a list is not read back where lists stand in braces. -/
theorem misses_of_hasList {column : String} (hset : isSetColumn column = true) {type : ColumnType}
    {v : Value} (h : Canonical type v) (hlist : HasList v) : ReadsOther column type v := by
  induction h with
  | list _ _ => exact readsOther_list hset fun _ _ _ => rfl
  | vector _ _ _ => exact readsOther_list hset fun _ _ _ => rfl
  | @set e items hcanon hother =>
    obtain ⟨v, hv, hlist⟩ : ∃ v ∈ items, HasList v := by
      cases hlist with
      | set hv hlist => exact ⟨_, hv, hlist⟩
    intro levels size hlen rest _ w r hread
    rw [literal_set] at hlen hread
    obtain ⟨n, rfl, hn, htrim⟩ := level_of_brackets (by decide) hlen rest
    rw [readValue_braces htrim] at hread
    obtain ⟨⟨as, t⟩, has, hread⟩ := bind_eq_ok.mp hread
    obtain ⟨rfl, -⟩ := Prod.mk.inj (Except.ok.inj hread)
    intro heq
    exact readSequence_items_ne hcanon hother hv hlist hn has (Value.set.inj heq)
  | @map k e entries hk he hkey hvalue =>
    have hin : ∃ p ∈ entries, HasList p.1 ∨ HasList p.2 := by
      cases hlist with
      | key hp hlist => exact ⟨_, hp, .inl hlist⟩
      | value hp hlist => exact ⟨_, hp, .inr hlist⟩
    intro levels size hlen rest _ w r hread
    rw [literal_map] at hlen hread
    obtain ⟨n, rfl, hn, htrim⟩ := level_of_brackets (by decide) hlen rest
    rw [readValue_braces htrim] at hread
    obtain ⟨⟨as, t⟩, has, hread⟩ := bind_eq_ok.mp hread
    obtain ⟨rfl, -⟩ := Prod.mk.inj (Except.ok.inj hread)
    intro heq
    exact readSequence_entries_ne hk he hkey hvalue hin hn has (Value.map.inj heq)
  | @tuple types items hl hcanon hother =>
    obtain ⟨v, hv, hlist⟩ : ∃ v ∈ items, HasList v := by
      cases hlist with
      | tuple hv hlist => exact ⟨_, hv, hlist⟩
    intro levels size hlen rest _ w r hread
    rw [literal_tuple] at hlen hread
    obtain ⟨n, rfl, hn, htrim⟩ := level_of_brackets (by decide) hlen rest
    rw [readValue_parentheses htrim] at hread
    obtain ⟨⟨as, t⟩, has, hread⟩ := bind_eq_ok.mp hread
    obtain ⟨rfl, -⟩ := Prod.mk.inj (Except.ok.inj hread)
    intro heq
    exact readSequence_tuple_ne hl hcanon hother hv hlist hn has (Value.tuple.inj heq)
  | _ => cases hlist

/-! ## Names of columns -/

theorem parse_ne_of_readsOther {column : String} {type : ColumnType} {v : Value}
    (h : ReadsOther column type v) :
    parse (literal column (some type) v) (some type) ≠ .ok v := by
  intro hparse
  obtain ⟨r, hread⟩ := readAll_eq_ok hparse
  have hmiss := h ((literal column (some type) v).length + 1)
    (Bytes.lengthOf (literal column (some type) v)) (Nat.le_succ _) [] stops_nil v r
  dsimp only at hmiss
  rw [List.append_nil] at hmiss
  exact hmiss hread rfl

/-- A canonical value is read back just when its name leaves lists in brackets, or it has none. -/
theorem parse_eq_ok_iff {type : ColumnType} {v : Value} (h : Canonical type v) (column : String) :
    parse (literal column (some type) v) (some type) = .ok v ↔
      isSetColumn column = false ∨ ¬ HasList v := by
  constructor
  · intro hparse
    by_cases hset : isSetColumn column = true
    · exact .inr fun hlist => parse_ne_of_readsOther (misses_of_hasList hset h hlist) hparse
    · exact .inl (Bool.eq_false_iff.mpr hset)
  · intro hkept
    refine parse_of_hasOutcome (readsBack_iff.mp (readsBack_unless_hasList h fun hset => ?_))
    exact hkept.resolve_left fun hfalse => absurd hset (Bool.eq_false_iff.mp hfalse)

theorem parse_eq_parse {type : ColumnType} {v : Value} (h : Declared type v) {c₁ c₂ : String}
    (h₁ : isSetColumn c₁ = false ∨ ¬ HasList v) (h₂ : isSetColumn c₂ = false ∨ ¬ HasList v) :
    parse (literal c₁ (some type) v) (some type) =
      parse (literal c₂ (some type) v) (some type) := by
  obtain ⟨outcome, houtcome⟩ := exists_outcome h
  have hleft : ∀ column, isSetColumn column = false ∨ ¬ HasList v →
      parse (literal column (some type) v) (some type) = outcome := by
    intro column hkept
    refine parse_of_hasOutcome (houtcome column fun hset => ?_)
    exact hkept.resolve_left fun hfalse => absurd hset (Bool.eq_false_iff.mp hfalse)
  rw [hleft c₁ h₁, hleft c₂ h₂]

/-- Under a declared type, values are read the same under all names, except that lists are not where
a name tells of sets: no value with a list is read back there, though the type asks for the list.
Names that tell the same of sets and of identifiers give the same literal. -/
theorem name_changes_value_iff (type : ColumnType) (v : Value) (c₁ c₂ : String) :
    let read (column : String) := parse (v.statementText column (some type)).toList (some type)
    (Declared type v → (isSetColumn c₁ = false ∧ isSetColumn c₂ = false) ∨ ¬ HasList v →
      read c₁ = read c₂) ∧
    (Canonical type v → (read c₁ = .ok v ↔ isSetColumn c₁ = false ∨ ¬ HasList v)) ∧
    (Canonical type v → HasList v → isSetColumn c₁ = false →
      (read c₁ = read c₂ ↔ isSetColumn c₂ = false)) ∧
    (isSetColumn c₁ = isSetColumn c₂ → isIdColumn c₁ = isIdColumn c₂ →
      v.statementText c₁ (some type) = v.statementText c₂ (some type)) := by
  intro read
  have hread : ∀ column, read column = parse (literal column (some type) v) (some type) := by
    intro column
    dsimp only [read]
    rw [statementText, String.toList_ofList]
  rw [hread, hread]
  refine ⟨?_, fun h => parse_eq_ok_iff h c₁, ?_, ?_⟩
  · intro h hnames
    exact parse_eq_parse h (hnames.imp_left And.left) (hnames.imp_left And.right)
  · intro h hlist hplain
    rw [(parse_eq_ok_iff h c₁).mpr (.inl hplain), eq_comm, parse_eq_ok_iff h c₂]
    exact or_iff_left fun hnone => hnone hlist
  · intro hset hid
    exact congrArg String.ofList (literal_congr hset hid (some type) v)

/-- A list of whole numbers is read back under one name, and not under one that tells of sets; a
text that is an identifier is read the same under a name that tells of identifiers. -/
theorem name_changes_value_tags :
    let read (type : ColumnType) (v : Value) (column : String) :=
      parse (v.statementText column (some type)).toList (some type)
    let id := Value.text "00000000-0000-0000-0000-0000000000ab"
    read (.list .int) (.list [.int 1]) "tags" ≠ read (.list .int) (.list [.int 1]) "tag_set" ∧
      read (.tuple [.text, .double]) (.tuple [id, .float (.ofInt 1)]) "note" =
        read (.tuple [.text, .double]) (.tuple [id, .float (.ofInt 1)]) "user_id" := by
  intro read id
  have hlist : Canonical (.list .int) (.list [.int 1]) := by
    refine .list fun v hv => ?_
    obtain rfl := List.mem_singleton.mp hv
    exact .int rfl (by decide)
  have htuple : Declared (.tuple [.text, .double]) (.tuple [id, .float (.ofInt 1)]) := by
    refine .tuple rfl ?_
    simp only [List.zip_cons_cons, List.zip_nil_left, List.mem_cons, List.not_mem_nil, or_false,
      forall_eq_or_imp, forall_eq]
    exact ⟨declared_of_isScalar rfl rfl (by simp [id]), declared_of_isScalar rfl rfl (by simp)⟩
  obtain ⟨-, -, hlists, -⟩ := name_changes_value_iff (.list .int) (.list [.int 1]) "tags" "tag_set"
  obtain ⟨hsame, -⟩ := name_changes_value_iff (.tuple [.text, .double])
    (.tuple [id, .float (.ofInt 1)]) "note" "user_id"
  refine ⟨fun heq => ?_, hsame htuple (.inl (by decide))⟩
  exact absurd ((hlists hlist (.list _) (by decide)).mp heq) (by decide)

/-- A list of a declared type is read as a set under a name that tells of sets. -/
theorem declared_list_read_as_set :
    let v := Value.list [.int 1]
    parse (v.statementText "tags" (some (.list .int))).toList (some (.list .int)) = .ok v ∧
    parse (v.statementText "tag_set" (some (.list .int))).toList (some (.list .int)) =
      .ok (.set [.int 1]) := by
  have hbrackets : statementText "tags" (some (.list .int)) (.list [.int 1]) = "[1]" := by
    decide +kernel
  have hbraces : statementText "tag_set" (some (.list .int)) (.list [.int 1]) = "\x7b1\x7d" := by
    decide +kernel
  dsimp only
  rw [hbrackets, hbraces]
  exact ⟨rfl, rfl⟩

end BulkTransfer.Literal
