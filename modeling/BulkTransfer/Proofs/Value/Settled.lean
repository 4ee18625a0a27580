import BulkTransfer.Columnar.Store
import BulkTransfer.Proofs.Literal.Shape
import BulkTransfer.Session.Dataset

/-!
Fitting a value twice. Some kinds of values are turned into others where a type asks for it: a list
into a tuple, fields into a map, a number into a text or an instant. The kind that comes out is one
that the type keeps, at every level, so that a second fitting changes nothing. The exception is a
text under a type with parts, which is read as a literal and put together as its brackets tell.

- `Value.Part`: the parts that fitting a value to a type comes to, each with its own type.
- `Value.MeetsText`: among them is a text where the type has parts.
- `Value.conform_idem`: what a value without such a text was fitted to fits.
- `Value.fitted_value_stays`: so neither a columnar writer nor a session changes it.
-/

namespace BulkTransfer.Value

/-! ## Parts -/

/-- Fitting the first value to the first type fits the second value to the second type. Names of
fields are texts where they become the keys of a map. -/
inductive Part : ColumnType → Value → ColumnType → Value → Prop
  | listItem {type e : ColumnType} (he : type.element? = some e) {items : List Value} {v : Value}
      (hv : v ∈ items) : Part type (list items) e v
  | setItem {type e : ColumnType} (he : type.element? = some e) {items : List Value} {v : Value}
      (hv : v ∈ items) : Part type (set items) e v
  | listPlace {types : List ColumnType} {items : List Value} {e : ColumnType} {v : Value}
      (hv : (e, v) ∈ types.zip items) : Part (.tuple types) (list items) e v
  | tuplePlace {types : List ColumnType} {items : List Value} {e : ColumnType} {v : Value}
      (hv : (e, v) ∈ types.zip items) : Part (.tuple types) (tuple items) e v
  | key {k e : ColumnType} {entries : List (Value × Value)} {p : Value × Value}
      (hp : p ∈ entries) : Part (.map k e) (map entries) k p.1
  | value {k e : ColumnType} {entries : List (Value × Value)} {p : Value × Value}
      (hp : p ∈ entries) : Part (.map k e) (map entries) e p.2
  | name {k e : ColumnType} {items : List (String × Value)} {p : String × Value}
      (hp : p ∈ items) : Part (.map k e) (fields items) k (text p.1)
  | field {k e : ColumnType} {items : List (String × Value)} {p : String × Value}
      (hp : p ∈ items) : Part (.map k e) (fields items) e p.2

/-- Fitting the value to the type comes to a text where the type has parts. -/
inductive MeetsText : ColumnType → Value → Prop
  | text {type : ColumnType} (h : type.isComposite = true) (s : String) : MeetsText type (text s)
  | part {type e : ColumnType} {v u : Value} (hpart : Part type v e u) (h : MeetsText e u) :
    MeetsText type v

theorem Part.isComposite {type e : ColumnType} {v u : Value} (h : Part type v e u) :
    type.isComposite = true := by
  cases h with
  | listItem he | setItem he => cases type <;> first | rfl | cases he
  | _ => rfl

/-- Under a type without parts every text is read for the type itself. -/
theorem not_meetsText_of_scalar {type : ColumnType} (h : type.isComposite = false) (v : Value) :
    ¬ MeetsText type v := by
  intro hmeets
  have htype : type.isComposite = true := by
    cases hmeets with
    | text h s => exact h
    | part hpart _ => exact hpart.isComposite
  rw [h] at htype
  exact Bool.false_ne_true htype

/-- Fitting a list of items succeeds only if each item that comes out was fitted from one. -/
theorem conformAll_eq_ok {type : ColumnType} {items fitted : List Value}
    (h : conformAll items type = .ok fitted) :
    ∀ w ∈ fitted, ∃ v ∈ items, v.conform type = .ok w := by
  induction items generalizing fitted with
  | nil =>
    rw [conformAll] at h
    rw [← Except.ok.inj h]
    exact List.forall_mem_nil _
  | cons v more ih =>
    rw [conformAll] at h
    obtain ⟨w, hw, h⟩ := bind_eq_ok.mp h
    obtain ⟨rest, hrest, h⟩ := bind_eq_ok.mp h
    rw [← Except.ok.inj h]
    refine List.forall_mem_cons.mpr ⟨⟨v, List.mem_cons_self, hw⟩, fun u hu => ?_⟩
    obtain ⟨x, hx, hfit⟩ := ih hrest u hu
    exact ⟨x, List.mem_cons_of_mem v hx, hfit⟩

theorem conformEach_eq_ok {types : List ColumnType} {items fitted : List Value}
    (hlen : items.length = types.length) (h : conformEach items types = .ok fitted) :
    fitted.length = types.length ∧
      ∀ p ∈ types.zip fitted, ∃ v, (p.1, v) ∈ types.zip items ∧ v.conform p.1 = .ok p.2 := by
  induction items generalizing types fitted with
  | nil =>
    obtain rfl : types = [] := List.length_eq_zero_iff.mp hlen.symm
    rw [conformEach] at h
    · rw [← Except.ok.inj h]
      exact ⟨rfl, List.forall_mem_nil _⟩
    · simp
  | cons v more ih =>
    cases types with
    | nil => cases hlen
    | cons type types =>
      rw [conformEach] at h
      obtain ⟨w, hw, h⟩ := bind_eq_ok.mp h
      obtain ⟨rest, hrest, h⟩ := bind_eq_ok.mp h
      rw [← Except.ok.inj h]
      obtain ⟨hlength, heach⟩ := ih (Nat.succ.inj hlen) hrest
      refine ⟨congrArg (· + 1) hlength, ?_⟩
      rw [List.zip_cons_cons, List.zip_cons_cons]
      refine List.forall_mem_cons.mpr ⟨⟨v, List.mem_cons_self, hw⟩, fun p hp => ?_⟩
      obtain ⟨x, hx, hfit⟩ := heach p hp
      exact ⟨x, List.mem_cons_of_mem _ hx, hfit⟩

theorem conformEntries_eq_ok {k e : ColumnType} {entries fitted : List (Value × Value)}
    (h : conformEntries entries k e = .ok fitted) :
    ∀ q ∈ fitted, ∃ p ∈ entries, p.1.conform k = .ok q.1 ∧ p.2.conform e = .ok q.2 := by
  induction entries generalizing fitted with
  | nil =>
    rw [conformEntries] at h
    rw [← Except.ok.inj h]
    exact List.forall_mem_nil _
  | cons p more ih =>
    rw [conformEntries] at h
    obtain ⟨key, hkey, h⟩ := bind_eq_ok.mp h
    obtain ⟨value, hvalue, h⟩ := bind_eq_ok.mp h
    obtain ⟨rest, hrest, h⟩ := bind_eq_ok.mp h
    rw [← Except.ok.inj h]
    refine List.forall_mem_cons.mpr ⟨⟨p, List.mem_cons_self, hkey, hvalue⟩, fun q hq => ?_⟩
    obtain ⟨x, hx, hfit⟩ := ih hrest q hq
    exact ⟨x, List.mem_cons_of_mem p hx, hfit⟩

/-- Fields are fitted as the entries whose keys are the names. -/
theorem conformFields_eq (items : List (String × Value)) (k e : ColumnType) :
    conformFields items k e = conformEntries (items.map fun p => (text p.1, p.2)) k e := by
  induction items with
  | nil => rw [conformFields, List.map_nil, conformEntries]
  | cons p more ih =>
    rw [conformFields, List.map_cons, conformEntries, ih, conform]

/-! ## Fitting twice -/

theorem conform_of_fitScalar {type : ColumnType} {v w : Value} (h : v.fitScalar type = .ok w) :
    w.conform type = .ok w :=
  (Literal.sound_of_fitScalar h).fits (hasShape_of_fitScalar (fitScalar_idem h))

/-- Items that fit the elements of a type make a list or set that fits it. -/
theorem conform_ofBracketed {type e : ColumnType} (he : type.element? = some e)
    {items : List Value} (h : ∀ v ∈ items, v.conform e = .ok v) :
    (Literal.ofBracketed (some type) items).conform type =
      .ok (Literal.ofBracketed (some type) items) := by
  cases type
  case list | set | vector =>
    obtain rfl := Option.some.inj he
    unfold Literal.ofBracketed
    rw [conform, conformAll_of_mem h]
    rfl
  all_goals cases he

/-- A list is fitted item by item, to a list, a set or a tuple. -/
theorem conform_list_eq_ok {type : ColumnType} {items : List Value} {w : Value}
    (h : (list items).conform type = .ok w) :
    (∃ e fitted, type.element? = some e ∧ conformAll items e = .ok fitted ∧
      w = Literal.ofBracketed (some type) fitted) ∨
    ∃ types fitted, type = .tuple types ∧ items.length = types.length ∧
      conformEach items types = .ok fitted ∧ w = tuple fitted := by
  unfold conform at h
  split at h
  · obtain ⟨fitted, hfitted, rfl⟩ := map_eq_ok.mp h
    exact .inl ⟨_, fitted, rfl, hfitted, rfl⟩
  · obtain ⟨fitted, hfitted, rfl⟩ := map_eq_ok.mp h
    exact .inl ⟨_, fitted, rfl, hfitted, rfl⟩
  · obtain ⟨fitted, hfitted, rfl⟩ := map_eq_ok.mp h
    exact .inl ⟨_, fitted, rfl, hfitted, rfl⟩
  · split at h
    · cases h
    · next types hlen =>
      obtain ⟨fitted, hfitted, rfl⟩ := map_eq_ok.mp h
      exact .inr ⟨types, fitted, rfl, Decidable.not_not.mp hlen, hfitted, rfl⟩
  · cases h

theorem conform_set_eq_ok {type : ColumnType} {items : List Value} {w : Value}
    (h : (set items).conform type = .ok w) :
    ∃ e fitted, type.element? = some e ∧ conformAll items e = .ok fitted ∧
      w = Literal.ofBracketed (some type) fitted := by
  unfold conform at h
  split at h
  · obtain ⟨fitted, hfitted, rfl⟩ := map_eq_ok.mp h
    exact ⟨_, fitted, rfl, hfitted, rfl⟩
  · obtain ⟨fitted, hfitted, rfl⟩ := map_eq_ok.mp h
    exact ⟨_, fitted, rfl, hfitted, rfl⟩
  · obtain ⟨fitted, hfitted, rfl⟩ := map_eq_ok.mp h
    exact ⟨_, fitted, rfl, hfitted, rfl⟩
  · cases h

theorem conform_tuple_eq_ok {type : ColumnType} {items : List Value} {w : Value}
    (h : (tuple items).conform type = .ok w) :
    ∃ types fitted, type = .tuple types ∧ items.length = types.length ∧
      conformEach items types = .ok fitted ∧ w = tuple fitted := by
  unfold conform at h
  split at h
  · split at h
    · cases h
    · next types hlen =>
      obtain ⟨fitted, hfitted, rfl⟩ := map_eq_ok.mp h
      exact ⟨types, fitted, rfl, Decidable.not_not.mp hlen, hfitted, rfl⟩
  · cases h

/-- A map is fitted entry by entry, or its keys become the names of fields. -/
theorem conform_map_eq_ok {type : ColumnType} {entries : List (Value × Value)} {w : Value}
    (h : (map entries).conform type = .ok w) :
    (∃ k e fitted, type = .map k e ∧ conformEntries entries k e = .ok fitted ∧ w = map fitted) ∨
    ∃ name items, type = .userDefined name ∧ w = fields items := by
  unfold conform at h
  split at h
  · obtain ⟨fitted, hfitted, rfl⟩ := map_eq_ok.mp h
    exact .inl ⟨_, _, fitted, rfl, hfitted, rfl⟩
  · obtain ⟨items, -, rfl⟩ := map_eq_ok.mp h
    exact .inr ⟨_, items, rfl, rfl⟩
  · cases h

theorem conform_fields_eq_ok {type : ColumnType} {items : List (String × Value)} {w : Value}
    (h : (fields items).conform type = .ok w) :
    (∃ k e fitted, type = .map k e ∧ conformFields items k e = .ok fitted ∧ w = map fitted) ∨
    ∃ name items, type = .userDefined name ∧ w = fields items := by
  unfold conform at h
  split at h
  · obtain ⟨fitted, hfitted, rfl⟩ := map_eq_ok.mp h
    exact .inl ⟨_, _, fitted, rfl, hfitted, rfl⟩
  · obtain rfl := Except.ok.inj h
    exact .inr ⟨_, items, rfl, rfl⟩
  · cases h

theorem conform_fields_userDefined (name : String) (items : List (String × Value)) :
    (fields items).conform (.userDefined name) = .ok (fields items) := by
  rw [conform]

/-- The parts of a value are smaller than it, names of fields apart. -/
theorem Part.sizeOf_lt {type e : ColumnType} {v u : Value} (h : Part type v e u) :
    sizeOf u < sizeOf v ∨ ∃ s, u = text s := by
  cases h with
  | listItem _ hv | setItem _ hv =>
    have hlt := List.sizeOf_lt_of_mem hv
    simp only [list.sizeOf_spec, set.sizeOf_spec]
    omega
  | listPlace hv | tuplePlace hv =>
    have hlt := List.sizeOf_lt_of_mem (List.of_mem_zip hv).2
    simp only [list.sizeOf_spec, tuple.sizeOf_spec]
    omega
  | @key _ _ _ p hp | @value _ _ _ p hp =>
    have hlt := List.sizeOf_lt_of_mem hp
    obtain ⟨k, w⟩ := p
    simp only [map.sizeOf_spec, Prod.mk.sizeOf_spec] at hlt ⊢
    omega
  | name _ => exact .inr ⟨_, rfl⟩
  | @field _ _ _ p hp =>
    have hlt := List.sizeOf_lt_of_mem hp
    obtain ⟨n, w⟩ := p
    simp only [fields.sizeOf_spec, Prod.mk.sizeOf_spec] at hlt ⊢
    omega

/-- A text that is not read as a literal was fitted to a value that fits. -/
theorem conform_text_idem {type : ColumnType} {s : String} {w : Value}
    (hplain : ¬ MeetsText type (text s)) (h : (text s).conform type = .ok w) :
    w.conform type = .ok w := by
  have hscalar : ¬ type.isComposite = true := fun htype => hplain (.text htype s)
  rw [conform, conformText, if_neg hscalar] at h
  exact conform_of_fitScalar (v := text s) h

/-- What a value without a text under a type with parts was fitted to fits. -/
theorem conform_idem {type : ColumnType} {v w : Value} (hplain : ¬ MeetsText type v)
    (h : v.conform type = .ok w) : w.conform type = .ok w := by
  -- The parts of the value come first; each of them was fitted to one that fits its own type.
  have hparts : ∀ {e : ColumnType} {u x : Value}, Part type v e u → u.conform e = .ok x →
      x.conform e = .ok x := by
    intro e u x hpart hx
    have hpure : ¬ MeetsText e u := fun hmeets => hplain (.part hpart hmeets)
    rcases hpart.sizeOf_lt with hlt | ⟨s, rfl⟩
    · exact conform_idem hpure hx
    · exact conform_text_idem hpure hx
  cases v with
  | null | int _ | float _ | decimal _ | bool _ | bytes _ | instant _ =>
    rw [conform] at h
    · exact conform_of_fitScalar h
    all_goals simp
  | text s => exact conform_text_idem hplain h
  | list items =>
    rcases conform_list_eq_ok h with
      ⟨e, fitted, he, hfitted, rfl⟩ | ⟨types, fitted, rfl, hlen, hfitted, rfl⟩
    · refine conform_ofBracketed he fun x hx => ?_
      obtain ⟨u, hu, hfit⟩ := conformAll_eq_ok hfitted x hx
      exact hparts (.listItem he hu) hfit
    · obtain ⟨hlength, heach⟩ := conformEach_eq_ok hlen hfitted
      rw [conform, if_neg (not_not_intro hlength), conformEach_of_mem hlength fun p hp => ?_]
      · rfl
      · obtain ⟨u, hu, hfit⟩ := heach p hp
        exact hparts (.listPlace hu) hfit
  | set items =>
    obtain ⟨e, fitted, he, hfitted, rfl⟩ := conform_set_eq_ok h
    refine conform_ofBracketed he fun x hx => ?_
    obtain ⟨u, hu, hfit⟩ := conformAll_eq_ok hfitted x hx
    exact hparts (.setItem he hu) hfit
  | tuple items =>
    obtain ⟨types, fitted, rfl, hlen, hfitted, rfl⟩ := conform_tuple_eq_ok h
    obtain ⟨hlength, heach⟩ := conformEach_eq_ok hlen hfitted
    rw [conform, if_neg (not_not_intro hlength), conformEach_of_mem hlength fun p hp => ?_]
    · rfl
    · obtain ⟨u, hu, hfit⟩ := heach p hp
      exact hparts (.tuplePlace hu) hfit
  | map entries =>
    rcases conform_map_eq_ok h with ⟨k, e, fitted, rfl, hfitted, rfl⟩ | ⟨name, items, rfl, rfl⟩
    · have hback := conformEntries_eq_ok hfitted
      rw [conform, conformEntries_of_mem (fun q hq => ?_) fun q hq => ?_]
      · rfl
      · obtain ⟨p, hp, hfit, -⟩ := hback q hq
        exact hparts (.key hp) hfit
      · obtain ⟨p, hp, -, hfit⟩ := hback q hq
        exact hparts (.value hp) hfit
    · exact conform_fields_userDefined name items
  | fields items =>
    rcases conform_fields_eq_ok h with ⟨k, e, fitted, rfl, hfitted, rfl⟩ | ⟨name, items, rfl, rfl⟩
    · rw [conformFields_eq] at hfitted
      have hback := conformEntries_eq_ok hfitted
      rw [conform, conformEntries_of_mem (fun q hq => ?_) fun q hq => ?_]
      · rfl
      · obtain ⟨p, hp, hfit, -⟩ := hback q hq
        obtain ⟨item, hitem, rfl⟩ := List.mem_map.mp hp
        exact hparts (.name hitem) hfit
      · obtain ⟨p, hp, -, hfit⟩ := hback q hq
        obtain ⟨item, hitem, rfl⟩ := List.mem_map.mp hp
        exact hparts (.field hitem) hfit
    · exact conform_fields_userDefined name items
termination_by sizeOf v

/-! ## Values that were fitted -/

/-- The parts of a value that fits its type fit theirs. -/
theorem Part.conform_of_fixed {type e : ColumnType} {w u : Value} (h : Part type w e u)
    (hw : w.conform type = .ok w) : u.conform e = .ok u := by
  -- Kinds that the type turns into others do not fit as they are.
  cases h with
  | @listItem _ _ he items _ hu =>
    rcases conform_list_eq_ok hw with ⟨e', fitted, he', hfitted, heq⟩ | ⟨_, _, _, _, _, heq⟩
    · obtain rfl := Option.some.inj (he.symm.trans he')
      unfold Literal.ofBracketed at heq
      split at heq
      · cases heq
      · obtain rfl := list.inj heq
        exact conform_of_conformAll hfitted u hu
    · cases heq
  | @setItem _ _ he items _ hu =>
    obtain ⟨e', fitted, he', hfitted, heq⟩ := conform_set_eq_ok hw
    obtain rfl := Option.some.inj (he.symm.trans he')
    unfold Literal.ofBracketed at heq
    split at heq
    · obtain rfl := set.inj heq
      exact conform_of_conformAll hfitted u hu
    · cases heq
  | listPlace _ =>
    rcases conform_list_eq_ok hw with ⟨_, _, he, _, _⟩ | ⟨_, _, _, _, _, heq⟩
    · cases he
    · cases heq
  | tuplePlace hu =>
    obtain ⟨types, fitted, htype, hlen, hfitted, heq⟩ := conform_tuple_eq_ok hw
    obtain rfl := ColumnType.tuple.inj htype
    obtain rfl := tuple.inj heq
    exact conform_of_conformEach hfitted _ hu
  | key hp =>
    rcases conform_map_eq_ok hw with ⟨_, _, fitted, htype, hfitted, heq⟩ | ⟨_, _, htype, _⟩
    · obtain ⟨rfl, rfl⟩ := ColumnType.map.inj htype
      obtain rfl := map.inj heq
      exact (conform_of_conformEntries hfitted _ hp).1
    · cases htype
  | value hp =>
    rcases conform_map_eq_ok hw with ⟨_, _, fitted, htype, hfitted, heq⟩ | ⟨_, _, htype, _⟩
    · obtain ⟨rfl, rfl⟩ := ColumnType.map.inj htype
      obtain rfl := map.inj heq
      exact (conform_of_conformEntries hfitted _ hp).2
    · cases htype
  | name _ | field _ =>
    rcases conform_fields_eq_ok hw with ⟨_, _, _, _, _, heq⟩ | ⟨_, _, htype, _⟩
    · cases heq
    · cases htype

theorem fit_of_conform {type : ColumnType} {w : Value} (h : w.conform type = .ok w) :
    Columnar.fit w type = .ok w := by
  unfold Columnar.fit
  rw [h]

/-- A word that stands for a value which fits is kept as the value. -/
theorem typed_of_conform {type : ColumnType} {w : Value} (h : w.conform type = .ok w)
    (hw : w.isScalar = true) (read : Nat → Option ColumnType → Literal.Step Value) :
    Literal.typed read w (some type) = .ok w := by
  unfold Literal.typed
  dsimp only
  cases w with
  | text s =>
    -- No text fits a type with parts.
    dsimp only
    have hshape := hasShape_of_conform h
    cases hshape with
    | scalar htype _ =>
      rw [htype, if_neg Bool.false_ne_true, ← conform_scalar htype hw, h]
  | list _ | set _ | map _ | fields _ | tuple _ => cases hw
  | _ =>
    dsimp only
    rw [conform] at h
    · exact h
    all_goals simp

/-- A value that was fitted to a type, and met no text where the type has parts, is not changed when
it is fitted again: a columnar writer stores it and its parts as they are, and a session keeps it,
from a document or from a word of a statement. -/
theorem fitted_value_stays {type : ColumnType} {v w : Value} (hplain : ¬ MeetsText type v)
    (h : v.conform type = .ok w) :
    w.conform type = .ok w ∧
      (Columnar.fit w type = .ok w ∧ ∀ e u, Part type w e u → Columnar.fit u e = .ok u) ∧
      (∀ table columns name j c, Column.find? columns name = some c → c.type? = some type →
        Value.ofJson j = w → Dataset.fieldValue table columns name j = .ok w) ∧
      (w.isScalar = true → ∀ read, Literal.typed read w (some type) = .ok w) := by
  have hw := conform_idem hplain h
  refine ⟨hw, ⟨fit_of_conform hw, fun e u hpart => ?_⟩, ?_, fun hscalar => ?_⟩
  · exact fit_of_conform (hpart.conform_of_fixed hw)
  · intro table columns name j c hfind htype hj
    unfold Dataset.fieldValue
    rw [hfind]
    dsimp only
    rw [htype]
    dsimp only
    rw [hj, hw]
  · exact typed_of_conform hw hscalar

/-- Fields become a map, with the identifier in its canonical spelling, and the list in it a tuple
of a number, a date and a truth value. -/
theorem fitted_value_stays_fields :
    let type : ColumnType := .map .uuid (.tuple [.int, .date, .boolean])
    let v := fields [("550E8400E29B41D4A716446655440000",
      list [float ⟨0x4008000000000000⟩, instant ⟨946684800, 7⟩, int 1])]
    let w := map [(text "550e8400-e29b-41d4-a716-446655440000",
      tuple [int 3, text "2000-01-01", bool true])]
    ¬ MeetsText type v ∧ v.conform type = .ok w ∧ w.conform type = .ok w ∧
      Columnar.fit w type = .ok w := by
  intro type v w
  have hrow : ∀ u : Value, (∀ s, u ≠ text s) → ¬ MeetsText (.tuple [.int, .date, .boolean]) u := by
    intro u hu hmeets
    cases hmeets with
    | text _ s => exact hu s rfl
    | part hpart h =>
      cases hpart with
      | listItem he | setItem he => cases he
      | listPlace hv | tuplePlace hv =>
        have hscalar : ∀ e ∈ [ColumnType.int, .date, .boolean], e.isComposite = false := by
          simp [ColumnType.isComposite]
        exact not_meetsText_of_scalar (hscalar _ (List.of_mem_zip hv).1) _ h
  have hplain : ¬ MeetsText type v := by
    simp only [type, v]
    intro hmeets
    cases hmeets with
    | part hpart h =>
      cases hpart with
      | name => exact not_meetsText_of_scalar rfl _ h
      | field hp =>
        obtain rfl := List.mem_singleton.mp hp
        exact hrow _ (by simp) h
  have hkey : conformText "550E8400E29B41D4A716446655440000" .uuid =
      .ok (text "550e8400-e29b-41d4-a716-446655440000") := rfl
  have hnumber : ofFloat ⟨0x4008000000000000⟩ .int = .ok (int 3) := rfl
  have hday : ofInstant ⟨946684800, 7⟩ .date = .ok (text "2000-01-01") :=
    congrArg (fun day => Except.ok (text day)) (show String.ofList _ = _ by decide +kernel)
  have hplaces : (list [float ⟨0x4008000000000000⟩, instant ⟨946684800, 7⟩, int 1]).conform
      (.tuple [.int, .date, .boolean]) = .ok (tuple [int 3, text "2000-01-01", bool true]) := by
    simp only [conform, conformEach, fitScalar, hnumber, hday]
    rfl
  have hfit : v.conform type = .ok w := by
    simp only [type, v, w]
    rw [conform, conformFields, hkey, hplaces]
    rfl
  obtain ⟨hw, ⟨hstored, -⟩, -⟩ := fitted_value_stays hplain hfit
  exact ⟨hplain, hfit, hw, hstored⟩

end BulkTransfer.Value
