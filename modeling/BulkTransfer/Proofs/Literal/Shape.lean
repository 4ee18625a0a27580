import BulkTransfer.Proofs.Value.Conform
import BulkTransfer.Proofs.Value.Fitted

/-!
What a literal is read as under a declared type. Values without parts are fitted to the type. Values
with parts are put together as their brackets tell, whatever the type is: items are read by the
types of their places where the type has such places, and else by no type. So what is read fits the
type exactly if it has the parts that the type asks for.

- `Value.HasShape`: a value has parts where its type has, and in the kind that the type names.
- `Value.hasShape_of_conform`: a value that fits its type has the shape of it.
- `Literal.Sound`: what reading promises of a value.
- `Literal.sound_readValue`: every value that is read is sound.
- `Literal.Sound.conform_eq_self_iff`: a value that is read fits its type exactly if it has its shape.
-/

namespace BulkTransfer

/-- A step behind another succeeds where both do. -/
theorem bind_eq_ok {ε α β : Type} {x : Except ε α} {f : α → Except ε β} {b : β} :
    (x >>= f) = .ok b ↔ ∃ a, x = .ok a ∧ f a = .ok b := by
  constructor
  · intro h
    cases x with
    | error e => cases h
    | ok a => exact ⟨a, rfl, h⟩
  · rintro ⟨a, rfl, h⟩
    exact h

theorem map_eq_ok {ε α β : Type} {x : Except ε α} {f : α → β} {b : β} :
    x.map f = .ok b ↔ ∃ a, x = .ok a ∧ f a = b := by
  constructor
  · intro h
    cases x with
    | error e => cases h
    | ok a => exact ⟨a, rfl, Except.ok.inj h⟩
  · rintro ⟨a, rfl, rfl⟩
    rfl

theorem map_eq_ok_self {ε α β : Type} {x : Except ε α} {f : α → β} (hf : ∀ {a b}, f a = f b → a = b)
    {a : α} (h : x.map f = .ok (f a)) : x = .ok a := by
  obtain ⟨b, hb, hfb⟩ := map_eq_ok.mp h
  exact hf hfb ▸ hb

namespace Value

/-- The value has the parts that the type asks for, at every level: none under a type without parts,
and under the others a list, a set, a map, a tuple of the declared length, or named fields. The
fields of a user-defined type have no types of their own. -/
inductive HasShape : ColumnType → Value → Prop
  | null (type : ColumnType) : HasShape type null
  | scalar {type : ColumnType} (htype : type.isComposite = false) {v : Value}
      (hv : v.isScalar = true) : HasShape type v
  | list {e : ColumnType} {items : List Value} (h : ∀ v ∈ items, HasShape e v) :
    HasShape (.list e) (list items)
  | set {e : ColumnType} {items : List Value} (h : ∀ v ∈ items, HasShape e v) :
    HasShape (.set e) (set items)
  | vector {e : ColumnType} (n : Nat) {items : List Value} (h : ∀ v ∈ items, HasShape e v) :
    HasShape (.vector e n) (list items)
  | map {k e : ColumnType} {entries : List (Value × Value)}
      (hk : ∀ p ∈ entries, HasShape k p.1) (he : ∀ p ∈ entries, HasShape e p.2) :
    HasShape (.map k e) (map entries)
  | tuple {types : List ColumnType} {items : List Value} (hlen : items.length = types.length)
      (h : ∀ p ∈ types.zip items, HasShape p.1 p.2) : HasShape (.tuple types) (tuple items)
  | fields (name : String) (items : List (String × Value)) :
    HasShape (.userDefined name) (fields items)

theorem conform_scalar {type : ColumnType} (htype : type.isComposite = false) {v : Value}
    (hv : v.isScalar = true) : v.conform type = v.fitScalar type := by
  cases v with
  | text s => rw [conform, conformText, htype, if_neg Bool.false_ne_true, fitScalar]
  | list _ | set _ | map _ | fields _ | tuple _ => exact absurd hv Bool.false_ne_true
  | _ => rw [conform] <;> simp

end Value

/-! ## What readers gave -/

namespace Literal

open Value

section Inversion

variable {α : Type} {close : Char} {s rest : List Char}

/-- Every item of a sequence was read by the reader for its place. -/
theorem readItems_eq_ok {item : Nat → Step α} {steps index : Nat} {items : List α}
    (h : readItems close item steps index s = .ok (items, rest)) {i : Nat} {a : α}
    (ha : items[i]? = some a) : ∃ t r, item (index + i) t = .ok (a, r) := by
  induction steps generalizing index s rest items i with
  | zero =>
    rw [readItems] at h
    cases h
  | succ steps ih =>
    rw [readItems, bind_eq_ok] at h
    obtain ⟨⟨b, t⟩, hb, h⟩ := h
    dsimp only at h
    split at h
    · cases h
    · split at h
      · rw [bind_eq_ok] at h
        obtain ⟨⟨more, r⟩, hmore, h⟩ := h
        obtain ⟨rfl, -⟩ := Prod.mk.inj (Except.ok.inj h)
        cases i with
        | zero => exact ⟨s, t, Option.some.inj ha ▸ hb⟩
        | succ i =>
          rw [List.getElem?_cons_succ] at ha
          obtain ⟨t, r, hi⟩ := ih hmore ha
          exact ⟨t, r, by rwa [Nat.add_right_comm] at hi⟩
      · split at h
        · obtain ⟨rfl, -⟩ := Prod.mk.inj (Except.ok.inj h)
          cases i with
          | zero => exact ⟨s, t, Option.some.inj ha ▸ hb⟩
          | succ i => cases ha
        · cases h

theorem readSequence_eq_ok {item : Nat → Step α} {items : List α}
    (h : readSequence close item s = .ok (items, rest)) {i : Nat} {a : α}
    (ha : items[i]? = some a) : ∃ t r, item i t = .ok (a, r) := by
  unfold readSequence at h
  rw [← Nat.zero_add i]
  split at h
  · split at h
    · obtain ⟨rfl, -⟩ := Prod.mk.inj (Except.ok.inj h)
      cases ha
    · exact readItems_eq_ok h ha
  · exact readItems_eq_ok h ha

theorem readSequence_eq_ok_of_mem {item : Step α} {items : List α}
    (h : readSequence close (fun _ => item) s = .ok (items, rest)) {a : α} (ha : a ∈ items) :
    ∃ t r, item t = .ok (a, r) := by
  obtain ⟨i, hi⟩ := List.getElem?_of_mem ha
  exact readSequence_eq_ok h hi

theorem readAll_eq_ok {read : Step Value} {v : Value} (h : readAll read s = .ok v) :
    ∃ r, read s = .ok (v, r) := by
  rw [readAll, bind_eq_ok] at h
  obtain ⟨⟨w, r⟩, hw, h⟩ := h
  rw [bind_eq_ok] at h
  obtain ⟨_, -, h⟩ := h
  exact ⟨r, Except.ok.inj h ▸ hw⟩

theorem readEntry_eq_ok {size : Nat} {key value : Step Value} {p : Value × Value}
    (h : readEntry size key value s = .ok (p, rest)) :
    (∃ t r, key t = .ok (p.1, r)) ∧ ∃ t r, value t = .ok (p.2, r) := by
  rw [readEntry, bind_eq_ok] at h
  obtain ⟨⟨k, t⟩, hk, h⟩ := h
  rw [bind_eq_ok] at h
  obtain ⟨u, -, h⟩ := h
  rw [bind_eq_ok] at h
  obtain ⟨⟨v, r⟩, hv, h⟩ := h
  obtain ⟨rfl, -⟩ := Prod.mk.inj (Except.ok.inj h)
  exact ⟨⟨s, t, hk⟩, u, r, hv⟩

/-- Every value of a list was read by the type at its place. -/
theorem parseValues_eq_ok {types : List (Option ColumnType)} {values : List Value}
    (h : parseValues s types = .ok values) {i : Nat} {v : Value} (hv : values[i]? = some v) :
    ∃ levels size t r, readValue levels size (types.getD i none) t = .ok (v, r) := by
  rw [parseValues] at h
  obtain ⟨opened, -, h⟩ := bind_eq_ok.mp h
  obtain ⟨⟨vs, r⟩, hread, h⟩ := bind_eq_ok.mp h
  obtain ⟨_, -, h⟩ := bind_eq_ok.mp h
  dsimp only at h
  split at h
  · cases h
  · obtain rfl := Except.ok.inj h
    obtain ⟨t, r, hr⟩ := readSequence_eq_ok hread hv
    exact ⟨_, _, t, r, hr⟩

/-- Braces without a type make a set, a map or named fields. -/
theorem ofBraced_eq_ok {items : List Braced} {v : Value} (h : ofBraced items = .ok v) :
    (∃ vs, v = set vs) ∨ (∃ es, v = map es) ∨ ∃ fs, v = fields fs := by
  unfold ofBraced at h
  split at h
  · cases h
  · split at h
    · exact .inl ⟨_, (Except.ok.inj h).symm⟩
    · split at h
      · exact .inr (.inr ⟨_, (Except.ok.inj h).symm⟩)
      · exact .inr (.inl ⟨_, (Except.ok.inj h).symm⟩)

end Inversion

/-! ## Sound values -/

/-- What reading by a type promises: the value fits if it has the parts that the type asks for, and
a type with parts never leaves a text, which would be read once more. -/
structure Sound (type : ColumnType) (v : Value) : Prop where
  fits : HasShape type v → v.conform type = .ok v
  not_text : type.isComposite = true → ∀ s, v ≠ .text s

section Sound

variable {type : ColumnType}

/-- A value with parts is no text. -/
theorem sound_of_parts {v : Value} (hv : v.isScalar = false)
    (h : HasShape type v → v.conform type = .ok v) : Sound type v := by
  refine ⟨h, ?_⟩
  rintro _ s rfl
  exact absurd hv.symm Bool.false_ne_true

theorem sound_null (type : ColumnType) : Sound type null := by
  constructor
  · intro _
    rw [conform] <;> simp [fitScalar]
  · intro _ s heq
    cases heq

theorem sound_of_fitScalar {v w : Value} (h : v.fitScalar type = .ok w) : Sound type w := by
  cases htype : type.isComposite with
  | true =>
    rw [eq_null_of_fitScalar htype h]
    exact sound_null type
  | false =>
    have hw := fitScalar_idem h
    constructor
    · intro _
      rw [conform_scalar htype (isScalar_of_fitScalar hw), hw]
    · intro hc
      rw [htype] at hc
      exact absurd hc Bool.false_ne_true

theorem sound_ofBracketed {items : List Value}
    (h : ∀ e, type.element? = some e → ∀ v ∈ items, Sound e v) :
    Sound type (ofBracketed (some type) items) := by
  unfold ofBracketed
  split
  · next e heq =>
    obtain rfl := Option.some.inj heq
    refine sound_of_parts rfl fun hs => ?_
    cases hs with
    | scalar _ hv => exact absurd hv Bool.false_ne_true
    | set hitems =>
      rw [conform, conformAll_of_mem fun v hv => (h e rfl v hv).fits (hitems v hv)]
      rfl
  · refine sound_of_parts rfl fun hs => ?_
    cases hs with
    | scalar _ hv => exact absurd hv Bool.false_ne_true
    | list hitems | vector _ hitems =>
      rw [conform, conformAll_of_mem fun v hv => (h _ rfl v hv).fits (hitems v hv)]
      rfl

theorem sound_tuple {items : List Value}
    (h : ∀ (i : Nat) (e : ColumnType) (v : Value), itemType? (some type) i = some e →
      items[i]? = some v → Sound e v) : Sound type (tuple items) := by
  refine sound_of_parts rfl fun hs => ?_
  cases hs with
  | scalar _ hv => exact absurd hv Bool.false_ne_true
  | @tuple types _ hlen hitems =>
    have heach : ∀ p ∈ types.zip items, p.2.conform p.1 = .ok p.2 := by
      intro p hp
      obtain ⟨i, hi⟩ := List.getElem?_of_mem hp
      obtain ⟨htype, hv⟩ := List.getElem?_zip_eq_some.mp hi
      exact (h i p.1 p.2 htype hv).fits (hitems p hp)
    rw [conform, if_neg (not_not_intro hlen), conformEach_of_mem hlen heach]
    rfl

theorem sound_readBraces {size : Nat} {value : Option ColumnType → Step Value} {s rest : List Char}
    {v : Value} (hvalue : ∀ e t w r, value (some e) t = .ok (w, r) → Sound e w)
    (h : readBraces size value (some type) s = .ok (v, rest)) : Sound type v := by
  unfold readBraces at h
  split at h
  · next e heq =>
    obtain rfl := Option.some.inj heq
    obtain ⟨⟨items, r⟩, hitems, h⟩ := bind_eq_ok.mp h
    obtain ⟨rfl, -⟩ := Prod.mk.inj (Except.ok.inj h)
    have hsound : ∀ w ∈ items, Sound e w := by
      intro w hw
      obtain ⟨t, r, hr⟩ := readSequence_eq_ok_of_mem hitems hw
      exact hvalue e t w r hr
    exact sound_ofBracketed fun e' he => Option.some.inj he ▸ hsound
  · next k e heq =>
    obtain rfl := Option.some.inj heq
    obtain ⟨⟨items, r⟩, hitems, h⟩ := bind_eq_ok.mp h
    obtain ⟨rfl, -⟩ := Prod.mk.inj (Except.ok.inj h)
    have hsound : ∀ p ∈ items, Sound k p.1 ∧ Sound e p.2 := by
      intro p hp
      obtain ⟨t, r, hr⟩ := readSequence_eq_ok_of_mem hitems hp
      obtain ⟨⟨t, r, hk⟩, u, r', he⟩ := readEntry_eq_ok hr
      exact ⟨hvalue k t _ r hk, hvalue e u _ r' he⟩
    refine sound_of_parts rfl fun hs => ?_
    cases hs with
    | scalar _ hv => exact absurd hv Bool.false_ne_true
    | map hk he =>
      rw [conform, conformEntries_of_mem (fun p hp => (hsound p hp).1.fits (hk p hp))
        fun p hp => (hsound p hp).2.fits (he p hp)]
      rfl
  · next name heq =>
    obtain rfl := Option.some.inj heq
    obtain ⟨⟨items, r⟩, -, h⟩ := bind_eq_ok.mp h
    obtain ⟨rfl, -⟩ := Prod.mk.inj (Except.ok.inj h)
    refine sound_of_parts rfl fun _ => ?_
    rw [conform]
  · next hset hmap huser =>
    -- Braces under another type are read as if no type were declared, and never have its shape.
    obtain ⟨⟨items, r⟩, -, h⟩ := bind_eq_ok.mp h
    obtain ⟨w, hw, h⟩ := bind_eq_ok.mp h
    obtain ⟨rfl, -⟩ := Prod.mk.inj (Except.ok.inj h)
    rcases ofBraced_eq_ok hw with ⟨vs, rfl⟩ | ⟨es, rfl⟩ | ⟨fs, rfl⟩
    · refine sound_of_parts rfl fun hs => ?_
      cases hs with
      | scalar _ hv => exact absurd hv Bool.false_ne_true
      | set _ => exact absurd rfl (hset _)
    · refine sound_of_parts rfl fun hs => ?_
      cases hs with
      | scalar _ hv => exact absurd hv Bool.false_ne_true
      | map _ _ => exact absurd rfl (hmap _ _)
    · refine sound_of_parts rfl fun hs => ?_
      cases hs with
      | scalar _ hv => exact absurd hv Bool.false_ne_true
      | fields name _ => exact absurd rfl (huser name)

theorem sound_typed {read : Nat → Option ColumnType → Step Value} {v w : Value}
    (hread : ∀ n t u r, read n (some type) t = .ok (u, r) → Sound type u)
    (h : typed read v (some type) = .ok w) : Sound type w := by
  unfold typed at h
  dsimp only at h
  split at h
  · split at h
    · obtain ⟨r, hr⟩ := readAll_eq_ok h
      exact hread _ _ w r hr
    · exact sound_of_fitScalar h
  · exact sound_of_fitScalar h

/-- Every value that is read by a type is sound. -/
theorem sound_readValue {levels size : Nat} {s rest : List Char} {v : Value}
    (h : readValue levels size (some type) s = .ok (v, rest)) : Sound type v := by
  induction levels generalizing size type s v rest with
  | zero =>
    rw [readValue] at h
    cases h
  | succ levels ih =>
    unfold readValue at h
    dsimp only at h
    split at h
    · cases h
    · obtain ⟨⟨text, r⟩, -, h⟩ := bind_eq_ok.mp h
      obtain ⟨w, hw, h⟩ := bind_eq_ok.mp h
      obtain ⟨rfl, -⟩ := Prod.mk.inj (Except.ok.inj h)
      exact sound_typed (fun _ _ _ _ hr => ih hr) hw
    · obtain ⟨⟨items, r⟩, hitems, h⟩ := bind_eq_ok.mp h
      obtain ⟨rfl, -⟩ := Prod.mk.inj (Except.ok.inj h)
      refine sound_ofBracketed fun e he w hw => ?_
      obtain ⟨t, r, hr⟩ := readSequence_eq_ok_of_mem hitems hw
      rw [Option.bind_some, he] at hr
      exact ih hr
    · exact sound_readBraces (fun _ _ _ _ hr => ih hr) h
    · obtain ⟨⟨items, r⟩, hitems, h⟩ := bind_eq_ok.mp h
      obtain ⟨rfl, -⟩ := Prod.mk.inj (Except.ok.inj h)
      refine sound_tuple fun i e w he hw => ?_
      obtain ⟨t, r, hr⟩ := readSequence_eq_ok hitems hw
      rw [he] at hr
      exact ih hr
    · split at h
      · cases h
      · obtain ⟨word, -, h⟩ := bind_eq_ok.mp h
        obtain ⟨w, hw, h⟩ := bind_eq_ok.mp h
        obtain ⟨rfl, -⟩ := Prod.mk.inj (Except.ok.inj h)
        exact sound_typed (fun _ _ _ _ hr => ih hr) hw

theorem sound_parse {s : List Char} {v : Value} (h : parse s (some type) = .ok v) :
    Sound type v := by
  obtain ⟨r, hr⟩ := readAll_eq_ok h
  exact sound_readValue hr

end Sound

end Literal

/-! ## Values that fit -/

namespace Value

/-- Fitting a list to one type leaves it as it is only if it leaves every item as it is. -/
theorem conform_of_conformAll {type : ColumnType} {items : List Value}
    (h : conformAll items type = .ok items) : ∀ v ∈ items, v.conform type = .ok v := by
  induction items with
  | nil => exact List.forall_mem_nil _
  | cons w more ih =>
    rw [conformAll] at h
    obtain ⟨w', hw, h⟩ := bind_eq_ok.mp h
    obtain ⟨more', hmore, h⟩ := bind_eq_ok.mp h
    obtain ⟨rfl, rfl⟩ := List.cons.inj (Except.ok.inj h)
    exact List.forall_mem_cons.mpr ⟨hw, ih hmore⟩

theorem conform_of_conformEach {types : List ColumnType} {items : List Value}
    (h : conformEach items types = .ok items) :
    ∀ p ∈ types.zip items, p.2.conform p.1 = .ok p.2 := by
  induction items generalizing types with
  | nil => simp
  | cons w more ih =>
    cases types with
    | nil => exact List.forall_mem_nil _
    | cons type types =>
      rw [conformEach] at h
      obtain ⟨w', hw, h⟩ := bind_eq_ok.mp h
      obtain ⟨more', hmore, h⟩ := bind_eq_ok.mp h
      obtain ⟨rfl, rfl⟩ := List.cons.inj (Except.ok.inj h)
      rw [List.zip_cons_cons]
      exact List.forall_mem_cons.mpr ⟨hw, ih hmore⟩

theorem conform_of_conformEntries {keyType valueType : ColumnType} {entries : List (Value × Value)}
    (h : conformEntries entries keyType valueType = .ok entries) :
    ∀ p ∈ entries, p.1.conform keyType = .ok p.1 ∧ p.2.conform valueType = .ok p.2 := by
  induction entries with
  | nil => exact List.forall_mem_nil _
  | cons p more ih =>
    obtain ⟨k, v⟩ := p
    rw [conformEntries] at h
    obtain ⟨k', hk, h⟩ := bind_eq_ok.mp h
    obtain ⟨v', hv, h⟩ := bind_eq_ok.mp h
    obtain ⟨more', hmore, h⟩ := bind_eq_ok.mp h
    obtain ⟨hp, rfl⟩ := List.cons.inj (Except.ok.inj h)
    obtain ⟨rfl, rfl⟩ := Prod.mk.inj hp
    exact List.forall_mem_cons.mpr ⟨⟨hk, hv⟩, ih hmore⟩

theorem hasShape_of_fitScalar {type : ColumnType} {v : Value} (h : v.fitScalar type = .ok v) :
    HasShape type v := by
  cases htype : type.isComposite with
  | true =>
    rw [eq_null_of_fitScalar htype h]
    exact .null type
  | false => exact .scalar htype (isScalar_of_fitScalar h)

/-- A value that fits its type has the shape of it. -/
theorem hasShape_of_conform {type : ColumnType} {v : Value} (h : v.conform type = .ok v) :
    HasShape type v := by
  -- The kinds of collections that another kind is turned into do not leave the value as it is.
  cases v with
  | null => exact .null type
  | int _ | float _ | decimal _ | bool _ | bytes _ | instant _ =>
    rw [conform] at h
    · exact hasShape_of_fitScalar h
    all_goals simp
  | text s =>
    rw [conform, conformText] at h
    split at h
    · next htype => exact absurd rfl ((Literal.sound_parse h).not_text htype s)
    · exact hasShape_of_fitScalar h
  | list items =>
    have hitems {e : ColumnType} (he : (conformAll items e).map list = .ok (list items)) :
        ∀ w ∈ items, HasShape e w := by
      intro w hw
      have hlt := List.sizeOf_lt_of_mem hw
      exact hasShape_of_conform (conform_of_conformAll (map_eq_ok_self list.inj he) w hw)
    unfold conform at h
    split at h
    · exact .list (hitems h)
    · exact .vector _ (hitems h)
    · obtain ⟨_, _, h⟩ := map_eq_ok.mp h
      cases h
    · split at h
      · cases h
      · obtain ⟨_, _, h⟩ := map_eq_ok.mp h
        cases h
    · cases h
  | set items =>
    unfold conform at h
    split at h
    · obtain ⟨_, _, h⟩ := map_eq_ok.mp h
      cases h
    · obtain ⟨_, _, h⟩ := map_eq_ok.mp h
      cases h
    · have hitems := conform_of_conformAll (map_eq_ok_self set.inj h)
      refine .set fun w hw => ?_
      have hlt := List.sizeOf_lt_of_mem hw
      exact hasShape_of_conform (hitems w hw)
    · cases h
  | tuple items =>
    unfold conform at h
    split at h
    · split at h
      · cases h
      · next hlen =>
        have hitems := conform_of_conformEach (map_eq_ok_self tuple.inj h)
        refine .tuple (Decidable.not_not.mp hlen) fun p hp => ?_
        have hlt := List.sizeOf_lt_of_mem (List.of_mem_zip hp).2
        exact hasShape_of_conform (hitems p hp)
    · cases h
  | map entries =>
    unfold conform at h
    split at h
    · have hentries := conform_of_conformEntries (map_eq_ok_self map.inj h)
      refine .map (fun p hp => ?_) fun p hp => ?_
      · obtain ⟨k, w⟩ := p
        have hlt : 1 + sizeOf k + sizeOf w < sizeOf entries := List.sizeOf_lt_of_mem hp
        exact hasShape_of_conform (hentries _ hp).1
      · obtain ⟨k, w⟩ := p
        have hlt : 1 + sizeOf k + sizeOf w < sizeOf entries := List.sizeOf_lt_of_mem hp
        exact hasShape_of_conform (hentries _ hp).2
    · obtain ⟨_, _, h⟩ := map_eq_ok.mp h
      cases h
    · cases h
  | fields items =>
    unfold conform at h
    split at h
    · obtain ⟨_, _, h⟩ := map_eq_ok.mp h
      cases h
    · exact .fields _ items
    · cases h
termination_by sizeOf v
decreasing_by
  all_goals
    subst_vars
    simp only [list.sizeOf_spec, set.sizeOf_spec, tuple.sizeOf_spec, map.sizeOf_spec]
    omega

end Value

/-- What was read by a type fits it exactly if it has its shape. -/
theorem Literal.Sound.conform_eq_self_iff {type : ColumnType} {v : Value} (h : Sound type v) :
    v.conform type = .ok v ↔ Value.HasShape type v :=
  ⟨Value.hasShape_of_conform, h.fits⟩

end BulkTransfer
