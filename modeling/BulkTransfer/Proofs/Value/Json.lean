import BulkTransfer.JsonLines.Reader
import BulkTransfer.Proofs.Json.RoundTrip
import BulkTransfer.Proofs.Value.Conform

/-!
Canonical values and their JSON form. JSON has one kind of array and one kind of string; the
declared type tells again what they stood for.

- `ColumnType.IsMapless`: types without maps, and how deep they nest.
- `Value.conform_ofJson`: at every level the type restores the value from its JSON form.
- `JsonLines.valueOf_toJson`: so does the type of a column, also from pairs that stand for a map.
- `Value.isReadable_toJson`: the JSON form can be read back from its text.
-/

namespace BulkTransfer

/-- Types without maps and user-defined types, with at most so many collections inside each
other. -/
inductive ColumnType.IsMapless : Nat → ColumnType → Prop
  | scalar (room : Nat) {type : ColumnType} (h : type.isComposite = false) : IsMapless room type
  | list {room : Nat} {e : ColumnType} (h : IsMapless room e) : IsMapless (room + 1) (.list e)
  | set {room : Nat} {e : ColumnType} (h : IsMapless room e) : IsMapless (room + 1) (.set e)
  | vector {room : Nat} {e : ColumnType} (h : IsMapless room e) (n : Nat) :
    IsMapless (room + 1) (.vector e n)
  | tuple {room : Nat} {types : List ColumnType} (h : ∀ t ∈ types, IsMapless room t) :
    IsMapless (room + 1) (.tuple types)

/-- Whether values of the type are texts. -/
def ColumnType.isSpelled (type : ColumnType) : Bool := type.isTextual || type.isUuid

/-- Types whose values fit into an object with at most so many arrays and objects inside each
other. A map with texts for keys is an object, and any other one an array of pairs. -/
inductive ColumnType.IsJson (room : Nat) : ColumnType → Prop
  | mapless {type : ColumnType} (h : IsMapless room type) : IsJson room type
  | textKeys {k e : ColumnType} {inner : Nat} (hroom : inner + 1 = room)
      (hk : k.isSpelled = true) (he : IsMapless inner e) : IsJson room (.map k e)
  | otherKeys {k e : ColumnType} {inner : Nat} (hroom : inner + 2 = room)
      (hk : k.isComposite = false) (hother : k.isSpelled = false) (he : IsMapless inner e) :
    IsJson room (.map k e)

theorem isComposite_of_isSpelled {type : ColumnType} (h : type.isSpelled = true) :
    type.isComposite = false := by
  unfold ColumnType.isSpelled at h
  rw [Bool.or_eq_true] at h
  exact h.elim Literal.isComposite_of_isTextual Literal.isComposite_of_isUuid

namespace Value

/-- No key of a map is null, and those that are texts increase. -/
def HasOrderedKeys : Value → Prop
  | map entries => (∀ e ∈ entries, e.1 ≠ null) ∧
      entries.Pairwise fun d e => ∀ s t, d.1 = text s → e.1 = text t → s < t
  | _ => True

theorem itemsToJson_eq (items : List Value) : itemsToJson items = items.map toJson := by
  induction items with
  | nil => rfl
  | cons v more ih => rw [itemsToJson, ih, List.map_cons]

theorem ofJsonItems_eq (items : List Json) : ofJsonItems items = items.map ofJson := by
  induction items with
  | nil => rfl
  | cons v more ih => rw [ofJsonItems, ih, List.map_cons]

/-! ## Values without maps -/

theorem conformAll_ofJson {type : ColumnType} {items : List Value}
    (h : ∀ v ∈ items, (ofJson v.toJson).conform type = .ok v) :
    conformAll (ofJsonItems (itemsToJson items)) type = .ok items := by
  induction items with
  | nil => rfl
  | cons v more ih =>
    rw [itemsToJson, ofJsonItems, conformAll, h v List.mem_cons_self,
      ih fun w hw => h w (List.mem_cons_of_mem v hw)]
    rfl

theorem conformEach_ofJson {types : List ColumnType} {items : List Value}
    (hlen : items.length = types.length)
    (h : ∀ p ∈ types.zip items, (ofJson p.2.toJson).conform p.1 = .ok p.2) :
    conformEach (ofJsonItems (itemsToJson items)) types = .ok items := by
  induction items generalizing types with
  | nil =>
    cases types with
    | nil => rfl
    | cons type types => cases hlen
  | cons v more ih =>
    cases types with
    | nil => cases hlen
    | cons type types =>
      have hmore := ih (Nat.succ.inj hlen) fun p hp => h p (List.mem_cons_of_mem _ hp)
      rw [itemsToJson, ofJsonItems, conformEach, h (type, v) List.mem_cons_self, hmore]
      rfl

theorem length_ofJsonItems (items : List Value) :
    (ofJsonItems (itemsToJson items)).length = items.length := by
  rw [ofJsonItems_eq, itemsToJson_eq, List.length_map, List.length_map]

theorem ofJson_toJson_int {i : Int} (h : InWidth 64 i) : ofJson (toJson (int i)) = int i := by
  rw [toJson, ofJson]
  refine if_pos ?_
  unfold InWidth at h
  unfold Integer.max64
  omega

/-- A value whose type has no maps is restored by its type from its JSON form. -/
theorem conform_ofJson {room : Nat} {type : ColumnType} (htype : type.IsMapless room) {v : Value}
    (h : Canonical type v) : (ofJson v.toJson).conform type = .ok v := by
  induction h generalizing room with
  | null type => exact conform_of_canonical (.null type)
  | text h s => exact conform_of_canonical (.text h s)
  | uuid h hs => exact conform_of_canonical (.uuid h hs)
  | int h hi =>
    rw [ofJson_toJson_int (Literal.inWidth_64 h hi)]
    exact conform_of_canonical (.int h hi)
  | bool b => exact conform_of_canonical (.bool b)
  | bytes b =>
    rw [toJson, ofJson, conform, conformText, if_neg (by decide), ofText]
    exact Literal.readBlob_text b
  | instant h =>
    rw [toJson, ofJson, conform, conformText, if_neg (by decide), ofText]
    exact Literal.readInstant_render h
  | list h ih =>
    cases htype with
    | scalar _ hscalar => cases hscalar
    | list he =>
      rw [toJson, ofJson, conform]
      rw [conformAll_ofJson fun v hv => ih v hv he]
      rfl
  | set h ih =>
    cases htype with
    | scalar _ hscalar => cases hscalar
    | set he =>
      rw [toJson, ofJson, conform]
      rw [conformAll_ofJson fun v hv => ih v hv he]
      rfl
  | vector n h ih =>
    cases htype with
    | scalar _ hscalar => cases hscalar
    | vector he =>
      rw [toJson, ofJson, conform]
      rw [conformAll_ofJson fun v hv => ih v hv he]
      rfl
  | map =>
    cases htype with
    | scalar _ hscalar => cases hscalar
  | @tuple types items hlen h ih =>
    cases htype with
    | scalar _ hscalar => cases hscalar
    | tuple htypes =>
      have hitems : ∀ p ∈ types.zip items, (ofJson p.2.toJson).conform p.1 = .ok p.2 :=
        fun p hp => ih p hp (htypes p.1 (List.of_mem_zip hp).1)
      rw [toJson, ofJson, conform]
      rw [length_ofJsonItems, if_neg (not_not_intro hlen), conformEach_ofJson hlen hitems]
      rfl

theorem isReadable_items {room : Nat} {items : List Value}
    (h : ∀ v ∈ items, (toJson v).IsReadable room) :
    (Json.array (itemsToJson items)).IsReadable (room + 1) := by
  refine .array fun j hj => ?_
  rw [itemsToJson_eq] at hj
  obtain ⟨v, hv, rfl⟩ := List.mem_map.mp hj
  exact h v hv

theorem isReadable_int (room : Nat) {i : Int} (h : InWidth 64 i) :
    (toJson (int i)).IsReadable room := by
  unfold InWidth at h
  refine .int room ?_ ?_
  · unfold Integer.min64
    omega
  · unfold Json.maxDigits
    omega

/-- The JSON form of a value nests no deeper than the type. -/
theorem isReadable_of_isMapless {room : Nat} {type : ColumnType} (htype : type.IsMapless room)
    {v : Value} (h : Canonical type v) : (toJson v).IsReadable room := by
  induction h generalizing room with
  | null => exact .null room
  | text h s => exact .string room _
  | uuid h hs => exact .string room _
  | int h hi => exact isReadable_int room (Literal.inWidth_64 h hi)
  | bool b => exact .bool room b
  | bytes b => exact .string room _
  | instant h => exact .string room _
  | list h ih =>
    cases htype with
    | scalar _ hscalar => cases hscalar
    | list he => exact isReadable_items fun v hv => ih v hv he
  | set h ih =>
    cases htype with
    | scalar _ hscalar => cases hscalar
    | set he => exact isReadable_items fun v hv => ih v hv he
  | vector n h ih =>
    cases htype with
    | scalar _ hscalar => cases hscalar
    | vector he => exact isReadable_items fun v hv => ih v hv he
  | map =>
    cases htype with
    | scalar _ hscalar => cases hscalar
  | @tuple types items hlen h ih =>
    cases htype with
    | scalar _ hscalar => cases hscalar
    | tuple htypes =>
      refine isReadable_items fun v hv => ?_
      obtain ⟨t, hmem⟩ : ∃ t, (t, v) ∈ types.zip items := by
        rw [← List.map_snd_zip (Nat.le_of_eq hlen)] at hv
        obtain ⟨p, hp, rfl⟩ := List.mem_map.mp hv
        exact ⟨p.1, hp⟩
      exact ih (t, v) hmem (htypes t (List.of_mem_zip hmem).1)

/-! ## Maps -/

theorem exists_map_of_canonical {k e : ColumnType} {v : Value} (h : Canonical (.map k e) v)
    (hnull : v ≠ null) : ∃ entries, v = map entries ∧ (∀ p ∈ entries, Canonical k p.1) ∧
      ∀ p ∈ entries, Canonical e p.2 := by
  cases h with
  | null => exact absurd rfl hnull
  | text h => cases h
  | uuid h => cases h
  | int h => cases h
  | map hk he => exact ⟨_, rfl, hk, he⟩

/-- Under a type of texts every value but null is a text. -/
theorem exists_text_of_canonical {k : ColumnType} (hk : k.isSpelled = true) {v : Value}
    (h : Canonical k v) (hnull : v ≠ null) : ∃ s, v = text s := by
  cases h with
  | null => exact absurd rfl hnull
  | text h s => exact ⟨s, rfl⟩
  | uuid h hs => exact ⟨_, rfl⟩
  | int hbits => cases k <;> first | exact absurd hk (by decide) | cases hbits
  | _ => cases hk

/-- Under any other type no value is a text. -/
theorem asText?_of_canonical {k : ColumnType} (hk : k.isSpelled = false) {v : Value}
    (h : Canonical k v) : v.asText? = none := by
  unfold ColumnType.isSpelled at hk
  rw [Bool.or_eq_false_iff] at hk
  cases h with
  | text h =>
    rw [hk.1] at h
    cases h
  | uuid h =>
    rw [hk.2] at h
    cases h
  | _ => rfl

/-- Entries with texts for keys. -/
theorem exists_texts {k : ColumnType} {entries : List (Value × Value)}
    (hk : k.isSpelled = true) (hkeys : ∀ p ∈ entries, Canonical k p.1)
    (hnull : ∀ p ∈ entries, p.1 ≠ null) :
    ∃ pairs : List (String × Value), entries = pairs.map fun p => (text p.1, p.2) := by
  induction entries with
  | nil => exact ⟨[], rfl⟩
  | cons p more ih =>
    obtain ⟨pairs, rfl⟩ := ih (fun q hq => hkeys q (List.mem_cons_of_mem p hq))
      fun q hq => hnull q (List.mem_cons_of_mem p hq)
    obtain ⟨s, hs⟩ := exists_text_of_canonical hk (hkeys p List.mem_cons_self)
      (hnull p List.mem_cons_self)
    exact ⟨(s, p.2) :: pairs, by rw [List.map_cons, ← hs]⟩

theorem allTextKeys_texts (pairs : List (String × Value)) :
    allTextKeys (pairs.map fun p => (text p.1, p.2)) = true := by
  rw [allTextKeys, List.all_map]
  exact List.all_eq_true.mpr fun p _ => rfl

theorem entriesToFields_texts (pairs : List (String × Value)) :
    entriesToFields (pairs.map fun p => (text p.1, p.2)) =
      pairs.map fun p => (p.1, toJson p.2) := by
  induction pairs with
  | nil => rfl
  | cons p more ih => rw [List.map_cons, entriesToFields, ih, List.map_cons]

/-- Texts that increase are the names of the object in their order. -/
theorem toJson_texts {pairs : List (String × Value)}
    (h : pairs.Pairwise fun p q => p.1 < q.1) :
    toJson (map (pairs.map fun p => (text p.1, p.2))) =
        .object (pairs.map fun p => (p.1, toJson p.2)) ∧
      Keyed.IsIncreasing (pairs.map fun p => (p.1, toJson p.2)) := by
  have hinc : Keyed.IsIncreasing (pairs.map fun p => (p.1, toJson p.2)) :=
    List.pairwise_map.mpr h
  refine ⟨?_, hinc⟩
  rw [toJson, if_pos (allTextKeys_texts pairs), entriesToFields_texts,
    Keyed.ofPairs_of_perm (.refl _) hinc]

theorem ofJsonFields_eq (fields : List (String × Json)) :
    ofJsonFields fields = fields.map fun f => (text f.1, ofJson f.2) := by
  induction fields with
  | nil => rfl
  | cons f more ih => rw [ofJsonFields, ih, List.map_cons]

theorem entriesToPairs_eq (entries : List (Value × Value)) :
    entriesToPairs entries = entries.map fun p => .array [toJson p.1, toJson p.2] := by
  induction entries with
  | nil => rfl
  | cons p more ih => rw [entriesToPairs, ih, List.map_cons]

theorem conformEntries_ofJson {k e : ColumnType} {entries : List (Value × Value)}
    (hk : ∀ p ∈ entries, (ofJson (toJson p.1)).conform k = .ok p.1)
    (he : ∀ p ∈ entries, (ofJson (toJson p.2)).conform e = .ok p.2) :
    conformEntries (entries.map fun p => (ofJson (toJson p.1), ofJson (toJson p.2))) k e =
      .ok entries := by
  induction entries with
  | nil => rfl
  | cons p more ih =>
    have hmore := ih (fun q hq => hk q (List.mem_cons_of_mem p hq))
      fun q hq => he q (List.mem_cons_of_mem p hq)
    rw [List.map_cons, conformEntries, hk p List.mem_cons_self, he p List.mem_cons_self, hmore]
    rfl

/-- A map of which no key is a text is an array of pairs, unless it is empty. -/
theorem toJson_pairs {k : ColumnType} (hk : k.isSpelled = false) {p : Value × Value}
    {more : List (Value × Value)} (h : Canonical k p.1) :
    toJson (map (p :: more)) =
      .array ((p :: more).map fun q => .array [toJson q.1, toJson q.2]) := by
  have hkeys : ¬ allTextKeys (p :: more) = true := by
    rw [allTextKeys, List.all_cons, asText?_of_canonical hk h]
    exact Bool.false_ne_true
  rw [toJson, if_neg hkeys, entriesToPairs_eq]

end Value

namespace JsonLines

open Value

theorem pairs?_pairs (entries : List (Value × Value)) :
    pairs? (entries.map fun p => .array [toJson p.1, toJson p.2]) =
      some (entries.map fun p => (ofJson (toJson p.1), ofJson (toJson p.2))) := by
  induction entries with
  | nil => rfl
  | cons p more ih =>
    rw [List.map_cons, pairs?, ih]
    rfl

/-- The value before it is fitted is that of the JSON form, unless the type is a map. -/
theorem rawValue_of_isMapless {room : Nat} {type : ColumnType} (h : type.IsMapless room)
    (j : Json) : rawValue j (some type) = ofJson j := by
  have hmap : ∀ k e, type ≠ .map k e := by
    rintro k e rfl
    cases h with
    | scalar _ hscalar => cases hscalar
  unfold rawValue
  split
  · next heq => exact absurd (Option.some.inj heq) (hmap _ _)
  · rfl

/-- The type of a column restores a value from its JSON form. -/
theorem valueOf_toJson {room : Nat} {type : ColumnType} (htype : type.IsJson room) {v : Value}
    (h : Canonical type v) (hkeys : v.HasOrderedKeys) :
    valueOf (toJson v) (some type) = .ok v := by
  by_cases hnull : v = .null
  · subst hnull
    exact conform_of_canonical (.null type)
  cases htype with
  | mapless hmapless =>
    rw [valueOf, rawValue_of_isMapless hmapless]
    exact conform_ofJson hmapless h
  | @textKeys k e _ _ hk he =>
    obtain ⟨entries, rfl, hcanonical, hvalues⟩ := exists_map_of_canonical h hnull
    obtain ⟨pairs, rfl⟩ := exists_texts hk hcanonical hkeys.1
    have hincreasing : pairs.Pairwise fun p q => p.1 < q.1 :=
      (List.pairwise_map.mp hkeys.2).imp fun hlt => hlt _ _ rfl rfl
    have hentries := conformEntries_ofJson (e := e)
      (fun p hp => conform_ofJson (.scalar 0 (isComposite_of_isSpelled hk)) (hcanonical p hp))
      fun p hp => conform_ofJson he (hvalues p hp)
    rw [valueOf, (toJson_texts hincreasing).1]
    show (ofJson (.object (pairs.map fun p => (p.1, toJson p.2)))).conform (.map k e) = _
    rw [ofJson, conform, ofJsonFields_eq, List.map_map]
    rw [List.map_map] at hentries
    exact congrArg (Except.map Value.map) hentries
  | @otherKeys k e _ _ hk hother he =>
    obtain ⟨entries, rfl, hcanonical, hvalues⟩ := exists_map_of_canonical h hnull
    have hentries := conformEntries_ofJson (e := e)
      (fun p hp => conform_ofJson (.scalar 0 hk) (hcanonical p hp))
      fun p hp => conform_ofJson he (hvalues p hp)
    cases entries with
    | nil => rfl
    | cons p more =>
      rw [valueOf, toJson_pairs hother (hcanonical p List.mem_cons_self), rawValue, pairs?_pairs]
      dsimp only
      rw [conform]
      exact congrArg (Except.map Value.map) hentries

/-- The JSON form of a value nests no deeper than the type of its column. -/
theorem isReadable_toJson {room : Nat} {type : ColumnType} (htype : type.IsJson room) {v : Value}
    (h : Canonical type v) (hkeys : v.HasOrderedKeys) : (toJson v).IsReadable room := by
  by_cases hnull : v = .null
  · subst hnull
    exact .null room
  cases htype with
  | mapless hmapless => exact isReadable_of_isMapless hmapless h
  | textKeys hroom hk he =>
    subst hroom
    obtain ⟨entries, rfl, hcanonical, hvalues⟩ := exists_map_of_canonical h hnull
    obtain ⟨pairs, rfl⟩ := exists_texts hk hcanonical hkeys.1
    have hincreasing : pairs.Pairwise fun p q => p.1 < q.1 :=
      (List.pairwise_map.mp hkeys.2).imp fun hlt => hlt _ _ rfl rfl
    obtain ⟨hjson, hfields⟩ := toJson_texts hincreasing
    rw [hjson]
    refine .object hfields ?_
    intro f hf
    obtain ⟨p, hp, rfl⟩ := List.mem_map.mp hf
    exact isReadable_of_isMapless he (hvalues _ (List.mem_map_of_mem hp))
  | otherKeys hroom hk hother he =>
    subst hroom
    obtain ⟨entries, rfl, hcanonical, hvalues⟩ := exists_map_of_canonical h hnull
    cases entries with
    | nil => exact .object List.Pairwise.nil (List.forall_mem_nil _)
    | cons p more =>
      rw [toJson_pairs hother (hcanonical p List.mem_cons_self)]
      refine .array ?_
      intro j hj
      obtain ⟨q, hq, rfl⟩ := List.mem_map.mp hj
      refine .array ?_
      intro i hi
      simp only [List.mem_cons, List.not_mem_nil, or_false] at hi
      rcases hi with rfl | rfl
      · exact isReadable_of_isMapless (.scalar _ hk) (hcanonical q hq)
      · exact isReadable_of_isMapless he (hvalues q hq)

end JsonLines

end BulkTransfer
