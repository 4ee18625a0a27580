import BulkTransfer.Proofs.Value.Fitted
import BulkTransfer.Proofs.Value.Json

/-!
Maps in JSON at any depth. A map from texts is an object, which the type restores wherever it
stands. Any other map is an array of pairs, and an array is read as a map only where it is the
whole column: further inside it stays a list, which no map type takes.

- `Value.keyed`: what JSON keeps of a value, in which maps from texts are ordered by key.
- `Value.HasPairs`: a map that is written as pairs stands in the value.
- `Restores`: an outcome that is the value itself or the rejection of a list.
- `Value.restores_conform`: below the top every map written as pairs is rejected.
- `JsonLines.value_restored_unless_inner_pairs`: which values of a column are read back.
-/

namespace BulkTransfer

namespace Value

/-! ## What JSON keeps -/

mutual

/-- A value with its maps from texts in increasing order of the keys, at every level; of two
entries with one key the last stays. -/
def keyed : Value → Value
  | list items => list (keyedItems items)
  | set items => set (keyedItems items)
  | tuple items => tuple (keyedItems items)
  | map entries =>
    if allTextKeys entries then
      map ((Keyed.ofPairs (keyedFields entries)).map fun p => (text p.1, p.2))
    else map (keyedEntries entries)
  | v => v

/-- Items with their maps ordered. -/
def keyedItems : List Value → List Value
  | [] => []
  | v :: more => keyed v :: keyedItems more

/-- Entries whose keys and values have their maps ordered. -/
def keyedEntries : List (Value × Value) → List (Value × Value)
  | [] => []
  | (k, v) :: more => (keyed k, keyed v) :: keyedEntries more

/-- The values under text keys with their maps ordered. -/
def keyedFields : List (Value × Value) → List (String × Value)
  | [] => []
  | (k, v) :: more => match k with
    | text s => (s, keyed v) :: keyedFields more
    | _ => keyedFields more

end

theorem keyedItems_eq (items : List Value) : keyedItems items = items.map keyed := by
  induction items with
  | nil => rfl
  | cons v more ih => rw [keyedItems, ih, List.map_cons]

theorem keyedEntries_eq (entries : List (Value × Value)) :
    keyedEntries entries = entries.map fun p => (keyed p.1, keyed p.2) := by
  induction entries with
  | nil => rfl
  | cons p more ih => rw [keyedEntries, ih, List.map_cons]

theorem keyedFields_texts (pairs : List (String × Value)) :
    keyedFields (pairs.map fun p => (text p.1, p.2)) = pairs.map fun p => (p.1, keyed p.2) := by
  induction pairs with
  | nil => rfl
  | cons p more ih => rw [List.map_cons, keyedFields, ih, List.map_cons]

theorem exists_texts_of_allTextKeys {entries : List (Value × Value)}
    (h : allTextKeys entries = true) :
    ∃ pairs : List (String × Value), entries = pairs.map fun p => (text p.1, p.2) := by
  induction entries with
  | nil => exact ⟨[], rfl⟩
  | cons p more ih =>
    rw [allTextKeys, List.all_cons, Bool.and_eq_true] at h
    obtain ⟨pairs, rfl⟩ := ih h.2
    obtain ⟨k, v⟩ := p
    cases k with
    | text s => exact ⟨(s, v) :: pairs, rfl⟩
    | _ => cases h.1

/-- A map from texts is kept as the map from its keys to what is kept of the values. -/
theorem keyed_texts (pairs : List (String × Value)) :
    keyed (map (pairs.map fun p => (text p.1, p.2))) =
      map ((Keyed.ofPairs pairs).map fun p => (text p.1, keyed p.2)) := by
  rw [keyed, if_pos (allTextKeys_texts pairs), keyedFields_texts, Keyed.ofPairs_map, List.map_map]
  rfl

theorem ofJson_texts (pairs : List (String × Value)) :
    ofJson (toJson (map (pairs.map fun p => (text p.1, p.2)))) =
      map ((Keyed.ofPairs pairs).map fun p => (text p.1, ofJson (toJson p.2))) := by
  rw [toJson, if_pos (allTextKeys_texts pairs), entriesToFields_texts, Keyed.ofPairs_map, ofJson,
    ofJsonFields_eq, List.map_map]
  rfl

/-- The maps from texts in a value have increasing keys, at every level. -/
inductive IsKeyed : Value → Prop
  | scalar {v : Value} (h : v.isScalar = true) : IsKeyed v
  | list {items : List Value} (h : ∀ v ∈ items, IsKeyed v) : IsKeyed (list items)
  | set {items : List Value} (h : ∀ v ∈ items, IsKeyed v) : IsKeyed (set items)
  | tuple {items : List Value} (h : ∀ v ∈ items, IsKeyed v) : IsKeyed (tuple items)
  | texts {pairs : List (String × Value)} (horder : pairs.Pairwise fun p q => p.1 < q.1)
      (h : ∀ p ∈ pairs, IsKeyed p.2) : IsKeyed (map (pairs.map fun p => (text p.1, p.2)))
  | pairs {entries : List (Value × Value)} (hother : allTextKeys entries = false)
      (hk : ∀ p ∈ entries, IsKeyed p.1) (he : ∀ p ∈ entries, IsKeyed p.2) :
    IsKeyed (map entries)

theorem keyed_of_isScalar {v : Value} (h : v.isScalar = true) : v.keyed = v := by
  cases v with
  | list _ | set _ | map _ | fields _ | tuple _ => cases h
  | _ => rfl

/-- Where the keys increase, nothing is put in another order. -/
theorem IsKeyed.keyed_eq {v : Value} (h : IsKeyed v) : v.keyed = v := by
  induction h with
  | scalar h => exact keyed_of_isScalar h
  | list _ ih => rw [keyed, keyedItems_eq, List.map_congr_left ih, List.map_id']
  | set _ ih => rw [keyed, keyedItems_eq, List.map_congr_left ih, List.map_id']
  | tuple _ ih => rw [keyed, keyedItems_eq, List.map_congr_left ih, List.map_id']
  | texts horder _ ih =>
    rw [keyed_texts, Keyed.ofPairs_of_perm (.refl _) horder]
    exact congrArg map (List.map_congr_left fun p hp => by rw [ih p hp])
  | @pairs entries hother _ _ hk he =>
    have hsame : (entries.map fun p => (keyed p.1, keyed p.2)) = entries.map id :=
      List.map_congr_left fun p hp => by rw [hk p hp, he p hp]; rfl
    rw [keyed, if_neg (by rw [hother]; exact Bool.false_ne_true), keyedEntries_eq, hsame,
      List.map_id]

theorem ofJson_items (items : List Value) :
    ofJson (.array (itemsToJson items)) = list (items.map fun v => ofJson (toJson v)) := by
  rw [ofJson, ofJsonItems_eq, itemsToJson_eq, List.map_map]
  rfl

/-! ## Maps that are written as pairs -/

/-- A map with a key that is no text stands in the value, at some level. -/
inductive HasPairs : Value → Prop
  | here {entries : List (Value × Value)} (h : allTextKeys entries = false) :
    HasPairs (map entries)
  | list {items : List Value} {v : Value} (hv : v ∈ items) (h : HasPairs v) :
    HasPairs (list items)
  | set {items : List Value} {v : Value} (hv : v ∈ items) (h : HasPairs v) : HasPairs (set items)
  | tuple {items : List Value} {v : Value} (hv : v ∈ items) (h : HasPairs v) :
    HasPairs (tuple items)
  | key {entries : List (Value × Value)} {p : Value × Value} (hp : p ∈ entries)
      (h : HasPairs p.1) : HasPairs (map entries)
  | value {entries : List (Value × Value)} {p : Value × Value} (hp : p ∈ entries)
      (h : HasPairs p.2) : HasPairs (map entries)

/-- A map with a key that is no text stands inside the value, below its top. -/
def HasInnerPairs : Value → Prop
  | list items | set items | tuple items => ∃ v ∈ items, HasPairs v
  | map entries => ∃ p ∈ entries, HasPairs p.1 ∨ HasPairs p.2
  | _ => False

/-- A value has pairs at its top or inside. -/
theorem hasPairs_iff (v : Value) :
    HasPairs v ↔ (∃ entries, v = map entries ∧ allTextKeys entries = false) ∨ HasInnerPairs v := by
  constructor
  · intro h
    cases h with
    | here h => exact .inl ⟨_, rfl, h⟩
    | list hv h | set hv h | tuple hv h => exact .inr ⟨_, hv, h⟩
    | key hp h => exact .inr ⟨_, hp, .inl h⟩
    | value hp h => exact .inr ⟨_, hp, .inr h⟩
  · rintro (⟨entries, rfl, h⟩ | h)
    · exact .here h
    · cases v with
      | list items => exact h.elim fun v hv => .list hv.1 hv.2
      | set items => exact h.elim fun v hv => .set hv.1 hv.2
      | tuple items => exact h.elim fun v hv => .tuple hv.1 hv.2
      | map entries =>
        obtain ⟨p, hp, hk | he⟩ := h
        · exact .key hp hk
        · exact .value hp he
      | _ => exact h.elim

end Value

/-! ## Outcomes -/

open Value

/-- The outcome of restoring what may hold pairs: the thing itself, or the rejection of a list that
stands where a map is declared. -/
def Restores {α : Type} (pairs : Prop) (a : α) (outcome : Except ValueFailure α) : Prop :=
  (¬ pairs ∧ outcome = .ok a) ∨
    (pairs ∧ ∃ k e, outcome = .error (.cannotConvert "list" (.map k e)))

namespace Restores

variable {α β : Type} {p q : Prop} {a : α} {b : β}

theorem of_not (hp : ¬ p) : Restores p a (.ok a) := .inl ⟨hp, rfl⟩

theorem congr {outcome : Except ValueFailure α} (h : Restores p a outcome) (hpq : p ↔ q) :
    Restores q a outcome := propext hpq ▸ h

/-- The first rejection is that of the whole. -/
theorem bind {outcome : Except ValueFailure α} {next : α → Except ValueFailure β}
    (h : Restores p a outcome) (hnext : Restores q b (next a)) :
    Restores (p ∨ q) b (outcome >>= next) := by
  rcases h with ⟨hp, rfl⟩ | ⟨hp, k, e, rfl⟩
  · rcases hnext with ⟨hq, heq⟩ | ⟨hq, hfail⟩
    · exact .inl ⟨not_or.mpr ⟨hp, hq⟩, heq⟩
    · exact .inr ⟨.inr hq, hfail⟩
  · exact .inr ⟨.inl hp, k, e, rfl⟩

theorem map {outcome : Except ValueFailure α} (h : Restores p a outcome) (f : α → β) :
    Restores p (f a) (outcome.map f) := by
  rcases h with ⟨hp, rfl⟩ | ⟨hp, k, e, rfl⟩
  · exact .inl ⟨hp, rfl⟩
  · exact .inr ⟨hp, k, e, rfl⟩

theorem eq_ok_iff {outcome : Except ValueFailure α} (h : Restores p a outcome) :
    outcome = .ok a ↔ ¬ p := by
  rcases h with ⟨hp, rfl⟩ | ⟨hp, k, e, rfl⟩
  · exact ⟨fun _ => hp, fun _ => rfl⟩
  · exact iff_of_false (by simp) (not_not_intro hp)

/-- Items of one type. -/
theorem conformAll {type : ColumnType} {items : List α} {raw kept : α → Value}
    (h : ∀ v ∈ items, Restores (HasPairs (kept v)) (kept v) ((raw v).conform type)) :
    Restores (∃ v ∈ items.map kept, HasPairs v) (items.map kept)
      (Value.conformAll (items.map raw) type) := by
  induction items with
  | nil => exact of_not (by simp)
  | cons v more ih =>
    have hmore := ih fun w hw => h w (List.mem_cons_of_mem v hw)
    rw [List.map_cons, List.map_cons, Value.conformAll]
    refine congr (bind (h v List.mem_cons_self) (bind hmore (of_not not_false))) ?_
    simp

/-- Items each of a type of its own. -/
theorem conformEach {items : List (ColumnType × Value)} (raw : Value → Value)
    {kept : Value → Value}
    (h : ∀ p ∈ items, Restores (HasPairs (kept p.2)) (kept p.2) ((raw p.2).conform p.1)) :
    Restores (∃ v ∈ items.map fun p => kept p.2, HasPairs v) (items.map fun p => kept p.2)
      (Value.conformEach (items.map fun p => raw p.2) (items.map Prod.fst)) := by
  induction items with
  | nil => exact of_not (by simp)
  | cons p more ih =>
    have hmore := ih fun q hq => h q (List.mem_cons_of_mem p hq)
    rw [List.map_cons, List.map_cons, List.map_cons, Value.conformEach]
    refine congr (bind (h p List.mem_cons_self) (bind hmore (of_not not_false))) ?_
    simp

/-- Keys and values of entries. -/
theorem conformEntries {k e : ColumnType} {entries : List α} (raw kept : α → Value × Value)
    (hk : ∀ p ∈ entries, Restores (HasPairs (kept p).1) (kept p).1 ((raw p).1.conform k))
    (he : ∀ p ∈ entries, Restores (HasPairs (kept p).2) (kept p).2 ((raw p).2.conform e)) :
    Restores (∃ p ∈ entries.map kept, HasPairs p.1 ∨ HasPairs p.2) (entries.map kept)
      (Value.conformEntries (entries.map raw) k e) := by
  induction entries with
  | nil => exact of_not (by simp)
  | cons p more ih =>
    have hmore := ih (fun q hq => hk q (List.mem_cons_of_mem p hq))
      fun q hq => he q (List.mem_cons_of_mem p hq)
    rw [List.map_cons, List.map_cons, Value.conformEntries]
    refine congr (bind (hk p List.mem_cons_self) (bind (he p List.mem_cons_self)
      (bind hmore (of_not not_false)))) ?_
    simp [or_assoc]

end Restores

namespace Value

/-! ## Values inside others -/

theorem not_hasPairs_of_isScalar {v : Value} (h : v.isScalar = true) : ¬ HasPairs v := by
  intro hpairs
  cases hpairs <;> cases h

theorem restores_of_isScalar {v : Value} (hv : v.isScalar = true)
    {outcome : Except ValueFailure Value} (h : outcome = .ok v) :
    Restores (HasPairs v.keyed) v.keyed outcome := by
  rw [keyed_of_isScalar hv, h]
  exact .of_not (not_hasPairs_of_isScalar hv)

theorem asText?_keyed (v : Value) : v.keyed.asText? = v.asText? := by
  cases v with
  | map entries =>
    rw [keyed]
    split <;> rfl
  | _ => rfl

theorem allTextKeys_keyed (entries : List (Value × Value)) :
    allTextKeys (entries.map fun p => (keyed p.1, keyed p.2)) = allTextKeys entries := by
  rw [allTextKeys, allTextKeys, List.all_map]
  simp only [Function.comp_def, asText?_keyed]

/-- Of a map from texts, pairs can only stand inside. -/
theorem hasPairs_texts (pairs : List (String × Value)) :
    HasPairs (map (pairs.map fun p => (text p.1, p.2))) ↔
      HasInnerPairs (map (pairs.map fun p => (text p.1, p.2))) := by
  rw [hasPairs_iff]
  refine or_iff_right ?_
  rintro ⟨entries, heq, hother⟩
  rw [← Value.map.inj heq, allTextKeys_texts] at hother
  cases hother

/-- A value inside another is restored by its type, unless it has a map that is written as pairs:
the type finds a list there. -/
theorem restores_conform {type : ColumnType} {v : Value} (h : Canonical type v) :
    Restores (HasPairs v.keyed) v.keyed ((ofJson v.toJson).conform type) := by
  induction h with
  | null type => exact restores_of_isScalar rfl (conform_of_canonical (.null type))
  | text h s => exact restores_of_isScalar rfl (conform_of_canonical (.text h s))
  | uuid h hs => exact restores_of_isScalar rfl (conform_of_canonical (.uuid h hs))
  | int h hi =>
    have htype := Literal.isComposite_of_bits? h
    exact restores_of_isScalar rfl (conform_ofJson (.scalar 0 htype) (.int h hi))
  | bool b => exact restores_of_isScalar rfl (conform_of_canonical (.bool b))
  | bytes b => exact restores_of_isScalar rfl (conform_ofJson (.scalar 0 rfl) (.bytes b))
  | instant h => exact restores_of_isScalar rfl (conform_ofJson (.scalar 0 rfl) (.instant h))
  | @list e items _ ih =>
    rw [toJson, ofJson_items, conform, keyed, keyedItems_eq]
    refine ((Restores.conformAll ih).map Value.list).congr ?_
    rw [hasPairs_iff]
    simp [HasInnerPairs]
  | @set e items _ ih =>
    rw [toJson, ofJson_items, conform, keyed, keyedItems_eq]
    refine ((Restores.conformAll ih).map Value.set).congr ?_
    rw [hasPairs_iff]
    simp [HasInnerPairs]
  | @vector e n items _ ih =>
    rw [toJson, ofJson_items, conform, keyed, keyedItems_eq]
    refine ((Restores.conformAll ih).map Value.list).congr ?_
    rw [hasPairs_iff]
    simp [HasInnerPairs]
  | @map k e entries hk he hkey hvalue =>
    by_cases htexts : allTextKeys entries = true
    · obtain ⟨pairs, rfl⟩ := exists_texts_of_allTextKeys htexts
      have hmem : ∀ p ∈ Keyed.ofPairs pairs,
          (Value.text p.1, p.2) ∈ pairs.map fun p => (Value.text p.1, p.2) := fun p hp =>
        List.mem_map_of_mem (f := fun p => (Value.text p.1, p.2)) (Keyed.mem_of_mem_ofPairs hp)
      have hkeys : ∀ p ∈ Keyed.ofPairs pairs,
          Restores (HasPairs (.text p.1)) (.text p.1) (conform (.text p.1) k) := by
        intro p hp
        have hfirst := hkey _ (hmem p hp)
        rw [toJson, ofJson, keyed_of_isScalar rfl] at hfirst
        exact hfirst
      have hentries := Restores.conformEntries
        (fun p : String × Value => (.text p.1, ofJson (toJson p.2)))
        (fun p => (.text p.1, keyed p.2)) hkeys fun p hp => hvalue _ (hmem p hp)
      rw [ofJson_texts, conform, keyed_texts]
      refine (hentries.map Value.map).congr ?_
      have hinner := hasPairs_texts ((Keyed.ofPairs pairs).map fun p => (p.1, keyed p.2))
      rw [List.map_map] at hinner
      exact hinner.symm
    · have hother : allTextKeys entries = false := Bool.eq_false_iff.mpr htexts
      have hkept : allTextKeys (keyedEntries entries) = false := by
        rw [keyedEntries_eq, allTextKeys_keyed, hother]
      rw [toJson, if_neg htexts, ofJson, keyed, if_neg htexts]
      exact .inr ⟨.here hkept, k, e, by rw [conform] <;> simp⟩
  | @tuple types items hlen _ ih =>
    have hitems := Restores.conformEach (fun v => ofJson (toJson v)) ih
    have hvalues : ∀ f : Value → Value, ((types.zip items).map fun p => f p.2) = items.map f := by
      intro f
      have hsecond : (types.zip items).map Prod.snd = items :=
        List.map_snd_zip (Nat.le_of_eq hlen)
      exact (List.map_map ..).symm.trans (congrArg (List.map f) hsecond)
    rw [hvalues keyed, hvalues fun v => ofJson (toJson v),
      List.map_fst_zip (Nat.le_of_eq hlen.symm)] at hitems
    rw [toJson, ofJson_items, conform, keyed, keyedItems_eq, List.length_map,
      if_neg (not_not_intro hlen)]
    refine (hitems.map Value.tuple).congr ?_
    rw [hasPairs_iff]
    simp [HasInnerPairs]

end Value

/-! ## Values of columns -/

namespace JsonLines

open Value

/-- The value before it is fitted is that of the JSON form, unless it is a map written as pairs. -/
theorem rawValue_toJson {type : ColumnType} {v : Value} (h : Canonical type v)
    (hv : ∀ entries, v = .map entries → allTextKeys entries = true) :
    rawValue (toJson v) (some type) = ofJson (toJson v) := by
  unfold rawValue
  split
  · next items k e hitems htype =>
    obtain rfl := Option.some.inj htype
    have hnull : v ≠ .null := by
      rintro rfl
      cases hitems
    obtain ⟨entries, rfl, -⟩ := exists_map_of_canonical h hnull
    rw [toJson, if_pos (hv entries rfl)] at hitems
    cases hitems
  · rfl

/-- The value of a column is restored by its type, unless a map inside it is written as pairs. -/
theorem restores_valueOf {type : ColumnType} {v : Value} (h : Canonical type v) :
    Restores (HasInnerPairs v.keyed) v.keyed (valueOf (toJson v) (some type)) := by
  by_cases hpairs : ∃ entries, v = .map entries ∧ allTextKeys entries = false
  · -- The whole column is a map written as pairs, which is undone here and only here.
    obtain ⟨entries, rfl, hother⟩ := hpairs
    have htexts : ¬ allTextKeys entries = true := by
      rw [hother]
      exact Bool.false_ne_true
    cases h with
    | @map k e _ hk he =>
      have hentries := Restores.conformEntries
        (fun p : Value × Value => (ofJson (toJson p.1), ofJson (toJson p.2)))
        (fun p => (keyed p.1, keyed p.2)) (fun p hp => restores_conform (hk p hp))
        fun p hp => restores_conform (he p hp)
      rw [valueOf, toJson, if_neg htexts, entriesToPairs_eq, rawValue, pairs?_pairs, keyed,
        if_neg htexts, keyedEntries_eq]
      dsimp only
      rw [conform]
      exact hentries.map Value.map
  · have htop : ∀ entries, v = .map entries → allTextKeys entries = true := by
      intro entries hv
      cases hkeys : allTextKeys entries with
      | true => rfl
      | false => exact absurd ⟨entries, hv, hkeys⟩ hpairs
    rw [valueOf, rawValue_toJson h htop]
    refine (restores_conform h).congr ?_
    cases v with
    | map entries =>
      obtain ⟨pairs, rfl⟩ := exists_texts_of_allTextKeys (htop entries rfl)
      have hinner := hasPairs_texts ((Keyed.ofPairs pairs).map fun p => (p.1, keyed p.2))
      rw [List.map_map] at hinner
      rw [keyed_texts]
      exact hinner
    | _ =>
      rw [hasPairs_iff]
      simp [keyed]

/-- A value of a column is restored from its JSON form just when no map inside it has a key that is
no text; else it is rejected, since a list is found where the map is declared. What is restored is
the value with its maps from texts in order of the keys, which is the value itself where they are
so already. -/
theorem value_restored_unless_inner_pairs {type : ColumnType} {v : Value} (h : Canonical type v) :
    (valueOf (toJson v) (some type) = .ok v.keyed ↔ ¬ HasInnerPairs v.keyed) ∧
      (HasInnerPairs v.keyed →
        ∃ k e, valueOf (toJson v) (some type) = .error (.cannotConvert "list" (.map k e))) ∧
      (IsKeyed v → v.keyed = v) := by
  have hrestores := restores_valueOf h
  refine ⟨hrestores.eq_ok_iff, fun hinner => ?_, IsKeyed.keyed_eq⟩
  rcases hrestores with ⟨hnone, -⟩ | ⟨-, hfail⟩
  · exact absurd hinner hnone
  · exact hfail

/-- A map from numbers to maps from texts is read back with the texts in order; in a list the map
from numbers is rejected. -/
theorem value_restored_unless_inner_pairs_numbers :
    let texts := Value.map [(.text "b", .null), (.text "a", .bool true)]
    let sorted := Value.map [(.text "a", .bool true), (.text "b", .null)]
    let type := ColumnType.map .int (.map .text .boolean)
    valueOf (toJson (.map [(.int 7, texts)])) (some type) = .ok (.map [(.int 7, sorted)]) ∧
      ∃ k e, valueOf (toJson (.list [.map [(.int 7, texts)]])) (some (.list type)) =
        .error (.cannotConvert "list" (.map k e)) := by
  intro texts sorted type
  have htexts : Canonical (.map .text .boolean) texts :=
    .map (List.forall_mem_cons.mpr ⟨.text rfl _, List.forall_mem_singleton.mpr (.text rfl _)⟩)
      (List.forall_mem_cons.mpr ⟨.null _, List.forall_mem_singleton.mpr (.bool true)⟩)
  have hmap : Canonical type (.map [(.int 7, texts)]) :=
    .map (List.forall_mem_singleton.mpr (.int rfl (by decide)))
      (List.forall_mem_singleton.mpr htexts)
  have hlist : Canonical (.list type) (.list [.map [(.int 7, texts)]]) :=
    .list (List.forall_mem_singleton.mpr hmap)
  have hnone : ¬ HasInnerPairs (.map [(.int 7, sorted)]) := by
    rintro ⟨p, hp, hpairs⟩
    obtain rfl := List.mem_singleton.mp hp
    rcases hpairs with hkey | hvalue
    · exact not_hasPairs_of_isScalar rfl hkey
    · obtain ⟨q, hq, hinner⟩ := (hasPairs_texts [("a", .bool true), ("b", .null)]).mp hvalue
      simp only [List.map_cons, List.map_nil, List.mem_cons, List.not_mem_nil, or_false] at hq
      rcases hq with rfl | rfl
      all_goals exact hinner.elim (not_hasPairs_of_isScalar rfl) (not_hasPairs_of_isScalar rfl)
  refine ⟨(value_restored_unless_inner_pairs hmap).1.mpr hnone, ?_⟩
  exact (value_restored_unless_inner_pairs hlist).2.1 ⟨_, List.mem_singleton_self _, .here rfl⟩

/-- A list of maps from numbers is not read back. -/
theorem list_of_maps_rejected :
    let type := ColumnType.list (.map .int .text)
    let v := Value.list [.map [(.int 1, .text "a")]]
    Canonical type v ∧ v.keyed = v ∧
      valueOf (toJson v) (some type) = .error (.cannotConvert "list" (.map .int .text)) := by
  have hmap : Canonical (.map .int .text) (.map [(.int 1, .text "a")]) :=
    .map (List.forall_mem_singleton.mpr (.int rfl (by decide)))
      (List.forall_mem_singleton.mpr (.text rfl _))
  exact ⟨.list (List.forall_mem_singleton.mpr hmap), rfl, rfl⟩

end JsonLines

end BulkTransfer
