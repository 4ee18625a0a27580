import BulkTransfer.Keyed

/-!
Maps in increasing order of their keys. Pairs with different keys make the same map in whatever
order they are put: the one list of them in which the keys increase.

- `Keyed.ofPairs_perm`: the map holds the pairs and no others.
- `Keyed.ofPairs_of_perm`: pairs of a map in any order make the map again.
- `Keyed.ofPairs_map`: changing all values commutes with making the map.
- `Keyed.get?_ofPairs`: each pair is found under its key.
-/

namespace BulkTransfer.Keyed

variable {α : Type}

/-- The keys increase, so that none stands twice. -/
def IsIncreasing (m : Keyed α) : Prop := m.Pairwise fun p q => p.1 < q.1

theorem mem_insert {key : String} {value : α} {m : Keyed α} {p : String × α}
    (h : p ∈ m.insert key value) : p = (key, value) ∨ p ∈ m := by
  induction m with
  | nil => exact .inl (List.mem_singleton.mp h)
  | cons q rest ih =>
    obtain ⟨k, v⟩ := q
    rw [insert] at h
    split at h
    · exact (List.mem_cons.mp h).imp_right (List.mem_cons_of_mem _)
    · split at h
      · exact List.mem_cons.mp h
      · rcases List.mem_cons.mp h with rfl | hrest
        · exact .inr List.mem_cons_self
        · exact (ih hrest).imp_right (List.mem_cons_of_mem _)

/-- An insertion keeps the order. -/
theorem isIncreasing_insert {m : Keyed α} (h : m.IsIncreasing) (key : String) (value : α) :
    (m.insert key value).IsIncreasing := by
  induction m with
  | nil => exact List.pairwise_singleton _ _
  | cons q rest ih =>
    obtain ⟨k, v⟩ := q
    obtain ⟨hfirst, hrest⟩ := List.pairwise_cons.mp h
    rw [insert]
    split
    · next heq =>
      subst heq
      exact List.pairwise_cons.mpr ⟨hfirst, hrest⟩
    · next hne =>
      split
      · next hlt =>
        refine List.pairwise_cons.mpr ⟨?_, h⟩
        intro p hp
        rcases List.mem_cons.mp hp with rfl | hmem
        · exact hlt
        · exact String.lt_trans hlt (hfirst p hmem)
      · next hge =>
        have hlt : k < key := by
          by_cases hk : k < key
          · exact hk
          · exact absurd (String.le_antisymm (String.not_lt.mp hk) (String.not_lt.mp hge)) hne
        refine List.pairwise_cons.mpr ⟨?_, ih hrest⟩
        intro p hp
        rcases mem_insert hp with rfl | hmem
        · exact hlt
        · exact hfirst p hmem

/-- A new key adds its pair. -/
theorem insert_perm {m : Keyed α} {key : String} (h : key ∉ m.keys) (value : α) :
    (m.insert key value).Perm ((key, value) :: m) := by
  induction m with
  | nil => exact .refl _
  | cons q rest ih =>
    obtain ⟨k, v⟩ := q
    rw [keys, List.map_cons, List.mem_cons, not_or] at h
    rw [insert, if_neg h.1]
    split
    · exact .refl _
    · exact ((ih h.2).cons _).trans (.swap _ _ _)

/-- The map of pairs with different keys holds these pairs, in increasing order. -/
theorem foldl_insert_perm (pairs : List (String × α)) {m : Keyed α} (hm : m.IsIncreasing)
    (h : ((m ++ pairs).map Prod.fst).Nodup) :
    (pairs.foldl (fun m p => m.insert p.1 p.2) m).Perm (m ++ pairs) ∧
      (pairs.foldl (fun m p => m.insert p.1 p.2) m).IsIncreasing := by
  induction pairs generalizing m with
  | nil =>
    rw [List.append_nil]
    exact ⟨.refl _, hm⟩
  | cons p rest ih =>
    have hnew : p.1 ∉ m.keys := by
      rw [List.map_append, List.nodup_append] at h
      intro hmem
      exact h.2.2 _ hmem _ List.mem_cons_self rfl
    have hins : (m.insert p.1 p.2).Perm (p :: m) := insert_perm hnew p.2
    have hmove : (m.insert p.1 p.2 ++ rest).Perm (m ++ p :: rest) :=
      (hins.append_right rest).trans List.perm_middle.symm
    obtain ⟨hperm, hinc⟩ := ih (isIncreasing_insert hm p.1 p.2) ((hmove.map _).nodup_iff.mpr h)
    exact ⟨hperm.trans hmove, hinc⟩

theorem ofPairs_perm {pairs : List (String × α)} (h : (pairs.map Prod.fst).Nodup) :
    (ofPairs pairs).Perm pairs ∧ (ofPairs pairs).IsIncreasing :=
  foldl_insert_perm pairs (m := []) List.Pairwise.nil h

theorem IsIncreasing.nodup {m : Keyed α} (h : m.IsIncreasing) : (m.map Prod.fst).Nodup := by
  refine List.pairwise_map.mpr (h.imp ?_)
  intro p q hlt heq
  rw [heq] at hlt
  exact String.lt_irrefl _ hlt

/-- The pairs of a map make the map, in whatever order they are put. -/
theorem ofPairs_of_perm {pairs : List (String × α)} {m : Keyed α} (hperm : pairs.Perm m)
    (h : m.IsIncreasing) : ofPairs pairs = m := by
  obtain ⟨hof, hinc⟩ := ofPairs_perm ((hperm.map Prod.fst).nodup_iff.mpr h.nodup)
  refine List.Perm.eq_of_pairwise ?_ hinc h (hof.trans hperm)
  intro p q _ _ hlt hgt
  exact absurd hgt (String.lt_asymm hlt)

theorem insert_map {β : Type} (f : α → β) (key : String) (value : α) (m : Keyed α) :
    Keyed.insert key (f value) (m.map fun p => (p.1, f p.2)) =
      (m.insert key value).map fun p => (p.1, f p.2) := by
  induction m with
  | nil => rfl
  | cons q rest ih =>
    obtain ⟨k, v⟩ := q
    rw [List.map_cons, insert, insert]
    split
    · rfl
    · split
      · rfl
      · exact congrArg ((k, f v) :: ·) ih

/-- Changing all values commutes with making the map. -/
theorem ofPairs_map {β : Type} (f : α → β) (pairs : List (String × α)) :
    ofPairs (pairs.map fun p => (p.1, f p.2)) = (ofPairs pairs).map fun p => (p.1, f p.2) := by
  suffices ∀ m : Keyed α, (pairs.map fun p => (p.1, f p.2)).foldl
      (fun m p => Keyed.insert p.1 p.2 m) (m.map fun p => (p.1, f p.2)) =
        (pairs.foldl (fun m p => m.insert p.1 p.2) m).map fun p => (p.1, f p.2) from this []
  induction pairs with
  | nil => exact fun _ => rfl
  | cons p rest ih =>
    intro m
    rw [List.map_cons, List.foldl_cons, List.foldl_cons]
    dsimp only
    rw [insert_map]
    exact ih _

theorem mem_of_mem_ofPairs {pairs : List (String × α)} {p : String × α} (h : p ∈ ofPairs pairs) :
    p ∈ pairs := by
  suffices ∀ m : Keyed α, p ∈ pairs.foldl (fun m p => m.insert p.1 p.2) m → p ∈ m ∨ p ∈ pairs from
    (this [] h).resolve_left List.not_mem_nil
  clear h
  induction pairs with
  | nil => exact fun m hp => .inl hp
  | cons q rest ih =>
    intro m hp
    rcases ih _ hp with hin | hrest
    · rcases mem_insert hin with rfl | hm
      · exact .inr List.mem_cons_self
      · exact .inl hm
    · exact .inr (List.mem_cons_of_mem q hrest)

theorem get?_of_mem {m : Keyed α} (h : (m.map Prod.fst).Nodup) {p : String × α} (hp : p ∈ m) :
    m.get? p.1 = some p.2 := by
  induction m with
  | nil => nomatch hp
  | cons q rest ih =>
    obtain ⟨k, v⟩ := q
    rw [List.map_cons, List.nodup_cons] at h
    rw [get?]
    rcases List.mem_cons.mp hp with rfl | hmem
    · exact if_pos rfl
    · have hkey : p.1 ∈ rest.map Prod.fst := List.mem_map_of_mem hmem
      have hne : p.1 ≠ k := fun heq => h.1 (heq ▸ hkey)
      rw [if_neg hne]
      exact ih h.2 hmem

/-- Where keys are different, each pair is found under its key. -/
theorem get?_ofPairs {pairs : List (String × α)} (h : (pairs.map Prod.fst).Nodup)
    {p : String × α} (hp : p ∈ pairs) : (ofPairs pairs).get? p.1 = some p.2 := by
  have hperm := (ofPairs_perm h).1
  exact get?_of_mem ((hperm.map Prod.fst).nodup_iff.mpr h) (hperm.mem_iff.mpr hp)

end BulkTransfer.Keyed
