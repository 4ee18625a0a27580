import BulkTransfer.Partition.Writer

/-!
Lists under keys: the open files and the tallies of a dataset that is being written.

- `find?_of_mem`: where keys are different, each finds its entry.
- `remove_getLast`: the last entry is removed under its key.
- `find?_remove_of_ne`: a key that is removed is not missed by another.
- `find?_update`: an update is seen under its key and nowhere else.
- `eraseDups_filter`: repetitions can be dropped before or after a selection.
-/

namespace BulkTransfer.Partition

variable {α : Type} {key : Key} {l : List (Key × α)}

theorem find?_cons (key : Key) (e : Key × α) (l : List (Key × α)) :
    find? key (e :: l) = if e.1 = key then some e.2 else find? key l := by
  unfold find?
  rw [List.find?_cons]
  by_cases hkey : e.1 = key
  · rw [if_pos hkey, hkey, beq_self_eq_true]
    rfl
  · rw [if_neg hkey, beq_eq_false_iff_ne.mpr hkey]

theorem find?_eq_none : find? key l = none ↔ key ∉ l.map Prod.fst := by
  induction l with
  | nil => exact ⟨fun _ => List.not_mem_nil, fun _ => rfl⟩
  | cons e rest ih =>
    rw [find?_cons, List.map_cons, List.mem_cons, not_or]
    by_cases hkey : e.1 = key
    · rw [if_pos hkey]
      exact ⟨fun h => absurd h (Option.some_ne_none e.2), fun h => absurd hkey.symm h.1⟩
    · rw [if_neg hkey, ih]
      exact ⟨fun h => ⟨Ne.symm hkey, h⟩, fun h => h.2⟩

theorem mem_of_find? {a : α} (h : find? key l = some a) : (key, a) ∈ l := by
  induction l with
  | nil => cases h
  | cons e rest ih =>
    rw [find?_cons] at h
    split at h
    · next hkey =>
      obtain rfl := Option.some.inj h
      subst hkey
      exact List.mem_cons_self
    · exact List.mem_cons_of_mem e (ih h)

theorem find?_of_mem (hnodup : (l.map Prod.fst).Nodup) {a : α} (h : (key, a) ∈ l) :
    find? key l = some a := by
  induction l with
  | nil => cases h
  | cons e rest ih =>
    rw [List.map_cons, List.nodup_cons] at hnodup
    rw [find?_cons]
    rcases List.mem_cons.mp h with rfl | hmem
    · exact if_pos rfl
    · have hne : e.1 ≠ key := by
        intro heq
        exact hnodup.1 (heq ▸ List.mem_map_of_mem hmem)
      rw [if_neg hne]
      exact ih hnodup.2 hmem

theorem mem_remove {e : Key × α} : e ∈ remove key l ↔ e ∈ l ∧ e.1 ≠ key := by
  unfold remove
  rw [List.mem_filter, bne_iff_ne]

theorem mem_keys_remove {other : Key} :
    other ∈ (remove key l).map Prod.fst ↔ other ∈ l.map Prod.fst ∧ other ≠ key := by
  constructor
  · intro h
    obtain ⟨e, he, rfl⟩ := List.mem_map.mp h
    obtain ⟨hmem, hne⟩ := mem_remove.mp he
    exact ⟨List.mem_map_of_mem hmem, hne⟩
  · rintro ⟨h, hne⟩
    obtain ⟨e, he, rfl⟩ := List.mem_map.mp h
    exact List.mem_map_of_mem (mem_remove.mpr ⟨he, hne⟩)

theorem nodup_remove (key : Key) (h : (l.map Prod.fst).Nodup) :
    ((remove key l).map Prod.fst).Nodup :=
  h.sublist (List.filter_sublist.map Prod.fst)

theorem find?_remove_self (key : Key) (l : List (Key × α)) : find? key (remove key l) = none :=
  find?_eq_none.mpr fun hmem => (mem_keys_remove.mp hmem).2 rfl

theorem find?_remove_of_ne {other : Key} (h : other ≠ key) (l : List (Key × α)) :
    find? other (remove key l) = find? other l := by
  induction l with
  | nil => rfl
  | cons e rest ih =>
    by_cases hkey : e.1 = key
    · have hother : ¬ e.1 = other := fun heq => h (heq.symm.trans hkey)
      rw [find?_cons, if_neg hother, ← ih]
      exact congrArg (find? other) (List.filter_cons_of_neg (by simp [hkey]))
    · have hcons : remove key (e :: rest) = e :: remove key rest :=
        List.filter_cons_of_pos (by simp [hkey])
      rw [hcons, find?_cons, find?_cons, ih]

/-- Where keys are different, the order does not matter. -/
theorem find?_of_perm (key : Key) {l' : List (Key × α)} (hnodup : (l.map Prod.fst).Nodup)
    (h : l.Perm l') : find? key l' = find? key l := by
  match hfind : find? key l with
  | some a =>
    exact find?_of_mem ((h.map Prod.fst).nodup_iff.mp hnodup) (h.mem_iff.mp (mem_of_find? hfind))
  | none =>
    rw [find?_eq_none] at hfind ⊢
    exact fun hmem => hfind ((h.map Prod.fst).mem_iff.mpr hmem)

theorem remove_of_not_mem (h : key ∉ l.map Prod.fst) : remove key l = l := by
  refine List.filter_eq_self.mpr fun e he => ?_
  rw [bne_iff_ne]
  rintro rfl
  exact h (List.mem_map_of_mem he)

/-- Where keys are different, the last entry alone is removed under its key. -/
theorem remove_getLast {e : Key × α} (hnodup : (l.map Prod.fst).Nodup)
    (h : l.getLast? = some e) : remove e.1 l = l.dropLast := by
  obtain ⟨before, rfl⟩ := List.getLast?_eq_some_iff.mp h
  rw [List.map_append, List.nodup_append] at hnodup
  have hbefore : e.1 ∉ before.map Prod.fst := fun hmem =>
    hnodup.2.2 _ hmem _ List.mem_cons_self rfl
  have hlast : remove e.1 [e] = [] := by
    unfold remove
    rw [List.filter_cons_of_neg (by simp), List.filter_nil]
  have hsplit : remove e.1 (before ++ [e]) = remove e.1 before ++ remove e.1 [e] :=
    List.filter_append ..
  rw [hsplit, remove_of_not_mem hbefore, hlast, List.append_nil, List.dropLast_concat]

theorem remove_head {e : Key × α} (hnodup : ((e :: l).map Prod.fst).Nodup) :
    remove e.1 (e :: l) = l := by
  rw [List.map_cons, List.nodup_cons] at hnodup
  have hcons : remove e.1 (e :: l) = remove e.1 l := List.filter_cons_of_neg (by simp)
  rw [hcons, remove_of_not_mem hnodup.1]

theorem find?_update (key other : Key) (default : α) (f : α → α) (l : List (Key × α)) :
    find? other (update key default f l) =
      if other = key then some (f ((find? key l).getD default)) else find? other l := by
  induction l with
  | nil =>
    rw [update, find?_cons]
    by_cases hkey : other = key
    · rw [if_pos hkey, if_pos hkey.symm]
      rfl
    · rw [if_neg hkey, if_neg (Ne.symm hkey)]
  | cons e rest ih =>
    obtain ⟨k, a⟩ := e
    rw [update]
    by_cases hk : k = key
    · subst hk
      rw [if_pos rfl, find?_cons, find?_cons, if_pos rfl, Option.getD_some]
      by_cases hkey : k = other
      · rw [if_pos hkey, if_pos hkey.symm]
      · rw [if_neg hkey, if_neg (Ne.symm hkey), find?_cons, if_neg hkey]
    · rw [if_neg hk, find?_cons, ih, find?_cons, find?_cons, if_neg hk]
      by_cases hkey : k = other
      · rw [if_pos hkey, if_pos hkey, if_neg]
        rintro rfl
        exact hk hkey
      · rw [if_neg hkey, if_neg hkey]

theorem map_fst_update (key : Key) (default : α) (f : α → α) (l : List (Key × α)) :
    (update key default f l).map Prod.fst =
      if key ∈ l.map Prod.fst then l.map Prod.fst else l.map Prod.fst ++ [key] := by
  induction l with
  | nil => rfl
  | cons e rest ih =>
    obtain ⟨k, a⟩ := e
    rw [update]
    by_cases hk : k = key
    · subst hk
      simp
    · rw [if_neg hk, List.map_cons, ih]
      simp only [List.map_cons, List.mem_cons, Ne.symm hk, false_or]
      split <;> rfl

theorem nodup_update (key : Key) (default : α) (f : α → α) (h : (l.map Prod.fst).Nodup) :
    ((update key default f l).map Prod.fst).Nodup := by
  rw [map_fst_update]
  split
  · exact h
  · next hnew =>
    rw [List.nodup_append]
    refine ⟨h, List.pairwise_singleton _ key, ?_⟩
    rintro k hk _ hkey rfl
    rw [List.mem_singleton] at hkey
    exact hnew (hkey ▸ hk)

/-! ## Lists without repetitions -/

theorem nodup_eraseDups {α : Type} [BEq α] [LawfulBEq α] (l : List α) : l.eraseDups.Nodup := by
  match l with
  | [] => exact List.Pairwise.nil
  | a :: more =>
    rw [List.eraseDups_cons, List.nodup_cons]
    refine ⟨fun hmem => ?_, nodup_eraseDups _⟩
    have hne := (List.mem_filter.mp (List.mem_eraseDups.mp hmem)).2
    simp at hne
termination_by l.length
decreasing_by exact Nat.lt_succ_of_le (List.length_filter_le _ _)

/-- Repetitions can be dropped before or after a selection. -/
theorem eraseDups_filter {α : Type} [BEq α] [LawfulBEq α] (p : α → Bool) (l : List α) :
    (l.filter p).eraseDups = l.eraseDups.filter p := by
  match l with
  | [] => rfl
  | a :: more =>
    have hswap : (more.filter p).filter (fun b => !b == a) =
        (more.filter fun b => !b == a).filter p := by
      rw [List.filter_filter, List.filter_filter]
      exact List.filter_congr fun b _ => Bool.and_comm ..
    have hrest := eraseDups_filter p (more.filter fun b => !b == a)
    rw [List.eraseDups_cons, List.filter_cons, List.filter_cons]
    split
    · rw [List.eraseDups_cons, hswap, hrest]
    · next hp =>
      rw [← hrest, ← hswap]
      refine congrArg List.eraseDups (List.filter_eq_self.mpr fun b hb => ?_).symm
      rw [Bool.not_eq_true', beq_eq_false_iff_ne]
      rintro rfl
      exact hp (List.mem_filter.mp hb).2
termination_by l.length
decreasing_by exact Nat.lt_succ_of_le (List.length_filter_le _ _)

end BulkTransfer.Partition
