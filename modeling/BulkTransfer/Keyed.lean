/-!
Association lists kept in increasing order of their keys. Options, session tables and the fields
of a JSON object are listed in this order.

- `get?_insert`: an insertion is seen at its own key and nowhere else.
-/

namespace BulkTransfer

/-- Values under text keys, in increasing order of the keys. -/
abbrev Keyed (α : Type) := List (String × α)

namespace Keyed

variable {α : Type}

/-- Puts a value under a key, in place of an earlier one. -/
def insert (key : String) (value : α) : Keyed α → Keyed α
  | [] => [(key, value)]
  | (k, v) :: rest =>
    if key = k then (key, value) :: rest
    else if key < k then (key, value) :: (k, v) :: rest
    else (k, v) :: insert key value rest

/-- The value under a key. -/
def get? (key : String) : Keyed α → Option α
  | [] => none
  | (k, v) :: rest => if key = k then some v else get? key rest

/-- Puts pairs one after the other, so that of two with one key the last stays. -/
def ofPairs (pairs : List (String × α)) : Keyed α :=
  pairs.foldl (fun m p => m.insert p.1 p.2) []

/-- The keys in order. -/
def keys (m : Keyed α) : List String := m.map Prod.fst

@[simp]
theorem get?_insert_self (key : String) (value : α) (m : Keyed α) :
    (m.insert key value).get? key = some value := by
  induction m with
  | nil => simp [insert, get?]
  | cons p rest ih =>
    obtain ⟨k, v⟩ := p
    simp only [insert]
    split
    · simp [get?]
    · split
      · simp [get?]
      · next h _ => simp [get?, h, ih]

theorem get?_insert_of_ne {key other : String} (h : other ≠ key) (value : α) (m : Keyed α) :
    (m.insert key value).get? other = m.get? other := by
  induction m with
  | nil => simp [insert, get?, h]
  | cons p rest ih =>
    obtain ⟨k, v⟩ := p
    simp only [insert]
    split
    · next hk => subst hk; simp [get?, h]
    · split
      · simp [get?, h]
      · simp [get?, ih]

theorem get?_insert (key other : String) (value : α) (m : Keyed α) :
    (m.insert key value).get? other = if other = key then some value else m.get? other := by
  split
  · next h => rw [h, get?_insert_self]
  · next h => exact get?_insert_of_ne h value m

end Keyed

end BulkTransfer
