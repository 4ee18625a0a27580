import BulkTransfer.Literal.Conform
import BulkTransfer.Proofs.Literal.Word

/-!
Canonical values are not changed when they are fitted to their type.

- `Value.conform_of_canonical`: a canonical value already fits.
-/

namespace BulkTransfer.Value

open Literal

theorem conformAll_of_mem {type : ColumnType} {items : List Value}
    (h : ∀ v ∈ items, v.conform type = .ok v) : conformAll items type = .ok items := by
  induction items with
  | nil => rw [conformAll]
  | cons v more ih =>
    rw [conformAll, h v List.mem_cons_self, ih fun w hw => h w (List.mem_cons_of_mem v hw)]
    rfl

theorem conformEach_of_mem {types : List ColumnType} {items : List Value}
    (hlen : items.length = types.length)
    (h : ∀ p ∈ types.zip items, p.2.conform p.1 = .ok p.2) :
    conformEach items types = .ok items := by
  induction items generalizing types with
  | nil =>
    rw [conformEach]
    simp
  | cons v more ih =>
    cases types with
    | nil => nomatch hlen
    | cons type types =>
      have hmore := ih (Nat.succ.inj hlen) fun p hp => h p (List.mem_cons_of_mem _ hp)
      rw [conformEach, h (type, v) List.mem_cons_self, hmore]
      rfl

theorem conformEntries_of_mem {keyType valueType : ColumnType} {entries : List (Value × Value)}
    (hk : ∀ p ∈ entries, p.1.conform keyType = .ok p.1)
    (hv : ∀ p ∈ entries, p.2.conform valueType = .ok p.2) :
    conformEntries entries keyType valueType = .ok entries := by
  induction entries with
  | nil => rw [conformEntries]
  | cons p more ih =>
    obtain ⟨k, v⟩ := p
    have hmore := ih (fun q hq => hk q (List.mem_cons_of_mem _ hq))
      fun q hq => hv q (List.mem_cons_of_mem _ hq)
    rw [conformEntries, hk (k, v) List.mem_cons_self, hv (k, v) List.mem_cons_self, hmore]
    rfl

/-- A canonical value already fits its type. -/
theorem conform_of_canonical {type : ColumnType} {v : Value} (h : Canonical type v) :
    v.conform type = .ok v := by
  induction h with
  | null type =>
    rw [conform]
    · rfl
    all_goals simp
  | text h s =>
    rw [conform, conformText, isComposite_of_isTextual h, if_neg Bool.false_ne_true,
      ofText_textual h]
  | uuid h hs =>
    rw [conform, conformText, isComposite_of_isUuid h, if_neg Bool.false_ne_true, ofText_uuid h hs]
  | int h hi =>
    rw [conform]
    · exact ofInt_integer (isInteger_of_bits? h) _
    all_goals simp
  | bool b =>
    rw [conform]
    · rfl
    all_goals simp
  | bytes b =>
    rw [conform]
    · rfl
    all_goals simp
  | instant h =>
    rw [conform]
    · rfl
    all_goals simp
  | list _ ih =>
    rw [conform]
    rw [conformAll_of_mem ih]
    rfl
  | set _ ih =>
    rw [conform]
    rw [conformAll_of_mem ih]
    rfl
  | vector n _ ih =>
    rw [conform]
    rw [conformAll_of_mem ih]
    rfl
  | map _ _ hk he =>
    rw [conform]
    rw [conformEntries_of_mem hk he]
    rfl
  | tuple hlen _ ih =>
    rw [conform]
    rw [if_neg (not_not_intro hlen), conformEach_of_mem hlen ih]
    rfl

end BulkTransfer.Value
