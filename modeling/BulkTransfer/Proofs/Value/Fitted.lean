import BulkTransfer.Proofs.Literal.Word

/-!
Values without parts that were fitted to a type. A type keeps some kinds of values as they are and
turns others into these, so that fitting a second time changes nothing.

- `Value.readUuid_eq_ok`, `Value.readVarint_eq_ok` and the others: the kinds that texts are read as.
- `Value.fitScalar_idem`: what a value was fitted to fits.
- `Value.eq_null_of_fitScalar`: nothing but null fits a type with parts.
-/

namespace BulkTransfer.Value

/-- Whether the value has no parts. -/
def isScalar : Value → Bool
  | list _ | set _ | map _ | fields _ | tuple _ => false
  | _ => true

/-! ## What texts are read as -/

section Readers

variable {s : String} {w : Value}

theorem readUuid_eq_ok (h : readUuid s = .ok w) : ∃ t, w = text t ∧ Uuid.IsCanonical t := by
  unfold readUuid at h
  split at h
  · next u hu =>
    exact ⟨_, (Except.ok.inj h).symm, u, Uuid.isValid_of_parse? hu, String.toList_ofList⟩
  · cases h

theorem readInteger_eq_ok (h : readInteger s = .ok w) : ∃ i, w = int i := by
  unfold readInteger at h
  split at h
  · exact ⟨_, (Except.ok.inj h).symm⟩
  · cases h

theorem readFloat_eq_ok (h : readFloat s = .ok w) : ∃ x, w = float x := by
  unfold readFloat at h
  split at h
  · exact ⟨_, (Except.ok.inj h).symm⟩
  · cases h

theorem readVarint_eq_ok (h : readVarint s = .ok w) : (∃ i, w = int i) ∨ ∃ t, w = decimal t := by
  unfold readVarint at h
  dsimp only at h
  split at h
  · exact .inl ⟨_, (Except.ok.inj h).symm⟩
  · split at h
    · exact .inr ⟨_, (Except.ok.inj h).symm⟩
    · cases h

theorem readDecimal_eq_ok (h : readDecimal s = .ok w) : ∃ t, w = decimal t := by
  unfold readDecimal at h
  dsimp only at h
  split at h
  · split at h
    · exact ⟨_, (Except.ok.inj h).symm⟩
    · cases h
  · cases h

theorem readBoolean_eq_ok (h : readBoolean s = .ok w) : ∃ b, w = bool b := by
  unfold readBoolean at h
  dsimp only at h
  split at h
  · exact ⟨_, (Except.ok.inj h).symm⟩
  · split at h
    · exact ⟨_, (Except.ok.inj h).symm⟩
    · cases h

theorem readBlob_eq_ok (h : readBlob s = .ok w) : ∃ b, w = bytes b := by
  unfold readBlob at h
  split at h
  · exact ⟨_, (Except.ok.inj h).symm⟩
  · cases h

theorem readInstant_eq_ok (h : readInstant s = .ok w) : ∃ t, w = instant t := by
  unfold readInstant at h
  split at h
  · exact ⟨_, (Except.ok.inj h).symm⟩
  · cases h

end Readers

/-! ## Fitting twice -/

section Fitting

variable {type : ColumnType} {w : Value}

theorem fitScalar_of_ofText {s : String} (h : ofText s type = .ok w) :
    fitScalar w type = .ok w := by
  cases type
  case text | ascii | inet | date | time | duration =>
    obtain rfl := Except.ok.inj h
    rfl
  case uuid =>
    rw [ofText] at h
    obtain ⟨t, rfl, ht⟩ := readUuid_eq_ok h
    show ofText t .uuid = _
    exact Literal.ofText_uuid rfl ht
  case timeuuid =>
    rw [ofText] at h
    obtain ⟨t, rfl, ht⟩ := readUuid_eq_ok h
    show ofText t .timeuuid = _
    exact Literal.ofText_uuid rfl ht
  case bigint | int | smallint | tinyint | counter =>
    rw [ofText] at h
    obtain ⟨i, rfl⟩ := readInteger_eq_ok h
    rfl
  case float | double =>
    rw [ofText] at h
    obtain ⟨x, rfl⟩ := readFloat_eq_ok h
    rfl
  case varint =>
    rw [ofText] at h
    rcases readVarint_eq_ok h with ⟨i, rfl⟩ | ⟨t, rfl⟩ <;> rfl
  case decimal =>
    rw [ofText] at h
    obtain ⟨t, rfl⟩ := readDecimal_eq_ok h
    rfl
  case boolean =>
    rw [ofText] at h
    obtain ⟨b, rfl⟩ := readBoolean_eq_ok h
    rfl
  case blob =>
    rw [ofText] at h
    obtain ⟨b, rfl⟩ := readBlob_eq_ok h
    rfl
  case timestamp =>
    rw [ofText] at h
    obtain ⟨t, rfl⟩ := readInstant_eq_ok h
    rfl
  all_goals cases h

theorem fitScalar_of_ofInt {i : Int} (h : ofInt i type = .ok w) : fitScalar w type = .ok w := by
  cases type
  case timestamp =>
    rw [ofInt, if_neg (by decide), if_neg (by decide)] at h
    split at h
    · obtain rfl := Except.ok.inj h
      rfl
    · cases h
  case boolean =>
    rw [ofInt, if_neg (by decide), if_neg (by decide)] at h
    split at h
    · obtain rfl := Except.ok.inj h
      rfl
    · split at h
      · obtain rfl := Except.ok.inj h
        rfl
      · cases h
  case blob | uuid | timeuuid | list | set | map | tuple | vector | userDefined => cases h
  all_goals
    obtain rfl := Except.ok.inj h
    rfl

theorem fitScalar_of_ofFloat {x : Binary64} (h : ofFloat x type = .ok w) :
    fitScalar w type = .ok w := by
  cases type
  case bigint | int | smallint | tinyint | counter =>
    unfold ofFloat at h
    rw [if_pos (by decide)] at h
    split at h
    · split at h
      · obtain rfl := Except.ok.inj h
        rfl
      · cases h
    · cases h
  case text | ascii | inet | date | time | duration | float | double | decimal =>
    obtain rfl := Except.ok.inj h
    rfl
  all_goals cases h

theorem fitScalar_of_ofDecimal {s : String} (h : ofDecimal s type = .ok w) :
    fitScalar w type = .ok w := by
  cases type
  case float | double =>
    obtain ⟨x, rfl⟩ := readFloat_eq_ok h
    rfl
  case text | ascii | inet | date | time | duration | decimal | varint =>
    obtain rfl := Except.ok.inj h
    rfl
  all_goals cases h

theorem fitScalar_of_ofBool {b : Bool} (h : ofBool b type = .ok w) : fitScalar w type = .ok w := by
  cases type
  case boolean | text | ascii | inet | date | time | duration =>
    obtain rfl := Except.ok.inj h
    rfl
  all_goals cases h

theorem fitScalar_of_ofInstant {t : Instant} (h : ofInstant t type = .ok w) :
    fitScalar w type = .ok w := by
  cases type
  case timestamp | text | ascii | inet | date | time | duration =>
    obtain rfl := Except.ok.inj h
    rfl
  all_goals cases h

/-- What a value without parts was fitted to fits. -/
theorem fitScalar_idem {v : Value} (h : fitScalar v type = .ok w) : fitScalar w type = .ok w := by
  cases v with
  | null =>
    obtain rfl := Except.ok.inj h
    rfl
  | text s => exact fitScalar_of_ofText h
  | int i => exact fitScalar_of_ofInt h
  | float x => exact fitScalar_of_ofFloat h
  | decimal s => exact fitScalar_of_ofDecimal h
  | bool b => exact fitScalar_of_ofBool h
  | instant t => exact fitScalar_of_ofInstant h
  | bytes b =>
    cases type
    case blob =>
      obtain rfl := Except.ok.inj h
      rfl
    all_goals cases h
  | _ => cases h

/-- A value that fits a type without parts has no parts itself. -/
theorem isScalar_of_fitScalar (h : fitScalar w type = .ok w) : w.isScalar = true := by
  cases w with
  | list _ | set _ | map _ | fields _ | tuple _ => cases h
  | _ => rfl

/-- Nothing but null is fitted to a type with parts. -/
theorem eq_null_of_fitScalar (htype : type.isComposite = true) {v : Value}
    (h : fitScalar v type = .ok w) : w = null := by
  cases type
  case list | set | map | tuple | vector | userDefined =>
    cases v with
    | null => exact (Except.ok.inj h).symm
    | _ => cases h
  all_goals cases htype

end Fitting

end BulkTransfer.Value
