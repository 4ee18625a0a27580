import BulkTransfer.Proofs.Literal.Shape

/-!
The count of levels in the reading of a literal. A reading with so many levels is the recursion cut
off below them; with more levels it has the same outcome, unless it was cut off.

- `Below`: an outcome that was cut off, or is the other one.
- `readValue_quote`, `readValue_bracket` and the like: a reading by the first character of its text.
- `readValue_below`: what more levels change.
-/

namespace BulkTransfer.Literal

open Text ValueFailure

/-! ## Outcomes that were cut off -/

/-- The first outcome was cut off, or is the second one. -/
def Below {α : Type} (x y : Except ValueFailure α) : Prop := x = .error endless ∨ x = y

namespace Below

variable {α β : Type} {x y : Except ValueFailure α}

theorem refl (x : Except ValueFailure α) : Below x x := .inr rfl

theorem bind (h : Below x y) {f g : α → Except ValueFailure β} (hf : ∀ a, Below (f a) (g a)) :
    Below (x >>= f) (y >>= g) := by
  rcases h with rfl | rfl
  · exact .inl rfl
  · cases x with
    | error e => exact .refl _
    | ok a => exact hf a

theorem eq_ok (h : Below x y) {a : α} (hx : x = .ok a) : y = .ok a := by
  rcases h with rfl | rfl
  · cases hx
  · exact hx

theorem eq_endless (h : Below x y) (hy : y = .error endless) : x = .error endless := by
  rcases h with rfl | rfl
  · rfl
  · exact hy

end Below

theorem bind_eq_endless {α β : Type} {x : Except ValueFailure α}
    {f : α → Except ValueFailure β} :
    (x >>= f) = .error endless ↔ x = .error endless ∨ ∃ a, x = .ok a ∧ f a = .error endless := by
  cases x with
  | error e =>
    constructor
    · intro h
      exact .inl (congrArg Except.error (Except.error.inj h))
    · rintro (h | ⟨a, ha, -⟩)
      · exact congrArg Except.error (Except.error.inj h)
      · cases ha
  | ok a =>
    constructor
    · exact fun h => .inr ⟨a, rfl, h⟩
    · rintro (h | ⟨b, hb, h⟩)
      · cases h
      · obtain rfl := Except.ok.inj hb
        exact h

theorem ok_ne_endless {α : Type} (a : α) : (.ok a : Except ValueFailure α) ≠ .error endless := by
  intro h
  cases h

theorem map_eq_endless {α β : Type} {x : Except ValueFailure α} {f : α → β} :
    x.map f = .error endless ↔ x = .error endless := by
  cases x with
  | ok a => exact iff_of_false (ok_ne_endless _) (ok_ne_endless _)
  | error e =>
    constructor
    · exact fun h => congrArg Except.error (Except.error.inj h)
    · exact fun h => congrArg Except.error (Except.error.inj h)

/-! ## Readings by the first character -/

section Start

variable {levels size : Nat} {type? : Option ColumnType} {s rest : List Char}

theorem readValue_nil (h : trimStart s = []) :
    readValue (levels + 1) size type? s = .error endOfLiteral := by
  rw [readValue]
  dsimp only
  rw [h]
  rfl

theorem readValue_quote (h : trimStart s = '\'' :: rest) :
    readValue (levels + 1) size type? s =
      readQuoted '\'' rest >>= fun (text, r) =>
        typed (readValue levels) (.text (String.ofList text)) type? >>= fun v => .ok (v, r) := by
  rw [readValue]
  dsimp only
  rw [h]
  rfl

theorem readValue_bracket (h : trimStart s = '[' :: rest) :
    readValue (levels + 1) size type? s =
      readSequence ']' (fun _ => readValue levels size (type?.bind ColumnType.element?)) rest >>=
        fun (items, r) => .ok (ofBracketed type? items, r) := by
  rw [readValue]
  dsimp only
  rw [h]
  rfl

theorem readValue_brace (h : trimStart s = '{' :: rest) :
    readValue (levels + 1) size type? s = readBraces size (readValue levels size) type? rest := by
  rw [readValue]
  dsimp only
  rw [h]
  rfl

theorem readValue_parenthesis (h : trimStart s = '(' :: rest) :
    readValue (levels + 1) size type? s =
      readSequence ')' (fun i => readValue levels size (itemType? type? i)) rest >>=
        fun (items, r) => .ok (.tuple items, r) := by
  rw [readValue]
  dsimp only
  rw [h]
  rfl

/-- Whether a literal that starts with the character has a mark of its own, and is no bare word. -/
def isMark (c : Char) : Bool := c == '\'' || c == '[' || c == '{' || c == '('

theorem isMark_iff {c : Char} :
    isMark c = true ↔ c = '\'' ∨ c = '[' ∨ c = '{' ∨ c = '(' := by
  simp only [isMark, Bool.or_eq_true, beq_iff_eq, or_assoc]

theorem readValue_unmarked {c : Char} (h : trimStart s = c :: rest) (hc : isMark c = false) :
    readValue (levels + 1) size type? s =
      if bareWord (c :: rest) = [] then .error (unexpected (String.ofList (c :: rest)))
      else Value.ofBareWord (bareWord (c :: rest)) >>= fun v =>
        typed (readValue levels) v type? >>= fun v => .ok (v, afterBareWord (c :: rest)) := by
  simp only [isMark, Bool.or_eq_false_iff, beq_eq_false_iff_ne, ne_eq] at hc
  rw [readValue]
  dsimp only
  rw [h]
  split
  case h_6 =>
    split
    · next hword =>
      rw [if_pos hword]
      rfl
    · next hword =>
      rw [if_neg hword]
      rfl
  all_goals simp_all

end Start

/-! ## More levels -/

section Below

variable {α : Type}

theorem readItems_below {close : Char} {item more : Nat → Step α}
    (h : ∀ i s, Below (item i s) (more i s)) (steps index : Nat) (s : List Char) :
    Below (readItems close item steps index s) (readItems close more steps index s) := by
  induction steps generalizing index s with
  | zero => exact .refl _
  | succ steps ih =>
    unfold readItems
    refine (h index s).bind fun p => ?_
    obtain ⟨a, r⟩ := p
    dsimp only
    cases trimStart r with
    | nil => exact .refl _
    | cons c rest =>
      dsimp only
      by_cases hcomma : c = ','
      · rw [if_pos hcomma, if_pos hcomma]
        exact (ih (index + 1) rest).bind fun _ => .refl _
      · rw [if_neg hcomma, if_neg hcomma]
        exact .refl _

theorem readSequence_below {close : Char} {item more : Nat → Step α}
    (h : ∀ i s, Below (item i s) (more i s)) (s : List Char) :
    Below (readSequence close item s) (readSequence close more s) := by
  unfold readSequence
  cases trimStart s with
  | nil => exact readItems_below h _ _ _
  | cons c rest =>
    dsimp only
    by_cases hclose : c = close
    · rw [if_pos hclose, if_pos hclose]
      exact .refl _
    · rw [if_neg hclose, if_neg hclose]
      exact readItems_below h _ _ _

theorem typed_below {read more : Nat → Option ColumnType → Step Value}
    (h : ∀ size type? s, Below (read size type? s) (more size type? s)) (v : Value)
    (type? : Option ColumnType) : Below (typed read v type?) (typed more v type?) := by
  unfold typed
  cases type? with
  | none => exact .refl _
  | some type =>
    cases v with
    | text t =>
      dsimp only
      by_cases hparts : type.isComposite = true
      · rw [if_pos hparts, if_pos hparts]
        exact (h _ _ _).bind fun _ => .refl _
      · rw [if_neg hparts, if_neg hparts]
        exact .refl _
    | _ => exact .refl _

theorem readEntry_below {size : Nat} {key moreKey value moreValue : Step Value}
    (hkey : ∀ s, Below (key s) (moreKey s)) (hvalue : ∀ s, Below (value s) (moreValue s))
    (s : List Char) : Below (readEntry size key value s) (readEntry size moreKey moreValue s) := by
  unfold readEntry
  refine (hkey s).bind fun p => ?_
  exact (Below.refl _).bind fun t => (hvalue t).bind fun _ => .refl _

theorem readField_below {size : Nat} {value more : Step Value}
    (h : ∀ s, Below (value s) (more s)) (s : List Char) :
    Below (readField size value s) (readField size more s) := by
  unfold readField
  exact (Below.refl _).bind fun p => (Below.refl _).bind fun t => (h t).bind fun _ => .refl _

/-- Reads the key of an item between braces, or the item if it is a single value. -/
def readKey (value : Step Value) (s : List Char) : Except ValueFailure (Value × List Char) :=
  match trimStart s with
  | '"' :: rest => readQuoted '"' rest >>= fun (name, r) => .ok (.text (String.ofList name), r)
  | t => value t

theorem readKey_quote {value : Step Value} {s rest : List Char} (h : trimStart s = '"' :: rest) :
    readKey value s =
      readQuoted '"' rest >>= fun (name, r) => .ok (.text (String.ofList name), r) := by
  unfold readKey
  rw [h]
  rfl

theorem readKey_plain {value : Step Value} {s : List Char}
    (h : ∀ rest, trimStart s ≠ '"' :: rest) : readKey value s = value (trimStart s) := by
  unfold readKey
  split
  · next rest heq => exact absurd heq (h rest)
  · rfl

/-- An item between braces is its key and what may follow a colon. -/
theorem readBraced_eq (value : Step Value) (s : List Char) :
    readBraced value s = readKey value s >>= fun (key, r) => match trimStart r with
      | ':' :: rest => value rest >>= fun (v, r) =>
        .ok (.entry key v (startsName (trimStart s) && !isReserved key), r)
      | t => .ok (.single key, t) := by
  unfold readBraced
  dsimp only
  split
  · next rest hquote =>
    rw [readKey_quote hquote]
    cases readQuoted '"' rest <;> rfl
  · next hplain =>
    rw [readKey_plain hplain]
    rfl

theorem readKey_below {value more : Step Value} (h : ∀ s, Below (value s) (more s))
    (s : List Char) : Below (readKey value s) (readKey more s) := by
  unfold readKey
  split
  · exact .refl _
  · exact h _

theorem readBraced_below {value more : Step Value} (h : ∀ s, Below (value s) (more s))
    (s : List Char) : Below (readBraced value s) (readBraced more s) := by
  rw [readBraced_eq, readBraced_eq]
  refine (readKey_below h s).bind fun p => ?_
  obtain ⟨key, r⟩ := p
  dsimp only
  split
  · exact (h _).bind fun _ => .refl _
  · exact .refl _

theorem readBraces_below {size : Nat} {value more : Option ColumnType → Step Value}
    (h : ∀ type? s, Below (value type? s) (more type? s)) (type? : Option ColumnType)
    (s : List Char) : Below (readBraces size value type? s) (readBraces size more type? s) := by
  unfold readBraces
  split
  · exact (readSequence_below (fun _ => h _) s).bind fun _ => .refl _
  · exact (readSequence_below (fun _ => readEntry_below (h _) (h _)) s).bind fun _ => .refl _
  · exact (readSequence_below (fun _ => readField_below (h _)) s).bind fun _ => .refl _
  · exact (readSequence_below (fun _ => readBraced_below (h _)) s).bind fun _ => .refl _

end Below

/-- More levels change the outcome of a reading only if it was cut off. -/
theorem readValue_below {levels more : Nat} (h : levels ≤ more) (size : Nat)
    (type? : Option ColumnType) (s : List Char) :
    Below (readValue levels size type? s) (readValue more size type? s) := by
  induction levels generalizing more size type? s with
  | zero => exact .inl rfl
  | succ levels ih =>
    obtain ⟨more, rfl⟩ : ∃ n, more = n + 1 := ⟨more - 1, by omega⟩
    have hbelow := ih (Nat.le_of_succ_le_succ h)
    cases hs : trimStart s with
    | nil =>
      rw [readValue_nil hs, readValue_nil hs]
      exact .refl _
    | cons c rest =>
      cases hmark : isMark c with
      | true =>
        rcases isMark_iff.mp hmark with rfl | rfl | rfl | rfl
        · rw [readValue_quote hs, readValue_quote hs]
          exact (Below.refl _).bind fun _ => (typed_below hbelow _ _).bind fun _ => .refl _
        · rw [readValue_bracket hs, readValue_bracket hs]
          exact (readSequence_below (fun _ => hbelow _ _) rest).bind fun _ => .refl _
        · rw [readValue_brace hs, readValue_brace hs]
          exact readBraces_below (hbelow _) type? rest
        · rw [readValue_parenthesis hs, readValue_parenthesis hs]
          exact (readSequence_below (fun _ => hbelow _ _) rest).bind fun _ => .refl _
      | false =>
        rw [readValue_unmarked hs hmark, readValue_unmarked hs hmark]
        split
        · exact .refl _
        · exact (Below.refl _).bind fun _ => (typed_below hbelow _ _).bind fun _ => .refl _

end BulkTransfer.Literal
