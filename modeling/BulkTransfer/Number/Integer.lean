/-!
Decimal spelling of integers: an optional sign and digits without a break.

- `readNatural?_digits`: the digits of a number read back as that number.
- `read?_render`: so does the spelling of an integer inside the bounds.
- `length_padded`, `readNatural?_padded`: a padded number has its width and reads back.
-/

namespace BulkTransfer

/-! Powers and zero are those of the core library, also beside a larger one. -/

@[default_instance high]
instance (priority := 1100) powerOfNat {α : Type} [NatPow α] : Pow α Nat := instPowNat

instance (priority := 1100) zeroOfNat : Zero Nat := Zero.ofOfNat0

end BulkTransfer

namespace BulkTransfer.Integer

/-- The ASCII digit for a value below ten. -/
def digitChar (n : Nat) : Char := Char.ofNat (48 + n)

/-- The value of an ASCII digit. -/
def digitValue? (c : Char) : Option Nat :=
  if 48 ≤ c.toNat ∧ c.toNat ≤ 57 then some (c.toNat - 48) else none

/-- Whether the character is an ASCII digit. -/
def isDigit (c : Char) : Bool := (digitValue? c).isSome

/-- The decimal digits of a number, without leading zeros. -/
def digits (n : Nat) : List Char :=
  if n < 10 then [digitChar n] else digits (n / 10) ++ [digitChar (n % 10)]
termination_by n

/-- Reads further digits behind a number already read. -/
def readFrom? (value : Nat) : List Char → Option Nat
  | [] => some value
  | c :: rest => match digitValue? c with
    | some d => readFrom? (10 * value + d) rest
    | none => none

/-- Reads a text of one or more digits. -/
def readNatural? : List Char → Option Nat
  | [] => none
  | c :: rest => readFrom? 0 (c :: rest)

/-- Reads an integer with an optional sign. -/
def readInt? : List Char → Option Int
  | '-' :: rest => (readNatural? rest).map fun n : Nat => -(n : Int)
  | '+' :: rest => (readNatural? rest).map fun n : Nat => (n : Int)
  | s => (readNatural? s).map fun n : Nat => (n : Int)

/-- The least signed number of 64 bits. -/
def min64 : Int := -9223372036854775808

/-- The greatest signed number of 64 bits. -/
def max64 : Int := 9223372036854775807

/-- The greatest unsigned number of 64 bits. -/
def maxUnsigned64 : Nat := 18446744073709551615

/-- Reads an integer between two bounds. -/
def read? (low high : Int) (s : List Char) : Option Int :=
  match readInt? s with
  | some i => if low ≤ i ∧ i ≤ high then some i else none
  | none => none

/-- Reads a signed integer of 64 bits. -/
def readSigned? (s : List Char) : Option Int := read? min64 max64 s

/-- Reads an unsigned integer of 64 bits; a plus sign may lead. -/
def readUnsigned? (s : List Char) : Option Nat :=
  let body := match s with
    | '+' :: rest => rest
    | _ => s
  match readNatural? body with
  | some n => if n ≤ maxUnsigned64 then some n else none
  | none => none

/-- The spelling of an integer. -/
def render (i : Int) : List Char :=
  if i < 0 then '-' :: digits i.natAbs else digits i.natAbs

/-- The spelling of an integer as a string. -/
def text (i : Int) : String := String.ofList (render i)

/-- The spelling of a natural number as a string. -/
def natText (n : Nat) : String := String.ofList (digits n)

/-- Digits of a number, with zeros in front up to a width. -/
def padded (width n : Nat) : List Char :=
  List.replicate (width - (digits n).length) '0' ++ digits n

theorem digitValue?_digitChar {n : Nat} (h : n < 10) : digitValue? (digitChar n) = some n := by
  have all : ∀ m ∈ List.range 10, digitValue? (digitChar m) = some m := by decide
  exact all n (List.mem_range.mpr h)

theorem readFrom?_append (value : Nat) (s t : List Char) :
    readFrom? value (s ++ t) = (readFrom? value s).bind fun v => readFrom? v t := by
  induction s generalizing value with
  | nil => rfl
  | cons c rest ih =>
    simp only [List.cons_append, readFrom?]
    cases digitValue? c with
    | none => rfl
    | some d => exact ih _

theorem readFrom?_digits (n : Nat) : readFrom? 0 (digits n) = some n := by
  induction n using Nat.strongRecOn with
  | ind n ih =>
    rw [digits]
    split
    · next h => simp [readFrom?, digitValue?_digitChar h]
    · next h =>
      rw [readFrom?_append, ih (n / 10) (by omega)]
      simp only [Option.bind_some, readFrom?, digitValue?_digitChar (Nat.mod_lt n (by decide))]
      congr 1
      omega

theorem digits_ne_nil (n : Nat) : digits n ≠ [] := by
  rw [digits]
  split <;> simp

theorem readNatural?_eq {s : List Char} (h : s ≠ []) : readNatural? s = readFrom? 0 s := by
  cases s with
  | nil => exact absurd rfl h
  | cons c rest => rfl

theorem readNatural?_digits (n : Nat) : readNatural? (digits n) = some n := by
  rw [readNatural?_eq (digits_ne_nil n), readFrom?_digits]

theorem isDigit_digits (n : Nat) : ∀ c ∈ digits n, isDigit c = true := by
  induction n using Nat.strongRecOn with
  | ind n ih =>
    rw [digits]
    split
    · next h => simp [isDigit, digitValue?_digitChar h]
    · next h =>
      intro c hc
      rcases List.mem_append.mp hc with hc | hc
      · exact ih (n / 10) (by omega) c hc
      · simp only [List.mem_singleton] at hc
        simp [hc, isDigit, digitValue?_digitChar (Nat.mod_lt n (by decide))]

theorem toNat_of_isDigit {c : Char} (h : isDigit c = true) : 48 ≤ c.toNat ∧ c.toNat ≤ 57 := by
  simp only [isDigit, digitValue?] at h
  split at h
  · assumption
  · simp at h

theorem readFrom?_eq_none {c : Char} {s : List Char} (hc : c ∈ s) (h : isDigit c = false)
    (value : Nat) : readFrom? value s = none := by
  have hnone : digitValue? c = none := by simpa [isDigit] using h
  induction s generalizing value with
  | nil => simp at hc
  | cons d rest ih =>
    simp only [readFrom?]
    rcases List.mem_cons.mp hc with rfl | hc
    · rw [hnone]
    · cases digitValue? d with
      | none => rfl
      | some v => exact ih hc _

theorem readNatural?_eq_none {c : Char} {s : List Char} (hc : c ∈ s) (h : isDigit c = false) :
    readNatural? s = none := by
  rw [readNatural?_eq (List.ne_nil_of_mem hc), readFrom?_eq_none hc h]

theorem readInt?_of_digits {s : List Char} {n : Nat} (h : ∀ c ∈ s, isDigit c = true)
    (hs : readNatural? s = some n) : readInt? s = some (n : Int) := by
  unfold readInt?
  split
  · next rest => exact absurd (h '-' (by simp)) (by decide)
  · next rest => exact absurd (h '+' (by simp)) (by decide)
  · simp [hs]

theorem readInt?_render (i : Int) : readInt? (render i) = some i := by
  unfold render
  split
  · next h =>
    show (readNatural? (digits i.natAbs)).map (fun n : Nat => -(n : Int)) = some i
    rw [readNatural?_digits, Option.map_some]
    congr 1
    omega
  · next h =>
    rw [readInt?_of_digits (isDigit_digits _) (readNatural?_digits _)]
    congr 1
    omega

theorem read?_render {low high i : Int} (hl : low ≤ i) (hh : i ≤ high) :
    read? low high (render i) = some i := by
  simp [read?, readInt?_render, hl, hh]

theorem readUnsigned?_digits {n : Nat} (h : n ≤ maxUnsigned64) :
    readUnsigned? (digits n) = some n := by
  unfold readUnsigned?
  split
  · next heq => exact absurd (isDigit_digits n '+' (by rw [heq]; simp)) (by decide)
  · dsimp only
    rw [readNatural?_digits]
    exact if_pos h

/-! ## Padded numbers -/

theorem length_digits_le {w n : Nat} (hw : 1 ≤ w) (h : n < 10 ^ w) : (digits n).length ≤ w := by
  induction w generalizing n with
  | zero => omega
  | succ w ih =>
    rw [digits]
    split
    · simp
    · next hn =>
      have hpos : 1 ≤ w := by
        rcases w with _ | w
        · simp at h; omega
        · omega
      have hdiv : n / 10 < 10 ^ w := by
        rw [Nat.pow_succ] at h
        omega
      have := ih hpos hdiv
      simp only [List.length_append, List.length_singleton]
      omega

theorem length_padded {w n : Nat} (hw : 1 ≤ w) (h : n < 10 ^ w) : (padded w n).length = w := by
  have := length_digits_le hw h
  simp only [padded, List.length_append, List.length_replicate]
  omega

theorem isDigit_padded (w n : Nat) : ∀ c ∈ padded w n, isDigit c = true := by
  intro c hc
  rcases List.mem_append.mp hc with hc | hc
  · rw [List.eq_of_mem_replicate hc]
    decide
  · exact isDigit_digits n c hc

theorem readFrom?_zeros (k : Nat) (s : List Char) :
    readFrom? 0 (List.replicate k '0' ++ s) = readFrom? 0 s := by
  induction k with
  | zero => rfl
  | succ k ih =>
    rw [List.replicate_succ, List.cons_append]
    exact ih

theorem readNatural?_padded (w n : Nat) : readNatural? (padded w n) = some n := by
  have hne : padded w n ≠ [] := by simp [padded, digits_ne_nil]
  rw [readNatural?_eq hne, padded, readFrom?_zeros, readFrom?_digits]

end BulkTransfer.Integer
