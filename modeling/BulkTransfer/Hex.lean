import BulkTransfer.Text.Utf8

/-!
Hexadecimal spelling of byte sequences: two digits a byte, lower case when written, either case
when read.

- `decodeText_encode`: what is written reads back.
-/

namespace BulkTransfer.Hex

/-- Why a text is no hexadecimal spelling. -/
inductive Failure where
  /-- The number of digits is odd. -/
  | oddLength
  /-- A byte that is no digit, and its place. -/
  | badDigit (byte : UInt8) (position : Nat)
  deriving DecidableEq, Repr

/-- The digit for a value below sixteen. -/
def digit (n : Nat) : Char :=
  if n < 10 then Char.ofNat (48 + n) else Char.ofNat (87 + n)

/-- The value of a digit of either case. -/
def digitValue? (b : UInt8) : Option Nat :=
  let n := b.toNat
  if 48 ≤ n ∧ n ≤ 57 then some (n - 48)
  else if 97 ≤ n ∧ n ≤ 102 then some (n - 87)
  else if 65 ≤ n ∧ n ≤ 70 then some (n - 55)
  else none

/-- Two digits a byte. -/
def encode (b : Bytes) : List Char :=
  b.flatMap fun x => [digit (x.toNat / 16), digit (x.toNat % 16)]

/-- Reads pairs of digits, the first of them at the given place. -/
def decodePairs (position : Nat) : Bytes → Except Failure Bytes
  | [] => .ok []
  | [_] => .error .oddLength
  | hi :: lo :: rest =>
    match digitValue? hi with
    | none => .error (.badDigit hi position)
    | some h => match digitValue? lo with
      | none => .error (.badDigit lo (position + 1))
      | some l => match decodePairs (position + 2) rest with
        | .error e => .error e
        | .ok bytes => .ok (UInt8.ofNat (16 * h + l) :: bytes)

/-- Reads a hexadecimal spelling; an odd length is found before any bad digit. -/
def decode (s : Bytes) : Except Failure Bytes :=
  if s.length % 2 = 1 then .error .oddLength else decodePairs 0 s

/-- Reads the hexadecimal spelling in a text. -/
def decodeText (s : List Char) : Except Failure Bytes := decode (Bytes.ofText (String.ofList s))

/-- The lower-case digits of a code point, as in an escaped character. -/
def escapedCode (n : Nat) : String :=
  "\\u\x7b" ++ String.ofList (Nat.toDigits 16 n) ++ "\x7d"

/-- A byte shown as the character of that code in quotes; controls and blanks are escaped. -/
def quotedByte (b : UInt8) : String :=
  let n := b.toNat
  let inner :=
    if n = 0 then "\\0"
    else if n = 9 then "\\t"
    else if n = 10 then "\\n"
    else if n = 13 then "\\r"
    else if n = 39 then "\\'"
    else if n = 92 then "\\\\"
    else if n < 32 ∨ (127 ≤ n ∧ n ≤ 160) ∨ n = 173 then escapedCode n
    else String.ofList [Char.ofNat n]
  "'" ++ inner ++ "'"

/-- The wording of a failure. -/
def Failure.message : Failure → String
  | .oddLength => "Odd number of digits"
  | .badDigit b position => "Invalid character " ++ quotedByte b ++ s!" at position {position}"

/-- The digits as bytes. -/
def encodeBytes (b : Bytes) : Bytes :=
  b.flatMap fun x => [UInt8.ofNat (digit (x.toNat / 16)).toNat, UInt8.ofNat (digit (x.toNat % 16)).toNat]

theorem digitValue?_digit {n : Nat} (h : n < 16) :
    digitValue? (UInt8.ofNat (digit n).toNat) = some n := by
  have all : ∀ m ∈ List.range 16, digitValue? (UInt8.ofNat (digit m).toNat) = some m := by decide
  exact all n (List.mem_range.mpr h)

theorem decodePairs_encodeBytes (b : Bytes) (position : Nat) :
    decodePairs position (encodeBytes b) = .ok b := by
  induction b generalizing position with
  | nil => rfl
  | cons x rest ih =>
    have hx : x.toNat < 256 := x.toNat_lt
    have h1 : digitValue? (UInt8.ofNat (digit (x.toNat / 16)).toNat) = some (x.toNat / 16) :=
      digitValue?_digit (by omega)
    have h2 : digitValue? (UInt8.ofNat (digit (x.toNat % 16)).toNat) = some (x.toNat % 16) :=
      digitValue?_digit (by omega)
    have e : 16 * (x.toNat / 16) + x.toNat % 16 = x.toNat := by omega
    have ih' : decodePairs (position + 2) (encodeBytes rest) = .ok rest := ih _
    show decodePairs position (_ :: _ :: encodeBytes rest) = _
    simp [decodePairs, h1, h2, ih', e]

theorem decode_encodeBytes (b : Bytes) : decode (encodeBytes b) = .ok b := by
  have even : (encodeBytes b).length % 2 = 0 := by
    induction b with
    | nil => rfl
    | cons x rest ih => simp only [encodeBytes, List.flatMap_cons] at ih ⊢; simp at ih ⊢; omega
  simp [decode, even, decodePairs_encodeBytes]

theorem digit_toNat_lt {n : Nat} (h : n < 16) : (digit n).toNat < 128 := by
  have all : ∀ m ∈ List.range 16, (digit m).toNat < 128 := by decide
  exact all n (List.mem_range.mpr h)

/-- The characters of the spelling are digits. -/
theorem exists_digit_of_mem_encode {b : Bytes} {c : Char} (h : c ∈ encode b) :
    ∃ n < 16, c = digit n := by
  obtain ⟨x, -, hx⟩ := List.mem_flatMap.mp h
  have hlt := x.toNat_lt
  simp only [List.mem_cons, List.not_mem_nil, or_false] at hx
  rcases hx with rfl | rfl
  · exact ⟨x.toNat / 16, by omega, rfl⟩
  · exact ⟨x.toNat % 16, by omega, rfl⟩

/-- The hexadecimal spelling of bytes reads back. -/
theorem decodeText_encode (b : Bytes) : decodeText (encode b) = .ok b := by
  have hascii : ∀ c ∈ encode b, c.toNat < 128 := by
    intro c hc
    obtain ⟨n, hn, rfl⟩ := exists_digit_of_mem_encode hc
    exact digit_toNat_lt hn
  have hbytes : (encode b).map (fun c => UInt8.ofNat c.toNat) = encodeBytes b := by
    simp [encode, encodeBytes, List.map_flatMap]
  rw [decodeText, Bytes.ofText_ascii hascii, hbytes, decode_encodeBytes]

end BulkTransfer.Hex
