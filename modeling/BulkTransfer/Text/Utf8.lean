import BulkTransfer.Number.Integer

/-!
Byte sequences and their reading as UTF-8 text.

- `toText?_ofText`: the bytes of a text read back as that text.
- `ofText_of_toText?`: bytes that read as a text are that text's bytes.
- `ofText_ascii`: ASCII characters are their own bytes.
-/

namespace BulkTransfer

/-- A sequence of bytes, as a file or a stream holds it. -/
abbrev Bytes := List UInt8

namespace Bytes

/-- The UTF-8 encoding of a text. -/
def ofText (s : String) : Bytes := s.toByteArray.data.toList

/-- The text that the bytes encode, or `none` where they are not valid UTF-8. -/
def toText? (b : Bytes) : Option String := String.fromUTF8? ⟨b.toArray⟩

theorem toText?_ofText (s : String) : toText? (ofText s) = some s := by
  have h : (⟨(ofText s).toArray⟩ : ByteArray) = s.toByteArray := by simp [ofText]
  have hv : s.toByteArray.IsValidUTF8 := s.isValidUTF8
  simp [toText?, h, String.fromUTF8?, hv, String.fromUTF8]

theorem ofText_of_toText? {b : Bytes} {s : String} (h : toText? b = some s) : ofText s = b := by
  simp only [toText?, String.fromUTF8?] at h
  split at h
  · simp only [Option.some.injEq] at h
    subst h
    simp [ofText, String.fromUTF8]
  · simp at h

theorem ofText_ofList (s : List Char) :
    ofText (String.ofList s) = s.flatMap String.utf8EncodeChar := by
  show (s.flatMap String.utf8EncodeChar).toByteArray.data.toList = _
  simp

theorem ofText_ascii {s : List Char} (h : ∀ c ∈ s, c.toNat < 128) :
    ofText (String.ofList s) = s.map fun c => UInt8.ofNat c.toNat := by
  rw [ofText_ofList]
  induction s with
  | nil => rfl
  | cons c rest ih =>
    have hc : c.utf8Size = 1 := by
      have := h c (by simp)
      rw [Char.utf8Size_eq_one_iff]
      exact UInt32.le_iff_toNat_le.mpr (by show c.toNat ≤ 127; omega)
    rw [List.flatMap_cons, ih fun d hd => h d (by simp [hd]), String.utf8EncodeChar_eq_singleton hc]
    rfl

/-- Whether the byte goes on with a character. -/
def isTrail (b : UInt8) : Bool := 0x80 ≤ b && b ≤ 0xbf

/-- Whether two bytes can begin a character of three bytes. -/
def beginsThree (a b : UInt8) : Bool :=
  (a == 0xe0 && 0xa0 ≤ b && b ≤ 0xbf) || (0xe1 ≤ a && a ≤ 0xec && isTrail b) ||
    (a == 0xed && 0x80 ≤ b && b ≤ 0x9f) || (0xee ≤ a && a ≤ 0xef && isTrail b)

/-- Whether two bytes can begin a character of four bytes. -/
def beginsFour (a b : UInt8) : Bool :=
  (a == 0xf0 && 0x90 ≤ b && b ≤ 0xbf) || (0xf1 ≤ a && a ≤ 0xf3 && isTrail b) ||
    (a == 0xf4 && 0x80 ≤ b && b ≤ 0x8f)

/-- The number of bytes of a well-formed character at the start, or zero where there is none. -/
def charLength : Bytes → Nat
  | [] => 0
  | a :: rest =>
    if a < 0x80 then 1
    else match rest with
      | b :: more =>
        if 0xc2 ≤ a && a ≤ 0xdf && isTrail b then 2
        else match more with
          | c :: last =>
            if beginsThree a b && isTrail c then 3
            else match last with
              | d :: _ => if beginsFour a b && isTrail c && isTrail d then 4 else 0
              | [] => 0
          | [] => 0
      | [] => 0

/-- The number of bytes before the first one that is no part of a well-formed character, counted
with so many steps at most. -/
def validLengthIn : Nat → Bytes → Nat
  | 0, _ => 0
  | steps + 1, b => match charLength b with
    | 0 => 0
    | n => n + validLengthIn steps (b.drop n)

/-- The number of bytes before the first one that is no part of a well-formed character. -/
def validLength (b : Bytes) : Nat := validLengthIn b.length b

/-- The number of bytes that the characters take. -/
def lengthOf (s : List Char) : Nat := (s.map fun c => c.utf8Size).sum

end Bytes

end BulkTransfer
