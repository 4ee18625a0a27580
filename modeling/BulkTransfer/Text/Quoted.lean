import BulkTransfer.Text.Blank

/-!
Texts in double quotes inside messages: quotes, backslashes and characters without a printed form
are escaped.
-/

namespace BulkTransfer.Text

/-- Whether a character beyond ASCII has no printed form of its own: controls, blanks, format and
private characters, and marks that combine with the character before them. -/
def isUnprinted (c : Char) : Bool :=
  let n := c.toNat
  (0x7f ≤ n && n ≤ 0xa0) || n == 0xad || (0x300 ≤ n && n ≤ 0x36f) || n == 0x1680 ||
    (0x2000 ≤ n && n ≤ 0x200f) || (0x2028 ≤ n && n ≤ 0x202f) || (0x205f ≤ n && n ≤ 0x206f) ||
    n == 0x3000 || (0xe000 ≤ n && n ≤ 0xf8ff) || n == 0xfeff || (0xfff9 ≤ n && n ≤ 0xfffb)

/-- The hexadecimal digits of a number without leading zeros. -/
def hexDigits (n : Nat) : List Char := Nat.toDigits 16 n

/-- A character inside quotes. -/
def escapedChar (c : Char) : List Char :=
  if c = '"' then ['\\', '"']
  else if c = '\\' then ['\\', '\\']
  else if c = '\n' then ['\\', 'n']
  else if c = '\r' then ['\\', 'r']
  else if c = '\t' then ['\\', 't']
  else if c.toNat = 0 then ['\\', '0']
  else if c.toNat < 32 || isUnprinted c then
    '\\' :: 'u' :: '{' :: hexDigits c.toNat ++ ['}']
  else [c]

/-- A text in double quotes. -/
def quotedText (s : String) : String :=
  String.ofList ('"' :: s.toList.flatMap escapedChar ++ ['"'])

end BulkTransfer.Text
