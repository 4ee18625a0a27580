import BulkTransfer.Text.CaseTable

/-!
Lower and upper case of whole texts, by the full Unicode mappings: a character may become several,
and a capital sigma at the end of a word becomes the final form.

- `lower_ascii`, `upper_ascii`: on ASCII both agree with the mappings of core.
-/

namespace BulkTransfer.Text

/-- The first partner that a list of runs gives. -/
def runPartner? (runs : List CaseRun) (code : Nat) : Option Nat :=
  runs.findSome? (·.partner? code)

/-- The lower case of one character, apart from its place in the text. -/
def lowerChar (c : Char) : List Char :=
  if c.toNat < 0x80 then [c.toLower]
  else match lowerExpansions.lookup c.toNat with
    | some codes => codes.map Char.ofNat
    | none => match runPartner? lowerRuns c.toNat with
      | some code => [Char.ofNat code]
      | none => [c]

/-- The upper case of one character. -/
def upperChar (c : Char) : List Char :=
  if c.toNat < 0x80 then [c.toUpper]
  else match upperExpansions.lookup c.toNat with
    | some codes => codes.map Char.ofNat
    | none => match runPartner? upperRuns c.toNat with
      | some code => [Char.ofNat code]
      | none => [c]

/-- Whether the character is a letter with a case. -/
def isCased (c : Char) : Bool :=
  if c.toNat < 0x80 then c.isAlpha else casedRanges.has c.toNat

/-- Whether the case rules look through the character. -/
def isCaseIgnorable (c : Char) : Bool :=
  if c.toNat < 0x80 then c == '\'' || c == '.' || c == ':' || c == '^' || c.toNat == 0x60
  else caseIgnorableRanges.has c.toNat

/-- Whether the nearest character that the case rules see is a cased letter. -/
def meetsCased (s : List Char) : Bool :=
  match s.dropWhile isCaseIgnorable with
  | [] => false
  | c :: _ => isCased c

/-- The capital sigma, the one letter whose lower case hangs on its neighbours. -/
def capitalSigma : Char := Char.ofNat 0x3a3

/-- Lower case of a text, of which `before` holds the characters already passed, last one first. -/
def lowerAfter (before : List Char) : List Char → List Char
  | [] => []
  | c :: rest =>
    let here :=
      if c = capitalSigma then
        [if meetsCased before && !meetsCased rest then Char.ofNat 0x3c2 else Char.ofNat 0x3c3]
      else lowerChar c
    here ++ lowerAfter (c :: before) rest

/-- Lower case of a text. -/
def lower (s : List Char) : List Char := lowerAfter [] s

/-- Upper case of a text. -/
def upper (s : List Char) : List Char := s.flatMap upperChar

/-- Lower case of a string. -/
def lowered (s : String) : String := String.ofList (lower s.toList)

/-- Upper case of a string. -/
def uppered (s : String) : String := String.ofList (upper s.toList)

theorem lowerChar_ascii {c : Char} (h : c.toNat < 0x80) : lowerChar c = [c.toLower] := by
  simp [lowerChar, h]

theorem upperChar_ascii {c : Char} (h : c.toNat < 0x80) : upperChar c = [c.toUpper] := by
  simp [upperChar, h]

theorem lowerAfter_ascii (before s : List Char) (h : ∀ c ∈ s, c.toNat < 0x80) :
    lowerAfter before s = s.map Char.toLower := by
  induction s generalizing before with
  | nil => rfl
  | cons c rest ih =>
    have hc : c.toNat < 0x80 := h c (by simp)
    have hs : c ≠ capitalSigma := by
      intro e
      rw [e] at hc
      exact absurd hc (by decide)
    simp [lowerAfter, hs, lowerChar_ascii hc, ih _ fun d hd => h d (by simp [hd])]

theorem lower_ascii (s : List Char) (h : ∀ c ∈ s, c.toNat < 0x80) :
    lower s = s.map Char.toLower :=
  lowerAfter_ascii [] s h

theorem upper_ascii (s : List Char) (h : ∀ c ∈ s, c.toNat < 0x80) :
    upper s = s.map Char.toUpper := by
  induction s with
  | nil => rfl
  | cons c rest ih =>
    have hc : c.toNat < 0x80 := h c (by simp)
    have ih' := ih fun d hd => h d (by simp [hd])
    simp only [upper] at ih' ⊢
    simp [upperChar_ascii hc, ih']

/-- Whether two texts agree when ASCII letters count the same in either case. -/
def equalsIgnoringAsciiCase (a b : List Char) : Bool :=
  a.map Char.toLower == b.map Char.toLower

end BulkTransfer.Text
