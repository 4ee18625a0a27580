import BulkTransfer.Proofs.Instant.Reading

/-!
The spellings of one instant. They are tried in a fixed order, and each of them is refused by every
form before its own: a form with an offset does not end without one, the strict form wants a colon
in the offset, a letter between date and time stops the forms with a blank, and a count has no
hyphen behind its digits.

- `spellings`: the texts of an instant.
- `readParts_date`, `readParts_clock`: the parts of the loose forms, taken off the front of a text.
- `readStrict?_dated`: the strict form refuses times without an offset or without its colon.
- `read?_count`: a count of milliseconds is read as one.
- `spellings_are_instant`: every spelling, with blanks around it, is read as the instant.
-/

namespace BulkTransfer.Instant

open Integer (isDigit padded)
open Text (isBlank trim trimStart)

/-! ## Texts -/

/-- The time of day as `HH:MM:SS`. -/
def clockText (t : Instant) : List Char :=
  twoDigits (t.secondOfDay / 3600) ++ ':' :: (twoDigits (t.secondOfDay / 60 % 60) ++ ':' ::
    twoDigits (t.secondOfDay % 60))

/-- Date and time of day with a character between them, and parts of a second. -/
def dated (t : Instant) (between : Char) (fraction : List Char) : List Char :=
  t.dateText ++ between :: (t.clockText ++ '.' :: fraction)

/-- The spellings of an instant: the strict form, a form with microseconds and an offset, two forms
without an offset, the milliseconds since the epoch and, at midnight, the date alone. -/
def spellings (t : Instant) : List (List Char) :=
  [ t.render,
    t.dated ' ' (padded 6 (t.nanos / 1000) ++ "+0000".toList),
    t.dated ' ' (padded 3 (t.nanos / 1000000)),
    t.dated 'T' (padded 3 (t.nanos / 1000000)),
    Integer.render t.toMillis ] ++
  if t.secondOfDay = 0 ∧ t.nanos = 0 then [t.dateText] else []

/-! ## Parts of the loose forms -/

/-- The parts of a time of day with seconds. -/
def clockParts : List Part := [.hour, .mark ':', .minute, .mark ':', .second, .fraction]

/-- The parts of a time of day without seconds. -/
def minuteParts : List Part := [.hour, .mark ':', .minute]

theorem looseSpellings_eq : looseSpellings =
    [ dateParts ++ .blanks :: (clockParts ++ [.offset]),
      dateParts ++ .mark 'T' :: (clockParts ++ [.offset]),
      dateParts ++ .blanks :: (minuteParts ++ [.offset]),
      dateParts ++ .blanks :: (clockParts ++ []),
      dateParts ++ .mark 'T' :: (clockParts ++ []),
      dateParts ++ .blanks :: (minuteParts ++ []),
      dateParts ++ [] ] := rfl

theorem readParts_cons {part : Part} {r r' : Reading} {s rest : List Char}
    (h : readPart part r s = some (r', rest)) (more : List Part) :
    readParts (part :: more) r s = readParts more r' rest := by
  rw [readParts, h]

theorem readParts_none {part : Part} {r : Reading} {s : List Char}
    (h : readPart part r s = none) (more : List Part) : readParts (part :: more) r s = none := by
  rw [readParts, h]

theorem exists_padded_eq (w n : Nat) :
    ∃ d ds, padded w n = d :: ds ∧ isDigit d = true := by
  have hne : padded w n ≠ [] := by simp [padded, Integer.digits_ne_nil]
  obtain ⟨d, ds, hd⟩ := List.exists_cons_of_ne_nil hne
  exact ⟨d, ds, hd, Integer.isDigit_padded w n d (by simp [hd])⟩

theorem trimStart_padded (w n : Nat) (rest : List Char) :
    trimStart (padded w n ++ rest) = padded w n ++ rest := by
  obtain ⟨d, ds, hd, hdigit⟩ := exists_padded_eq w n
  rw [hd, List.cons_append]
  exact Text.trimStart_eq_self (isBlank_of_isDigit hdigit)

theorem takeYear_padded {y : Nat} (h : y < 10 ^ 4) (rest : List Char) :
    takeYear (padded 4 y ++ rest) = some ((y : Int), rest) := by
  have hnumber : takeNumber 1 4 (padded 4 y ++ rest) = some (y, rest) := by
    have hl := Integer.length_padded (by decide) h
    exact takeNumber_append (Integer.isDigit_padded 4 y) (Integer.readNatural?_padded 4 y)
      (by omega) (Nat.le_of_eq hl) (.inl hl)
  obtain ⟨d, ds, hd, hdigit⟩ := exists_padded_eq 4 y
  rw [hd, List.cons_append] at hnumber
  unfold takeYear
  rw [trimStart_padded, hd, List.cons_append]
  split
  · next heq =>
    obtain ⟨rfl, -⟩ := List.cons.inj heq
    exact absurd hdigit (by decide)
  · next heq =>
    obtain ⟨rfl, -⟩ := List.cons.inj heq
    exact absurd hdigit (by decide)
  · rw [hnumber]
    rfl

theorem takeLoose_twoDigits {n : Nat} (h : n < 100) (rest : List Char) :
    takeLoose 2 (twoDigits n ++ rest) = some (n, rest) := by
  have hl := Integer.length_padded (w := 2) (by decide) h
  unfold takeLoose twoDigits
  rw [trimStart_padded]
  exact takeNumber_append (Integer.isDigit_padded 2 n) (Integer.readNatural?_padded 2 n)
    (by omega) (Nat.le_of_eq hl) (.inl hl)

/-- No number begins with what is no digit. -/
theorem takeNumber_eq_none {c : Char} (h : isDigit c = false) {least : Nat} (hleast : 0 < least)
    (most : Nat) (rest : List Char) : takeNumber least most (c :: rest) = none := by
  have hfound : ((c :: rest).take most).takeWhile isDigit = [] := by
    cases most with
    | zero => rfl
    | succ most => simp [h]
  unfold takeNumber
  dsimp only
  rw [hfound, List.length_nil, if_pos hleast]

theorem passMark_of_ne {c d : Char} (h : d ≠ c) (rest : List Char) :
    passMark c (d :: rest) = none := if_neg h

section Whole

variable {t : Instant}

theorem dateText_eq (h : t.IsWhole) :
    t.dateText = padded 4 t.date.year.toNat ++ '-' :: (twoDigits t.date.month ++ '-' ::
      twoDigits t.date.day) := by
  simp [dateText, yearText, h.year_nonneg, h.year_le]

theorem year_lt (h : t.IsWhole) : t.date.year.toNat < 10 ^ 4 := by
  have := h.year_le
  omega

/-- The parts of a date are taken off the front of the text. -/
theorem readParts_date (h : t.IsWhole) (more : List Part) (r : Reading) (rest : List Char) :
    readParts (dateParts ++ more) r (t.dateText ++ rest) =
      readParts more { r with year := t.date.year, month := t.date.month, day := t.date.day }
        rest := by
  have hyear : ((t.date.year.toNat : Nat) : Int) = t.date.year := Int.toNat_of_nonneg h.year_nonneg
  rw [dateText_eq h]
  unfold dateParts
  simp only [List.append_assoc, List.cons_append, List.nil_append]
  rw [readParts_cons (by rw [readPart, takeYear_padded (year_lt h), Option.map_some]),
    readParts_cons (by rw [readPart, passMark_self, Option.map_some]),
    readParts_cons (by rw [readPart, takeLoose_twoDigits h.month_lt, Option.map_some]),
    readParts_cons (by rw [readPart, passMark_self, Option.map_some]),
    readParts_cons (by rw [readPart, takeLoose_twoDigits h.day_lt, Option.map_some]), hyear]

/-- Hours and minutes are taken off the front of the time of day. -/
theorem readParts_minutes (t : Instant) (more : List Part) (r : Reading) (rest : List Char) :
    readParts (minuteParts ++ more) r (t.clockText ++ rest) =
      readParts more
        { r with hour := t.secondOfDay / 3600, minute := t.secondOfDay / 60 % 60 }
        (':' :: (twoDigits (t.secondOfDay % 60) ++ rest)) := by
  have hsec := secondOfDay_lt t
  have hhour : t.secondOfDay / 3600 < 100 := by omega
  have hminute : t.secondOfDay / 60 % 60 < 100 := by omega
  unfold clockText minuteParts
  simp only [List.append_assoc, List.cons_append, List.nil_append]
  rw [readParts_cons (by rw [readPart, takeLoose_twoDigits hhour, Option.map_some]),
    readParts_cons (by rw [readPart, passMark_self, Option.map_some]),
    readParts_cons (by rw [readPart, takeLoose_twoDigits hminute, Option.map_some])]

/-- A time of day with parts of a second is taken off the front of the text. -/
theorem readParts_clock (t : Instant) (more : List Part) (r : Reading) {w n : Nat} (hw : 1 ≤ w)
    (hw9 : w ≤ 9) (hn : n < 10 ^ w) {rest : List Char}
    (hr : ∀ c ∈ rest.head?, isDigit c = false) :
    readParts (clockParts ++ more) r (t.clockText ++ '.' :: (padded w n ++ rest)) =
      readParts more
        { r with
          hour := t.secondOfDay / 3600
          minute := t.secondOfDay / 60 % 60
          second := t.secondOfDay % 60
          nanos := n * 10 ^ (9 - w) } rest := by
  have hsecond : t.secondOfDay % 60 < 100 := by
    have := secondOfDay_lt t
    omega
  have hparts : clockParts ++ more = minuteParts ++ (.mark ':' :: .second :: .fraction :: more) :=
    rfl
  rw [hparts, readParts_minutes,
    readParts_cons (by rw [readPart, passMark_self, Option.map_some]),
    readParts_cons (by rw [readPart, takeLoose_twoDigits hsecond, Option.map_some]),
    readParts_cons (by rw [readPart, takeFraction_padded hw hw9 hn hr, Option.map_some])]

theorem exists_clockText_eq (t : Instant) :
    ∃ d ds, t.clockText = d :: ds ∧ isDigit d = true := by
  obtain ⟨d, ds, hd, hdigit⟩ := exists_padded_eq 2 (t.secondOfDay / 3600)
  refine ⟨d, ds ++ ':' :: (twoDigits (t.secondOfDay / 60 % 60) ++ ':' ::
    twoDigits (t.secondOfDay % 60)), ?_, hdigit⟩
  show padded 2 (t.secondOfDay / 3600) ++ _ = _
  rw [hd]
  rfl

/-- Blanks may stand in front of the time of day. -/
theorem readParts_blanks (t : Instant) (more : List Part) (r : Reading) (rest : List Char) :
    readParts (.blanks :: more) r (' ' :: (t.clockText ++ rest)) =
      readParts more r (t.clockText ++ rest) := by
  obtain ⟨d, ds, hd, hdigit⟩ := exists_clockText_eq t
  have htrim : trimStart (' ' :: (t.clockText ++ rest)) = t.clockText ++ rest := by
    rw [hd, List.cons_append]
    exact Text.trimStart_eq_self (isBlank_of_isDigit hdigit)
  exact readParts_cons (by rw [readPart, htrim]) more

/-- A letter in front of the time of day stops the forms that want a blank there. -/
theorem readParts_blanks_letter (more : List Part) (r : Reading) (rest : List Char) :
    readParts (.blanks :: .hour :: more) r ('T' :: rest) = none := by
  have htrim : trimStart ('T' :: rest) = 'T' :: rest := Text.trimStart_eq_self (by decide)
  rw [readParts_cons (by rw [readPart, htrim])]
  refine readParts_none ?_ more
  rw [readPart, takeLoose, htrim, takeNumber_eq_none (by decide) (by decide), Option.map_none]

theorem readParts_letter (more : List Part) (r : Reading) (rest : List Char) :
    readParts (.mark 'T' :: more) r ('T' :: rest) = readParts more r rest :=
  readParts_cons (by rw [readPart, passMark_self, Option.map_some]) more

theorem readParts_letter_blank (more : List Part) (r : Reading) (rest : List Char) :
    readParts (.mark 'T' :: more) r (' ' :: rest) = none :=
  readParts_none (by rw [readPart, passMark_of_ne (by decide), Option.map_none]) more

theorem readParts_offset_colon (r : Reading) (rest : List Char) :
    readParts [.offset] r (':' :: rest) = none := by
  refine readParts_none ?_ []
  rw [readPart, Text.trimStart_eq_self (by decide)]
  rfl

/-! ## The strict form -/

theorem bind_of_eq_some {α β : Type} {x : Option α} {a : α} (h : x = some a) (f : α → Option β) :
    (x >>= f) = f a := by
  rw [h]
  rfl

theorem isDigit_offset : ∀ c ∈ "+0000".toList.head?, isDigit c = false := by
  intro c hc
  rw [← Option.some.inj (show some '+' = some c from hc)]
  decide

/-- The strict form refuses times without an offset, and offsets without a colon. -/
theorem readStrict?_dated (h : t.IsWhole) {between : Char}
    (hbetween : between = ' ' ∨ between = 'T') {w n : Nat} (hw : 1 ≤ w) (hw9 : w ≤ 9)
    (hn : n < 10 ^ w) {tail : List Char} (htail : tail = [] ∨ tail = "+0000".toList) :
    readStrict? (t.dated between (padded w n ++ tail)) = none := by
  have hsec := secondOfDay_lt t
  have hhour : t.secondOfDay / 3600 < 100 := by omega
  have hminute : t.secondOfDay / 60 % 60 < 100 := by omega
  have hsecond : t.secondOfDay % 60 < 100 := by omega
  have hstop : ∀ c ∈ tail.head?, isDigit c = false := by
    rcases htail with rfl | rfl
    · simp
    · exact isDigit_offset
  unfold dated clockText
  rw [dateText_eq h]
  simp only [List.append_assoc, List.cons_append]
  unfold readStrict?
  refine (bind_of_eq_some (takeNumber_padded (by decide) (year_lt h) _) _).trans ?_
  refine (bind_of_eq_some (passMark_self _ _) _).trans ?_
  refine (bind_of_eq_some (takePair_twoDigits h.month_lt _) _).trans ?_
  refine (bind_of_eq_some (passMark_self _ _) _).trans ?_
  refine (bind_of_eq_some (takePair_twoDigits h.day_lt _) _).trans ?_
  rcases hbetween with rfl | rfl
  all_goals
    refine (bind_of_eq_some rfl _).trans ?_
    refine (bind_of_eq_some (takePair_twoDigits hhour _) _).trans ?_
    refine (bind_of_eq_some (passMark_self _ _) _).trans ?_
    refine (bind_of_eq_some (takePair_twoDigits hminute _) _).trans ?_
    refine (bind_of_eq_some (passMark_self _ _) _).trans ?_
    refine (bind_of_eq_some (takePair_twoDigits hsecond _) _).trans ?_
    refine (bind_of_eq_some (takeFraction_padded hw hw9 hn hstop) _).trans ?_
    rcases htail with rfl | rfl <;> rfl

/-- The strict form refuses a date without a time. -/
theorem readStrict?_dateText (h : t.IsWhole) : readStrict? t.dateText = none := by
  have hday := takePair_twoDigits h.day_lt []
  rw [List.append_nil] at hday
  rw [dateText_eq h]
  unfold readStrict?
  refine (bind_of_eq_some (takeNumber_padded (by decide) (year_lt h) _) _).trans ?_
  refine (bind_of_eq_some (passMark_self _ _) _).trans ?_
  refine (bind_of_eq_some (takePair_twoDigits h.month_lt _) _).trans ?_
  refine (bind_of_eq_some (passMark_self _ _) _).trans ?_
  exact (bind_of_eq_some hday _).trans rfl

/-! ## Reading with the loose forms -/

/-- What the parts of date and time make, with any digits for the parts of a second. -/
theorem toInstant?_of_nanos (h : t.IsWhole) {nanos : Nat} (hnanos : nanos = t.nanos) :
    Reading.toInstant? ⟨t.date.year, t.date.month, t.date.day, t.secondOfDay / 3600,
      t.secondOfDay / 60 % 60, t.secondOfDay % 60, nanos, 0⟩ = some t := by
  have hparts := toInstant?_parts h
  rw [h.nanos_eq, Int.toNat_of_nonneg h.year_nonneg] at hparts
  rw [hnanos]
  exact hparts

/-- Behind date and time the loose forms want an offset, or nothing. -/
theorem readLoose?_dated (h : t.IsWhole) (between : Char) (parts : List Part)
    (fraction : List Char) :
    readLoose? (dateParts ++ parts) (t.dated between fraction) =
      (readParts parts
        { Reading.start with year := t.date.year, month := t.date.month, day := t.date.day }
        (between :: (t.clockText ++ '.' :: fraction))).bind Reading.toInstant? := by
  unfold readLoose? dated
  rw [readParts_date h]

/-- A text that the strict form refuses is read by the first loose form that takes it. -/
theorem read?_of_loose {s : List Char} (htrim : trim s = s) (hstrict : readStrict? s = none)
    (hloose : (looseSpellings.findSome? fun parts => readLoose? parts s) = some t) :
    read? s = some t := by
  unfold read?
  dsimp only
  rw [htrim, hstrict, hloose]

/-- A text that no other form takes is read as a count of milliseconds. -/
theorem read?_of_count {s : List Char} (htrim : trim s = s) (hstrict : readStrict? s = none)
    (hloose : (looseSpellings.findSome? fun parts => readLoose? parts s) = none) :
    read? s = (Integer.readSigned? s).bind ofMillis? := by
  unfold read?
  dsimp only
  rw [htrim, hstrict, hloose]

theorem isBlank_head_dateText (h : t.IsWhole) (s : List Char) :
    ∀ c ∈ (t.dateText ++ s).head?, isBlank c = false := by
  obtain ⟨d, ds, hd, hdigit⟩ := exists_padded_eq 4 t.date.year.toNat
  intro c hc
  rw [dateText_eq h, hd, List.cons_append, List.cons_append, List.head?_cons] at hc
  rw [← Option.some.inj hc]
  exact isBlank_of_isDigit hdigit

theorem getLast?_append_cons (s : List Char) (c : Char) (rest : List Char) :
    (s ++ c :: rest).getLast? = (c :: rest).getLast? := by
  rw [List.getLast?_append, List.getLast?_eq_some_getLast (List.cons_ne_nil c rest),
    Option.some_or]

theorem isBlank_last_padded (s : List Char) (w n : Nat) :
    ∀ c ∈ (s ++ padded w n).getLast?, isBlank c = false := by
  obtain ⟨d, ds, hd, -⟩ := exists_padded_eq w n
  intro c hc
  refine isBlank_of_isDigit (Integer.isDigit_padded w n c ?_)
  rw [hd, getLast?_append_cons] at hc
  rw [hd]
  exact List.mem_of_getLast? hc

/-- Nothing is dropped from a date and time that end in no blank. -/
theorem trim_dated (h : t.IsWhole) {between : Char} {fraction : List Char}
    (hlast : ∀ c ∈ ('.' :: fraction).getLast?, isBlank c = false) :
    trim (t.dated between fraction) = t.dated between fraction := by
  refine Text.trim_eq_self (isBlank_head_dateText h _) fun c hc => hlast c ?_
  unfold dated at hc
  rw [← List.cons_append, ← List.append_assoc, getLast?_append_cons] at hc
  exact hc

theorem trim_dateText (h : t.IsWhole) : trim t.dateText = t.dateText := by
  have hhead := isBlank_head_dateText h []
  rw [List.append_nil] at hhead
  refine Text.trim_eq_self hhead ?_
  rw [dateText_eq h, ← List.cons_append, ← List.append_assoc, List.append_cons]
  exact isBlank_last_padded _ 2 _

theorem findSome?_refused {parts : List Part} {s : List Char} (h : readLoose? parts s = none)
    (more : List (List Part)) :
    ((parts :: more).findSome? fun parts => readLoose? parts s) =
      more.findSome? fun parts => readLoose? parts s := by
  rw [List.findSome?_cons, h]

theorem findSome?_taken {parts : List Part} {s : List Char} (h : readLoose? parts s = some t)
    (more : List (List Part)) :
    ((parts :: more).findSome? fun parts => readLoose? parts s) = some t := by
  rw [List.findSome?_cons, h]

/-- A time with microseconds and an offset of zero is taken by the first loose form. -/
theorem read?_microseconds (h : t.IsWhole) :
    read? (t.dated ' ' (padded 6 (t.nanos / 1000) ++ "+0000".toList)) = some t := by
  have hlt : t.nanos / 1000 < 10 ^ 6 := by
    have := h.nanos_lt
    omega
  have hnanos : t.nanos / 1000 * 10 ^ (9 - 6) = t.nanos := by
    have := h.millis
    omega
  have htrim : trim (t.dated ' ' (padded 6 (t.nanos / 1000) ++ "+0000".toList)) =
      t.dated ' ' (padded 6 (t.nanos / 1000) ++ "+0000".toList) := by
    refine trim_dated h fun c hc => ?_
    rw [← List.cons_append, show "+0000".toList = '+' :: "0000".toList from rfl,
      getLast?_append_cons] at hc
    rw [← Option.some.inj (show some '0' = some c from hc)]
    decide
  have htaken : readLoose? (dateParts ++ .blanks :: (clockParts ++ [.offset]))
      (t.dated ' ' (padded 6 (t.nanos / 1000) ++ "+0000".toList)) = some t := by
    rw [readLoose?_dated h, readParts_blanks,
      readParts_clock t _ _ (by decide) (by decide) hlt isDigit_offset]
    exact toInstant?_of_nanos h hnanos
  refine read?_of_loose htrim
    (readStrict?_dated h (.inl rfl) (by decide) (by decide) hlt (.inr rfl)) ?_
  rw [looseSpellings_eq, findSome?_taken htaken]

section Milliseconds

/-- The strict form refuses milliseconds without an offset. -/
theorem readStrict?_millis (h : t.IsWhole) {between : Char}
    (hbetween : between = ' ' ∨ between = 'T') :
    readStrict? (t.dated between (padded 3 (t.nanos / 1000000))) = none := by
  have hstrict := readStrict?_dated (w := 3) h hbetween (by decide) (by decide) h.millis_lt
    (.inl rfl)
  rw [List.append_nil] at hstrict
  exact hstrict

theorem readParts_millis (h : t.IsWhole) (more : List Part) (r : Reading) :
    readParts (clockParts ++ more) r (t.clockText ++ '.' :: padded 3 (t.nanos / 1000000)) =
      readParts more
        { r with
          hour := t.secondOfDay / 3600
          minute := t.secondOfDay / 60 % 60
          second := t.secondOfDay % 60
          nanos := t.nanos } [] := by
  have hstop : ∀ c ∈ ([] : List Char).head?, isDigit c = false := by simp
  have hclock := readParts_clock (w := 3) t more r (by decide) (by decide) h.millis_lt hstop
  rw [List.append_nil, show t.nanos / 1000000 * 10 ^ (9 - 3) = t.nanos from h.nanos_eq] at hclock
  exact hclock

/-- Milliseconds without an offset are taken as UTC, behind a blank. -/
theorem read?_spaced (h : t.IsWhole) :
    read? (t.dated ' ' (padded 3 (t.nanos / 1000000))) = some t := by
  have hoffset : readLoose? (dateParts ++ .blanks :: (clockParts ++ [.offset]))
      (t.dated ' ' (padded 3 (t.nanos / 1000000))) = none := by
    rw [readLoose?_dated h, readParts_blanks, readParts_millis h]
    rfl
  have hletter : readLoose? (dateParts ++ .mark 'T' :: (clockParts ++ [.offset]))
      (t.dated ' ' (padded 3 (t.nanos / 1000000))) = none := by
    rw [readLoose?_dated h, readParts_letter_blank, Option.bind_none]
  have hminutes : readLoose? (dateParts ++ .blanks :: (minuteParts ++ [.offset]))
      (t.dated ' ' (padded 3 (t.nanos / 1000000))) = none := by
    rw [readLoose?_dated h, readParts_blanks, readParts_minutes, readParts_offset_colon,
      Option.bind_none]
  have htaken : readLoose? (dateParts ++ .blanks :: (clockParts ++ []))
      (t.dated ' ' (padded 3 (t.nanos / 1000000))) = some t := by
    rw [readLoose?_dated h, readParts_blanks, readParts_millis h]
    exact toInstant?_of_nanos h rfl
  refine read?_of_loose (trim_dated h (isBlank_last_padded ['.'] 3 _))
    (readStrict?_millis h (.inl rfl)) ?_
  rw [looseSpellings_eq, findSome?_refused hoffset, findSome?_refused hletter,
    findSome?_refused hminutes, findSome?_taken htaken]

/-- Milliseconds without an offset are taken as UTC, behind a letter. -/
theorem read?_joined (h : t.IsWhole) :
    read? (t.dated 'T' (padded 3 (t.nanos / 1000000))) = some t := by
  have hblanks : ∀ more, readLoose? (dateParts ++ .blanks :: .hour :: more)
      (t.dated 'T' (padded 3 (t.nanos / 1000000))) = none := by
    intro more
    rw [readLoose?_dated h, readParts_blanks_letter, Option.bind_none]
  have hclock : ∀ more, readLoose? (dateParts ++ .blanks :: (clockParts ++ more))
      (t.dated 'T' (padded 3 (t.nanos / 1000000))) = none := fun _ => hblanks _
  have hminutes : ∀ more, readLoose? (dateParts ++ .blanks :: (minuteParts ++ more))
      (t.dated 'T' (padded 3 (t.nanos / 1000000))) = none := fun _ => hblanks _
  have hoffset : readLoose? (dateParts ++ .mark 'T' :: (clockParts ++ [.offset]))
      (t.dated 'T' (padded 3 (t.nanos / 1000000))) = none := by
    rw [readLoose?_dated h, readParts_letter, readParts_millis h]
    rfl
  have htaken : readLoose? (dateParts ++ .mark 'T' :: (clockParts ++ []))
      (t.dated 'T' (padded 3 (t.nanos / 1000000))) = some t := by
    rw [readLoose?_dated h, readParts_letter, readParts_millis h]
    exact toInstant?_of_nanos h rfl
  refine read?_of_loose (trim_dated h (isBlank_last_padded ['.'] 3 _))
    (readStrict?_millis h (.inr rfl)) ?_
  rw [looseSpellings_eq, findSome?_refused (hclock _), findSome?_refused hoffset,
    findSome?_refused (hminutes _), findSome?_refused (hclock _), findSome?_taken htaken]

end Milliseconds

/-- A date alone is taken as its midnight. -/
theorem read?_dateText (h : t.IsWhole) (hsecond : t.secondOfDay = 0) (hnanos : t.nanos = 0) :
    read? t.dateText = some t := by
  have hdate : ∀ more, readLoose? (dateParts ++ more) t.dateText =
      (readParts more
        { Reading.start with year := t.date.year, month := t.date.month, day := t.date.day }
        []).bind Reading.toInstant? := by
    intro more
    have hparts := readParts_date h more Reading.start []
    rw [List.append_nil] at hparts
    unfold readLoose?
    rw [hparts]
  have hclock : ∀ more,
      readLoose? (dateParts ++ .blanks :: (clockParts ++ more)) t.dateText = none :=
    fun _ => hdate _
  have hminutes : ∀ more,
      readLoose? (dateParts ++ .blanks :: (minuteParts ++ more)) t.dateText = none :=
    fun _ => hdate _
  have hletter : ∀ more, readLoose? (dateParts ++ .mark 'T' :: more) t.dateText = none :=
    fun _ => hdate _
  have htaken : readLoose? (dateParts ++ []) t.dateText = some t := by
    have hparts := toInstant?_of_nanos h hnanos.symm
    rw [hsecond] at hparts
    rw [hdate]
    exact hparts
  refine read?_of_loose (trim_dateText h) (readStrict?_dateText h) ?_
  rw [looseSpellings_eq, findSome?_refused (hclock _), findSome?_refused (hletter _),
    findSome?_refused (hminutes _), findSome?_refused (hclock _), findSome?_refused (hletter _),
    findSome?_refused (hminutes _), findSome?_taken htaken]

end Whole

/-! ## Counts of milliseconds -/

/-- What is left behind some digits of a number are digits. -/
theorem isDigit_of_takeNumber {least most n : Nat} {s rest : List Char}
    (hs : ∀ c ∈ s, isDigit c = true) (h : takeNumber least most s = some (n, rest)) :
    ∀ c ∈ rest, isDigit c = true := by
  unfold takeNumber at h
  dsimp only at h
  split at h
  · cases h
  · obtain ⟨m, -, hm⟩ := Option.map_eq_some_iff.mp h
    rw [← (Prod.mk.inj hm).2]
    exact fun c hc => hs c (List.mem_of_mem_drop hc)

/-- No hyphen stands behind digits of a number. -/
theorem passMark_digits {s : List Char} (hs : ∀ c ∈ s, isDigit c = true) :
    passMark '-' s = none := by
  cases s with
  | nil => rfl
  | cons c rest =>
    refine passMark_of_ne ?_ rest
    rintro rfl
    exact absurd (hs _ List.mem_cons_self) (by decide)

theorem render_cases (i : Int) :
    (∃ n, Integer.render i = '-' :: Integer.digits n) ∨
      ∃ n, Integer.render i = Integer.digits n := by
  unfold Integer.render
  split
  · exact .inl ⟨_, rfl⟩
  · exact .inr ⟨_, rfl⟩

theorem isBlank_render (i : Int) : ∀ c ∈ Integer.render i, isBlank c = false := by
  intro c hc
  rcases render_cases i with ⟨n, hn⟩ | ⟨n, hn⟩
  · rw [hn] at hc
    rcases List.mem_cons.mp hc with rfl | hdigit
    · decide
    · exact isBlank_of_isDigit (Integer.isDigit_digits n c hdigit)
  · rw [hn] at hc
    exact isBlank_of_isDigit (Integer.isDigit_digits n c hc)

theorem trimStart_render (i : Int) : trimStart (Integer.render i) = Integer.render i := by
  cases hi : Integer.render i with
  | nil => rfl
  | cons c rest => exact Text.trimStart_eq_self (isBlank_render i c (by simp [hi]))

/-- A count is a year, or more than one, with only digits behind it. -/
theorem isDigit_of_takeYear {i y : Int} {rest : List Char}
    (h : takeYear (Integer.render i) = some (y, rest)) : ∀ c ∈ rest, isDigit c = true := by
  have hdigits : ∀ (least most n : Nat) (make : Nat → Int),
      ((takeNumber least most (Integer.digits n)).map fun p => (make p.1, p.2)) = some (y, rest) →
      ∀ c ∈ rest, isDigit c = true := by
    intro least most n make h
    obtain ⟨p, hp, heq⟩ := Option.map_eq_some_iff.mp h
    rw [← (Prod.mk.inj heq).2]
    exact isDigit_of_takeNumber (Integer.isDigit_digits n) hp
  unfold takeYear at h
  rw [trimStart_render] at h
  rcases render_cases i with ⟨n, hn⟩ | ⟨n, hn⟩
  · rw [hn] at h
    exact hdigits 1 _ n (fun m => -(m : Int)) h
  · have hfirst : ∀ c rest', Integer.digits n = c :: rest' → isDigit c = true :=
      fun c rest' heq => Integer.isDigit_digits n c (by rw [heq]; exact List.mem_cons_self)
    rw [hn] at h
    split at h
    · next heq => exact absurd (hfirst _ _ heq) (by decide)
    · next heq => exact absurd (hfirst _ _ heq) (by decide)
    · exact hdigits _ _ n _ h

/-- No loose form takes a count, as they all want a hyphen behind the year. -/
theorem readParts_render (i : Int) (more : List Part) (r : Reading) :
    readParts (dateParts ++ more) r (Integer.render i) = none := by
  show readParts (.year :: .mark '-' :: .month :: .mark '-' :: .day :: more) r _ = none
  cases hyear : takeYear (Integer.render i) with
  | none => exact readParts_none (by rw [readPart, hyear, Option.map_none]) _
  | some p =>
    obtain ⟨y, rest⟩ := p
    rw [readParts_cons (by rw [readPart, hyear, Option.map_some])]
    refine readParts_none ?_ _
    rw [readPart, passMark_digits (isDigit_of_takeYear hyear), Option.map_none]

theorem readStrict?_count (i : Int) : readStrict? (Integer.render i) = none := by
  have hnumber : ∀ p, takeNumber 4 4 (Integer.render i) = some p → passMark '-' p.2 = none := by
    rintro ⟨n, rest⟩ h
    rcases render_cases i with ⟨m, hm⟩ | ⟨m, hm⟩
    · rw [hm, takeNumber_eq_none (by decide) (by decide)] at h
      cases h
    · rw [hm] at h
      exact passMark_digits (isDigit_of_takeNumber (Integer.isDigit_digits m) h)
  unfold readStrict?
  cases h : takeNumber 4 4 (Integer.render i) with
  | none => rfl
  | some p =>
    obtain ⟨n, rest⟩ := p
    have hmark : passMark '-' rest = none := hnumber _ h
    rw [bind_of_eq_some rfl]
    dsimp only
    rw [hmark]
    rfl

/-- A count of milliseconds is taken by no other form. -/
theorem read?_count {i : Int} (hmin : Integer.min64 ≤ i) (hmax : i ≤ Integer.max64) :
    read? (Integer.render i) = ofMillis? i := by
  have htrim : trim (Integer.render i) = Integer.render i :=
    Text.dropEnds_eq_self (isBlank_render i)
  have hrefused : ∀ more, readLoose? (dateParts ++ more) (Integer.render i) = none := by
    intro more
    unfold readLoose?
    rw [readParts_render, Option.bind_none]
  rw [read?_of_count htrim (readStrict?_count i)]
  · unfold Integer.readSigned?
    rw [Integer.read?_render hmin hmax, Option.bind_some]
  · rw [looseSpellings_eq, findSome?_refused (hrefused _), findSome?_refused (hrefused _),
      findSome?_refused (hrefused _), findSome?_refused (hrefused _),
      findSome?_refused (hrefused _), findSome?_refused (hrefused _),
      findSome?_refused (hrefused _)]
    rfl

theorem IsWhole.toMillis_bounds {t : Instant} (h : t.IsWhole) :
    Integer.min64 ≤ t.toMillis ∧ t.toMillis ≤ Integer.max64 := by
  obtain ⟨hlo, hhi⟩ := h.seconds_bounds
  have hmillis := h.millis_lt
  have hmin : minSeconds = -8334601228800 := by decide
  have hmax : maxSeconds = 8210266876799 := by decide
  rw [hmin] at hlo
  rw [hmax] at hhi
  unfold toMillis Integer.min64 Integer.max64
  omega

/-! ## All spellings -/

/-- Every spelling of an instant is read as the instant, with any blanks around it. -/
theorem spellings_are_instant {t : Instant} (h : t.IsWhole) {s : List Char}
    (hs : s ∈ t.spellings) {before after : List Char} (hbefore : ∀ c ∈ before, isBlank c = true)
    (hafter : ∀ c ∈ after, isBlank c = true) : read? (before ++ (s ++ after)) = some t := by
  have hblanks : read? (before ++ (s ++ after)) = read? s := by
    unfold read?
    rw [Text.trim_append_blanks hbefore hafter]
  rw [hblanks]
  unfold spellings at hs
  rcases List.mem_append.mp hs with hs | hs
  · simp only [List.mem_cons, List.not_mem_nil, or_false] at hs
    rcases hs with rfl | rfl | rfl | rfl | rfl
    · exact read?_render h
    · exact read?_microseconds h
    · exact read?_spaced h
    · exact read?_joined h
    · obtain ⟨hmin, hmax⟩ := h.toMillis_bounds
      rw [read?_count hmin hmax, ofMillis?_toMillis h]
  · split at hs
    · next hmidnight =>
      obtain rfl := List.mem_singleton.mp hs
      exact read?_dateText h hmidnight.1 hmidnight.2
    · cases hs

/-- The day before the epoch, by its negative count and by its date. -/
theorem spellings_are_instant_before_epoch :
    read? (['\t'] ++ ("-86400000".toList ++ [' ', '\n'])) = some ⟨-86400, 0⟩ ∧
      read? ([] ++ ("1969-12-31".toList ++ [' '])) = some ⟨-86400, 0⟩ := by
  have hwhole : IsWhole ⟨-86400, 0⟩ := by decide
  constructor
  · exact spellings_are_instant hwhole (by decide +kernel) (List.all_eq_true.mp rfl)
      (List.all_eq_true.mp rfl)
  · exact spellings_are_instant hwhole (by decide +kernel) (List.forall_mem_nil _)
      (List.all_eq_true.mp rfl)

end BulkTransfer.Instant
