import BulkTransfer.Instant.Reader
import BulkTransfer.Proofs.Instant.Calendar

/-!
The written form of an instant reads back. Instants of whole milliseconds in years of four digits
are written in fixed widths, so each part is taken off the front of the text in turn.

- `Instant.IsWhole`: whole milliseconds, years 0000 to 9999, no leap second.
- `read?_render`: such an instant is what its written form spells.
- `ofMillis?_toMillis`: and what its count of milliseconds stands for.
-/

namespace BulkTransfer.Instant

open Integer (isDigit readNatural? padded)
open Text (isBlank trim)

/-- An instant of whole milliseconds in a year of four digits, outside leap seconds. -/
structure IsWhole (t : Instant) : Prop where
  year_nonneg : 0 ≤ t.date.year
  year_le : t.date.year ≤ 9999
  nanos_lt : t.nanos < 1000000000
  millis : t.nanos % 1000000 = 0

instance (t : Instant) : Decidable t.IsWhole :=
  decidable_of_iff (0 ≤ t.date.year ∧ t.date.year ≤ 9999 ∧ t.nanos < 1000000000 ∧
      t.nanos % 1000000 = 0)
    ⟨fun h => ⟨h.1, h.2.1, h.2.2.1, h.2.2.2⟩, fun h => ⟨h.1, h.2, h.3, h.4⟩⟩

/-! ## Numbers -/

theorem takeWhile_append_stop {α : Type} {p : α → Bool} {s t : List α} (hs : ∀ c ∈ s, p c = true)
    (ht : ∀ c ∈ t.head?, p c = false) : (s ++ t).takeWhile p = s := by
  rw [List.takeWhile_append_of_pos hs]
  cases t with
  | nil => simp
  | cons c t => simp [ht c (by simp)]

/-- Digits are taken up to the greatest number of them, or up to what is no digit. -/
theorem takeNumber_append {least most n : Nat} {s rest : List Char}
    (hs : ∀ c ∈ s, isDigit c = true) (hn : readNatural? s = some n) (hl : least ≤ s.length)
    (hm : s.length ≤ most) (hr : s.length = most ∨ ∀ c ∈ rest.head?, isDigit c = false) :
    takeNumber least most (s ++ rest) = some (n, rest) := by
  have hfound : ((s ++ rest).take most).takeWhile isDigit = s := by
    rw [List.take_append, List.take_of_length_le hm]
    rcases hr with hr | hr
    · rw [hr, Nat.sub_self, List.take_zero]
      exact takeWhile_append_stop hs (by simp)
    · refine takeWhile_append_stop hs fun c hc => ?_
      rcases hd : most - s.length with _ | k
      · rw [hd] at hc
        simp at hc
      · rw [hd] at hc
        cases rest with
        | nil => simp at hc
        | cons a r => exact hr c (by simpa using hc)
  have hlt : ¬ s.length < least := by omega
  simp only [takeNumber, hfound, if_neg hlt, hn, Option.map_some, List.drop_left]

theorem takeNumber_padded {w n : Nat} (hw : 1 ≤ w) (h : n < 10 ^ w) (rest : List Char) :
    takeNumber w w (padded w n ++ rest) = some (n, rest) := by
  have hl := Integer.length_padded hw h
  exact takeNumber_append (Integer.isDigit_padded w n) (Integer.readNatural?_padded w n)
    (Nat.le_of_eq hl.symm) (Nat.le_of_eq hl) (.inl hl)

theorem takePair_twoDigits {n : Nat} (h : n < 100) (rest : List Char) :
    takePair (twoDigits n ++ rest) = some (n, rest) := takeNumber_padded (by decide) h rest

/-- Up to nine digits behind a point tell parts of a second. -/
theorem takeFraction_padded {w n : Nat} (hw : 1 ≤ w) (hw9 : w ≤ 9) (h : n < 10 ^ w)
    {rest : List Char} (hr : ∀ c ∈ rest.head?, isDigit c = false) :
    takeFraction ('.' :: (padded w n ++ rest)) = some (n * 10 ^ (9 - w), rest) := by
  have hl := Integer.length_padded hw h
  have htake : takeNumber 1 9 (padded w n ++ rest) = some (n, rest) :=
    takeNumber_append (Integer.isDigit_padded w n) (Integer.readNatural?_padded w n)
      (by omega) (by omega) (.inr hr)
  have hdrop : rest.dropWhile isDigit = rest := by
    cases rest with
    | nil => rfl
    | cons c r => simp [hr c (by simp)]
  have hlen : (padded w n ++ rest).length - rest.length = w := by
    rw [List.length_append, hl, Nat.add_sub_cancel]
  have hfraction : ∀ s, takeFraction ('.' :: s) = (takeNumber 1 9 s).map fun p =>
      (p.1 * 10 ^ (9 - (s.length - p.2.length)), p.2.dropWhile isDigit) := fun _ => rfl
  rw [hfraction, htake]
  exact congr (congrArg (fun k r => some (n * 10 ^ (9 - k), r)) hlen) hdrop

/-! ## The parts of an instant -/

theorem secondOfDay_lt (t : Instant) : t.secondOfDay < 86400 := by
  rw [secondOfDay, dayLength]
  omega

theorem seconds_eq (t : Instant) : t.seconds = t.date.toDays * dayLength + t.secondOfDay := by
  rw [date, CivilDate.toDays_ofDays, secondOfDay, dayLength]
  omega

namespace IsWhole

variable {t : Instant}

theorem isValid_date (h : t.IsWhole) : t.date.isValid = true :=
  CivilDate.isValid_ofDays (Int.le_trans (by decide) h.year_nonneg)
    (Int.le_trans h.year_le (by decide))

theorem month_lt (h : t.IsWhole) : t.date.month < 100 := by
  have hv := h.isValid_date
  simp only [CivilDate.isValid, Bool.and_eq_true, decide_eq_true_eq] at hv
  omega

theorem day_lt (h : t.IsWhole) : t.date.day < 100 := by
  have hv := h.isValid_date
  have hd := CivilDate.daysOfMonth_le t.date.year t.date.month
  simp only [CivilDate.isValid, Bool.and_eq_true, decide_eq_true_eq] at hv
  omega

theorem millis_lt (h : t.IsWhole) : t.nanos / 1000000 < 1000 := by
  have := h.nanos_lt
  omega

theorem nanos_eq (h : t.IsWhole) : t.nanos / 1000000 * 1000000 = t.nanos := by
  have := h.millis
  omega

theorem seconds_bounds (h : t.IsWhole) : minSeconds ≤ t.seconds ∧ t.seconds ≤ maxSeconds := by
  obtain ⟨hlo, hhi⟩ := CivilDate.toDays_bounds h.isValid_date h.year_nonneg h.year_le
  have hsec := secondOfDay_lt t
  have hmin : minSeconds = -8334601228800 := by decide
  have hmax : maxSeconds = 8210266876799 := by decide
  rw [hmin, hmax, seconds_eq t, dayLength]
  omega

end IsWhole

/-! ## Reading back -/

theorem render_eq {t : Instant} (h : t.IsWhole) :
    t.render = padded 4 t.date.year.toNat ++ '-' :: (twoDigits t.date.month ++ '-' ::
      (twoDigits t.date.day ++ 'T' :: (twoDigits (t.secondOfDay / 3600) ++ ':' ::
        (twoDigits (t.secondOfDay / 60 % 60) ++ ':' :: (twoDigits (t.secondOfDay % 60) ++ '.' ::
          (padded 3 (t.nanos / 1000000) ++ ['Z'])))))) := by
  have hl := h.nanos_lt
  have hleap : ¬ 1000000000 ≤ t.nanos := by omega
  simp [render, dateText, yearText, h.year_nonneg, h.year_le, hleap]

/-- The parts of an instant make that instant. -/
theorem toInstant?_parts {t : Instant} (h : t.IsWhole) :
    Reading.toInstant? ⟨t.date.year.toNat, t.date.month, t.date.day, t.secondOfDay / 3600,
      t.secondOfDay / 60 % 60, t.secondOfDay % 60, t.nanos / 1000000 * 1000000, 0⟩ = some t := by
  have hyear : ((t.date.year.toNat : Nat) : Int) = t.date.year := Int.toNat_of_nonneg h.year_nonneg
  have hsec := secondOfDay_lt t
  have hinRange : ¬ (!t.date.isValid || decide (23 < t.secondOfDay / 3600) ||
      decide (59 < t.secondOfDay / 60 % 60) || decide (60 < t.secondOfDay % 60)) = true := by
    rw [h.isValid_date]
    simp
    omega
  have hleap : (t.secondOfDay % 60 == 60) = false := by
    rw [beq_eq_false_iff_ne]
    omega
  have hoffset : ¬ ((0 : Int) ≤ -dayLength ∨ dayLength ≤ 0) := by decide
  have hsum : t.date.toDays * dayLength + ((t.secondOfDay / 3600 : Nat) : Int) * 3600 +
      ((t.secondOfDay / 60 % 60 : Nat) : Int) * 60 + ((t.secondOfDay % 60 : Nat) : Int) - 0 =
        t.seconds := by
    rw [seconds_eq t]
    omega
  simp only [Reading.toInstant?, hyear]
  rw [if_neg hinRange, if_neg hoffset]
  simp only [hleap]
  rw [if_neg (by decide), if_neg (by decide), hsum, h.nanos_eq, ofSeconds?,
    if_pos h.seconds_bounds]

theorem passMark_self (c : Char) (rest : List Char) : passMark c (c :: rest) = some rest :=
  if_pos rfl

theorem readStrict?_render {t : Instant} (h : t.IsWhole) : readStrict? t.render = some t := by
  have hsec := secondOfDay_lt t
  have hy : t.date.year.toNat < 10 ^ 4 := by
    have := h.year_le
    omega
  have hz : ∀ c ∈ ['Z'].head?, isDigit c = false := by
    intro c hc
    obtain rfl := Option.some.inj hc
    decide
  have hhour : t.secondOfDay / 3600 < 100 := by omega
  have hminute : t.secondOfDay / 60 % 60 < 100 := by omega
  have hsecond : t.secondOfDay % 60 < 100 := by omega
  rw [render_eq h]
  unfold readStrict?
  refine Option.bind_eq_some_iff.mpr ⟨_, takeNumber_padded (by decide) hy _, ?_⟩
  refine Option.bind_eq_some_iff.mpr ⟨_, passMark_self _ _, ?_⟩
  refine Option.bind_eq_some_iff.mpr ⟨_, takePair_twoDigits h.month_lt _, ?_⟩
  refine Option.bind_eq_some_iff.mpr ⟨_, passMark_self _ _, ?_⟩
  refine Option.bind_eq_some_iff.mpr ⟨_, takePair_twoDigits h.day_lt _, ?_⟩
  refine Option.bind_eq_some_iff.mpr ⟨_, rfl, ?_⟩
  refine Option.bind_eq_some_iff.mpr ⟨_, takePair_twoDigits hhour _, ?_⟩
  refine Option.bind_eq_some_iff.mpr ⟨_, passMark_self _ _, ?_⟩
  refine Option.bind_eq_some_iff.mpr ⟨_, takePair_twoDigits hminute _, ?_⟩
  refine Option.bind_eq_some_iff.mpr ⟨_, passMark_self _ _, ?_⟩
  refine Option.bind_eq_some_iff.mpr ⟨_, takePair_twoDigits hsecond _, ?_⟩
  refine Option.bind_eq_some_iff.mpr ⟨_, takeFraction_padded (by decide) (by decide) h.millis_lt hz, ?_⟩
  refine Option.bind_eq_some_iff.mpr ⟨_, rfl, ?_⟩
  exact toInstant?_parts h

theorem isBlank_of_isDigit {c : Char} (h : isDigit c = true) : isBlank c = false := by
  have hn := Integer.toNat_of_isDigit h
  simp only [isBlank, Bool.or_eq_false_iff, Bool.and_eq_false_iff, beq_eq_false_iff_ne,
    decide_eq_false_iff_not]
  omega

theorem trim_render {t : Instant} (h : t.IsWhole) : trim t.render = t.render := by
  apply Text.trim_eq_self
  · intro c hc
    have hne : padded 4 t.date.year.toNat ≠ [] := by simp [padded, Integer.digits_ne_nil]
    obtain ⟨d, ds, hd⟩ := List.exists_cons_of_ne_nil hne
    rw [render_eq h, hd, List.cons_append, List.head?_cons, Option.mem_some] at hc
    exact isBlank_of_isDigit (Integer.isDigit_padded 4 t.date.year.toNat c (by simp [hd, hc]))
  · intro c hc
    have hlast : t.render.getLast? = some 'Z' := List.getLast?_concat
    rw [hlast, Option.mem_some] at hc
    rw [← hc]
    decide

/-- The written form of an instant reads back as that instant. -/
theorem read?_render {t : Instant} (h : t.IsWhole) : read? t.render = some t := by
  simp only [read?, trim_render h, readStrict?_render h]

/-- The count of milliseconds of an instant stands for that instant. -/
theorem ofMillis?_toMillis {t : Instant} (h : t.IsWhole) : ofMillis? t.toMillis = some t := by
  have hlt := h.millis_lt
  have hseconds : t.toMillis / 1000 = t.seconds := by
    rw [toMillis]
    omega
  have hmillis : (t.toMillis % 1000).toNat = t.nanos / 1000000 := by
    rw [toMillis]
    omega
  rw [ofMillis?, hseconds, hmillis, h.nanos_eq, ofSeconds?, if_pos h.seconds_bounds]

end BulkTransfer.Instant
