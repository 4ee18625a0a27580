import BulkTransfer.Instant.Calendar

/-!
The two maps of the calendar. A day count is taken apart into an era of four centuries, a year of
the era that begins in March, and a day of that year; putting the parts together again gives the
count back.

- `century_year`, `yearOfEra_spec`: the year of an era found by division is the one that holds the
  day.
- `toDays_ofDays`: the date of a day count lies that many days from the epoch.
- `isValid_ofDays`: it is a date of the calendar, if its year is in range.
-/

namespace BulkTransfer.CivilDate

/-! ## The year of an era -/

/-- The year of an era that a day of the era lies in. -/
def yearOfEra (dayOfEra : Int) : Int :=
  (dayOfEra - dayOfEra / 1460 + dayOfEra / 36524 - dayOfEra / 146096) / 365

/-- Within a century a year is `4 b + k`: `b` whole leap cycles of 1461 days and `k` years more. -/
theorem century_year {f r : Int} (hf : 0 ≤ f) (hf3 : f ≤ 3) (h0 : 0 ≤ r) (h1 : r ≤ 36523) :
    ∃ b k : Int, (r - (24 * f + r) / 1460) / 365 = 4 * b + k ∧ 0 ≤ k ∧ k ≤ 3 ∧ 0 ≤ b ∧ b ≤ 24 ∧
      1461 * b + 365 * k ≤ r ∧ r ≤ 1461 * b + 365 * k + 364 + (if k = 3 then 1 else 0) := by
  obtain ⟨b, s, hb, hs0, hs1⟩ : ∃ b s : Int, r = 1461 * b + s ∧ 0 ≤ s ∧ s ≤ 1460 :=
    ⟨r / 1461, r % 1461, by omega, by omega, by omega⟩
  have hb24 : b ≤ 24 := by omega
  have hb0 : 0 ≤ b := by omega
  -- Dividing by 1460 in place of 1461 counts at most one cycle too many, and only late in a cycle.
  obtain ⟨δ, hδ, hd⟩ : ∃ δ : Int, (24 * f + r) / 1460 = b + δ ∧
      (δ = 0 ∧ s < 1460 ∨ δ = 1 ∧ 1364 ≤ s) :=
    ⟨(24 * f + r) / 1460 - b, by omega, by omega⟩
  refine ⟨b, (s - δ) / 365, ?_, ?_, ?_, hb0, hb24, ?_, ?_⟩ <;> (try split) <;> omega

/-- A day of an era is a day of its year; only a leap year has day 365. -/
theorem yearOfEra_spec {doe : Int} (h0 : 0 ≤ doe) (h1 : doe ≤ 146096) :
    0 ≤ yearOfEra doe ∧ yearOfEra doe ≤ 399 ∧
      ∃ doy : Int, doe = 365 * yearOfEra doe + yearOfEra doe / 4 - yearOfEra doe / 100 + doy ∧
        0 ≤ doy ∧ (doy ≤ 364 ∨ doy = 365 ∧ (yearOfEra doe + 1) % 4 = 0 ∧
          ((yearOfEra doe + 1) % 100 ≠ 0 ∨ (yearOfEra doe + 1) % 400 = 0)) := by
  by_cases hlast : doe = 146096
  · subst hlast
    have hy : yearOfEra 146096 = 399 := by decide
    rw [hy]
    exact ⟨by omega, by omega, 365, by omega, by omega, by omega⟩
  -- All other days lie in one of four centuries of 36524 days.
  obtain ⟨f, r, hdoe, hf0, hf3, hr0, hr1⟩ : ∃ f r : Int,
      doe = 36524 * f + r ∧ 0 ≤ f ∧ f ≤ 3 ∧ 0 ≤ r ∧ r ≤ 36523 :=
    ⟨doe / 36524, doe % 36524, by omega, by omega, by omega, by omega, by omega⟩
  obtain ⟨b, k, hy, hk0, hk3, hb0, hb24, hlo, hhi⟩ := century_year hf0 hf3 hr0 hr1
  have hyear : yearOfEra doe = 100 * f + 4 * b + k := by
    have e1 : doe / 1460 = 25 * f + (24 * f + r) / 1460 := by omega
    have e2 : doe / 36524 = f := by omega
    have e3 : doe / 146096 = 0 := by omega
    rw [yearOfEra, e1, e2, e3]
    omega
  have e4 : yearOfEra doe / 4 = 25 * f + b := by omega
  have e5 : yearOfEra doe / 100 = f := by omega
  refine ⟨by omega, by omega, r - (1461 * b + 365 * k), by omega, by omega, ?_⟩
  split at hhi
  · next hk =>
    rcases (by omega : r - (1461 * b + 365 * k) ≤ 364 ∨ r - (1461 * b + 365 * k) = 365) with h | h
    · exact .inl h
    · exact .inr ⟨h, by omega, .inl (by omega)⟩
  · exact .inl (by omega)

/-! ## Years that begin in March -/

/-- The date that lies so many days behind the first of March of a year. -/
def ofMarch (year dayOfYear : Int) : CivilDate :=
  let monthFromMarch := (5 * dayOfYear + 2) / 153
  let day := dayOfYear - (153 * monthFromMarch + 2) / 5 + 1
  let month := if monthFromMarch < 10 then monthFromMarch + 3 else monthFromMarch - 9
  { year := if month ≤ 2 then year + 1 else year, month := month.toNat, day := day.toNat }

/-- Days of an era before a year of it. -/
def daysBefore (yearOfEra : Int) : Int := yearOfEra * 365 + yearOfEra / 4 - yearOfEra / 100

/-- Month and day of a day of the year, both counted from March: four months have thirty days, and
the last one is February. -/
theorem month_spec {doy : Int} (h0 : 0 ≤ doy) (h1 : doy ≤ 365) :
    ∃ m d : Int, (5 * doy + 2) / 153 = m ∧ doy - (153 * m + 2) / 5 + 1 = d ∧ 0 ≤ m ∧ m ≤ 11 ∧
      1 ≤ d ∧ d ≤ 31 ∧ (m = 1 ∨ m = 3 ∨ m = 6 ∨ m = 8 → d ≤ 30) ∧ (m = 11 → d = doy - 336) := by
  refine ⟨_, _, rfl, rfl, ?_⟩
  omega

theorem toDays_ofMarch {year doy : Int} (h0 : 0 ≤ doy) (h1 : doy ≤ 365) :
    toDays (ofMarch year doy) =
      year / 400 * 146097 + (daysBefore (year - year / 400 * 400) + doy) - 719468 := by
  obtain ⟨m, d, hm, hd, hm0, hm11, hd1, -, -, -⟩ := month_spec h0 h1
  simp only [ofMarch, hm, hd, toDays, daysBefore]
  by_cases hlate : m < 10
  · have e1 : ¬ (m + 3 ≤ 2) := by omega
    have e2 : ¬ ((m + 3).toNat ≤ 2) := by omega
    rw [if_pos hlate, if_neg e1, if_neg e2, if_neg e2]
    omega
  · have e1 : m - 9 ≤ 2 := by omega
    have e2 : (m - 9).toNat ≤ 2 := by omega
    rw [if_neg hlate, if_pos e1, if_pos e2, if_pos e2]
    omega

theorem isLeapYear_iff (year : Int) :
    isLeapYear year = true ↔ year % 4 = 0 ∧ (year % 100 ≠ 0 ∨ year % 400 = 0) := by
  simp [isLeapYear]

theorem daysOfMonth_le (year : Int) (month : Nat) : daysOfMonth year month ≤ 31 := by
  unfold daysOfMonth
  split
  · split <;> omega
  · split <;> omega

theorem le_daysOfMonth {year : Int} {month day : Nat} (h31 : day ≤ 31)
    (h30 : month = 4 ∨ month = 6 ∨ month = 9 ∨ month = 11 → day ≤ 30)
    (hfeb : month = 2 → day ≤ 28 ∨ day ≤ 29 ∧ isLeapYear year = true) :
    day ≤ daysOfMonth year month := by
  unfold daysOfMonth
  split
  · next h =>
    have h2 : month = 2 := by simpa using h
    rcases hfeb h2 with h | ⟨h, hleap⟩
    · split <;> omega
    · rw [hleap]
      exact h
  · split
    · next h => exact h30 (by simpa [or_assoc] using h)
    · exact h31

theorem valid_ofMarch {year doy : Int} (h0 : 0 ≤ doy)
    (h1 : doy ≤ 364 ∨ doy = 365 ∧ isLeapYear (year + 1) = true) :
    1 ≤ (ofMarch year doy).month ∧ (ofMarch year doy).month ≤ 12 ∧ 1 ≤ (ofMarch year doy).day ∧
      (ofMarch year doy).day ≤ daysOfMonth (ofMarch year doy).year (ofMarch year doy).month := by
  obtain ⟨m, d, hm, hd, hm0, hm11, hd1, hd31, hd30, hfeb⟩ := month_spec h0 (by omega)
  simp only [ofMarch, hm, hd]
  by_cases hlate : m < 10
  · have e1 : ¬ (m + 3 ≤ 2) := by omega
    rw [if_pos hlate, if_neg e1]
    exact ⟨by omega, by omega, by omega, le_daysOfMonth (by omega) (by omega) (by omega)⟩
  · -- January and February belong to the next year, whose leap day is day 365.
    have e1 : m - 9 ≤ 2 := by omega
    rw [if_neg hlate, if_pos e1]
    refine ⟨by omega, by omega, by omega, le_daysOfMonth (by omega) (by omega) ?_⟩
    intro hmonth
    have hd' := hfeb (by omega)
    rcases h1 with h1 | ⟨h1, hleap⟩
    · exact .inl (by omega)
    · exact .inr ⟨by omega, hleap⟩

/-! ## Day counts -/

theorem ofDays_eq (days : Int) :
    ∃ year doy : Int, ofDays days = ofMarch year doy ∧ 0 ≤ doy ∧
      (doy ≤ 364 ∨ doy = 365 ∧ isLeapYear (year + 1) = true) ∧
      year / 400 * 146097 + (daysBefore (year - year / 400 * 400) + doy) - 719468 = days := by
  obtain ⟨era, doe, hera, hdoe, h0, h1⟩ : ∃ era doe : Int, (days + 719468) / 146097 = era ∧
      days + 719468 - era * 146097 = doe ∧ 0 ≤ doe ∧ doe ≤ 146096 :=
    ⟨_, _, rfl, rfl, by omega, by omega⟩
  obtain ⟨hy0, hy399, doy, hsplit, hdoy0, hleap⟩ := yearOfEra_spec h0 h1
  refine ⟨yearOfEra doe + era * 400, doy, ?_, hdoy0, ?_, ?_⟩
  · have e : doe - (365 * yearOfEra doe + yearOfEra doe / 4 - yearOfEra doe / 100) = doy := by
      omega
    simp only [ofDays, hera, hdoe, ofMarch, ← yearOfEra.eq_def, e]
  · rw [isLeapYear_iff]
    omega
  · have e : (yearOfEra doe + era * 400) / 400 = era := by omega
    rw [e, daysBefore, show yearOfEra doe + era * 400 - era * 400 = yearOfEra doe by omega]
    omega

/-- The date of a day count lies that many days from the epoch. -/
theorem toDays_ofDays (days : Int) : toDays (ofDays days) = days := by
  obtain ⟨year, doy, heq, h0, hleap, hdays⟩ := ofDays_eq days
  rw [heq, toDays_ofMarch h0 (by omega), hdays]

theorem isValid_ofDays {days : Int} (hlo : minYear ≤ (ofDays days).year)
    (hhi : (ofDays days).year ≤ maxYear) : (ofDays days).isValid = true := by
  obtain ⟨year, doy, heq, h0, hleap, -⟩ := ofDays_eq days
  obtain ⟨hm1, hm12, hd1, hd⟩ := valid_ofMarch h0 hleap
  rw [← heq] at hm1 hm12 hd1 hd
  simp [isValid, hlo, hhi, hm1, hm12, hd1, hd]

/-- Dates of four-digit years lie well inside the range of instants. -/
theorem toDays_bounds {d : CivilDate} (h : d.isValid = true) (h0 : 0 ≤ d.year)
    (h1 : d.year ≤ 9999) : -800000 ≤ d.toDays ∧ d.toDays ≤ 4000000 := by
  simp only [isValid, Bool.and_eq_true, decide_eq_true_eq] at h
  have hd := daysOfMonth_le d.year d.month
  simp only [toDays]
  split
  · omega
  · omega

end BulkTransfer.CivilDate
