import BulkTransfer.Instant.Calendar
import BulkTransfer.Number.Integer

/-!
Instants: seconds from the epoch and nanoseconds within the second. A leap second is the second
before it with a nanosecond count of a thousand million or more.
-/

namespace BulkTransfer

/-- A point in time. -/
structure Instant where
  /-- Whole seconds since 1970-01-01T00:00:00Z, rounded down. -/
  seconds : Int
  /-- Nanoseconds within the second; from 1000000000 on they belong to a leap second. -/
  nanos : Nat
  deriving DecidableEq, Repr, Inhabited

namespace Instant

/-- Seconds of a day. -/
def dayLength : Int := 86400

/-- The first second that an instant may have. -/
def minSeconds : Int := CivilDate.toDays ⟨CivilDate.minYear, 1, 1⟩ * dayLength

/-- The last second that an instant may have. -/
def maxSeconds : Int := CivilDate.toDays ⟨CivilDate.maxYear, 12, 31⟩ * dayLength + 86399

/-- The instant of a count of seconds, if it is in range. -/
def ofSeconds? (seconds : Int) (nanos : Nat) : Option Instant :=
  if minSeconds ≤ seconds ∧ seconds ≤ maxSeconds then some ⟨seconds, nanos⟩ else none

/-- The instant of a count of milliseconds since the epoch, if it is in range. -/
def ofMillis? (millis : Int) : Option Instant :=
  ofSeconds? (millis / 1000) ((millis % 1000).toNat * 1000000)

/-- Milliseconds since the epoch; finer parts are dropped. -/
def toMillis (t : Instant) : Int := t.seconds * 1000 + (t.nanos / 1000000 : Nat)

/-- The calendar date. -/
def date (t : Instant) : CivilDate := CivilDate.ofDays (t.seconds / dayLength)

/-- Seconds since midnight. -/
def secondOfDay (t : Instant) : Nat := (t.seconds % dayLength).toNat

/-- A number of two digits. -/
def twoDigits (n : Nat) : List Char := Integer.padded 2 n

/-- The year: four digits, with a sign when it needs more or is negative. -/
def yearText (year : Int) : List Char :=
  if 0 ≤ year ∧ year ≤ 9999 then Integer.padded 4 year.toNat
  else (if year < 0 then '-' else '+') :: Integer.padded 4 year.natAbs

/-- The date as `YYYY-MM-DD`. -/
def dateText (t : Instant) : List Char :=
  let d := t.date
  yearText d.year ++ '-' :: twoDigits d.month ++ '-' :: twoDigits d.day

/-- The instant as `YYYY-MM-DDTHH:MM:SS.fffZ`; a leap second shows as second 60. -/
def render (t : Instant) : List Char :=
  let s := t.secondOfDay
  let leap := 1000000000 ≤ t.nanos
  let second := s % 60 + (if leap then 1 else 0)
  let nanos := if leap then t.nanos - 1000000000 else t.nanos
  t.dateText ++ 'T' :: twoDigits (s / 3600) ++ ':' :: twoDigits (s / 60 % 60) ++
    ':' :: twoDigits second ++ '.' :: Integer.padded 3 (nanos / 1000000) ++ ['Z']

/-- The written instant as a string. -/
def text (t : Instant) : String := String.ofList t.render

theorem ofMillis?_eq_some {millis : Int} {t : Instant} (h : ofMillis? millis = some t) :
    t.toMillis = millis := by
  simp only [ofMillis?, ofSeconds?] at h
  split at h
  · simp only [Option.some.injEq] at h
    subst h
    have e : (millis % 1000).toNat * 1000000 / 1000000 = (millis % 1000).toNat :=
      Nat.mul_div_cancel _ (by decide)
    simp only [toMillis, e]
    omega
  · simp at h

end Instant

end BulkTransfer
