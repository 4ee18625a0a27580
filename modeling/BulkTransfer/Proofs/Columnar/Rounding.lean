import BulkTransfer.Columnar.Restore
import BulkTransfer.Columnar.Store

/-!
Counts of any unit against the milliseconds in which instants are stored. Storing an instant keeps
the latest whole millisecond that is not after it. Reading a finer count cuts off toward zero what
is less than a millisecond, and before the epoch this leads to the millisecond after.

- `Instant.ofMillis?_eq`: milliseconds are counts of nanoseconds too.
- `restoreInstant_eq`: a count of any unit is read as milliseconds, cut off toward zero.
- `isRounded_floor`: milliseconds rounded down are those that are stored.
- `IsCutUp.restoreInstant`: before the epoch, reading leads to the millisecond after.
- `counts_rounded_iff`: the counts of a column that are read as they would be stored.
-/

namespace BulkTransfer

/-! ## Nanoseconds -/

namespace Instant

/-- Nanoseconds since the epoch. -/
def toNanos (t : Instant) : Int := t.seconds * 1000000000 + t.nanos

/-- The instant of a count of nanoseconds since the epoch, if it is in range. -/
def ofNanos? (n : Int) : Option Instant :=
  ofSeconds? (n / 1000000000) (n % 1000000000).toNat

/-- Whether so many nanoseconds from the epoch an instant may lie. -/
def IsInRange (n : Int) : Prop :=
  minSeconds * 1000000000 ≤ n ∧ n < (maxSeconds + 1) * 1000000000

theorem exists_ofNanos? {n : Int} (h : IsInRange n) :
    ∃ t, ofNanos? n = some t ∧ t.toNanos = n ∧ t.nanos < 1000000000 := by
  obtain ⟨hlo, hhi⟩ := h
  refine ⟨⟨n / 1000000000, (n % 1000000000).toNat⟩, if_pos (by omega), ?_, ?_⟩
  · unfold toNanos
    dsimp only
    omega
  · dsimp only
    omega

theorem ofNanos?_eq_none {n : Int} (h : ¬ IsInRange n) : ofNanos? n = none := by
  unfold IsInRange at h
  exact if_neg (by omega)

/-- Milliseconds are counts of nanoseconds too. -/
theorem ofMillis?_eq (m : Int) : ofMillis? m = ofNanos? (m * 1000000) := by
  have hseconds : m * 1000000 / 1000000000 = m / 1000 := by omega
  have hnanos : (m * 1000000 % 1000000000).toNat = (m % 1000).toNat * 1000000 := by omega
  unfold ofMillis? ofNanos?
  rw [hseconds, hnanos]

theorem toMillis_eq (t : Instant) : t.toMillis = t.toNanos / 1000000 := by
  unfold toMillis toNanos
  omega

/-- The latest whole millisecond that is not after an instant. -/
structure IsLastMilli (t u : Instant) : Prop where
  proper : u.nanos < 1000000000
  whole : 1000000 ∣ u.toNanos
  not_after : u.toNanos ≤ t.toNanos
  last : t.toNanos < u.toNanos + 1000000

end Instant

namespace Columnar

open Instant

/-! ## Units -/

/-- The length of a unit in nanoseconds. -/
def TimeUnit.length : TimeUnit → Int
  | .seconds => 1000000000
  | .millis => 1000000
  | .micros => 1000
  | .nanos => 1

/-- The instant that a count stands for, if it is in range. -/
def denoted? (unit : TimeUnit) (i : Int) : Option Instant := ofNanos? (i * unit.length)

theorem toNanos_of_denoted? {unit : TimeUnit} {i : Int} {t : Instant}
    (h : denoted? unit i = some t) : t.toNanos = i * unit.length := by
  by_cases hin : IsInRange (i * unit.length)
  · obtain ⟨t', ht', hnanos, -⟩ := exists_ofNanos? hin
    obtain rfl : t = t' := Option.some.inj (h.symm.trans ht')
    exact hnanos
  · have hnone : denoted? unit i = none := ofNanos?_eq_none hin
    rw [hnone] at h
    cases h

/-- A product that needs more than 64 bits is out of range, and so is the bound it is kept at. -/
theorem ofMillis?_saturated (m : Int) : ofMillis? (saturated m) = ofMillis? m := by
  have hmin : minSeconds = -8334601228800 := by decide
  have hmax : maxSeconds = 8210266876799 := by decide
  by_cases hbits : Integer.min64 ≤ m ∧ m ≤ Integer.max64
  · have hsame : saturated m = m := by
      unfold saturated
      omega
    rw [hsame]
  · unfold Integer.min64 Integer.max64 at hbits
    have hkept : ¬ IsInRange (saturated m * 1000000) := by
      unfold IsInRange saturated Integer.min64 Integer.max64
      omega
    have hout : ¬ IsInRange (m * 1000000) := by
      unfold IsInRange
      omega
    rw [ofMillis?_eq, ofMillis?_eq, ofNanos?_eq_none hkept, ofNanos?_eq_none hout]

/-- A count of any unit is read as milliseconds, cut off toward zero. Seconds become milliseconds
without a rest, and only they can leave the 64 bits. -/
theorem restoreInstant_eq (unit : TimeUnit) (i : Int) :
    restoreInstant unit i = restoreInstant .millis ((i * unit.length).tdiv 1000000) := by
  unfold restoreInstant
  cases unit with
  | seconds =>
    have hscale : (i * 1000000000).tdiv 1000000 = i * 1000 := by
      rw [show i * 1000000000 = i * 1000 * 1000000 by omega]
      exact Int.mul_tdiv_cancel (i * 1000) (by decide)
    simp only [TimeUnit.length, millisOf, hscale, ofMillis?_saturated]
  | millis =>
    have hscale : (i * 1000000).tdiv 1000000 = i := Int.mul_tdiv_cancel i (by decide)
    simp only [TimeUnit.length, millisOf, hscale]
  | micros =>
    have hscale : (i * 1000).tdiv 1000000 = i.tdiv 1000 :=
      Int.mul_tdiv_mul_of_pos_left i 1000 (by decide)
    simp only [TimeUnit.length, millisOf, hscale]
  | nanos => simp only [TimeUnit.length, millisOf, Int.mul_one]

theorem exists_restoreInstant {m : Int} (h : IsInRange (m * 1000000)) :
    ∃ u, restoreInstant .millis m = .instant u ∧ u.toNanos = m * 1000000 ∧
      u.nanos < 1000000000 := by
  obtain ⟨u, hu, hnanos, hproper⟩ := exists_ofNanos? h
  refine ⟨u, ?_, hnanos, hproper⟩
  unfold restoreInstant millisOf
  rw [ofMillis?_eq, hu]

theorem restoreInstant_eq_null {m : Int} (h : ¬ IsInRange (m * 1000000)) :
    restoreInstant .millis m = .null := by
  unfold restoreInstant millisOf
  rw [ofMillis?_eq, ofNanos?_eq_none h]

/-! ## Rounding -/

/-- A value that rounds a count in the way of storing: null where the count stands for no instant,
and otherwise the latest whole millisecond not after the instant, which is the millisecond that is
stored for it. -/
structure IsRounded (unit : TimeUnit) (i : Int) (v : Value) : Prop where
  null : v = .null ↔ denoted? unit i = none
  stored : ∀ t, denoted? unit i = some t → ∃ u, v = .instant u ∧ t.IsLastMilli u ∧
    store .timestamp (.instant t) = .ok (.int u.toMillis)

/-- A count before the epoch that is not one of whole milliseconds, unless it lies a millisecond or
more before the first instant. -/
structure IsCutUp (unit : TimeUnit) (i : Int) : Prop where
  before : i * unit.length < 0
  broken : ¬ 1000000 ∣ i * unit.length
  near : minSeconds * 1000000000 < i * unit.length + 1000000

theorem store_instant (t : Instant) : store .timestamp (.instant t) = .ok (.int t.toMillis) := rfl

/-- Milliseconds rounded down are those that are stored. -/
theorem isRounded_floor (unit : TimeUnit) (i : Int) :
    IsRounded unit i (restoreInstant .millis (i * unit.length / 1000000)) := by
  have hrange : IsInRange (i * unit.length / 1000000 * 1000000) ↔ IsInRange (i * unit.length) := by
    unfold IsInRange
    omega
  by_cases hin : IsInRange (i * unit.length)
  · obtain ⟨t, ht, hnanos, -⟩ := exists_ofNanos? hin
    obtain ⟨u, hu, hfloor, hproper⟩ := exists_restoreInstant (hrange.mpr hin)
    have hdenoted : denoted? unit i = some t := ht
    rw [hu]
    refine ⟨?_, fun t' ht' => ?_⟩
    · rw [hdenoted]
      exact iff_of_false (fun heq => by cases heq) (Option.some_ne_none t)
    · obtain rfl : t = t' := Option.some.inj (hdenoted.symm.trans ht')
      refine ⟨u, rfl, ⟨hproper, ?_, ?_, ?_⟩, ?_⟩
      · omega
      · omega
      · omega
      · rw [store_instant, toMillis_eq, toMillis_eq, hnanos, hfloor,
          Int.mul_ediv_cancel _ (by decide)]
  · have hdenoted : denoted? unit i = none := ofNanos?_eq_none hin
    rw [restoreInstant_eq_null fun h => hin (hrange.mp h)]
    refine ⟨iff_of_true rfl hdenoted, fun t ht => ?_⟩
    rw [hdenoted] at ht
    cases ht

/-- Before the epoch, what is cut off toward zero leads to the millisecond after. -/
theorem tdiv_of_broken {n : Int} (hbefore : n < 0) (hbroken : ¬ 1000000 ∣ n) :
    n.tdiv 1000000 = n / 1000000 + 1 := by
  rw [Int.tdiv_eq_ediv, if_neg (by omega)]
  rfl

theorem IsCutUp.restoreInstant {unit : TimeUnit} {i : Int} (h : IsCutUp unit i) :
    ∃ u, restoreInstant unit i = .instant u ∧ u.nanos < 1000000000 ∧ 1000000 ∣ u.toNanos ∧
      i * unit.length < u.toNanos ∧ u.toNanos < i * unit.length + 1000000 := by
  obtain ⟨hbefore, hbroken, hnear⟩ := h
  have hmax : maxSeconds = 8210266876799 := by decide
  have hrange : IsInRange ((i * unit.length / 1000000 + 1) * 1000000) := by
    unfold IsInRange
    omega
  obtain ⟨u, hu, hnanos, hproper⟩ := exists_restoreInstant hrange
  refine ⟨u, ?_, hproper, ?_, ?_, ?_⟩
  · rw [restoreInstant_eq, tdiv_of_broken hbefore hbroken, hu]
  · omega
  · omega
  · omega

/-- A count is read as it would be stored just when it is not cut up. -/
theorem isRounded_restoreInstant_iff (unit : TimeUnit) (i : Int) :
    IsRounded unit i (restoreInstant unit i) ↔ ¬ IsCutUp unit i := by
  constructor
  · intro hrounded hcut
    obtain ⟨u, hu, -, -, hafter, -⟩ := hcut.restoreInstant
    cases hdenoted : denoted? unit i with
    | none =>
      rw [hrounded.null.mpr hdenoted] at hu
      cases hu
    | some t =>
      obtain ⟨u', hu', hlast, -⟩ := hrounded.stored t hdenoted
      obtain rfl : u' = u := Value.instant.inj (hu'.symm.trans hu)
      have hbefore := hlast.not_after
      rw [toNanos_of_denoted? hdenoted] at hbefore
      omega
  · intro hcut
    have hfloor := isRounded_floor unit i
    suffices heq : restoreInstant unit i = restoreInstant .millis (i * unit.length / 1000000) by
      rw [heq]
      exact hfloor
    rw [restoreInstant_eq]
    by_cases hwhole : 0 ≤ i * unit.length ∨ 1000000 ∣ i * unit.length
    · rw [Int.tdiv_eq_ediv, if_pos hwhole, Int.add_zero]
    · -- The count is so far before the first instant that the millisecond after it is too.
      have hfar : i * unit.length + 1000000 ≤ minSeconds * 1000000000 := by
        refine Int.not_lt.mp fun hnear => hcut ⟨?_, ?_, hnear⟩
        · omega
        · omega
      rw [tdiv_of_broken (by omega) (by omega), restoreInstant_eq_null, restoreInstant_eq_null]
      · unfold IsInRange
        omega
      · unfold IsInRange
        omega

/-! ## Columns -/

/-- Every cell of a column of instants can be read. -/
theorem restoreAll_instant (unit : TimeUnit) (zone? : Option String) (type? : Option ColumnType)
    (cells : List Cell) :
    restoreAll (.instant unit zone?) (restore (.instant unit zone?) type?) cells =
      .ok (cells.map (restoreScalar (.instant unit zone?) type?)) := by
  have hreadable : (Physical.instant unit zone?).isReadable = true := rfl
  unfold restoreAll
  rw [if_pos hreadable]
  exact List.mapM_pure

/-- Every column of instants can be read. A count in it is read as null where it stands for no
instant, and otherwise as the latest whole millisecond not after it, which is also the millisecond
that is stored for the instant, just when it is not cut up. One that is cut up is read as the first
whole millisecond after it. -/
theorem counts_rounded_iff (unit : TimeUnit) (zone? : Option String) (type? : Option ColumnType)
    (cells : List Cell) :
    ∃ values, restoreAll (.instant unit zone?) (restore (.instant unit zone?) type?) cells =
        .ok values ∧
      values.length = cells.length ∧
      ∀ (n : Nat) (i : Int), cells[n]? = some (.int i) → ∃ v, values[n]? = some v ∧
        (IsRounded unit i v ↔ ¬ IsCutUp unit i) ∧
        (IsCutUp unit i → ∃ u, v = .instant u ∧ u.nanos < 1000000000 ∧ 1000000 ∣ u.toNanos ∧
          i * unit.length < u.toNanos ∧ u.toNanos < i * unit.length + 1000000) := by
  refine ⟨_, restoreAll_instant unit zone? type? cells, List.length_map _, fun n i hcell => ?_⟩
  refine ⟨restoreInstant unit i, ?_, isRounded_restoreInstant_iff unit i, fun hcut => ?_⟩
  · rw [List.getElem?_map, hcell]
    rfl
  · exact hcut.restoreInstant

/-- Microseconds before and behind the epoch, and a cell without a count. -/
theorem counts_rounded_iff_micros :
    let cells : List Cell := [.int (-1000), .null, .int 1999, .int (-1)]
    ∃ values, restoreAll (.instant .micros none) (restore (.instant .micros none) none) cells =
        .ok values ∧
      (∃ v, values[0]? = some v ∧ IsRounded .micros (-1000) v) ∧
      (∃ v, values[2]? = some v ∧ IsRounded .micros 1999 v) ∧
      ∃ u : Instant, values[3]? = some (.instant u) ∧ -1000 < u.toNanos := by
  intro cells
  obtain ⟨values, hvalues, -, hcounts⟩ := counts_rounded_iff .micros none none cells
  obtain ⟨whole, hwhole, hwholeIff, -⟩ := hcounts 0 (-1000) rfl
  obtain ⟨behind, hbehind, hbehindIff, -⟩ := hcounts 2 1999 rfl
  obtain ⟨cut, hcut, -, hcutUp⟩ := hcounts 3 (-1) rfl
  obtain ⟨u, rfl, -, -, hafter, -⟩ := hcutUp ⟨by decide, by decide, by decide⟩
  refine ⟨values, hvalues, ⟨whole, hwhole, hwholeIff.mpr fun h => h.broken (by decide)⟩,
    ⟨behind, hbehind, hbehindIff.mpr fun h => ?_⟩, u, hcut, hafter⟩
  exact absurd h.before (by decide)

/-- The microsecond before the epoch is stored as the last millisecond before it, and read as the
epoch. The microsecond before the first instant is no instant, and read as the first one. -/
theorem microsecond_before_epoch_read_as_epoch :
    denoted? .micros (-1) = some ⟨-1, 999999000⟩ ∧
    store .timestamp (.instant ⟨-1, 999999000⟩) = .ok (.int (-1)) ∧
    restore (.instant .micros (some "UTC")) (some .timestamp) (.int (-1)) =
      .ok (.instant ⟨0, 0⟩) ∧
    ¬ IsRounded .micros (-1) (.instant ⟨0, 0⟩) ∧
    denoted? .micros (-8334601228800000001) = none ∧
    restore (.instant .micros (some "UTC")) (some .timestamp) (.int (-8334601228800000001)) =
      .ok (.instant ⟨-8334601228800, 0⟩) := by
  have hcut : IsCutUp .micros (-1) := ⟨by decide, by decide, by decide⟩
  have hread : restoreInstant .micros (-1) = .instant ⟨0, 0⟩ := rfl
  refine ⟨by decide, rfl, rfl, fun hrounded => ?_, by decide, rfl⟩
  rw [← hread] at hrounded
  exact (isRounded_restoreInstant_iff .micros (-1)).mp hrounded hcut

end Columnar

end BulkTransfer
