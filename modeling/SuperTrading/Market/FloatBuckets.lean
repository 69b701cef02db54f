import SuperTrading.Logic.Rounding
import SuperTrading.Market.Aggregation

/-!
# Buckets from Float Seconds

`bucket_start` takes the minutes since 1970 from `total_seconds()`, which is a double, and adds
whole minutes to the epoch again, which raises outside the years of `datetime`. A double keeps
microseconds apart up to `2 ** 34` seconds; beyond, the last ones of a minute are rounded into the
next.

- **The code**: `bucketStartFloat`
- **Exact instants**: where it is `bucketStart`, the same in exact minutes
-/

namespace SuperTrading

open Logic

/-! ## Section 1: The code -/

namespace Timestamp

/-- `datetime.min`: midnight of 0001-01-01, a Monday. -/
def datetimeMin : Timestamp := -719162 * microsPerDay

/-- `datetime.max`: the last microsecond of the year 9999. -/
def datetimeMax : Timestamp := 2932897 * microsPerDay - 1

def InDatetime (t : Timestamp) : Prop := datetimeMin ≤ t ∧ t ≤ datetimeMax

instance (t : Timestamp) : Decidable (InDatetime t) :=
  inferInstanceAs (Decidable (datetimeMin ≤ t ∧ t ≤ datetimeMax))

/-- `(timestamp - epoch).total_seconds()`. -/
def totalSeconds (t : Timestamp) : ℚ := toDouble (t / 1000000)

end Timestamp

/-- The sum of a `datetime` and a `timedelta`. -/
def datetimeOf (t : ℤ) : Except String Timestamp :=
  if Timestamp.InDatetime t then .ok t else .error "date value out of range"

/-- `bucket_start`. -/
def bucketStartFloat (timestamp : Timestamp) (targetMinutes : ℕ)
    (sessionOpen : ℕ := sessionOpenMinutesUtc) (utcOffset : ℤ := 0) : Except String Timestamp :=
  if targetMinutes = weekMinutes then
    let date := Timestamp.date (timestamp + utcOffset)
    let weekday := (date + 3) % 7
    -- The days are taken off the local date.
    (datetimeOf ((date - weekday) * Timestamp.microsPerDay)).map (· - utcOffset)
  else
    -- Doubles of this size are floored without another rounding.
    let minutesSinceEpoch := ⌊Timestamp.totalSeconds timestamp / 60⌋
    let offset : ℕ := if targetMinutes ≥ dayMinutes then 0 else sessionOpen % targetMinutes
    let bucketIndex := (minutesSinceEpoch - offset) / targetMinutes
    datetimeOf ((bucketIndex * targetMinutes + offset) * Timestamp.microsPerMinute)

/-! ## Section 2: Exact instants -/

section Exact

variable {t : Timestamp}

/-- The double of the instant's seconds lies in the instant's minute. -/
def MinuteKept (t : Timestamp) : Prop :=
  |t| < 2 ^ 34 * 1000000 ∨ t % Timestamp.microsPerMinute + 15 < Timestamp.microsPerMinute

instance (t : Timestamp) : Decidable (MinuteKept t) :=
  inferInstanceAs (Decidable (_ ∨ _))

/-- A `datetime` in a bucket that starts at a `datetime`. Only the weeks do not read floats. -/
structure Bucketed (t : Timestamp) (minutes : ℕ) : Prop where
  inDatetime : t.InDatetime
  start : Timestamp.datetimeMin ≤ bucketStart t minutes
  minuteKept : minutes ≠ weekMinutes → MinuteKept t

instance (t : Timestamp) (minutes : ℕ) : Decidable (Bucketed t minutes) :=
  decidable_of_iff (t.InDatetime ∧ Timestamp.datetimeMin ≤ bucketStart t minutes ∧
    (minutes ≠ weekMinutes → MinuteKept t))
    ⟨fun h => ⟨h.1, h.2.1, h.2.2⟩, fun h => ⟨h.inDatetime, h.start, h.minuteKept⟩⟩

theorem abs_lt_of_inDatetime (h : t.InDatetime) : |t| < 2 ^ 38 * 1000000 := by
  obtain ⟨hmin, hmax⟩ := h
  simp only [Timestamp.datetimeMin, Timestamp.datetimeMax, Timestamp.microsPerDay] at hmin hmax
  norm_num at hmin hmax ⊢
  exact abs_lt.mpr ⟨by linarith, by linarith⟩

/-- The seconds are rounded by less than what is left of the minute. -/
theorem half_ulp_lt (h : t.InDatetime) (hkept : MinuteKept t) :
    ulp ((t : ℚ) / 1000000) / 2 <
      ((Timestamp.microsPerMinute - t % Timestamp.microsPerMinute : ℤ) : ℚ) / 1000000 := by
  have hrest : t % Timestamp.microsPerMinute < Timestamp.microsPerMinute :=
    Int.emod_lt_of_pos _ (by decide)
  have hseconds : ∀ {n : ℕ}, |t| < 2 ^ n * 1000000 → |(t : ℚ) / 1000000| < 2 ^ n := by
    intro n hlt
    rw [abs_div, abs_of_pos (show (0 : ℚ) < 1000000 by norm_num), div_lt_iff₀ (by norm_num)]
    exact_mod_cast hlt
  -- Near 1970 a unit in the last place is under two microseconds; elsewhere it is under 32.
  rcases hkept with hnear | hearly
  · have hulp := ulp_le (by norm_num) (hseconds hnear)
    have hone :
        (1 : ℚ) ≤ ((Timestamp.microsPerMinute - t % Timestamp.microsPerMinute : ℤ) : ℚ) := by
      exact_mod_cast
        (show 1 ≤ Timestamp.microsPerMinute - t % Timestamp.microsPerMinute by linarith)
    norm_num at hulp
    linarith
  · have hulp := ulp_le (by norm_num) (hseconds (abs_lt_of_inDatetime h))
    have hmany :
        (16 : ℚ) ≤ ((Timestamp.microsPerMinute - t % Timestamp.microsPerMinute : ℤ) : ℚ) := by
      exact_mod_cast
        (show 16 ≤ Timestamp.microsPerMinute - t % Timestamp.microsPerMinute by linarith)
    norm_num at hulp
    linarith

theorem floor_totalSeconds (h : t.InDatetime) (hkept : MinuteKept t) :
    ⌊t.totalSeconds / 60⌋ = t / Timestamp.microsPerMinute := by
  have hfloor : ⌊(t : ℚ) / 1000000 / (60 : ℕ)⌋ = t / Timestamp.microsPerMinute := by
    have hdiv : (t : ℚ) / 1000000 / (60 : ℕ) = t / (60000000 : ℕ) := by
      push_cast
      ring
    rw [hdiv]
    exact Rat.floor_intCast_div_natCast t 60000000
  have hseconds : |(t : ℚ) / 1000000| < 2 ^ 53 := by
    have habs : |(t : ℚ)| < 2 ^ 38 * 1000000 := by exact_mod_cast abs_lt_of_inDatetime h
    rw [abs_div, abs_of_pos (show (0 : ℚ) < 1000000 by norm_num), div_lt_iff₀ (by norm_num)]
    linarith
  -- The rounding cannot reach the next minute.
  rw [← hfloor]
  apply floor_toDouble_div (by norm_num) hseconds
  rw [hfloor]
  have hhalf := half_ulp_lt h hkept
  -- The instant is its minute and the rest of it.
  have hsplit := Int.mul_ediv_add_emod t Timestamp.microsPerMinute
  have hcast : (t : ℚ) = Timestamp.microsPerMinute * (t / Timestamp.microsPerMinute : ℤ) +
      (t % Timestamp.microsPerMinute : ℤ) := by exact_mod_cast hsplit.symm
  simp only [Timestamp.microsPerMinute] at hhalf hcast ⊢
  push_cast at hhalf hcast ⊢
  linarith

/-- Where the double keeps the minute, `bucket_start` is exact, or out of range. -/
theorem bucketStartFloat_eq {minutes : ℕ} (h : t.InDatetime)
    (hkept : minutes ≠ weekMinutes → MinuteKept t) :
    bucketStartFloat t minutes = datetimeOf (bucketStart t minutes) := by
  unfold bucketStartFloat bucketStart
  split_ifs with hweek hday
  · simp only [sub_zero]
    cases datetimeOf _ <;> rfl
  · simp only [floor_totalSeconds h (hkept hweek)]
  · simp only [floor_totalSeconds h (hkept hweek)]

/-- Buckets start at full minutes. -/
theorem microsPerMinute_dvd_bucketStart (t : Timestamp) (minutes : ℕ) :
    Timestamp.microsPerMinute ∣ bucketStart t minutes := by
  unfold bucketStart
  split_ifs
  · rw [sub_zero]
    exact Dvd.dvd.mul_left (by decide) _
  · exact dvd_mul_left _ _
  · exact dvd_mul_left _ _

namespace Bucketed

variable {minutes : ℕ}

theorem eq_ok (h : Bucketed t minutes) (hpos : 0 < minutes) :
    bucketStartFloat t minutes = .ok (bucketStart t minutes) := by
  rw [bucketStartFloat_eq h.inDatetime h.minuteKept, datetimeOf,
    if_pos ⟨h.start, (bucketStart_le hpos).trans h.inDatetime.2⟩]

/-- So is the start of its bucket. -/
theorem idem (h : Bucketed t minutes) (hpos : 0 < minutes) :
    Bucketed (bucketStart t minutes) minutes where
  inDatetime := ⟨h.start, (bucketStart_le hpos).trans h.inDatetime.2⟩
  start := (bucketStart_idem hpos).symm ▸ h.start
  minuteKept := fun _ => by
    right
    rw [Int.emod_eq_zero_of_dvd (microsPerMinute_dvd_bucketStart t minutes)]
    decide

end Bucketed

end Exact

end SuperTrading
