import SuperTrading.Logic.IsoCalendar
import SuperTrading.Smc.Types
import Mathlib.Data.Int.ConditionallyCompleteOrder

/-!
# Clocks

The wall clock counts from `datetime.min`, the candles from 1970-01-01. Days, ISO weeks and the
midnights that start them are the same on both.

- **Candles**: dates and ISO weeks of timestamps
- **Wall clock**: dates, weekdays and ISO weeks of instants
- **Starts**: what is at or after the start of a day or a week
-/

namespace SuperTrading

open Logic

/-! ## Section 1: Candles -/

namespace Timestamp

/-- `timestamp.date().toordinal()`. -/
def ordinal (t : Timestamp) : ℤ := t.date + 719163

/-- `timestamp.isocalendar()[:2]`. -/
def isocalendar (t : Timestamp) : ℤ × ℤ := Logic.isocalendar t.ordinal

theorem weekNumber_ordinal (t : Timestamp) : weekNumber t.ordinal = t.isoWeek + 102737 := by
  simp only [weekNumber, ordinal, isoWeek]
  omega

/-- The week of an instant stands for its ISO year and week. -/
theorem isocalendar_lt_iff (s t : Timestamp) :
    toLex s.isocalendar < toLex t.isocalendar ↔ s.isoWeek < t.isoWeek := by
  rw [isocalendar, isocalendar, Logic.isocalendar_lt_iff, weekNumber_ordinal, weekNumber_ordinal]
  exact add_lt_add_iff_right _

theorem isocalendar_le_iff (s t : Timestamp) :
    toLex s.isocalendar ≤ toLex t.isocalendar ↔ s.isoWeek ≤ t.isoWeek := by
  rw [← not_lt, ← not_lt, isocalendar_lt_iff]

end Timestamp

/-! ## Section 2: Wall clock -/

namespace Instant

/-- `datetime.now(timezone.utc)` on the scale of the candles: 719162 days lie between
`datetime.min` and 1970-01-01. -/
def timestamp (t : Instant) : Timestamp := t - 719162 * Timestamp.microsPerDay

/-- `now.toordinal()`: the first day is day 1. -/
def ordinal (t : Instant) : ℕ := t.date + 1

/-- `now.weekday()`. -/
def weekday (t : Instant) : ℕ := (t.ordinal + 6) % 7

/-- `now.isocalendar()[:2]`. -/
def isocalendar (t : Instant) : ℤ × ℤ := Logic.isocalendar t.ordinal

theorem weekNumber_ordinal (t : Instant) : weekNumber t.ordinal = t.isoWeek := by
  simp only [weekNumber, ordinal, isoWeek]
  omega

theorem isocalendar_eq_iff (s t : Instant) :
    s.isocalendar = t.isocalendar ↔ s.isoWeek = t.isoWeek := by
  rw [isocalendar, isocalendar, Logic.isocalendar_eq_iff, weekNumber_ordinal, weekNumber_ordinal]
  exact Int.natCast_inj

theorem date_mono : Monotone date := fun _ _ h => Nat.div_le_div_right h

theorem isoWeek_mono : Monotone isoWeek := fun _ _ h => Nat.div_le_div_right (date_mono h)

/-! The two scales count the same days and weeks. -/

theorem date_timestamp (t : Instant) : t.timestamp.date = t.date - 719162 := by
  rw [Timestamp.date, timestamp, Int.sub_mul_ediv_right _ _ (by decide)]
  rfl

theorem isoWeek_timestamp (t : Instant) : t.timestamp.isoWeek = t.isoWeek - 102737 := by
  rw [Timestamp.isoWeek, date_timestamp]
  simp only [isoWeek]
  omega

theorem date_timestamp_mono : Monotone fun t : Instant => t.timestamp.date := by
  intro s t h
  have hdate := date_mono h
  simp only [date_timestamp]
  omega

theorem isoWeek_timestamp_mono : Monotone fun t : Instant => t.timestamp.isoWeek := by
  intro s t h
  have hweek := isoWeek_mono h
  simp only [isoWeek_timestamp]
  omega

theorem date_timestamp_eq_iff (s t : Instant) :
    s.timestamp.date = t.timestamp.date ↔ s.date = t.date := by
  rw [date_timestamp, date_timestamp]
  omega

theorem isoWeek_timestamp_eq_iff (s t : Instant) :
    s.timestamp.isoWeek = t.timestamp.isoWeek ↔ s.isoWeek = t.isoWeek := by
  rw [isoWeek_timestamp, isoWeek_timestamp]
  omega

/-! ## Section 3: Starts -/

theorem dayStart_le (t : Instant) : t.dayStart ≤ t := Nat.div_mul_le_self _ _

theorem weekStart_le (t : Instant) : t.weekStart ≤ t :=
  (Nat.mul_le_mul_right _ (Nat.div_mul_le_self _ _)).trans (dayStart_le t)

theorem dayStart_congr {t now : Instant} (h : now.date = t.date) : now.dayStart = t.dayStart := by
  unfold dayStart
  rw [h]

theorem weekStart_congr {t now : Instant} (h : now.isoWeek = t.isoWeek) :
    now.weekStart = t.weekStart := by
  unfold weekStart
  rw [h]

/-- Of what is not later than now, the day's start cuts off what is not of today. -/
theorem dayStart_le_iff {t now : Instant} (h : t ≤ now) :
    now.dayStart ≤ t ↔ t.date = now.date := by
  have hdate : now.dayStart ≤ t ↔ now.date ≤ t.date := (Nat.le_div_iff_mul_le (by decide)).symm
  rw [hdate]
  exact ⟨fun hle => (date_mono h).antisymm hle, fun heq => heq.ge⟩

theorem weekStart_le_iff {t now : Instant} (h : t ≤ now) :
    now.weekStart ≤ t ↔ t.isoWeek = now.isoWeek := by
  have hdate : now.weekStart ≤ t ↔ now.isoWeek * 7 ≤ t.date :=
    (Nat.le_div_iff_mul_le (by decide)).symm
  have hweek : now.isoWeek * 7 ≤ t.date ↔ now.isoWeek ≤ t.isoWeek :=
    (Nat.le_div_iff_mul_le (by decide)).symm
  rw [hdate, hweek]
  exact ⟨fun hle => (isoWeek_mono h).antisymm hle, fun heq => heq.ge⟩

/-- An instant of an earlier day is before the day starts. -/
theorem lt_dayStart {t now : Instant} (hle : t ≤ now) (hne : now.date ≠ t.date) :
    t < now.dayStart := by
  rw [← not_le, dayStart_le_iff hle]
  exact hne.symm

/-- An instant of an earlier week is before the week starts. -/
theorem lt_weekStart {t now : Instant} (hle : t ≤ now) (hne : now.isoWeek ≠ t.isoWeek) :
    t < now.weekStart := by
  rw [← not_le, weekStart_le_iff hle]
  exact hne.symm

/-- The same of a timestamp of no later day. -/
theorem dayStart_timestamp_le_iff {t : Timestamp} {now : Instant}
    (h : t.date ≤ now.timestamp.date) :
    now.dayStart.timestamp ≤ t ↔ t.date = now.timestamp.date := by
  rw [date_timestamp] at h ⊢
  have hstart : now.dayStart.timestamp = ((now.date : ℤ) - 719162) * Timestamp.microsPerDay := by
    unfold timestamp dayStart microsPerDay Timestamp.microsPerDay
    push_cast
    ring
  rw [hstart, ← Int.le_ediv_iff_mul_le (by decide)]
  exact ⟨fun hle => le_antisymm h hle, fun heq => heq.ge⟩

end Instant

end SuperTrading
