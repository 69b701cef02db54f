import SuperTrading.Logic.Grid
import SuperTrading.Market.Timeframes

/-!
# Candle Aggregation

`bucket_start` and `aggregate_candles` of `app/market/aggregation.py`.
-/

namespace SuperTrading

open SuperTrading.Logic
open Smc (Candle)

/-! ## Section 1: Buckets -/

def weekMinutes : ℕ := 10080

def dayMinutes : ℕ := 1440

/-- 03:45 UTC, the opening of the session. -/
def sessionOpenMinutesUtc : ℕ := 225

/-- `bucket_start` in exact minutes, of an instant written in a UTC offset, which only weeks depend
on. -/
def bucketStart (timestamp : Timestamp) (targetMinutes : ℕ)
    (sessionOpen : ℕ := sessionOpenMinutesUtc) (utcOffset : ℤ := 0) : Timestamp :=
  if targetMinutes = weekMinutes then
    let date := Timestamp.date (timestamp + utcOffset)
    let weekday := (date + 3) % 7
    (date - weekday) * Timestamp.microsPerDay - utcOffset
  else
    let minutesSinceEpoch := timestamp / Timestamp.microsPerMinute
    let offset : ℕ := if targetMinutes ≥ dayMinutes then 0 else sessionOpen % targetMinutes
    let bucketIndex := (minutesSinceEpoch - offset) / targetMinutes
    (bucketIndex * targetMinutes + offset) * Timestamp.microsPerMinute

/-- A number of minutes, as a span of time. -/
def spanOf (minutes : ℕ) : ℤ := minutes * Timestamp.microsPerMinute

/-- Where the grid of a bucket size passes: weeks start on the Monday before 1970-01-01, days at
midnight, and smaller buckets with the session. -/
def bucketOffset (targetMinutes : ℕ) : ℤ :=
  if targetMinutes = weekMinutes then -3 * Timestamp.microsPerDay
  else if targetMinutes ≥ dayMinutes then 0
  else (sessionOpenMinutesUtc % targetMinutes : ℕ) * Timestamp.microsPerMinute

theorem spanOf_pos {minutes : ℕ} (h : 0 < minutes) : 0 < spanOf minutes := by
  simp only [spanOf, Timestamp.microsPerMinute]
  omega

/-- Buckets are the steps of a grid. -/
theorem bucketStart_eq (timestamp : Timestamp) (targetMinutes : ℕ) :
    bucketStart timestamp targetMinutes =
      gridFloor (spanOf targetMinutes) (bucketOffset targetMinutes) timestamp := by
  simp only [bucketStart, bucketOffset]
  split_ifs with hweek hday
  · have hsize : spanOf targetMinutes = 7 * Timestamp.microsPerDay := by
      rw [hweek]
      rfl
    -- The Monday of a date is the floor of the date on the grid of Mondays.
    have hmonday : ∀ date : ℤ, date - (date + 3) % 7 = (date - -3) / 7 * 7 + -3 := fun date => by
      omega
    rw [hsize, ← gridFloor_scale (by decide), hmonday, Timestamp.date, add_zero, sub_zero]
  · simp only [spanOf, Nat.cast_zero]
    rw [gridFloor_scale (by decide)]
    simp
  · simp only [spanOf]
    rw [gridFloor_scale (by decide)]

section Buckets

variable {s t : Timestamp} {minutes : ℕ}

theorem bucketStart_le (h : 0 < minutes) : bucketStart t minutes ≤ t := by
  rw [bucketStart_eq]
  exact gridFloor_le (spanOf_pos h)

theorem lt_bucketStart_add (h : 0 < minutes) : t < bucketStart t minutes + spanOf minutes := by
  rw [bucketStart_eq]
  exact lt_gridFloor_add (spanOf_pos h)

theorem bucketStart_mono (h : 0 < minutes) (hst : s ≤ t) :
    bucketStart s minutes ≤ bucketStart t minutes := by
  rw [bucketStart_eq, bucketStart_eq]
  exact gridFloor_mono (spanOf_pos h) hst

theorem bucketStart_idem (h : 0 < minutes) :
    bucketStart (bucketStart t minutes) minutes = bucketStart t minutes := by
  rw [bucketStart_eq, bucketStart_eq]
  exact gridFloor_idem (spanOf_pos h)

/-- Two bucket starts are a bucket apart. -/
theorem add_span_le_of_lt (h : 0 < minutes) (hs : bucketStart s minutes = s)
    (ht : bucketStart t minutes = t) (hst : s < t) : s + spanOf minutes ≤ t := by
  rw [bucketStart_eq] at hs ht
  exact add_le_of_lt_of_gridFloor (spanOf_pos h) hs ht hst

/-- The instants of a bucket are those from its start to the next one's. -/
theorem bucketStart_eq_iff {k : Timestamp} (h : 0 < minutes) (hk : bucketStart k minutes = k) :
    bucketStart t minutes = k ↔ k ≤ t ∧ t < k + spanOf minutes := by
  constructor
  · rintro rfl
    exact ⟨bucketStart_le h, lt_bucketStart_add h⟩
  · rintro ⟨hle, hlt⟩
    have hstart : bucketStart (bucketStart t minutes) minutes = bucketStart t minutes :=
      bucketStart_idem h
    rcases lt_trichotomy (bucketStart t minutes) k with hbefore | hsame | hafter
    · exact absurd (add_span_le_of_lt h hstart hk hbefore)
        (not_le.mpr (hle.trans_lt (lt_bucketStart_add h)))
    · exact hsame
    · exact absurd (add_span_le_of_lt h hk hstart hafter)
        (not_le.mpr ((bucketStart_le h).trans_lt hlt))

end Buckets

/-! ## Section 2: Bars -/

/-- `aggregate_candles`. -/
def aggregateCandles : List Candle → Except String Candle
  | [] => .error "Cannot aggregate an empty candle list"
  | first :: rest => .ok
    { timestamp := first.timestamp
      «open» := first.open
      high := (rest.map Candle.high).foldl max first.high
      low := (rest.map Candle.low).foldl min first.low
      close := (rest.getLast?.getD first).close
      volume := ((first :: rest).map Candle.volume).sum
      utcOffset := first.utcOffset }

end SuperTrading
