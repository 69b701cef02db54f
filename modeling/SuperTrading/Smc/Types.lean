import SuperTrading.Core.Types
import SuperTrading.Logic.Texts

/-!
# SMC Types

`app/smc/types.py`: the candle, and what the detectors report about a list of them.
-/

namespace SuperTrading

/-- A candle's or a tick's instant: microseconds since 1970-01-01 00:00 UTC. -/
abbrev Timestamp := ℤ

namespace Timestamp

def microsPerMinute : ℤ := 60 * 1000000

def microsPerDay : ℤ := 86400 * 1000000

/-- `timestamp.date()`, as the number of days since 1970-01-01. -/
def date (t : Timestamp) : ℤ := t / microsPerDay

/-- The Monday-started week of the instant, counted from that of 1970-01-01, a
Thursday. Two instants have the same `isocalendar()[:2]` exactly when they lie in the
same such week, and the pairs are ordered as the weeks are. -/
def isoWeek (t : Timestamp) : ℤ := (t.date + 3) / 7

/-- `isoformat()`, spliced into a key: the local time and the offset it is written in.
Distinct spellings have distinct texts, and a text has one `T` and one `Z`, which is what the
keys rely on. -/
def isoformat (t : Timestamp) (utcOffset : ℤ := 0) : String := s!"T{t + utcOffset}Z{utcOffset}"

/-- A text that ends in the `isoformat` of an instant tells the instant and its offset. -/
theorem eq_of_isoformat_suffix {pre pre' : String} {t t' : Timestamp} {utcOffset utcOffset' : ℤ}
    (h : pre ++ t.isoformat utcOffset = pre' ++ t'.isoformat utcOffset') :
    t = t' ∧ utcOffset = utcOffset' := by
  have htext : ∀ (t : Timestamp) (o : ℤ), (t.isoformat o).toList =
      ('T' :: (Int.repr (t + o)).toList) ++ 'Z' :: (Int.repr o).toList := fun t o => by
    simp [isoformat, toString]
  have hlist := congrArg String.toList h
  rw [String.toList_append, String.toList_append, htext, htext, ← List.append_assoc,
    ← List.append_assoc] at hlist
  -- The offset stands behind the last `Z`, and the local time behind the last `T` before it.
  have hoffset : utcOffset = utcOffset' := by
    have htail := Logic.eq_of_append_cons
      (Logic.not_mem_repr (c := 'Z') (by rfl) (by simp) utcOffset)
      (Logic.not_mem_repr (by rfl) (by simp) utcOffset') hlist
    exact Logic.repr_inj (String.toList_inj.mp htail)
  subst hoffset
  have hlocal := Logic.eq_of_append_cons
    (Logic.not_mem_repr (c := 'T') (by rfl) (by simp) (t + utcOffset))
    (Logic.not_mem_repr (by rfl) (by simp) (t' + utcOffset)) (List.append_cancel_right hlist)
  exact ⟨add_right_cancel (Logic.repr_inj (String.toList_inj.mp hlocal)), rfl⟩

end Timestamp

namespace Smc

structure Candle where
  timestamp : Timestamp
  «open» : ℚ
  high : ℚ
  low : ℚ
  close : ℚ
  volume : ℚ := 0
  /-- The UTC offset the timestamp is written in, in microseconds. -/
  utcOffset : ℤ := 0
  deriving DecidableEq, Repr

/-- `timestamp.date()`: the calendar day where the timestamp is written. -/
def Candle.date (c : Candle) : ℤ := Timestamp.date (c.timestamp + c.utcOffset)

/-- `timestamp.isocalendar()`: the year and the week, as one number. -/
def Candle.isoWeek (c : Candle) : ℤ := Timestamp.isoWeek (c.timestamp + c.utcOffset)

/-- Every price of the candle is positive. -/
def Candle.Priced (c : Candle) : Prop := 0 < c.open ∧ 0 < c.high ∧ 0 < c.low ∧ 0 < c.close

instance (c : Candle) : Decidable c.Priced :=
  inferInstanceAs (Decidable (0 < c.open ∧ 0 < c.high ∧ 0 < c.low ∧ 0 < c.close))

inductive Direction
  | bullish
  | bearish
  deriving DecidableEq, Repr

inductive SwingType
  | high
  | low
  deriving DecidableEq, Repr

/-- `none`: not enough prior context of the same type yet. -/
inductive SwingLabel
  | hh
  | hl
  | lh
  | ll
  | none
  deriving DecidableEq, Repr

structure Swing where
  index : ℕ
  confirmedIndex : ℕ
  timestamp : Timestamp
  price : ℚ
  swingType : SwingType
  label : SwingLabel := .none
  deriving DecidableEq, Repr

inductive StructureEventType
  | bos
  | choch
  | mss
  deriving DecidableEq, Repr

structure StructureEvent where
  index : ℕ
  timestamp : Timestamp
  eventType : StructureEventType
  direction : Direction
  brokenSwingIndex : ℕ
  brokenPrice : ℚ
  breakPrice : ℚ
  deriving DecidableEq, Repr

/-- Buy-side liquidity rests above the price, sell-side below. -/
inductive LiquiditySide
  | buySide
  | sellSide
  deriving DecidableEq, Repr

inductive LiquiditySourceType
  | equalHighs
  | equalLows
  | previousDayHigh
  | previousDayLow
  | previousWeekHigh
  | previousWeekLow
  | sessionHigh
  | sessionLow
  deriving DecidableEq, Repr

structure LiquidityPool where
  side : LiquiditySide
  sourceType : LiquiditySourceType
  price : ℚ
  formedIndex : ℕ
  formedTimestamp : Timestamp
  memberIndices : List ℕ := []
  swept : Bool := false
  sweptIndex : Option ℕ := none
  sweptTimestamp : Option Timestamp := none
  rejected : Bool := false
  deriving DecidableEq, Repr

/-- `FVGDirection` has the same two members. -/
structure FairValueGap where
  direction : Direction
  top : ℚ
  bottom : ℚ
  createdIndex : ℕ
  createdAt : Timestamp
  timeframe : String := ""
  mitigated : Bool := false
  invalidated : Bool := false
  filledPercentage : ℚ := 0
  deriving DecidableEq, Repr

def FairValueGap.size (g : FairValueGap) : ℚ := max (g.top - g.bottom) 0

structure OrderBlock where
  direction : Direction
  top : ℚ
  bottom : ℚ
  createdIndex : ℕ
  createdAt : Timestamp
  strength : ℚ
  causedEventIndex : ℕ
  mitigated : Bool := false
  mitigatedIndex : Option ℕ := none
  invalidated : Bool := false
  filledPercentage : ℚ := 0
  deriving DecidableEq, Repr

def OrderBlock.size (b : OrderBlock) : ℚ := max (b.top - b.bottom) 0

structure PremiumDiscountZone where
  rangeHigh : ℚ
  rangeLow : ℚ
  deriving DecidableEq, Repr

namespace PremiumDiscountZone

def midpoint (z : PremiumDiscountZone) : ℚ := (z.rangeHigh + z.rangeLow) / 2

def zoneFor (z : PremiumDiscountZone) (price : ℚ) : String :=
  if price > z.midpoint then "PREMIUM" else if price < z.midpoint then "DISCOUNT" else "EQUILIBRIUM"

end PremiumDiscountZone

end Smc

end SuperTrading
