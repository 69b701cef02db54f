import SuperTrading.Smc.Types

/-!
# Kill Zones

`app/ict/killzones.py`: windows of the day, declared in UTC.
-/

namespace SuperTrading

open Smc (Candle)

structure KillZone where
  name : String
  startHourUtc : ℚ
  endHourUtc : ℚ
  deriving DecidableEq, Repr

def KillZone.contains (zone : KillZone) (hourUtc : ℚ) : Bool :=
  if zone.startHourUtc ≤ zone.endHourUtc then
    decide (zone.startHourUtc ≤ hourUtc ∧ hourUtc < zone.endHourUtc)
  else
    -- It wraps past midnight.
    decide (zone.startHourUtc ≤ hourUtc ∨ hourUtc < zone.endHourUtc)

/-- `DEFAULT_KILL_ZONES`. -/
def defaultKillZones : List KillZone :=
  [⟨"ASIAN", 0, 4⟩, ⟨"LONDON", 7, 10⟩, ⟨"NEW_YORK", 12, 15⟩, ⟨"LONDON_CLOSE", 15, 16⟩]

def Timestamp.microsPerHour : ℤ := 60 * microsPerMinute

/-- `_utc_hour`: `astimezone(timezone.utc)` takes the offset off the wall clock, and the hour
and the minute are read off what is left. -/
def utcHour (candle : Candle) : ℚ :=
  let wallClock := candle.timestamp + candle.utcOffset
  let utc := wallClock - candle.utcOffset
  let hour := utc % Timestamp.microsPerDay / Timestamp.microsPerHour
  let minute := utc % Timestamp.microsPerHour / Timestamp.microsPerMinute
  hour + minute / 60

def activeKillZones (candle : Candle) (zones : List KillZone := defaultKillZones) : List String :=
  (zones.filter fun zone => zone.contains (utcHour candle)).map KillZone.name

/-- 03:45 UTC is 09:15 in Mumbai, and Asian time on either clock. -/
example :
    let utc : Candle :=
      { timestamp := 225 * Timestamp.microsPerMinute
        «open» := 1, high := 1, low := 1, close := 1 }
    let ist : Candle := { utc with utcOffset := 330 * Timestamp.microsPerMinute }
    activeKillZones utc = ["ASIAN"] ∧ activeKillZones ist = ["ASIAN"] := by
  decide +kernel

end SuperTrading
