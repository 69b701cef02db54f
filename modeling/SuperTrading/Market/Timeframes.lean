import SuperTrading.Smc.Types
import Mathlib.Tactic.NormNum

/-!
# Timeframes

`app/market/timeframes.py`: the supported timeframes and their lengths.
-/

namespace SuperTrading

/-- `SUPPORTED_TIMEFRAMES`. -/
inductive Timeframe
  | m1
  | m3
  | m5
  | m15
  | m30
  | h1
  | h2
  | h4
  | d1
  | w1
  deriving DecidableEq, Repr

namespace Timeframe

def value : Timeframe → String
  | m1 => "1m"
  | m3 => "3m"
  | m5 => "5m"
  | m15 => "15m"
  | m30 => "30m"
  | h1 => "1h"
  | h2 => "2h"
  | h4 => "4h"
  | d1 => "1D"
  | w1 => "1W"

def supported : List Timeframe := [m1, m3, m5, m15, m30, h1, h2, h4, d1, w1]

/-- The quantity times its unit, in minutes. -/
def minutes : Timeframe → ℕ
  | m1 => 1
  | m3 => 3
  | m5 => 5
  | m15 => 15
  | m30 => 30
  | h1 => 1 * 60
  | h2 => 2 * 60
  | h4 => 4 * 60
  | d1 => 1 * 1440
  | w1 => 1 * 10080

theorem minutes_pos (t : Timeframe) : 0 < t.minutes := by
  cases t <;> simp [minutes]

theorem minutes_le_week (t : Timeframe) : t.minutes ≤ 10080 := by
  cases t <;> simp [minutes]

end Timeframe

/-- `timeframe_to_minutes`. -/
def timeframeToMinutes (timeframe : String) : Except String ℕ :=
  match Timeframe.supported.find? (fun t => t.value = timeframe) with
  | some t => .ok t.minutes
  | none => .error s!"Unsupported timeframe: {timeframe}"

/-- `is_valid_upsample`: a higher timeframe is derived from a strictly smaller one that
divides it evenly. -/
def isValidUpsample (source target : Timeframe) : Bool :=
  decide (source.minutes < target.minutes ∧ target.minutes % source.minutes = 0)

end SuperTrading
