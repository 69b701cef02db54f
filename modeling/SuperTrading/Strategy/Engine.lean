import SuperTrading.Smc.Types
import Mathlib.Tactic.Positivity
import Mathlib.Tactic.Linarith

/-!
# Strategy Engine

`StrategyEngine.evaluate` of `app/strategy/engine.py`, from what the SMC and ICT
analysis of the visible candles says to the signal. A signal carries its bracket: the
stop on the losing side of the entry, the target on the winning side.
-/

namespace SuperTrading

open Smc (Candle)

/-! ## Section 1: Strategies -/

/-- `_MAX_MINIMUM_RR`, and `_MAX_JOURNALLED_TARGET`. -/
def maxJournalledTarget : ℚ := 10 ^ 12

theorem default_risk_range : 0 < (1 / 2 : ℚ) ∧ (1 / 2 : ℚ) ≤ 100 := by decide +kernel

theorem default_rr_range : 0 < (2 : ℚ) ∧ 2 ≤ maxJournalledTarget := by decide +kernel

/-- A `RiskConfig` that passed validation. -/
structure RiskConfig where
  riskPercent : ℚ := 1 / 2
  minimumRr : ℚ := 2
  risk_range : 0 < riskPercent ∧ riskPercent ≤ 100 := by
    first | exact default_risk_range | decide +kernel
  rr_range : 0 < minimumRr ∧ minimumRr ≤ maxJournalledTarget := by
    first | exact default_rr_range | decide +kernel

/-- What the engines read of a `StrategyDefinition`. Its conditions and its entry type
are read by the analysis alone. -/
structure StrategyDefinition where
  name : String
  timeframe : String
  direction : Option Smc.Direction := none
  risk : RiskConfig := {}

/-- What the analysis of the visible candles says about a strategy: the verdict of
`evaluate_conditions`, the SMC bias, and `_resolve_entry_and_stop` of a direction. -/
structure SetupReading where
  allSatisfied : Bool
  satisfied : List String
  missing : List String
  bias : Option Smc.Direction
  entryAndStop : Smc.Direction → Option ℚ × Option ℚ

/-- The analysis both engines share: a pure function of the visible candles. -/
abbrev Analysis := StrategyDefinition → List Candle → SetupReading

/-! ## Section 2: Signals -/

/-- The stop is on the losing side of the entry and the target on the winning one. -/
def Bracketed (entry stop target : ℚ) : Smc.Direction → Prop
  | .bullish => stop < entry ∧ entry < target
  | .bearish => entry < stop ∧ target < entry

structure Signal where
  direction : Smc.Direction
  entry : ℚ
  stop : ℚ
  target : ℚ
  riskReward : ℚ
  bracketed : Bracketed entry stop target direction

/-- A `StrategyEvaluationResult`: `matched` if there is a signal. -/
structure StrategyEvaluationResult where
  satisfied : List String
  missing : List String
  signal : Option Signal := none

/-- `_is_journallable`. -/
def isJournallable (price : ℚ) : Prop := |price| < maxJournalledTarget

instance (price : ℚ) : Decidable (isJournallable price) :=
  inferInstanceAs (Decidable (|price| < maxJournalledTarget))

/-- Is the stop on the winning side of the entry? -/
def stopOnWrongSide (entry stop : ℚ) : Smc.Direction → Prop
  | .bullish => entry < stop
  | .bearish => stop < entry

instance (entry stop : ℚ) (direction : Smc.Direction) :
    Decidable (stopOnWrongSide entry stop direction) :=
  match direction with
  | .bullish => inferInstanceAs (Decidable (entry < stop))
  | .bearish => inferInstanceAs (Decidable (stop < entry))

/-- The target of a signal: as many times the risk as the strategy asks for. -/
def signalTarget (entry stop minimumRr : ℚ) : Smc.Direction → ℚ
  | .bullish => entry + |entry - stop| * minimumRr
  | .bearish => entry - |entry - stop| * minimumRr

/-- A stop that is neither the entry nor on its winning side brackets the entry with
the target. -/
theorem bracketed_signalTarget {entry stop minimumRr : ℚ} (hrr : 0 < minimumRr)
    (hne : entry ≠ stop) {direction : Smc.Direction}
    (hside : ¬ stopOnWrongSide entry stop direction) :
    Bracketed entry stop (signalTarget entry stop minimumRr direction) direction := by
  have hrisk : 0 < |entry - stop| * minimumRr := mul_pos (abs_pos.mpr (sub_ne_zero.mpr hne)) hrr
  cases direction with
  | bullish =>
    have hlt : stop < entry := lt_of_le_of_ne (not_lt.mp hside) hne.symm
    exact ⟨hlt, by simp only [signalTarget]; linarith⟩
  | bearish =>
    have hlt : entry < stop := lt_of_le_of_ne (not_lt.mp hside) hne
    exact ⟨hlt, by simp only [signalTarget]; linarith⟩

/-- `StrategyEngine.evaluate`. -/
def StrategyDefinition.evaluate (strategy : StrategyDefinition) (reading : SetupReading) :
    StrategyEvaluationResult :=
  let unmatched (reasons : List String) : StrategyEvaluationResult :=
    { satisfied := reading.satisfied, missing := reading.missing ++ reasons }
  if reading.allSatisfied = false then unmatched []
  else
    match strategy.direction.or reading.bias with
    | none => unmatched ["direction_undetermined"]
    | some direction =>
      match reading.entryAndStop direction with
      | (some entry, some stop) =>
        if hne : entry = stop then unmatched ["no_valid_entry_zone"]
        -- A setup whose stop is not on the losing side has lost its premise.
        else if hside : stopOnWrongSide entry stop direction then
          unmatched ["stop_on_wrong_side_of_entry"]
        else
          let target := signalTarget entry stop strategy.risk.minimumRr direction
          -- Refused rather than clamped: a product of two bounded numbers is not bounded.
          if isJournallable target then
            { satisfied := reading.satisfied
              missing := reading.missing
              signal := some
                { direction := direction
                  entry := entry
                  stop := stop
                  target := target
                  riskReward := round4 (|target - entry| / |entry - stop|)
                  bracketed := bracketed_signalTarget strategy.risk.rr_range.1 hne hside } }
          else unmatched ["target_out_of_range"]
      | _ => unmatched ["no_valid_entry_zone"]

namespace Signal

/-- `Direction.LONG if result.direction.lower() == "bullish" else Direction.SHORT`. -/
def side (signal : Signal) : Direction :=
  match signal.direction with
  | .bullish => .long
  | .bearish => .short

/-- The bracket, on the side the signal is traded on. -/
theorem side_bracketed (signal : Signal) :
    signal.side = .long ∧ signal.stop < signal.entry ∧ signal.entry < signal.target ∨
      signal.side = .short ∧ signal.entry < signal.stop ∧ signal.target < signal.entry := by
  have h := signal.bracketed
  cases hd : signal.direction with
  | bullish =>
    rw [hd] at h
    exact Or.inl ⟨by simp only [side, hd], h⟩
  | bearish =>
    rw [hd] at h
    exact Or.inr ⟨by simp only [side, hd], h⟩

theorem entry_ne_stop (signal : Signal) : signal.entry ≠ signal.stop := by
  rcases signal.side_bracketed with ⟨-, hstop, -⟩ | ⟨-, hstop, -⟩
  · exact hstop.ne'
  · exact hstop.ne

end Signal

end SuperTrading
