import SuperTrading.Ict.KillZones
import SuperTrading.Ict.OpeningRange
import SuperTrading.Smc.Engine
import SuperTrading.Strategy.Dsl

/-!
# Strategy Evaluator

What the strategies' conditions mean: `app/ict/engine.py`, `app/strategy/context.py`,
`app/strategy/evaluator.py`, the entry and the stop of `app/strategy/engine.py`, and
`app/strategy/scoring.py`. Together they are the analysis that the engines share.
-/

namespace SuperTrading

open SuperTrading.Logic
open Smc (Candle SMCConfig SMCContext StructureEvent LiquidityPool FairValueGap OrderBlock)

/-! ## Section 1: Contexts -/

theorem noSeconds_lt : (0 : ℕ) < 60 := by decide

theorem noMicroseconds_lt : (0 : ℕ) < 1000000 := by decide

/-- 09:15 in India. -/
def defaultSessionOpenUtc : ClockTime where
  hour := 3
  minute := 45
  second_lt := noSeconds_lt
  microsecond_lt := noMicroseconds_lt

structure ICTConfig where
  enableKillZones : Bool := true
  enableOpeningRange : Bool := true
  killZones : List KillZone := defaultKillZones
  sessionOpenUtc : ClockTime := defaultSessionOpenUtc
  openingRangeMinutes : ℤ := 15

structure ICTContext where
  currentKillZones : List String
  openingRanges : List OpeningRange

/-- `ICTEngine.analyze`. -/
def ICTConfig.analyze (cfg : ICTConfig) (candles : List Candle) : ICTContext where
  currentKillZones :=
    if cfg.enableKillZones then
      (candles.getLast?.map fun candle => activeKillZones candle cfg.killZones).getD []
    else []
  openingRanges :=
    if cfg.enableOpeningRange then
      detectOpeningRanges candles cfg.sessionOpenUtc cfg.openingRangeMinutes
    else []

/-- What the conditions read of an `EvaluationContext`. -/
structure EvaluationContext where
  currentPrice : ℚ
  smc : SMCContext
  ict : ICTContext
  currentIndex : ℤ := 0
  indicators : Dict String ℚ := Dict.empty

namespace Smc

/-- `direction.value`. -/
def Direction.value : Direction → String
  | .bullish => "BULLISH"
  | .bearish => "BEARISH"

/-- `side.value`. -/
def LiquiditySide.value : LiquiditySide → String
  | .buySide => "BUY_SIDE"
  | .sellSide => "SELL_SIDE"

/-- `event_type.value`. -/
def StructureEventType.value : StructureEventType → String
  | .bos => "BOS"
  | .choch => "CHOCH"
  | .mss => "MSS"

namespace SMCContext

def bias (smc : SMCContext) : Option Direction := smc.structureEvents.getLast?.map (·.direction)

def unmitigatedFvgs (smc : SMCContext) (direction : Option String := none) : List FairValueGap :=
  smc.fairValueGaps.filter fun g => !g.mitigated && direction.all fun d => g.direction.value = d

def activeOrderBlocks (smc : SMCContext) (direction : Option String := none) : List OrderBlock :=
  smc.orderBlocks.filter fun b => !b.mitigated && direction.all fun d => b.direction.value = d

def recentSweeps (smc : SMCContext) (side : Option String := none) : List LiquidityPool :=
  smc.liquidityPools.filter fun p => p.swept && side.all fun s => p.side.value = s

end SMCContext

end Smc

/-! ## Section 2: Conditions -/

/-- `if text`: a text that is there and not empty. -/
def stated (text : Option String) : Option String := text.filter fun text => text ≠ ""

namespace Condition

/-- `_numeric_compare`. -/
def numericCompare (c : Condition) : Option ℚ → Bool
  | none => false
  | some actual =>
    match c.operator.getD .greaterThan with
    | .greaterThan => c.value.any fun value => actual > value
    | .lessThan => c.value.any fun value => actual < value
    | .within => c.minValue.any fun low => c.maxValue.any fun high => low ≤ actual ∧ actual ≤ high
    -- Without the value before it, a touch is a small band around the target.
    | .touches | .crosses => c.value.any fun value => |actual - value| ≤ |value| * (1 / 1000)
    | _ => false

/-- The events of the condition's type, and the name it knows them by. -/
def events (c : Condition) (smc : SMCContext) : List StructureEvent :=
  (if c.type = .mss then smc.mssEvents else smc.structureEvents).filter fun e =>
    e.eventType.value = upper c.type.value

/-- Is an event at this index still within the lookback? -/
def isRecent (c : Condition) (context : EvaluationContext) (index : ℕ) : Bool :=
  context.currentIndex - index < c.lookback

/-- `evaluate_condition`. -/
def evaluate (c : Condition) (context : EvaluationContext) : Bool :=
  match c.type with
  | .trend =>
    context.smc.bias.any fun bias => c.direction.all fun d => lower bias.value = lower d
  | .bos | .mss | .choch =>
    (c.events context.smc).any fun e =>
      (c.direction.all fun d => lower e.direction.value = lower d) && c.isRecent context e.index
  | .liquiditySweep =>
    let side := (stated c.side).map fun side => upper side ++ "_SIDE"
    (context.smc.recentSweeps side).any fun p => p.sweptIndex.any (c.isRecent context)
  | .fvg => context.smc.unmitigatedFvgs ((stated c.direction).map upper) ≠ []
  | .orderBlock => context.smc.activeOrderBlocks ((stated c.direction).map upper) ≠ []
  | .premiumDiscount =>
    context.smc.currentZone.any fun current => c.zone.any fun zone => lower current = lower zone
  | .session =>
    match stated c.name with
    | some name => upper name ∈ context.ict.currentKillZones
    | none => context.ict.currentKillZones ≠ []
  | .volume | .volatility | .indicator | .optionsIv | .optionsOi | .optionsGreeks =>
    c.numericCompare (context.indicators.get? ((stated c.name).getD c.type.value))

/-- `condition.name or condition.type.value`. -/
def label (c : Condition) : String := (stated c.name).getD c.type.value

end Condition

/-- `evaluate_conditions`: whether all hold, the labels of those that do, and of those that do
not. -/
def evaluateConditions (conditions : List Condition) (context : EvaluationContext) :
    Bool × List String × List String :=
  let satisfied := (conditions.filter fun c => c.evaluate context).map Condition.label
  let missing := (conditions.filter fun c => !c.evaluate context).map Condition.label
  (missing = [], satisfied, missing)

/-! ## Section 3: Entries and stops -/

/-- `_ENTRY_BUFFER_PCT`. -/
def entryBufferPct : ℚ := 5 / 100

/-- The stop beyond the far edge of a zone. -/
def zoneStop (top bottom buffer : ℚ) : Smc.Direction → ℚ
  | .bullish => bottom - buffer
  | .bearish => top + buffer

/-- The edge of the dealing range on the losing side. -/
def rangeStop (range : Smc.PremiumDiscountZone) : Smc.Direction → ℚ
  | .bullish => range.rangeLow
  | .bearish => range.rangeHigh

/-- `_resolve_entry_and_stop`. -/
def EntryType.resolve (type : EntryType) (context : EvaluationContext) (direction : Smc.Direction) :
    Option ℚ × Option ℚ :=
  match type with
  | .fvgRetest =>
    match (context.smc.unmitigatedFvgs (some direction.value)).getLast? with
    | none => (none, none)
    | some gap =>
      (some ((gap.top + gap.bottom) / 2),
        some (zoneStop gap.top gap.bottom (gap.size * entryBufferPct) direction))
  | .orderBlockRetest =>
    match (context.smc.activeOrderBlocks (some direction.value)).getLast? with
    | none => (none, none)
    | some block =>
      (some ((block.top + block.bottom) / 2),
        some (zoneStop block.top block.bottom
          ((block.top - block.bottom) * entryBufferPct) direction))
  | .market =>
    (some context.currentPrice, context.smc.dealingRange.map fun range => rangeStop range direction)

/-! ## Section 4: Scores -/

/-- `DEFAULT_WEIGHTS`. -/
def defaultWeights : Dict String ℚ where
  entries :=
    [("htf_alignment", 20), ("structure", 20), ("liquidity", 20), ("fvg", 15), ("risk_reward", 15)]
  nodup := by decide

/-- `weights or DEFAULT_WEIGHTS`. -/
def weightsOr (weights : Option (Dict String ℚ)) : Dict String ℚ :=
  match weights with
  | some weights => if weights.entries = [] then defaultWeights else weights
  | none => defaultWeights

/-- `sum(weights.values()) or 1.0`. -/
def totalWeight (weights : Dict String ℚ) : ℚ :=
  if weights.values.sum = 0 then 1 else weights.values.sum

/-- The conditions that each part of a score rewards. `VOLATILITY` is refused by the DSL, so its
part is inert. -/
def scoredParts : List (String × List ConditionType) :=
  [("htf_alignment", [.trend]), ("structure", [.bos, .mss, .choch]),
    ("liquidity", [.liquiditySweep]), ("fvg", [.fvg, .orderBlock]), ("volatility", [.volatility])]

/-- How much of the `risk_reward` weight a reward earns. -/
def rrComponent (riskReward minimumRr : ℚ) : ℚ :=
  if 0 < minimumRr ∧ minimumRr ≤ riskReward then min (riskReward / minimumRr) (3 / 2) / (3 / 2)
  else 0

/-- The score before it is scaled. -/
def rawScore (satisfied : List ConditionType) (riskReward minimumRr : ℚ) (weights : Dict String ℚ) :
    ℚ :=
  (scoredParts.map fun part =>
      if part.2.any (· ∈ satisfied) then (weights.get? part.1).getD 0 else 0).sum +
    (weights.get? "risk_reward").getD 0 * rrComponent riskReward minimumRr

/-- `round(q, 2)`. -/
def round2 (q : ℚ) : ℚ := roundHalfEven (q * 100) / 100

/-- `compute_strategy_score`. -/
def computeStrategyScore (satisfied : List ConditionType) (riskReward minimumRr : ℚ)
    (weights : Option (Dict String ℚ)) : ℚ :=
  let weights := weightsOr weights
  let total := totalWeight weights
  round2 (min (rawScore satisfied riskReward minimumRr weights) total / total * 100)

/-! ## Section 5: Strategies -/

/-- The context that the scanner, the paper engine and the backtest build of the visible candles,
of which they have at least three. -/
def contextOf (candles : List Candle) : Except String EvaluationContext :=
  candles.getLast?.elim (.error "list index out of range") fun last => do
    let smc ← Smc.analyze {} candles
    return {
      currentPrice := last.close
      smc := smc
      ict := ({} : ICTConfig).analyze candles
      currentIndex := candles.length - 1 }

namespace Strategy

/-- The conditions, without the checks that they passed. -/
def leaves (s : Strategy) : List Condition := s.conditions.map ValidCondition.condition

def reading (s : Strategy) (context : EvaluationContext) : SetupReading :=
  let (allSatisfied, satisfied, missing) := evaluateConditions s.leaves context
  { allSatisfied := allSatisfied
    satisfied := satisfied
    missing := missing
    bias := context.smc.bias
    entryAndStop := s.entryType.resolve context }

/-- `StrategyEngine.evaluate`, but for the score. -/
def result (s : Strategy) (context : EvaluationContext) : StrategyEvaluationResult :=
  s.toStrategyDefinition.evaluate (s.reading context)

/-- The score of a result; an unmatched one has none. -/
def score (s : Strategy) (result : StrategyEvaluationResult) : ℚ :=
  match result.signal with
  | none => 0
  | some signal =>
    let satisfiedTypes := (s.leaves.filter fun c => c.label ∈ result.satisfied).map (·.type)
    computeStrategyScore satisfiedTypes
      (|signal.target - signal.entry| / |signal.entry - signal.stop|) s.risk.minimumRr
      s.scoreWeights

/-- The analysis of the real engines. Without a context there is nothing to match. -/
def analysis (s : Strategy) : Analysis := fun _ candles =>
  match contextOf candles with
  | .ok context => s.reading context
  | .error _ =>
    { allSatisfied := false
      satisfied := []
      missing := []
      bias := none
      entryAndStop := fun _ => (none, none) }

end Strategy

end SuperTrading
