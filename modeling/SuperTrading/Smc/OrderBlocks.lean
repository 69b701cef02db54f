import SuperTrading.Smc.Fvg

/-!
# Order Blocks

`app/smc/order_blocks.py`: the last candle of the opposite colour before the move that
broke structure, ranked by displacement, an adjacent gap and relative volume.
-/

namespace SuperTrading.Smc

open SuperTrading.Logic

/-- The candles a break is compared with: `candles[start:end_index] or candles[: end_index + 1]`. -/
def lookbackWindow (candles : List Candle) (endIndex : ℕ) (lookback : ℕ := 14) : List Candle :=
  let window := (candles.take endIndex).drop (endIndex - lookback)
  if window = [] then candles.take (endIndex + 1) else window

/-- `_average_range` and `_average_volume`, of what is averaged. -/
def averageOf (measure : Candle → ℚ) (candles : List Candle) (endIndex : ℕ) : ℚ :=
  let window := lookbackWindow candles endIndex
  if window = [] then 0 else (window.map measure).sum / window.length

def averageRange : List Candle → ℕ → ℚ := averageOf fun c => c.high - c.low

def averageVolume : List Candle → ℕ → ℚ := averageOf Candle.volume

/-- `x or 1e-9`. -/
def orTiny (x : ℚ) : ℚ := if x ≠ 0 then x else 1 / 10 ^ 9

/-- A candle of the colour opposite to the break. -/
def opposes (candle : Candle) : Direction → Prop
  | .bullish => candle.close < candle.open
  | .bearish => candle.close > candle.open

instance (candle : Candle) (direction : Direction) : Decidable (opposes candle direction) :=
  match direction with
  | .bullish => inferInstanceAs (Decidable (candle.close < candle.open))
  | .bearish => inferInstanceAs (Decidable (candle.close > candle.open))

/-- The search for the origin, backwards from the candle before the break. -/
def findOrigin (candles : List Candle) (event : StructureEvent) (lookbackCandles : ℕ) :
    Option (Candle × ℕ) :=
  ((candles.zipIdx.take event.index).drop (event.index - lookbackCandles)).reverse.find?
    fun entry => opposes entry.1 event.direction

/-- Is there a gap of the break's direction within two candles of it? -/
def hasAdjacentFvg (fvgs : List FairValueGap) (event : StructureEvent) : Bool :=
  fvgs.any fun gap => gap.direction = event.direction ∧
    event.index ≤ gap.createdIndex + 2 ∧ gap.createdIndex ≤ event.index + 2

def blockStrength (candles : List Candle) (fvgs : List FairValueGap) (event : StructureEvent)
    (breakoutCandle : Candle) : ℚ :=
  let avgRange := orTiny (averageRange candles event.index)
  let displacementScore := min ((breakoutCandle.high - breakoutCandle.low) / avgRange) 2 / 2
  let fvgScore := if hasAdjacentFvg fvgs event then 1 else 0
  let avgVolume := orTiny (averageVolume candles event.index)
  let volumeScore :=
    if avgVolume > 1 / 10 ^ 9 then min (breakoutCandle.volume / avgVolume) 2 / 2 else 1 / 2
  roundHalfEven ((5 / 10 * displacementScore + 3 / 10 * fvgScore + 2 / 10 * volumeScore) * 10000) /
    10000

/-- The block that an event's move left behind. -/
def blockOf (candles : List Candle) (fvgs : List FairValueGap) (lookbackCandles : ℕ)
    (event : StructureEvent) : Option OrderBlock :=
  match findOrigin candles event lookbackCandles, candles[event.index]? with
  | some (origin, originIndex), some breakoutCandle =>
    some
      { direction := event.direction
        top := origin.high
        bottom := origin.low
        createdIndex := originIndex
        createdAt := origin.timestamp
        strength := blockStrength candles fvgs event breakoutCandle
        causedEventIndex := event.index }
  | _, _ => none

/-- `update_mitigation` of one block. -/
def OrderBlock.updateMitigation (candles : List Candle) (block : OrderBlock) : OrderBlock :=
  let fill := fillZone block.direction block.top block.bottom
    { invalidated := block.invalidated, settledIndex := block.mitigatedIndex }
    (candles.zipIdx.drop (block.causedEventIndex + 1))
  let filledPercentage := fill.filledPercentage block.size
  let mitigated := decide (filledPercentage ≥ 1) || fill.invalidated
  { block with
    invalidated := fill.invalidated
    filledPercentage := filledPercentage
    mitigated := mitigated
    mitigatedIndex := if mitigated then fill.settledIndex else none }

def detectOrderBlocks (candles : List Candle) (events : List StructureEvent)
    (fvgs : List FairValueGap := []) (lookbackCandles : ℕ := 10) : List OrderBlock :=
  (events.filterMap (blockOf candles fvgs lookbackCandles)).map
    (OrderBlock.updateMitigation candles)

end SuperTrading.Smc
