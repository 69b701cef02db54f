import SuperTrading.Smc.Liquidity
import SuperTrading.Smc.OrderBlocks
import SuperTrading.Smc.Structure

/-!
# SMC Engine

`SMCEngine.analyze` of `app/smc/engine.py`: every detector over one list of candles.
-/

namespace SuperTrading.Smc

structure SMCConfig where
  swingLength : ℕ := 3
  equalLevelTolerancePct : ℚ := 5 / 100
  fvgMinGapPct : ℚ := 0
  orderBlockLookback : ℕ := 10
  detectDailyLevels : Bool := true
  detectWeeklyLevels : Bool := true

structure SMCContext where
  swings : List Swing
  structureEvents : List StructureEvent
  mssEvents : List StructureEvent
  liquidityPools : List LiquidityPool
  fairValueGaps : List FairValueGap
  orderBlocks : List OrderBlock
  dealingRange : Option PremiumDiscountZone
  currentPrice : Option ℚ
  currentZone : Option String

/-- `dealing_range_from_swings`. -/
def dealingRangeFromSwings (swings : List Swing) : Option PremiumDiscountZone :=
  match (swings.filter fun s => s.swingType = .high).getLast?,
    (swings.filter fun s => s.swingType = .low).getLast? with
  | some high, some low => some { rangeHigh := high.price, rangeLow := low.price }
  | _, _ => none

def analyze (cfg : SMCConfig) (candles : List Candle) : Except String SMCContext := do
  let swings ← detectSwings candles cfg.swingLength
  let structureEvents := detectStructureEvents candles swings
  let daily ← if cfg.detectDailyLevels then detectSessionLevels candles "day" else pure []
  let weekly ← if cfg.detectWeeklyLevels then detectSessionLevels candles "week" else pure []
  let pools := detectEqualLevels swings cfg.equalLevelTolerancePct ++ daily ++ weekly
  let fvgs := detectFvgs candles cfg.fvgMinGapPct
  let dealingRange := dealingRangeFromSwings swings
  let currentPrice := candles.getLast?.map Candle.close
  return {
    swings := swings
    structureEvents := structureEvents
    mssEvents := promoteConfirmedShifts structureEvents
    liquidityPools := detectSweeps candles pools
    fairValueGaps := fvgs
    orderBlocks := detectOrderBlocks candles structureEvents fvgs cfg.orderBlockLookback
    dealingRange := dealingRange
    currentPrice := currentPrice
    currentZone := dealingRange.bind fun zone => currentPrice.map zone.zoneFor }

end SuperTrading.Smc
