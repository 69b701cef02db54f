import SuperTrading.Strategy.Engine
import SuperTrading.Risk.Engine

/-!
# Backtest Engine

`BacktestEngine.run` of `app/backtest/engine.py`, with the cost model of
`app/backtest/cost_model.py`: one loop over the candles, with at most one open trade.
-/

namespace SuperTrading

open Smc (Candle)

/-! ## Section 1: Costs -/

structure CostModel where
  brokerageFlat : ℚ := 0
  brokeragePct : ℚ := 0
  slippagePct : ℚ := 0
  spreadPct : ℚ := 0
  taxesPct : ℚ := 0
  contractChargesFlat : ℚ := 0
  deriving DecidableEq, Repr

namespace CostModel

def slip (m : CostModel) (rawPrice : ℚ) : ℚ := rawPrice * (m.slippagePct + m.spreadPct / 2) / 100

def entryPrice (m : CostModel) (rawPrice : ℚ) : Direction → ℚ
  | .long => rawPrice + m.slip rawPrice
  | .short => rawPrice - m.slip rawPrice

def exitPrice (m : CostModel) (rawPrice : ℚ) : Direction → ℚ
  | .long => rawPrice - m.slip rawPrice
  | .short => rawPrice + m.slip rawPrice

def roundTripCosts (m : CostModel) (notionalEntry notionalExit : ℚ) : ℚ :=
  (notionalEntry + notionalExit) * (m.brokeragePct + m.taxesPct) / 100
    + 2 * m.brokerageFlat + m.contractChargesFlat

/-- The zero cost model trades at the raw price, for nothing. -/
theorem zero_costs (rawPrice notionalEntry notionalExit : ℚ) (side : Direction) :
    ({} : CostModel).entryPrice rawPrice side = rawPrice ∧
      ({} : CostModel).exitPrice rawPrice side = rawPrice ∧
      ({} : CostModel).roundTripCosts notionalEntry notionalExit = 0 := by
  cases side <;> simp [entryPrice, exitPrice, roundTripCosts, slip]

end CostModel

/-! ## Section 2: Trades -/

/-- The `open_trade` of the loop. -/
structure OpenTrade where
  direction : Direction
  entryPrice : ℚ
  stop : ℚ
  target : ℚ
  quantity : ℚ
  openedAt : Timestamp
  deriving DecidableEq, Repr

structure BacktestTradeRecord where
  direction : Direction
  entryPrice : ℚ
  exitPrice : ℚ
  quantity : ℚ
  pnl : ℚ
  rMultiple : Option ℚ
  openedAt : Timestamp
  closedAt : Timestamp
  deriving DecidableEq, Repr

/-- `OpenBacktestPosition`: the trade that was still open when the data ended. -/
structure OpenBacktestPosition extends OpenTrade where
  lastPrice : ℚ
  unrealizedPnl : ℚ
  deriving DecidableEq, Repr

structure BacktestEngine where
  strategy : StrategyDefinition
  startingCapital : ℚ := 100000
  costModel : CostModel := {}
  maxPositionSize : Option ℚ := none

/-- The locals of the loop. -/
structure BacktestState where
  trades : List BacktestTradeRecord := []
  equity : ℚ
  openTrade : Option OpenTrade := none
  deriving DecidableEq, Repr

/-- What `run` leaves: the trades it returns, the engine's `open_trade`, and the equity
its loop ended with. -/
structure BacktestResult where
  trades : List BacktestTradeRecord
  openTrade : Option OpenBacktestPosition
  equity : ℚ
  deriving DecidableEq, Repr

/-! ## Section 3: The loop -/

namespace OpenTrade

/-- The level the candle hits: the stop, which comes first, or the target. -/
def hitPrice (trade : OpenTrade) (candle : Candle) : Option ℚ :=
  match trade.direction with
  | .long =>
    if candle.low ≤ trade.stop then some trade.stop
    else if trade.target ≤ candle.high then some trade.target
    else none
  | .short =>
    if trade.stop ≤ candle.high then some trade.stop
    else if candle.low ≤ trade.target then some trade.target
    else none

/-- `_describe_open`. -/
def describe (trade : OpenTrade) (last : Candle) : OpenBacktestPosition :=
  { trade with
    lastPrice := last.close
    unrealizedPnl := trade.direction.signed ((last.close - trade.entryPrice) * trade.quantity) }

end OpenTrade

namespace BacktestEngine

/-- `_check_exit`. -/
def checkExit (e : BacktestEngine) (trade : OpenTrade) (candle : Candle) :
    Option BacktestTradeRecord :=
  (trade.hitPrice candle).map fun hitPrice =>
    let exitPrice := e.costModel.exitPrice hitPrice trade.direction
    let move := trade.direction.signed (exitPrice - trade.entryPrice)
    let costs := e.costModel.roundTripCosts (trade.entryPrice * trade.quantity)
      (exitPrice * trade.quantity)
    let riskPerUnit := |trade.entryPrice - trade.stop|
    { direction := trade.direction
      entryPrice := trade.entryPrice
      exitPrice := exitPrice
      quantity := trade.quantity
      pnl := move * trade.quantity - costs
      -- A trade without risk has no multiple of it.
      rMultiple := if riskPerUnit = 0 then none else some (move / riskPerUnit)
      openedAt := trade.openedAt
      closedAt := candle.timestamp }

/-- `_open_trade`. -/
def openTrade (e : BacktestEngine) (signal : Signal) (candle : Candle) (equity : ℚ) : OpenTrade :=
  { direction := signal.side
    entryPrice := e.costModel.entryPrice signal.entry signal.side
    stop := signal.stop
    target := signal.target
    quantity := calculatePositionSize equity e.strategy.risk.riskPercent signal.entry signal.stop
      e.maxPositionSize
    openedAt := candle.timestamp }

end BacktestEngine

/-- The signal that can be filled on the last of the visible candles: from the third
candle on, if the candle's range contains its entry. -/
def fillableSignal (analyze : Analysis) (strategy : StrategyDefinition) (visible : List Candle)
    (candle : Candle) : Option Signal :=
  if visible.length < 3 then none
  else (strategy.evaluate (analyze strategy visible)).signal.filter fun signal =>
    candle.low ≤ signal.entry ∧ signal.entry ≤ candle.high

theorem fillableSignal_range {analyze : Analysis} {strategy : StrategyDefinition}
    {visible : List Candle} {candle : Candle} {signal : Signal}
    (h : fillableSignal analyze strategy visible candle = some signal) :
    candle.low ≤ signal.entry ∧ signal.entry ≤ candle.high := by
  unfold fillableSignal at h
  split_ifs at h
  exact of_decide_eq_true (Option.filter_eq_some_iff.mp h).2

namespace BacktestEngine

variable (analyze : Analysis)

/-- One turn of the loop. -/
def onCandle (e : BacktestEngine) (visible : List Candle) (candle : Candle) (s : BacktestState) :
    BacktestState :=
  match s.openTrade with
  | some trade =>
    -- The candle that closes a trade opens none.
    match e.checkExit trade candle with
    | some closed =>
      { trades := s.trades ++ [closed]
        equity := s.equity + closed.pnl }
    | none => s
  | none =>
    match fillableSignal analyze e.strategy visible candle with
    | some signal => { s with openTrade := some (e.openTrade signal candle s.equity) }
    | none => s

/-- The loop over the candles that are still to come, behind those already seen. -/
def loop (e : BacktestEngine) : List Candle → BacktestState → List Candle → BacktestState
  | _, s, [] => s
  | seen, s, candle :: candles =>
    let visible := seen ++ [candle]
    loop e visible (e.onCandle analyze visible candle s) candles

/-- `run`. -/
def run (e : BacktestEngine) (candles : List Candle) : BacktestResult :=
  let s := e.loop analyze [] { equity := e.startingCapital } candles
  { trades := s.trades
    openTrade := s.openTrade.bind fun trade => candles.getLast?.map trade.describe
    equity := s.equity }

end BacktestEngine

end SuperTrading
