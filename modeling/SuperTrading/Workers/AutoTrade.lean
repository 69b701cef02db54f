import SuperTrading.Market.Clock
import SuperTrading.Market.Timeframes
import SuperTrading.Paper.Engine

/-!
# Auto-Trade Supervisor

`AutoTradeSupervisor._process` of `app/workers/auto_trade_worker.py`: one strategy on
one instrument, from the stored candles to `on_candle`. The supervisor keeps an engine
for each user, strategy and instrument; the engines of one user share an account.

- **Rows**: what a pass reads from the database
- **Supervisor**: what it keeps between passes
- **Verdict**: the returns on the way to `on_candle`
- **_process**: what each of them leaves
-/

namespace SuperTrading

open SuperTrading.Logic
open Smc (Candle)

/-! ## Section 1: Rows -/

structure StrategyRow where
  id : String
  version : ℕ := 1
  definition : StrategyDefinition

structure Instrument where
  id : String
  symbol : Symbol
  deriving DecidableEq, Repr

/-- The risk settings of a user's row. -/
structure AutoTradingSettings where
  riskPerTradePct : ℚ
  dailyLossLimitPct : ℚ
  maxTradesPerDay : ℕ
  maxPositions : ℕ
  deriving DecidableEq, Repr

def AutoTradingSettings.limits (settings : AutoTradingSettings) : RiskLimits :=
  { riskPerTradePct := settings.riskPerTradePct
    maxDailyLossPct := settings.dailyLossLimitPct
    maxTradesPerDay := settings.maxTradesPerDay
    maxOpenPositions := settings.maxPositions }

/-- How `acquire_trade_lock` ends: with a token, without one, or with an exception. -/
inductive LockAnswer
  | acquired
  | busy
  | unreachable
  deriving DecidableEq, Repr

/-- What one call of `_process` reads from elsewhere. `restored` is the account that the
stored positions and the journal rebuild, for a user the supervisor has not met;
`raised` is what an `on_candle` that raises behind its first lines leaves of the
engine's orders and of the account. -/
structure PassEnv where
  paper : PaperEnv := {}
  settings : AutoTradingSettings
  restored : PaperAccount
  entriesAllowed : Bool := true
  lock : LockAnswer := .acquired
  tradeLockFailOpen : Bool := false
  raised : Option (OrderManager × PaperAccount) := none

/-- `MAX_CANDLE_AGE_IN_BARS`. -/
def maxCandleAgeInBars : ℕ := 3

/-- `candle_age_seconds`: how late a candle is, measured from when its bar closed. -/
def candleAgeSeconds (candle : Candle) (minutes : ℕ) (now : Instant) : ℚ :=
  max 0 (((now.timestamp - candle.timestamp : ℤ) : ℚ) / 1000000 - minutes * 60)

/-! ## Section 2: The supervisor -/

structure EngineKey where
  userId : AccountId
  strategyId : String
  instrumentId : String
  deriving DecidableEq, Repr

/-- `AutoTradeSupervisor`, without the two registries that only its journal reads. -/
structure AutoTradeSupervisor where
  engines : Dict EngineKey PaperTradingEngine := Dict.empty
  engineStrategyVersions : Dict EngineKey ℕ := Dict.empty
  lastCandleSeen : Dict EngineKey Timestamp := Dict.empty
  accounts : Dict AccountId PaperAccount := Dict.empty

namespace AutoTradeSupervisor

/-- The account of a user: the one in memory, or the one the rows rebuild. -/
def account (s : AutoTradeSupervisor) (userId : AccountId) (env : PassEnv) : PaperAccount :=
  (s.accounts.get? userId).getD env.restored

/-- The engine of a key: built, given an edited strategy, or as it was, with the risk
settings of now. -/
def engine (s : AutoTradeSupervisor) (key : EngineKey) (row : StrategyRow)
    (instrument : Instrument) (env : PassEnv) : PaperTradingEngine :=
  let engine : PaperTradingEngine :=
    match s.engines.get? key with
    | none =>
      { strategy := row.definition
        symbol := instrument.symbol
        accountId := key.userId
        strategyId := some row.id }
    | some engine =>
      -- Only the strategy is swapped: a rebuilt engine would lose the rest.
      if s.engineStrategyVersions.get? key = some row.version then engine
      else { engine with strategy := row.definition }
  { engine with limits := env.settings.limits }

/-- The registries with the engine, its version and its account in them. -/
def refreshed (s : AutoTradeSupervisor) (key : EngineKey) (row : StrategyRow)
    (engine : PaperTradingEngine) (account : PaperAccount) : AutoTradeSupervisor :=
  { s with
    engines := s.engines.set key engine
    engineStrategyVersions := s.engineStrategyVersions.set key row.version
    accounts := s.accounts.set key.userId account }

/-! ## Section 3: The way to on_candle -/

/-- How far a call gets that finds a candle. -/
inductive Verdict
  | seen
  | unsupported
  | stale
  | halted
  | deferred
  | proceed
  deriving DecidableEq, Repr

/-- The returns of `_process` on the way to `on_candle`, in the source's order. -/
def verdict (s : AutoTradeSupervisor) (key : EngineKey) (timeframe : String) (latest : Candle)
    (isOpen : Bool) (env : PassEnv) : Verdict :=
  if s.lastCandleSeen.get? key = some latest.timestamp then .seen
  else
    match timeframeToMinutes timeframe with
    -- `ValueError`.
    | .error _ => .unsupported
    | .ok minutes =>
      if (minutes * 60 * maxCandleAgeInBars : ℚ) <
          candleAgeSeconds latest minutes env.paper.now then
        .stale
      -- A halt stops entries; a candle for an open position can only exit.
      else if env.entriesAllowed = false ∧ isOpen = false then .halted
      else
        match env.lock with
        | .acquired => .proceed
        | .busy => .deferred
        | .unreachable => if env.tradeLockFailOpen then .proceed else .deferred

/-- A freshly built engine is seeded with the stored history behind `latest`. -/
def seeded (engine : PaperTradingEngine) (candles : List Candle) : PaperTradingEngine :=
  if engine.candles = [] then { engine with candles := candles.dropLast } else engine

variable (analyze : Analysis)

/-- `engine.on_candle(latest, db)`, with what it leaves when it raises: the candle is
appended before anything can, and the quote set. -/
def feed (engine : PaperTradingEngine) (account : PaperAccount) (env : PassEnv)
    (latest : Candle) : Except String PaperTradeOutcome × PaperTradingEngine × PaperAccount :=
  match env.raised, engine.onCandle analyze account env.paper latest with
  | none, .ok (outcome, engine, account) => (.ok outcome, engine, account)
  | none, .error message =>
    let (engine, account) := engine.abandoned analyze account env.paper latest
    (.error message, engine, account)
  | some (orders, account), _ =>
    (.error "raised",
      { engine with
        candles := engine.candles ++ [latest]
        orderManager := orders },
      account)

/-! ## Section 4: _process -/

/-- A call of `on_candle`: the candle, and the engine as the call left it. -/
structure FedCandle where
  latest : Candle
  engine : PaperTradingEngine
  outcome : Except String PaperTradeOutcome

/-- `_process` on the stored candles of the strategy's timeframe. -/
def process (s : AutoTradeSupervisor) (candles : List Candle) (userId : AccountId)
    (row : StrategyRow) (instrument : Instrument) (env : PassEnv) :
    AutoTradeSupervisor × Option FedCandle :=
  let key : EngineKey := ⟨userId, row.id, instrument.id⟩
  let engine := s.engine key row instrument env
  let account := s.account userId env
  let s := s.refreshed key row engine account
  match candles.getLast? with
  | none => (s, none)
  | some latest =>
    let isOpen := (engine.position account).any PositionRecord.isOpen
    let marked := { s with lastCandleSeen := s.lastCandleSeen.set key latest.timestamp }
    match s.verdict key row.definition.timeframe latest isOpen env with
    | .seen => (s, none)
    | .unsupported => (marked, none)
    | .stale => (marked, none)
    | .halted => ({ marked with engines := s.engines.set key (seeded engine candles) }, none)
    -- The mark is undone, so that the next pass retries the candle.
    | .deferred => ({ s with engines := s.engines.set key (seeded engine candles) }, none)
    | .proceed =>
      let (outcome, engine, account) := feed analyze (seeded engine candles) account env latest
      ({ marked with
          engines := s.engines.set key engine
          accounts := s.accounts.set userId account },
        some ⟨latest, engine, outcome⟩)

end AutoTradeSupervisor

end SuperTrading
