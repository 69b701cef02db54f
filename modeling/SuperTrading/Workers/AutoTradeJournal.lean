import SuperTrading.Paper.OneCandle
import SuperTrading.Trading.Persistence
import SuperTrading.Workers.AutoTradeSeries

/-!
# The Auto-Trader's Journal

What `AutoTradeSupervisor._process` writes behind `on_candle`, and what a worker that
starts again reads back: the mirror of the position, the registries of when and under
which version a position was entered, and the journal of closed trades.

- **Rows**: the worker's positions and trades
- **Reads**: the account a fresh worker rebuilds
- **Journal**: the writes of one candle, each of which can fail
- **World**: passes, restarts, and what a watcher of the entries writes down
-/

namespace SuperTrading

open SuperTrading.Logic
open Smc (Candle)

/-! ## Section 1: Rows -/

/-- A row of `positions` that the worker wrote. -/
structure AutoPositionRow extends PositionRow where
  userId : AccountId
  createdAt : Instant
  deriving DecidableEq, Repr

/-- A row of `trades`. The last four fields are its `journal`. -/
structure AutoTradeRow where
  userId : AccountId
  instrumentId : String
  strategyId : String
  strategyVersion : ℕ
  executionMode : ExecutionMode
  direction : Direction
  entryPrice : ℚ
  exitPrice : Option ℚ
  quantity : ℚ
  stop : Option ℚ
  target : Option ℚ
  pnl : ℚ
  rMultiple : Option ℚ
  openedAt : Timestamp
  closedAt : Timestamp
  source : String
  strategy : String
  symbol : Symbol
  timeframe : String
  deriving DecidableEq, Repr

/-- The committed rows of the worker, of every user. -/
structure AutoTradeDb where
  positions : List AutoPositionRow := []
  trades : List AutoTradeRow := []
  deriving DecidableEq, Repr

/-- `AUTO_TRADE_SOURCE`. -/
def autoTradeSource : String := "auto_trade"

/-- What a `Numeric(10, 4)` column gives back: four decimals, ties away from zero. -/
def ratioColumn (q : ℚ) : ℚ := numeric (q / 100) * 100

namespace AutoTradeDb

/-! ## Section 2: Reads -/

/-- The `positions` rows of one user. -/
def positionsOf (db : AutoTradeDb) (userId : AccountId) : Db :=
  { positions := (db.positions.filter fun row => row.userId = userId).map
      AutoPositionRow.toPositionRow }

/-- `load_auto_trade_entries_since`. Every row of `trades` names its source. -/
def loadAutoTradeEntriesSince (db : AutoTradeDb) (userId : AccountId) (since : Instant)
    (sourceKey : String) : ℕ :=
  (db.trades.countP fun row =>
      row.userId = userId ∧ row.source = autoTradeSource ∧ since.timestamp ≤ row.openedAt) +
    db.positions.countP fun row =>
      row.userId = userId ∧ row.sourceKey = sourceKey ∧ row.isOpen ∧ since ≤ row.createdAt

/-- `load_auto_trade_realized_pnl_since`. -/
def loadAutoTradeRealizedPnlSince (db : AutoTradeDb) (userId : AccountId) (since : Instant) : ℚ :=
  ((db.trades.filter fun row =>
    row.userId = userId ∧ row.source = autoTradeSource ∧ since.timestamp ≤ row.closedAt).map
      AutoTradeRow.pnl).sum

/-- The book, the window and the broker that a worker builds for a user it has not met. -/
def restoredAccount (db : AutoTradeDb) (userId : AccountId) (now : Instant) : PaperAccount :=
  { broker := (MockBroker.new 100000).restoreRealizedPnl (db.loadAutoTradeRealizedPnlSince userId 0)
    positionManager := PositionManager.restore {}
      ((db.positionsOf userId).loadOpenPositions userId .paper autoSourceKey)
    riskWindow :=
      { tradesToday := db.loadAutoTradeEntriesSince userId now.dayStart autoSourceKey
        dailyPnl := db.loadAutoTradeRealizedPnlSince userId now.dayStart
        weeklyPnl := db.loadAutoTradeRealizedPnlSince userId now.weekStart
        riskDay := some now.timestamp.date
        riskWeek := some now.timestamp.isoWeek } }

/-! ## Section 3: Writes -/

/-- `persist_position`: overwrite the user's one open row, or insert. -/
def persistPosition (db : AutoTradeDb) (userId : AccountId) (now : Instant)
    (position : PositionRecord) : AutoTradeDb :=
  let isRow := fun row : AutoPositionRow =>
    decide (row.userId = userId) &&
      Db.isOpenRowOf position.symbol .paper autoSourceKey row.toPositionRow
  let row := Db.positionRow position .paper autoSourceKey
  if db.positions.any isRow then
    -- `created_at` stays what it was.
    { db with
      positions := db.positions.map fun old =>
        if isRow old then { old with toPositionRow := row } else old }
  else
    { db with
      positions := db.positions ++
        [{ toPositionRow := row
           userId := userId
           createdAt := now }] }

end AutoTradeDb

/-- What a closed trade made of its risk; `None` where there was no stop, or no risk. -/
def PositionRecord.rMultiple (p : PositionRecord) (pnl : ℚ) : Option ℚ :=
  let riskPerUnit := (p.stop.filter fun stop => stop ≠ 0).map fun stop => |p.averagePrice - stop|
  (riskPerUnit.filter fun risk => risk ≠ 0).map fun risk => pnl / |p.quantity| / risk

/-- The `trades` row of a close. `position` is what `snapshot` holds of it. -/
def autoTradeRow (userId : AccountId) (instrument : Instrument) (timeframe : String)
    (position : PositionRecord) (outcome : PaperTradeOutcome) (pnl : ℚ) (owner : StrategyRow)
    (openedVersion : ℕ) (openedAt closedAt : Timestamp) : AutoTradeRow :=
  { userId := userId
    instrumentId := instrument.id
    strategyId := owner.id
    strategyVersion := openedVersion
    executionMode := .paper
    direction := position.side
    entryPrice := numeric position.averagePrice
    exitPrice := outcome.exitPrice.map numeric
    quantity := numeric |position.quantity|
    stop := position.stop.map numeric
    target := position.target.map numeric
    pnl := numeric pnl
    rMultiple := (position.rMultiple pnl).map ratioColumn
    openedAt := openedAt
    closedAt := closedAt
    source := autoTradeSource
    strategy := owner.definition.name
    symbol := instrument.symbol
    timeframe := timeframe }

/-- `_opened_at` and `_opened_version`. -/
structure EntryRegistry where
  openedAt : Dict EngineKey Timestamp := Dict.empty
  openedVersion : Dict EngineKey ℕ := Dict.empty

namespace EntryRegistry

/-- What a created order leaves. -/
def stamp (r : EntryRegistry) (key : EngineKey) (openedAt : Timestamp) (version : ℕ) :
    EntryRegistry :=
  { openedAt := r.openedAt.set key openedAt
    openedVersion := r.openedVersion.set key version }

/-- What both `pop`s leave. -/
def pop (r : EntryRegistry) (key : EngineKey) : EntryRegistry :=
  { openedAt := r.openedAt.erase key
    openedVersion := r.openedVersion.erase key }

end EntryRegistry

/-! ## Section 4: The world -/

/-- `instruments`: a symbol belongs to one row, and keeps to it. -/
structure InstrumentMaster where
  symbolOf : String → Symbol
  unique : Function.Injective symbolOf

def InstrumentMaster.instrument (master : InstrumentMaster) (instrumentId : String) : Instrument :=
  ⟨instrumentId, master.symbolOf instrumentId⟩

/-- Positions of different users or instruments are under different keys of the books. -/
theorem InstrumentMaster.key_ne (master : InstrumentMaster) {userId userId' : AccountId}
    {instrumentId instrumentId' : String}
    (hne : (userId, instrumentId) ≠ (userId', instrumentId')) :
    (userId, master.symbolOf instrumentId) ≠ (userId', master.symbolOf instrumentId') := by
  intro heq
  obtain ⟨huser, hsymbol⟩ := Prod.mk.inj heq
  exact hne (by rw [huser, master.unique hsymbol])

/-- The commits of one candle, in the source's order. -/
inductive JournalWrite
  | position
  | riskEvent
  | audit
  | trade
  deriving DecidableEq, Repr

/-- A call of `_process`, and what it meets: the time since the last one, the user's row,
the halt, the lock, what the risk gate reads, and what fails. -/
structure ProcessCall where
  userId : AccountId
  strategyId : String
  instrumentId : String
  elapsed : ℕ := 0
  settings : AutoTradingSettings
  entriesAllowed : Bool := true
  lock : LockAnswer := .acquired
  tradeLockFailOpen : Bool := false
  killSwitch : KillSwitchState := {}
  elsewhere : List (Symbol × ℚ) := []
  correlation : Symbol → Option ℚ := fun _ => none
  liquidity : ℚ → Option Bool := fun _ => none
  readFails : Bool := false
  writeFails : Option JournalWrite := none

/-- An entry that was filled: whose it is, the candle, and the time on the clock. `starts`
tells the worker processes apart. -/
structure EntryMark where
  userId : AccountId
  strategyId : String
  version : ℕ
  openedAt : Timestamp
  filledAt : Instant
  starts : ℕ
  deriving DecidableEq, Repr

/-- The worker's memory, its rows and the clock. The last three fields are for the watcher:
the filled entries, the last one of each position, and the journaled trades, each with the
entry that opened its position. -/
structure WorkerWorld extends AutoTradeWorld where
  registry : EntryRegistry := {}
  db : AutoTradeDb := {}
  clock : Instant := 0
  starts : ℕ := 0
  entries : List EntryMark := []
  opener : Dict (AccountId × Symbol) EntryMark := Dict.empty
  journaled : List (Option EntryMark × AutoTradeRow) := []

inductive WorkerEvent
  | arrive (instrumentId timeframe : String) (candle : Candle)
  | edit (strategyId : String) (definition : StrategyDefinition)
  | load (strategyId : String)
  | process (call : ProcessCall)
  /-- The worker process ends, and another starts. -/
  | restart (elapsed : ℕ)

namespace WorkerWorld

/-! ## Section 5: The writes of one candle -/

/-- The strategy that a close is journaled against: the one stamped on the position, if its
row is there, and else the one that observed the close. -/
def ownerRow (w : WorkerWorld) (row : StrategyRow) (ownerId : String) : StrategyRow :=
  if ownerId = row.id then row
  -- `db.get` finds the row the pass has read, or reads it now.
  else ((w.loaded.get? ownerId).or (w.strategies.get? ownerId)).getD row

/-- The journal entry of a candle that reports a P&L on a position that was open before it. -/
def journalClose (w : WorkerWorld) (call : ProcessCall) (row : StrategyRow)
    (instrument : Instrument) (position : PositionRecord) (latest : Candle)
    (outcome : PaperTradeOutcome) (pnl : ℚ) : WorkerWorld × Bool :=
  let ownerId := position.strategyId.getD row.id
  let owner := w.ownerRow row ownerId
  let ownerKey : EngineKey := ⟨call.userId, ownerId, instrument.id⟩
  let openedAt := (w.registry.openedAt.get? ownerKey).getD latest.timestamp
  let openedVersion := (w.registry.openedVersion.get? ownerKey).getD owner.version
  let trade := autoTradeRow call.userId instrument row.definition.timeframe position outcome pnl
    owner openedVersion openedAt latest.timestamp
  let w := { w with registry := w.registry.pop ownerKey }
  if call.writeFails = some .trade then (w, true)
  else
    ({ w with
        db := { w.db with trades := w.db.trades ++ [trade] }
        journaled := w.journaled ++ [(w.opener.get? (call.userId, instrument.symbol), trade)] },
      false)

/-- The writes behind an `on_candle` that returns, up to the first that fails. `before` is the
position if it was open before the candle, `after` the record behind it. -/
def journal (w : WorkerWorld) (call : ProcessCall) (row : StrategyRow) (instrument : Instrument)
    (before after : Option PositionRecord) (latest : Candle) (outcome : PaperTradeOutcome) :
    WorkerWorld × Bool :=
  if after.isSome ∧ call.writeFails = some .position then (w, true)
  else
    let w := { w with
      db := after.elim w.db fun position => w.db.persistPosition call.userId w.clock position }
    if outcome.riskChecks.isSome ∧ call.writeFails = some .riskEvent then (w, true)
    else
      let w :=
        if outcome.orderCreated then
          { w with
            registry := w.registry.stamp ⟨call.userId, row.id, instrument.id⟩ latest.timestamp
              row.version }
        else w
      if (outcome.orderCreated ∨ outcome.riskRejectedReason.isSome) ∧
          call.writeFails = some .audit then (w, true)
      else
        match before, outcome.closedPositionPnl with
        | some position, some pnl => w.journalClose call row instrument position latest outcome pnl
        | _, _ => (w, false)

/-- The watcher writes a filled entry down. -/
def watched (w : WorkerWorld) (call : ProcessCall) (row : StrategyRow) (instrument : Instrument)
    (latest : Candle) (outcome : PaperTradeOutcome) : WorkerWorld :=
  if outcome.entryFilled then
    let mark : EntryMark :=
      { userId := call.userId
        strategyId := row.id
        version := row.version
        openedAt := latest.timestamp
        filledAt := w.clock
        starts := w.starts }
    { w with
      entries := w.entries ++ [mark]
      opener := w.opener.set (call.userId, instrument.symbol) mark }
  else w

/-! ## Section 6: A call, and a run -/

variable (master : InstrumentMaster) (analyze : Analysis)

def keyOf (call : ProcessCall) (row : StrategyRow) : EngineKey :=
  ⟨call.userId, row.id, call.instrumentId⟩

/-- What a call of `_process` reads from elsewhere. -/
def callEnv (w : WorkerWorld) (call : ProcessCall) : PassEnv :=
  { paper :=
      { now := w.clock + call.elapsed
        killSwitch := call.killSwitch
        elsewhere := call.elsewhere
        correlation := call.correlation
        liquidity := call.liquidity }
    settings := call.settings
    restored := w.db.restoredAccount call.userId (w.clock + call.elapsed)
    entriesAllowed := call.entriesAllowed
    lock := call.lock
    tradeLockFailOpen := call.tradeLockFailOpen }

/-- The engine that a call works on. -/
def engineOf (w : WorkerWorld) (call : ProcessCall) (row : StrategyRow) : PaperTradingEngine :=
  w.supervisor.engine (keyOf call row) row (master.instrument call.instrumentId) (w.callEnv call)

/-- And its account. -/
def accountOf (w : WorkerWorld) (call : ProcessCall) : PaperAccount :=
  w.supervisor.account call.userId (w.callEnv call)

/-- The stored candles of the strategy's timeframe. -/
def storedOf (w : WorkerWorld) (call : ProcessCall) (row : StrategyRow) : List Candle :=
  (w.stored call.instrumentId row.definition.timeframe).candles

/-- The environment of a call. A read that fails does so on the way to an entry, behind the
observation of the candle. -/
def passEnv (w : WorkerWorld) (call : ProcessCall) (row : StrategyRow) : PassEnv :=
  let engine := w.engineOf master call row
  let account := w.accountOf call
  { w.callEnv call with
    raised :=
      if call.readFails ∧ (engine.position account).any PositionRecord.isOpen = false then
        (w.storedOf call row).getLast?.map
          fun latest => (engine.orderManager, engine.observed account latest)
      else none }

/-- `timeframe_to_minutes` raises on the way. -/
def unsupported (w : WorkerWorld) (key : EngineKey) (timeframe : String) (latest : Candle) : Bool :=
  w.supervisor.lastCandleSeen.get? key ≠ some latest.timestamp ∧
    (timeframeToMinutes timeframe).toOption = none

/-- The call of `on_candle` that a call gets to, if it does. -/
def fedBy (w : WorkerWorld) (call : ProcessCall) (row : StrategyRow) :
    Option AutoTradeSupervisor.FedCandle :=
  (w.supervisor.process analyze (w.storedOf call row) call.userId row
    (master.instrument call.instrumentId) (w.passEnv master call row)).2

/-- What the call leaves before anything is written. -/
def unwritten (w : WorkerWorld) (call : ProcessCall) (row : StrategyRow) : WorkerWorld :=
  { w with
    toAutoTradeWorld := w.toAutoTradeWorld.process analyze call.userId row
      (master.instrument call.instrumentId) (w.passEnv master call row)
    clock := w.clock + call.elapsed }

/-- `_process` on a strategy as the pass read it: what it leaves, and whether it raises. -/
def processCall (w : WorkerWorld) (call : ProcessCall) (row : StrategyRow) :
    WorkerWorld × Bool :=
  let instrument := master.instrument call.instrumentId
  let before := ((w.engineOf master call row).position (w.accountOf call)).filter
    PositionRecord.isOpen
  let after := w.unwritten master analyze call row
  match w.fedBy master analyze call row with
  | none =>
    (after, (w.storedOf call row).getLast?.any
      (w.unsupported (keyOf call row) row.definition.timeframe))
  | some ⟨latest, engine, outcome⟩ =>
    match outcome with
    | .error _ => (after, true)
    | .ok outcome =>
      let position := (after.supervisor.accounts.get? call.userId).bind engine.position
      (after.watched call row instrument latest outcome).journal call row instrument before position
        latest outcome

def step (w : WorkerWorld) : WorkerEvent → WorkerWorld
  | .arrive instrumentId timeframe candle =>
    { w with
      toAutoTradeWorld := w.toAutoTradeWorld.step analyze (.arrive instrumentId timeframe candle) }
  | .edit strategyId definition =>
    { w with toAutoTradeWorld := w.toAutoTradeWorld.step analyze (.edit strategyId definition) }
  | .load strategyId =>
    { w with toAutoTradeWorld := w.toAutoTradeWorld.step analyze (.load strategyId) }
  | .process call =>
    match w.loaded.get? call.strategyId with
    | some row => (w.processCall master analyze call row).1
    | none => w
  | .restart elapsed =>
    { w with
      supervisor := {}
      registry := {}
      clock := w.clock + elapsed
      starts := w.starts + 1 }

end WorkerWorld

end SuperTrading
