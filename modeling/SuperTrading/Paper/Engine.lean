import SuperTrading.Backtest.Engine
import SuperTrading.Brokers.Mock
import SuperTrading.Trading.Execution
import SuperTrading.Logic.Runs

/-!
# Paper Trading Engine

`PaperTradingEngine.on_candle` of `app/paper/engine.py`: strategy, risk gate and paper
execution, one candle at a time. An engine trades one symbol; the broker, the position
book and the risk window belong to the account, and several engines may share them.

- **RiskWindow**: the day's and the week's counters
- **Engine**: what is the engine's own, and what is the account's
- **Orders**: through the state machine to the broker
- **on_candle**: mark, exit, or enter
- **A call that raises**: what it leaves behind
-/

namespace SuperTrading

open SuperTrading.Logic
open Smc (Candle)

/-! ## Section 1: The risk window -/

structure RiskWindow where
  tradesToday : ℕ := 0
  dailyPnl : ℚ := 0
  weeklyPnl : ℚ := 0
  repeatedRejections : ℕ := 0
  riskDay : Option ℤ := none
  riskWeek : Option ℤ := none
  deriving DecidableEq, Repr

namespace RiskWindow

/-- `roll`: the marks only ever move forward, and only a later one resets. They are the
calendar day and week where the timestamp is written. -/
def roll (w : RiskWindow) (now : Timestamp) (utcOffset : ℤ := 0) : RiskWindow :=
  let today := Timestamp.date (now + utcOffset)
  let thisWeek := Timestamp.isoWeek (now + utcOffset)
  let newDay := w.riskDay.any fun day => decide (day < today)
  let newWeek := w.riskWeek.any fun week => decide (week < thisWeek)
  { w with
    tradesToday := if newDay then 0 else w.tradesToday
    dailyPnl := if newDay then 0 else w.dailyPnl
    weeklyPnl := if newWeek then 0 else w.weeklyPnl
    riskDay := some ((w.riskDay.map fun day => max day today).getD today)
    riskWeek := some ((w.riskWeek.map fun week => max week thisWeek).getD thisWeek) }

/-- `daily_pnl += pnl` and `weekly_pnl += pnl`. -/
def realize (w : RiskWindow) (pnl : ℚ) : RiskWindow :=
  { w with
    dailyPnl := w.dailyPnl + pnl
    weeklyPnl := w.weeklyPnl + pnl }

/-- A new order's trade: a refused one counts as a rejection, any other ends the row. -/
def traded (w : RiskWindow) (status : OrderStatus) : RiskWindow :=
  { w with
    tradesToday := w.tradesToday + 1
    repeatedRejections := if status = .rejected then w.repeatedRejections + 1 else 0 }

end RiskWindow

/-! ## Section 2: The engine -/

/-- What the engines of one account share. -/
structure PaperAccount where
  broker : MockBroker
  positionManager : PositionManager := {}
  riskWindow : RiskWindow := {}

structure PaperTradingEngine where
  strategy : StrategyDefinition
  symbol : Symbol
  accountId : AccountId := "paper-account"
  strategyId : Option String := none
  limits : RiskLimits := {}
  candles : List Candle := []
  orderManager : OrderManager := {}

/-- What one call reads from elsewhere: the clock, the kill switch, and the database's
exposure, correlations and volumes, none of them without a database. -/
structure PaperEnv where
  now : Instant := 0
  killSwitch : KillSwitchState := {}
  elsewhere : List (Symbol × ℚ) := []
  correlation : Symbol → Option ℚ := fun _ => none
  liquidity : ℚ → Option Bool := fun _ => none

inductive ExitReason
  | stopLoss
  | takeProfit
  deriving DecidableEq, Repr

structure PaperTradeOutcome where
  signal : Option StrategyEvaluationResult
  orderCreated : Bool := false
  riskRejectedReason : Option String := none
  riskFailedCheck : Option String := none
  riskChecks : Option (List (String × Bool)) := none
  closedPositionPnl : Option ℚ := none
  exitReason : Option ExitReason := none
  exitPrice : Option ℚ := none
  orderStatus : Option OrderStatus := none

namespace PaperTradingEngine

/-- The engine's position. -/
def position (e : PaperTradingEngine) (a : PaperAccount) : Option PositionRecord :=
  a.positionManager.get e.accountId e.symbol

/-! ## Section 3: Orders -/

/-- `_apply_fill_to_position` divides by the new quantity when a fill is on the side of
the position it meets: what `place_order` raises for a fill of nothing into a position of
nothing. -/
def dividesByZero (broker : MockBroker) (request : OrderRequest) : Bool :=
  let result := (broker.placeOrder request).1
  (broker.positions.get? request.symbol).any fun position =>
    let signedQty := request.direction.signed result.filledQuantity
    decide ((result.status = .filled ∨ result.status = .partiallyFilled) ∧
      (0 < position.quantity ↔ 0 < signedQty) ∧ position.quantity + signedQty = 0)

/-- `create_order`, and for a new key the way to the broker: the order as it ends, and
whether it is new. -/
def submitMarket (e : PaperTradingEngine) (a : PaperAccount) (now : Instant) (key : String)
    (direction : Direction) (quantity : ℚ) :
    Except String (OrderRecord × Bool × PaperTradingEngine × PaperAccount) :=
  match e.orderManager.createOrder now key e.accountId e.symbol direction .market quantity with
  | (order, false, _) => .ok (order, false, e, a)
  | (order, true, orders) =>
    if dividesByZero a.broker order.request then .error "float division by zero"
    else do
      let orders ← orders.transition now order.id .validating
      let orders ← orders.transition now order.id .riskApproved
      let execution ← ExecutionEngine.submit ⟨a.broker, orders, a.positionManager⟩ now order.id
      let e := { e with orderManager := execution.orderManager }
      let a :=
        { a with
          broker := execution.broker
          positionManager := execution.positionManager }
      -- Read again: the engine moved the stored record.
      match e.orderManager.get order.id with
      | none => .error s!"Unknown order {order.id}"
      | some finalOrder => return (finalOrder, true, e, a)

/-- The key of an entry. -/
def entryKey (e : PaperTradingEngine) (candle : Candle) : String :=
  s!"{e.accountId}:{e.strategy.name}:{candle.timestamp.isoformat candle.utcOffset}"

/-- The key of an exit. -/
def closeKey (e : PaperTradingEngine) (candle : Candle) : String :=
  s!"{e.accountId}:{e.symbol}:close:{candle.timestamp.isoformat candle.utcOffset}"

/-! ## Section 4: on_candle -/

/-- The account as the candle finds it: the window rolled, the quote set, the position
marked. -/
def observed (e : PaperTradingEngine) (a : PaperAccount) (candle : Candle) : PaperAccount :=
  { broker := a.broker.setQuote e.symbol candle.close true
    positionManager := a.positionManager.markToMarket e.accountId e.symbol candle.close
    riskWindow := a.riskWindow.roll candle.timestamp candle.utcOffset }

/-- The level of the position that the candle hits, and which side of the bracket it is. -/
def trigger (position : PositionRecord) (candle : Candle) : Option (ℚ × ExitReason) :=
  let stop := position.stop.filter fun stop =>
    if position.isLong then candle.low ≤ stop else stop ≤ candle.high
  let target := position.target.filter fun target =>
    if position.isLong then target ≤ candle.high else candle.low ≤ target
  -- The stop comes first.
  match stop, target with
  | some stop, _ => some (stop, .stopLoss)
  | none, some target => some (target, .takeProfit)
  | none, none => none

/-- `_maybe_exit`: the outcome of a candle that finds the position open. -/
def maybeExit (e : PaperTradingEngine) (a : PaperAccount) (now : Instant)
    (position : PositionRecord) (candle : Candle) :
    Except String (PaperTradeOutcome × PaperTradingEngine × PaperAccount) :=
  match trigger position candle with
  | none => .ok ({ signal := none }, e, a)
  | some (triggerPrice, exitReason) => do
    let a := { a with broker := a.broker.setQuote e.symbol triggerPrice true }
    let (order, _, e, a) ← e.submitMarket a now (e.closeKey candle)
      (if position.isLong then .short else .long) |position.quantity|
    -- The record is the book's own: it shows what the fill realized.
    let pnl := (e.position a).elim 0 PositionRecord.realizedPnl - position.realizedPnl
    return (
      { signal := none
        closedPositionPnl := some pnl
        exitReason := some exitReason
        exitPrice := order.averageFillPrice },
      e, { a with riskWindow := a.riskWindow.realize pnl })

/-- The size of an entry: by the smaller of what the strategy asks for and what the
account allows. -/
def entryQuantity (e : PaperTradingEngine) (a : PaperAccount) (signal : Signal) : ℚ :=
  calculatePositionSize a.broker.getAccount.balance
    (min e.strategy.risk.riskPercent e.limits.riskPerTradePct) signal.entry signal.stop
    e.limits.maxPositionSize

/-- `candles[-1]` against `candles[-2]`, as a percentage. -/
def recentPriceJumpPct (candles : List Candle) : ℚ :=
  match candles.reverse with
  | last :: previous :: _ =>
    if previous.close = 0 then 0 else |last.close - previous.close| / previous.close * 100
  | _ => 0

/-- The proposal the risk engine judges. -/
def proposal (e : PaperTradingEngine) (a : PaperAccount) (env : PaperEnv) (signal : Signal) :
    TradeRiskProposal :=
  let openPositions := a.positionManager.openPositions e.accountId
  let quantity := e.entryQuantity a signal
  let others := signedNotionalsExcluding openPositions e.symbol ++
    env.elsewhere.filter (fun other => other.1 ≠ e.symbol)
  { accountId := e.accountId
    strategyId := e.strategyId
    entry := signal.entry
    stop := signal.stop
    accountBalance := a.broker.getAccount.balance
    openPositions := openPositions.length
    tradesToday := a.riskWindow.tradesToday
    dailyPnl := a.riskWindow.dailyPnl
    weeklyPnl := a.riskWindow.weeklyPnl
    currentExposure := grossExposure openPositions env.elsewhere
    -- What this strategy has open, across every symbol it trades.
    strategyAllocation := ((openPositions.filter fun p =>
      e.strategyId.isSome ∧ p.strategyId = e.strategyId).map fun p =>
        |p.quantity| * p.averagePrice).sum
    marketDataAgeSeconds := some 0
    brokerHealthy := a.broker.healthy
    repeatedRejections := a.riskWindow.repeatedRejections
    recentPriceJumpPct := recentPriceJumpPct e.candles
    correlatedExposure :=
      correlatedExposure e.symbol 0 others env.correlation e.limits.correlationThreshold
    liquidityAcceptable := env.liquidity quantity
    proposedQuantity := some quantity }

/-- The decision on the proposal. -/
def decision (e : PaperTradingEngine) (a : PaperAccount) (env : PaperEnv) (signal : Signal) :
    RiskDecisionResult :=
  RiskEngine.evaluate e.limits env.killSwitch (e.proposal a env signal)

/-- The fresh position takes the signal's bracket and the strategy's name. -/
def attributed (e : PaperTradingEngine) (a : PaperAccount) (signal : Signal) : PaperAccount :=
  match e.position a with
  | none => a
  | some position =>
    let position :=
      { position with
        stop := some signal.stop
        target := some signal.target
        strategyId := e.strategyId }
    { a with positionManager := a.positionManager.put position }

/-- The rest of a candle whose range contains the entry of a signal: the gate, and the
order. -/
def enter (e : PaperTradingEngine) (a : PaperAccount) (env : PaperEnv) (candle : Candle)
    (result : StrategyEvaluationResult) (signal : Signal) :
    Except String (PaperTradeOutcome × PaperTradingEngine × PaperAccount) :=
  let decision := e.decision a env signal
  let riskChecks := decision.checks.map fun check => (check.name, check.passed)
  if decision.approved = false then
    .ok (
      { signal := some result
        riskRejectedReason := decision.reason
        riskFailedCheck := decision.failedChecks.head?.map RiskCheck.name
        riskChecks := some riskChecks },
      e, a)
  else do
    -- Fill at the level the trade was sized and bracketed around.
    let quantity := e.entryQuantity a signal
    let a := { a with broker := a.broker.setQuote e.symbol signal.entry true }
    let (order, created, e, a) ← e.submitMarket a env.now (e.entryKey candle) signal.side quantity
    if created then
      let a := { a with riskWindow := a.riskWindow.traded order.status }
      return (
        { signal := some result
          orderCreated := true
          riskChecks := some riskChecks
          orderStatus := some order.status },
        e, e.attributed a signal)
    else
      return ({ signal := some result, riskChecks := some riskChecks }, e, a)

variable (analyze : Analysis)

/-- `on_candle`. -/
def onCandle (e : PaperTradingEngine) (a : PaperAccount) (env : PaperEnv) (candle : Candle) :
    Except String (PaperTradeOutcome × PaperTradingEngine × PaperAccount) :=
  let a := e.observed a candle
  let e := { e with candles := e.candles ++ [candle] }
  match (e.position a).filter PositionRecord.isOpen with
  | some position => e.maybeExit a env.now position candle
  | none =>
    if e.candles.length < 3 then .ok ({ signal := none }, e, a)
    else
      let result := e.strategy.evaluate (analyze e.strategy e.candles)
      match result.signal with
      | none => .ok ({ signal := some result }, e, a)
      | some signal =>
        -- The entry names a level: it fills only if the candle traded there.
        if candle.low ≤ signal.entry ∧ signal.entry ≤ candle.high then
          e.enter a env candle result signal
        else .ok ({ signal := some result }, e, a)

/-! ## Section 5: A call that raises -/

/-- The order a new key makes. -/
def newOrder (e : PaperTradingEngine) (now : Instant) (key : String) (direction : Direction)
    (quantity : ℚ) : OrderRecord :=
  e.orderManager.newOrder now key e.accountId e.symbol direction .market quantity none

/-- The account with a price of the engine's symbol as the last print. -/
def pinned (e : PaperTradingEngine) (a : PaperAccount) (price : ℚ) : PaperAccount :=
  { a with broker := a.broker.setQuote e.symbol price true }

/-- What a call that raises leaves. An order of nothing is in the broker's book and in the
engine's, where it was sent and not answered; no position has moved. -/
def abandoned (e : PaperTradingEngine) (a : PaperAccount) (env : PaperEnv) (candle : Candle) :
    PaperTradingEngine × PaperAccount :=
  let a := e.observed a candle
  let e := { e with candles := e.candles ++ [candle] }
  match fillableSignal analyze e.strategy e.candles candle with
  | none => (e, a)
  | some signal =>
    let order := e.newOrder env.now (e.entryKey candle) signal.side (e.entryQuantity a signal)
    let a := e.pinned a signal.entry
    ({ e with
        orderManager := (e.orderManager.insert order).update order.id
          (fun order => ((order.moved env.now .validating "").moved env.now .riskApproved "").moved
            env.now .submitted "sent to broker") fun _ => rfl },
      { a with
        broker := { a.broker with
          nextId := a.broker.nextId + 1
          orders := (a.broker.placeOrder order.request).2.orders } })

/-! ## Section 6: What a call keeps of the engine -/

variable {analyze}
variable {e e' : PaperTradingEngine} {a a' : PaperAccount} {candle : Candle}

/-- An order changes the engine's orders, and nothing else of it. -/
theorem submitMarket_engine {now : Instant} {key : String} {direction : Direction} {quantity : ℚ}
    {order : OrderRecord} {created : Bool}
    (h : e.submitMarket a now key direction quantity = .ok (order, created, e', a')) :
    ∃ orders, e' = { e with orderManager := orders } := by
  unfold submitMarket at h
  split at h
  · cases h
    exact ⟨_, rfl⟩
  · rename_i newOrder orders _
    split at h
    · cases h
    · obtain ⟨orders₁, -, h⟩ := bind_ok h
      obtain ⟨orders₂, -, h⟩ := bind_ok h
      obtain ⟨execution, -, h⟩ := bind_ok h
      dsimp only at h
      split at h
      · cases h
      · cases h
        exact ⟨_, rfl⟩

theorem maybeExit_engine {now : Instant} {p : PositionRecord} {outcome : PaperTradeOutcome}
    (h : e.maybeExit a now p candle = .ok (outcome, e', a')) :
    ∃ orders, e' = { e with orderManager := orders } := by
  unfold maybeExit at h
  split at h
  · cases h
    exact ⟨_, rfl⟩
  · obtain ⟨⟨order, created, e₁, a₁⟩, hsubmit, h⟩ := bind_ok h
    obtain ⟨orders, rfl⟩ := submitMarket_engine hsubmit
    cases h
    exact ⟨orders, rfl⟩

theorem enter_engine {env : PaperEnv} {result : StrategyEvaluationResult} {signal : Signal}
    {outcome : PaperTradeOutcome}
    (h : e.enter a env candle result signal = .ok (outcome, e', a')) :
    ∃ orders, e' = { e with orderManager := orders } := by
  unfold enter at h
  dsimp only at h
  split at h
  · cases h
    exact ⟨_, rfl⟩
  · obtain ⟨⟨order, created, e₁, a₁⟩, hsubmit, h⟩ := bind_ok h
    obtain ⟨orders, rfl⟩ := submitMarket_engine hsubmit
    dsimp only at h
    split at h <;> cases h <;> exact ⟨orders, rfl⟩

/-- A call that returns has appended its candle, and changed the orders. -/
theorem onCandle_engine {env : PaperEnv} {outcome : PaperTradeOutcome}
    (h : e.onCandle analyze a env candle = .ok (outcome, e', a')) :
    ∃ orders, e' = { e with
      candles := e.candles ++ [candle]
      orderManager := orders } := by
  unfold onCandle at h
  dsimp only at h
  split at h
  · exact maybeExit_engine h
  · split at h
    · cases h
      exact ⟨_, rfl⟩
    · split at h
      · cases h
        exact ⟨_, rfl⟩
      · split at h
        · exact enter_engine h
        · cases h
          exact ⟨_, rfl⟩

/-- Without a signal the account was only observed. -/
theorem abandoned_quiet
    (h : fillableSignal analyze e.strategy (e.candles ++ [candle]) candle = none) (a : PaperAccount)
    (env : PaperEnv) :
    (e.abandoned analyze a env candle).2 = e.observed a candle := by
  simp only [abandoned, h]

/-- With one, the quote was pinned, and the broker's order book grew. -/
theorem abandoned_signal {signal : Signal}
    (h : fillableSignal analyze e.strategy (e.candles ++ [candle]) candle = some signal)
    (a : PaperAccount) (env : PaperEnv) :
    ∃ nextId orders, (e.abandoned analyze a env candle).2 =
      { e.observed a candle with
        broker := { (e.observed a candle).broker.setQuote e.symbol signal.entry true with
          nextId := nextId
          orders := orders } } := by
  simp only [abandoned, h, pinned]
  exact ⟨_, _, rfl⟩

/-- A call that raises has appended its candle, and at most sent an order. -/
theorem abandoned_engine (analyze : Analysis) (e : PaperTradingEngine) (a : PaperAccount)
    (env : PaperEnv) (candle : Candle) :
    ∃ orders, (e.abandoned analyze a env candle).1 = { e with
      candles := e.candles ++ [candle]
      orderManager := orders } := by
  unfold abandoned
  dsimp only
  split <;> exact ⟨_, rfl⟩

/-- Its positions are those of the account as the candle found it. -/
theorem abandoned_positionManager (analyze : Analysis) (e : PaperTradingEngine) (a : PaperAccount)
    (env : PaperEnv) (candle : Candle) :
    (e.abandoned analyze a env candle).2.positionManager =
      (e.observed a candle).positionManager := by
  unfold abandoned
  dsimp only
  split <;> rfl

end PaperTradingEngine

end SuperTrading
