import SuperTrading.Risk.Engine
import SuperTrading.Trading.Execution
import SuperTrading.Trading.Persistence

/-!
# The User Trading Stack

`_UserTradingStack` and `_stack_for` of `app/api/orders.py`, and what
`POST /orders` and `POST /options/execute` share on it.

- **Stack**: the engine, the risk counters and the windows they cover
- **World**: a stack and the committed rows behind it
- **Rebuild**: the stack a restarted process makes of the rows
- **Entering**: create an order, drive it through the engine, update the counters
- **Journal**: what a fill realized
-/

namespace SuperTrading

open SuperTrading.Logic

/-! ## Section 1: Stack and world -/

/-- `_UserTradingStack`. -/
structure Stack (β : Type) extends ExecutionEngine β where
  userId : AccountId
  limits : RiskLimits := {}
  tradesToday : ℕ := 0
  dailyPnl : ℚ := 0
  weeklyPnl : ℚ := 0
  repeatedRejections : ℕ := 0
  riskDay : Option ℕ := none
  riskWeek : Option ℕ := none

/-- One user: the stack in memory and the rows in the database. -/
structure World (β : Type) where
  stack : Stack β
  db : Db := {}

/-- An `HTTPException`, or the 500 an uncaught exception turns into. -/
structure HttpError where
  status : ℕ
  detail : String
  deriving DecidableEq, Repr

/-- What a request leaves: the response, the world, the risk decision that was
recorded, and the reason handed to `halt_account`, if it was called. -/
structure Reply (β α : Type) where
  answer : Except HttpError α
  world : World β
  decision : Option RiskDecisionResult := none
  halted : Option String := none

/-- `_execution_mode_for`. -/
def executionModeFor (β : Type) [Broker β] : ExecutionMode :=
  if Broker.isMock β then .paper else .live

namespace Stack

/-- `_roll_risk_window`. -/
def rollRiskWindow {β : Type} (s : Stack β) (now : Instant) : Stack β :=
  -- A window that was never set is adopted, not reset.
  let newDay := s.riskDay.isSome ∧ s.riskDay ≠ some now.date
  let newWeek := s.riskWeek.isSome ∧ s.riskWeek ≠ some now.isoWeek
  { s with
    tradesToday := if newDay then 0 else s.tradesToday
    dailyPnl := if newDay then 0 else s.dailyPnl
    weeklyPnl := if newWeek then 0 else s.weeklyPnl
    riskDay := some now.date
    riskWeek := some now.isoWeek }

variable {β : Type} [Broker β]

/-- The stack's position in a symbol. -/
def position (s : Stack β) (symbol : Symbol) : Option PositionRecord :=
  s.positionManager.get s.userId symbol

/-- The signed quantity of the stack's position in a symbol. -/
def holding (s : Stack β) (symbol : Symbol) : ℚ := s.positionManager.quantity s.userId symbol

omit [Broker β] in
theorem holding_of_position {s : Stack β} {symbol : Symbol} {p : PositionRecord}
    (h : s.position symbol = some p) : s.holding symbol = p.quantity := by
  show (s.position symbol).elim 0 _ = _
  rw [h]
  rfl

/-- Does an order on this side oppose the open position of its symbol? -/
def opposes (s : Stack β) (symbol : Symbol) (direction : Direction) : Bool :=
  match s.position symbol with
  | none => false
  | some p => p.isOpen && p.isLong != (direction == .long)

/-- `set_quote`, for a stack that trades against the mock broker. -/
def seedQuote (s : Stack β) (symbol : Symbol) (ltp : ℚ) (isMarketPrint : Bool) : Stack β :=
  if Broker.isMock β then { s with broker := Broker.setQuote s.broker symbol ltp isMarketPrint }
  else s

/-! ## Section 2: Rebuild -/

/-- The building branch of `_stack_for`: positions, order index, counters and the
mock broker's cash come back from the rows. -/
def build (userId : AccountId) (broker : β) (db : Db) (now : Instant) : Stack β :=
  let mode := executionModeFor β
  -- The next order id is past every stored one.
  let orders : OrderManager := { nextId := (db.orders.map fun row => row.id + 1).foldl max 0 }
  { broker :=
      if Broker.isMock β then Broker.restoreRealizedPnl broker (db.loadRealizedPnlSince mode 0)
      else broker
    orderManager :=
      orders.restore (db.loadRecentOrders userId mode (now - orderRehydrationWindow))
    positionManager :=
      PositionManager.restore {} (db.loadOpenPositions userId mode manualSourceKey)
    userId := userId
    tradesToday := db.loadOrdersPlacedSince mode now.dayStart
    dailyPnl := db.loadRealizedPnlSince mode now.dayStart
    weeklyPnl := db.loadRealizedPnlSince mode now.weekStart
    riskDay := some now.date
    riskWeek := some now.isoWeek }

end Stack

/-- The process restarts, and the first request after it builds the stack anew. -/
def World.rebuild {β : Type} [Broker β] (w : World β) (now : Instant) : World β :=
  { w with stack := Stack.build w.stack.userId (Broker.reconnect w.stack.broker) w.db now }

namespace Stack

variable {β : Type} [Broker β]

/-! ## Section 3: Entering an order -/

/-- The part of both endpoints that runs only for a new order: through the state
machine to RISK_APPROVED, to the broker, and counted. -/
def submitNew (s : Stack β) (now : Instant) (orderId : OrderId) (approvedDetail : String) :
    Except String (Stack β) := do
  -- CREATED, VALIDATING, RISK_APPROVED; the engine takes it from there.
  let orders ← s.orderManager.transition now orderId .validating
  let orders ← orders.transition now orderId .riskApproved approvedDetail
  let engine ←
    ExecutionEngine.submit { s.toExecutionEngine with orderManager := orders } now orderId
  return { s with
    toExecutionEngine := engine
    tradesToday := s.tradesToday + 1 }

/-- `create_order`, then `submitNew` if the key was new: the order as it ends,
whether it is new, and the stack. Consecutive broker rejections are counted, and
the count starts over with any other end of a new order. -/
def enterOrder (s : Stack β) (now : Instant) (idempotencyKey : String) (symbol : Symbol)
    (direction : Direction) (orderType : OrderType) (quantity : ℚ) (price : Option ℚ)
    (approvedDetail : String) : Except String (OrderRecord × Bool × Stack β) :=
  match s.orderManager.createOrder now idempotencyKey s.userId symbol direction orderType quantity
    price with
  | (order, false, _) => .ok (order, false, s)
  | (order, true, orders) => do
    let s ← submitNew { s with orderManager := orders } now order.id approvedDetail
    -- Read again: the engine moved the stored record.
    match s.orderManager.get order.id with
    | none => .error s!"Unknown order {order.id}"
    | some finalOrder =>
      return (finalOrder, true,
        { s with
          repeatedRejections :=
            if finalOrder.status = .rejected then s.repeatedRejections + 1 else 0 })

/-! ## Section 4: Entering, in closed form -/

/-- The order that a new key makes. -/
def newOrder (s : Stack β) (now : Instant) (idempotencyKey : String) (symbol : Symbol)
    (direction : Direction) (orderType : OrderType) (quantity : ℚ) (price : Option ℚ) :
    OrderRecord :=
  s.orderManager.newOrder now idempotencyKey s.userId symbol direction orderType quantity price

/-- The stack after a new order went to the broker and came back. -/
def entered (s : Stack β) (now : Instant) (order : OrderRecord) (approvedDetail : String) :
    Stack β :=
  let placed := Broker.placeOrder s.broker order.request
  { s with
    broker := placed.2
    orderManager := (s.orderManager.insert order).update order.id
      (fun order => order.finished now approvedDetail placed.1) fun _ => OrderRecord.finished_id ..
    positionManager := s.positionManager.answered order placed.1
    tradesToday := s.tradesToday + 1
    repeatedRejections :=
      if settledStatus order.quantity placed.1 = .rejected then s.repeatedRejections + 1 else 0 }

/-- A key that was seen enters nothing. -/
theorem enterOrder_known {s : Stack β} {key : String} {order : OrderRecord}
    (h : s.orderManager.lookup key = some order) (now : Instant) (symbol : Symbol)
    (direction : Direction) (orderType : OrderType) (quantity : ℚ) (price : Option ℚ)
    (detail : String) :
    s.enterOrder now key symbol direction orderType quantity price detail =
      .ok (order, false, s) := by
  simp [enterOrder, OrderManager.createOrder, h]

/-- A new key enters one order, and nothing on the way raises. -/
theorem enterOrder_new {s : Stack β} {key : String} (h : s.orderManager.lookup key = none)
    (now : Instant) (symbol : Symbol) (direction : Direction) (orderType : OrderType)
    (quantity : ℚ) (price : Option ℚ) (detail : String) :
    let order := s.newOrder now key symbol direction orderType quantity price
    s.enterOrder now key symbol direction orderType quantity price detail =
      .ok (order.finished now detail (Broker.placeOrder s.broker order.request).1, true,
        s.entered now order detail) := by
  intro order
  obtain ⟨hcreate, ⟨validating, approved, hvalidating, happroved, hsubmit⟩, hget⟩ :=
    ExecutionEngine.submit_new s.toExecutionEngine h now s.userId symbol direction orderType
      quantity price detail
  unfold enterOrder submitNew
  rw [hcreate]
  simp only [hvalidating, happroved, hsubmit, hget, bind, Except.bind, pure, Except.pure,
    OrderRecord.finished_status]
  rfl

/-- A new order teaches the index its own key. -/
theorem lookup_entered (s : Stack β) (now : Instant) (key : String) (symbol : Symbol)
    (direction : Direction) (orderType : OrderType) (quantity : ℚ) (price : Option ℚ)
    (detail : String) (key' : String) :
    let order := s.newOrder now key symbol direction orderType quantity price
    (s.entered now order detail).orderManager.lookup key' =
      if key = key' then
        some (order.finished now detail (Broker.placeOrder s.broker order.request).1)
      else s.orderManager.lookup key' := by
  intro order
  have hinsert : (s.orderManager.insert order).lookup key' =
      if order.idempotencyKey = key' then some order else s.orderManager.lookup key' :=
    OrderManager.lookup_insert_of_new rfl key'
  have hkey : order.idempotencyKey = key := rfl
  simp only [entered, OrderManager.lookup_update, hinsert, hkey]
  by_cases h : key = key'
  · simp [h]
  · rw [if_neg h, if_neg h]
    -- What an older key names has an older id.
    cases hold : s.orderManager.lookup key' with
    | none => rfl
    | some old =>
      have hid : old.id ≠ order.id := by
        obtain ⟨i, -, hget⟩ := Option.bind_eq_some_iff.mp hold
        have hlt := s.orderManager.fresh i old hget
        rw [s.orderManager.stored i old hget]
        exact hlt.ne
      simp [hid]

/-- The status in which an order ends: that of the order its key already names, or
what the broker's answer to a new one settles. -/
def orderEnd (s : Stack β) (now : Instant) (idempotencyKey : String) (symbol : Symbol)
    (direction : Direction) (orderType : OrderType) (quantity : ℚ) (price : Option ℚ) :
    OrderStatus :=
  match s.orderManager.lookup idempotencyKey with
  | some order => order.status
  | none =>
    let order := s.newOrder now idempotencyKey symbol direction orderType quantity price
    settledStatus quantity (Broker.placeOrder s.broker order.request).1

/-- Entering an order never raises, and ends it in its `orderEnd`. -/
theorem enterOrder_ok (s : Stack β) (now : Instant) (key : String) (symbol : Symbol)
    (direction : Direction) (orderType : OrderType) (quantity : ℚ) (price : Option ℚ)
    (detail : String) :
    ∃ order created s',
      s.enterOrder now key symbol direction orderType quantity price detail =
        .ok (order, created, s') ∧
      order.status = s.orderEnd now key symbol direction orderType quantity price := by
  unfold orderEnd
  cases h : s.orderManager.lookup key with
  | some order => exact ⟨_, _, _, enterOrder_known h .., rfl⟩
  | none => exact ⟨_, _, _, enterOrder_new h .., OrderRecord.finished_status ..⟩

/-! ## Section 5: The journal -/

/-- What the call realized on the position. -/
def realizedDelta (before : Option PositionRecord) (after : PositionRecord) : ℚ :=
  after.realizedPnl - before.elim 0 PositionRecord.realizedPnl

/-- Count and journal what a fill realized on a position that was there before. -/
def journal (s : Stack β) (db : Db) (now : Instant) (before : Option PositionRecord)
    (after : PositionRecord) (order : OrderRecord) (stop target : Option ℚ) : Stack β × Db :=
  -- A position that was not there before cannot have realized anything.
  let realized := realizedDelta before after
  match before with
  | none => (s, db)
  | some before =>
    if realized ≠ 0 then
      ({ s with
          dailyPnl := s.dailyPnl + realized
          weeklyPnl := s.weeklyPnl + realized },
        db.recordTrade now after.symbol (if before.isLong then .long else .short)
          before.averagePrice order.averageFillPrice
          (min order.filledQuantity |before.quantity|) realized stop target (executionModeFor β))
    else (s, db)

end Stack

end SuperTrading
