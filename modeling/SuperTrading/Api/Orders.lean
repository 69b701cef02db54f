import SuperTrading.Api.Stack
import SuperTrading.Trading.ProtectiveStops

/-!
# POST /orders

`place_order` of `app/api/orders.py`, cut at its await points so that a process
that stops between two of them leaves what was durable there.

- **Request**: `PlaceOrderRequest` and its validation
- **Gate**: everything up to the risk decision
- **Settlement**: the order, the position's stop, the rows
- **Cancelling**: `cancel_order`
- **Stops of the process**: what a call interrupted at an await point leaves
-/

namespace SuperTrading

/-! ## Section 1: The request -/

/-- `_MAX_PRICE`. -/
def maxPrice : ℚ := 10 ^ 12

/-- A `PlaceOrderRequest` that passed validation. -/
structure PlaceOrderRequest where
  symbol : Symbol
  direction : Direction
  orderType : OrderType := .market
  entry : ℚ
  stop : ℚ
  price : Option ℚ := none
  entry_range : 0 < entry ∧ entry < maxPrice
  stop_range : 0 < stop ∧ stop < maxPrice
  price_range : ∀ p ∈ price, 0 < p ∧ p < maxPrice
  executable : orderType = .market ∨ orderType = .limit ∧ price.isSome

/-- A 422: a field out of its range, or the text of the model validator. -/
inductive ValidationError
  | outOfRange (field : String)
  | unsupported (message : String)
  deriving DecidableEq, Repr

/-- What `_reject_order_types_this_platform_cannot_execute` says of an order that is
neither MARKET nor LIMIT with a price. -/
def unexecutableMessage (orderType : OrderType) : String :=
  if orderType = .limit then
    "order_type=LIMIT requires a positive `price` (the limit price)."
  else
    s!"order_type={orderType.value} is not supported yet: its trigger price cannot be "
      ++ "carried through to the broker. Use MARKET, or LIMIT with a `price`."

namespace PlaceOrderRequest

/-- Validate the fields of a request. -/
def validate (symbol : Symbol) (direction : Direction) (orderType : OrderType) (entry stop : ℚ)
    (price : Option ℚ) : Except ValidationError PlaceOrderRequest :=
  if hentry : 0 < entry ∧ entry < maxPrice then
    if hstop : 0 < stop ∧ stop < maxPrice then
      if hprice : ∀ p ∈ price, 0 < p ∧ p < maxPrice then
        if hexec : orderType = .market ∨ orderType = .limit ∧ price.isSome then
          .ok ⟨symbol, direction, orderType, entry, stop, price, hentry, hstop, hprice, hexec⟩
        else .error (.unsupported (unexecutableMessage orderType))
      else .error (.outOfRange "price")
    else .error (.outOfRange "stop")
  else .error (.outOfRange "entry")

theorem range_hundred : 0 < (100 : ℚ) ∧ 100 < maxPrice := by decide +kernel

theorem range_ninetyFive : 0 < (95 : ℚ) ∧ 95 < maxPrice := by decide +kernel

/-- A MARKET request. -/
def market (symbol : Symbol) (direction : Direction) (entry stop : ℚ)
    (entry_range : 0 < entry ∧ entry < maxPrice := by
      first | exact PlaceOrderRequest.range_hundred | decide +kernel)
    (stop_range : 0 < stop ∧ stop < maxPrice := by
      first | exact PlaceOrderRequest.range_ninetyFive | decide +kernel) : PlaceOrderRequest where
  symbol := symbol
  direction := direction
  entry := entry
  stop := stop
  entry_range := entry_range
  stop_range := stop_range
  price_range := by simp
  executable := Or.inl rfl

/-- `payload.price if payload.order_type is OrderType.LIMIT else payload.entry`:
the price the order will fill at. -/
def fillPrice (r : PlaceOrderRequest) : ℚ :=
  if r.orderType = .limit then r.price.getD r.entry else r.entry

/-- The idempotency key: the request, spelled out. -/
def idempotencyKey (r : PlaceOrderRequest) (userId : AccountId) : String :=
  s!"{userId}:{r.symbol}:{r.direction.value}:{formatFloat r.entry}:{formatFloat r.stop}"
    ++ s!":{formatOptional r.price}"

theorem fillPrice_pos (r : PlaceOrderRequest) : 0 < r.fillPrice := by
  unfold fillPrice
  split
  · cases hp : r.price with
    | none => exact r.entry_range.1
    | some p => exact (r.price_range p hp).1
  · exact r.entry_range.1

end PlaceOrderRequest

/-! ## Section 2: The gate -/

/-- What one call reads from outside the stack: the clock, the database's other
tables and redis. `liquidity` is `assess_equity_liquidity` of a quantity. -/
structure CallEnv where
  now : Instant
  instrumentActive : Bool := true
  haltReason : Option String := none
  elsewhere : List (Symbol × ℚ) := []
  correlation : Symbol → Option ℚ := fun _ => none
  liquidity : ℚ → Option Bool := fun _ => none
  priceAgeSeconds : Option ℚ := none
  priceJumpPct : Option ℚ := none
  killSwitch : KillSwitchState := {}

def CallEnv.haltText (env : CallEnv) : String := env.haltReason.getD ""

namespace Stack

variable {β : Type} [Broker β]

/-- `_market_data_age_for`. -/
def marketDataAge (_ : Stack β) (ageSeconds : Option ℚ) : Option ℚ :=
  match ageSeconds with
  | some age => some age
  | none => if Broker.isMock β then some 0 else none

/-- The quantity of the order: sized from the balance, and clamped to what is open
if it only reduces. A budget that cannot size an exit closes the position. -/
def orderQuantity (s : Stack β) (r : PlaceOrderRequest) : ℚ :=
  -- Risk a share of the balance between the price it will fill at and the stop.
  let quantity := calculatePositionSize (Broker.getAccount s.broker).balance
    s.limits.riskPerTradePct r.fillPrice r.stop s.limits.maxPositionSize
  if s.opposes r.symbol r.direction then
    let quantity := min quantity |s.holding r.symbol|
    -- An exit is never sized down to nothing.
    if quantity ≤ 0 then |s.holding r.symbol| else quantity
  else quantity

/-- The proposal the risk engine judges. -/
def tradeProposal (s : Stack β) (env : CallEnv) (r : PlaceOrderRequest) (ltp : ℚ) :
    TradeRiskProposal :=
  let openPositions := s.positionManager.openPositions s.userId
  let quantity := s.orderQuantity r
  -- The correlation is taken over everything the account holds in other symbols.
  let others := signedNotionalsExcluding openPositions r.symbol ++
    env.elsewhere.filter (fun e => e.1 ≠ r.symbol)
  { accountId := s.userId
    strategyId := none
    entry := r.fillPrice
    stop := r.stop
    accountBalance := (Broker.getAccount s.broker).balance
    openPositions := openPositions.length
    tradesToday := s.tradesToday
    dailyPnl := s.dailyPnl
    weeklyPnl := s.weeklyPnl
    currentExposure := grossExposure openPositions env.elsewhere
    strategyAllocation := 0
    marketDataAgeSeconds := s.marketDataAge env.priceAgeSeconds
    brokerHealthy := Broker.isHealthy s.broker
    repeatedRejections := s.repeatedRejections
    recentPriceJumpPct := env.priceJumpPct.getD 0
    entryDeviationPct := if ltp = 0 then 0 else |r.entry - ltp| / ltp * 100
    correlatedExposure :=
      correlatedExposure r.symbol 0 others env.correlation s.limits.correlationThreshold
    liquidityAcceptable := env.liquidity quantity
    proposedQuantity := some quantity
    isReducing := s.opposes r.symbol r.direction }

/-- The stack a risk decision is taken on: the window rolled, the quote seeded. -/
def prepared (s : Stack β) (env : CallEnv) (r : PlaceOrderRequest) : Stack β :=
  (s.rollRiskWindow env.now).seedQuote r.symbol r.entry false

/-- The gate of `place_order`: the refusal, or the stack to settle the order on;
with the risk decision, if one was taken. -/
def gate (s : Stack β) (env : CallEnv) (r : PlaceOrderRequest) :
    Except HttpError Unit × Stack β × Option RiskDecisionResult :=
  if env.instrumentActive = false then
    (.error ⟨404, s!"Unknown instrument symbol: {r.symbol}"⟩, s, none)
  -- A halt stops entries; what reduces a position goes on.
  else if env.haltReason.isSome ∧ s.opposes r.symbol r.direction = false then
    (.error ⟨423, s!"New entries are halted for this account: {env.haltText}"⟩,
      s.rollRiskWindow env.now, none)
  else
    -- The quote is seeded from the client's entry, for the mock broker alone.
    let s := s.prepared env r
    match Broker.getQuote s.broker r.symbol with
    | .error problem => (.error ⟨500, problem⟩, s, none)
    | .ok quote =>
      let decision := RiskEngine.evaluate s.limits env.killSwitch (s.tradeProposal env r quote.ltp)
      if decision.approved then (.ok (), s, some decision)
      else
        (.error ⟨403, s!"Risk engine rejected this trade: {decision.reasonText}"⟩, s,
          some decision)

/-- The gate refuses, and any decision it took was no approval; or it approves, on
the prepared stack. -/
theorem gate_cases (s : Stack β) (env : CallEnv) (r : PlaceOrderRequest) :
    (∃ refusal s' decision, s.gate env r = (.error refusal, s', decision) ∧
      (s' = s ∨ s' = s.rollRiskWindow env.now ∨ s' = s.prepared env r) ∧
      ∀ d, decision = some d → d.approved = false) ∨
    (∃ quote decision, s.gate env r = (.ok (), s.prepared env r, some decision) ∧
      Broker.getQuote (s.prepared env r).broker r.symbol = .ok quote ∧
      decision = RiskEngine.evaluate (s.prepared env r).limits env.killSwitch
        ((s.prepared env r).tradeProposal env r quote.ltp) ∧
      decision.approved = true) := by
  unfold gate
  split
  · -- An unknown instrument: nothing has been rolled yet.
    exact Or.inl ⟨_, _, _, rfl, Or.inl rfl, fun _ h => by cases h⟩
  split
  · -- A halt refuses after the roll.
    exact Or.inl ⟨_, _, _, rfl, Or.inr (Or.inl rfl), fun _ h => by cases h⟩
  dsimp only
  -- The quote is read from the broker with the seed.
  split
  · exact Or.inl ⟨_, _, _, rfl, Or.inr (Or.inr rfl), fun _ h => by cases h⟩
  · rename_i quote hquote
    split
    · rename_i happroved
      exact Or.inr ⟨quote, _, rfl, hquote, rfl, happroved⟩
    · rename_i hrefused
      refine Or.inl ⟨_, _, _, rfl, Or.inr (Or.inr rfl), fun d h => ?_⟩
      cases h
      exact Bool.eq_false_iff.mpr hrefused

/-! ## Section 3: Settlement -/

/-- Did a genuine fill happen on this call? -/
def justFilled (created : Bool) (order : OrderRecord) : Bool :=
  created && decide (order.status = .filled ∨ order.status = .partiallyFilled ∨
    order.status = .monitoring)

/-- The position after the call takes the request's stop if it is open on the
request's side, whether or not this call filled anything. -/
def withStop (after : PositionRecord) (r : PlaceOrderRequest) : PositionRecord :=
  -- Asked of the position as it now is; whether this call filled is not asked.
  if after.isOpen && after.isLong == (r.direction == .long) then { after with stop := some r.stop }
  else after

/-- Store a position back into the stack, with the broker as it stands. -/
def guarded (s : Stack β) (broker : β) (position : PositionRecord) : Stack β :=
  { s with
    broker := broker
    positionManager := s.positionManager.put position }

/-- Attach the request's stop to the position, and after a fill put the broker-side
order that enforces it: the stack, the position, and what is wrong, if anything. -/
def guardPosition (s : Stack β) (r : PlaceOrderRequest) (created : Bool) (order : OrderRecord)
    (after : PositionRecord) : Stack β × PositionRecord × Option String :=
  let after := withStop after r
  if justFilled created order then
    -- Only a fresh fill touches the order at the broker.
    let (result, broker, after) := ensureProtectiveStop s.broker after s.orderManager.nextId
    (s.guarded broker after, after, result.problem)
  else (s.guarded s.broker after, after, none)

end Stack

/-- `OrderResponse`. -/
structure OrderResponse where
  id : OrderId
  symbol : Symbol
  direction : Direction
  status : OrderStatus
  quantity : ℚ
  brokerOrderId : Option BrokerOrderId
  rejectionReason : Option String
  unprotectedReason : Option String := none
  deriving DecidableEq, Repr

/-- `_to_response`. -/
def toResponse (order : OrderRecord) (unprotectedReason : Option String) : OrderResponse :=
  { id := order.id
    symbol := order.symbol
    direction := order.direction
    status := order.status
    quantity := order.quantity
    brokerOrderId := order.brokerOrderId
    rejectionReason := order.rejectionReason
    unprotectedReason := unprotectedReason }

namespace World

variable {β : Type} [Broker β]

/-- The order of an approved request: created, or found by its key. -/
def orderEntered (s : Stack β) (env : CallEnv) (r : PlaceOrderRequest) :
    Except String (OrderRecord × Bool × Stack β) :=
  s.enterOrder env.now (r.idempotencyKey s.userId) r.symbol r.direction r.orderType
    (s.orderQuantity r) r.price ""

/-- Everything after the gate: enter the order, mirror it, guard the position it
leaves, mirror that, journal what it realized. -/
def settle (s : Stack β) (db : Db) (env : CallEnv) (r : PlaceOrderRequest) :
    Except HttpError OrderResponse × World β × Option String :=
  -- The position before, by value: the fill rewrites the record.
  let before := s.position r.symbol
  match orderEntered s env r with
  | .error problem => (.error ⟨500, problem⟩, ⟨s, db⟩, none)
  | .ok (order, created, s) =>
    let db := db.persistOrder env.now order (executionModeFor β)
    -- No record: the broker filled nothing in a symbol never held.
    match s.position r.symbol with
    | none => (.ok (toResponse order none), ⟨s, db⟩, none)
    | some after =>
      let (s, after, problem) := s.guardPosition r created order after
      let db := db.persistPosition after (executionModeFor β) manualSourceKey
      let (s, db) := s.journal db env.now before after order (before.bind PositionRecord.stop)
        (before.bind PositionRecord.target)
      (.ok (toResponse order problem), ⟨s, db⟩,
        problem.map fun _ => s!"{r.symbol} position has no stop at the broker")

/-- `POST /orders`. -/
def placeOrder (w : World β) (env : CallEnv) (r : PlaceOrderRequest) : Reply β OrderResponse :=
  match w.stack.gate env r with
  | (.error refusal, s, decision) =>
    { answer := .error refusal
      world := { w with stack := s }
      decision := decision }
  | (.ok (), s, decision) =>
    let (answer, world, halted) := settle s w.db env r
    { answer := answer
      world := world
      decision := decision
      halted := halted }

/-! ## Section 4: Cancelling -/

/-- Cancel an order's twin at the broker, if it has one. -/
def cancelAtBroker (s : Stack β) (order : OrderRecord) : Except Raised Unit × β :=
  match order.brokerOrderId with
  | none => (.ok (), s.broker)
  -- An empty id is no id.
  | some (.text "") => (.ok (), s.broker)
  | some id =>
    match Broker.cancelOrder s.broker id with
    | (.ok _, broker) => (.ok (), broker)
    | (.error problem, broker) => (.error problem, broker)

/-- `POST /orders/{order_id}/cancel`. -/
def cancelOrder (w : World β) (now : Instant) (orderId : OrderId) : Reply β OrderResponse :=
  match w.stack.orderManager.get orderId with
  | none => { answer := .error ⟨404, "Order not found"⟩, world := w }
  | some order =>
    -- A partly filled order stays: its fill is an open position.
    if order.status ≠ .submitted ∧ order.status ≠ .acknowledged then
      { answer := .error ⟨409, s!"Cannot cancel an order in status {order.status.value}"⟩
        world := w }
    else
      let (cancelled, broker) := cancelAtBroker w.stack order
      let s := { w.stack with broker := broker }
      match cancelled with
      | .error (.brokerError problem) =>
        { answer := .error ⟨502, s!"Broker failed to cancel this order: {problem}"⟩
          world := { w with stack := s } }
      -- Only a `BrokerError` is caught, and the `KeyError` of the simulated broker is none.
      | .error (.other problem) =>
        { answer := .error ⟨500, problem⟩
          world := { w with stack := s } }
      | .ok () =>
        match s.orderManager.transition now orderId .cancelled "cancelled by user" with
        | .error problem =>
          { answer := .error ⟨500, problem⟩
            world := { w with stack := s } }
        | .ok orders =>
          let final := order.moved now .cancelled "cancelled by user"
          { answer := .ok (toResponse final none)
            world :=
              { stack := { s with orderManager := orders }
                db := w.db.persistOrder now final (executionModeFor β) } }

/-! ## Section 5: A process that stops -/

/-- The await points of a call, as far as what is durable differs between them. -/
inductive StopPoint
  | beforeBroker
  | brokerCalled
  | orderCommitted
  | stopCancelled
  | stopPlaced
  | positionCommitted
  | tradeCommitted
  deriving DecidableEq, Repr

/-- What outlives the process when it stops at an await point of an approved call:
the broker as it was then, and the rows committed by then. -/
def durableAt (s : Stack β) (db : Db) (env : CallEnv) (r : PlaceOrderRequest)
    (point : StopPoint) : β × Db :=
  match point, orderEntered s env r with
  | .beforeBroker, _ => (s.broker, db)
  | _, .error _ => (s.broker, db)
  -- The broker has the order; the rows do not know it yet.
  | .brokerCalled, .ok (_, _, s) => (s.broker, db)
  | .orderCommitted, .ok (order, _, s) =>
    (s.broker, db.persistOrder env.now order (executionModeFor β))
  | .stopCancelled, .ok (order, created, s) =>
    let db := db.persistOrder env.now order (executionModeFor β)
    match s.position r.symbol with
    | some after =>
      -- The old stop is gone, and the new one is not placed.
      if Stack.justFilled created order then
        ((cancelProtectiveStop s.broker (Stack.withStop after r)).2.1, db)
      else (s.broker, db)
    | none => (s.broker, db)
  | .stopPlaced, .ok (order, created, s) =>
    let db := db.persistOrder env.now order (executionModeFor β)
    match s.position r.symbol with
    | some after => ((s.guardPosition r created order after).1.broker, db)
    | none => (s.broker, db)
  | .positionCommitted, .ok (order, created, s) =>
    let db := db.persistOrder env.now order (executionModeFor β)
    match s.position r.symbol with
    | some after =>
      let (s, after, _) := s.guardPosition r created order after
      (s.broker, db.persistPosition after (executionModeFor β) manualSourceKey)
    | none => (s.broker, db)
  | .tradeCommitted, .ok _ =>
    let (_, world, _) := settle s db env r
    (world.stack.broker, world.db)

/-- A call during which the process stops, and the stack that the restarted
process builds at a later time. -/
def stoppedAt (w : World β) (env : CallEnv) (r : PlaceOrderRequest) (point : StopPoint)
    (restart : Instant) : World β :=
  match w.stack.gate env r with
  -- A refused call commits nothing, wherever it stops.
  | (.error _, s, _) => World.rebuild { w with stack := s } restart
  | (.ok (), s, _) =>
    let (broker, db) := durableAt s w.db env r point
    World.rebuild { stack := { s with broker := broker }, db := db } restart

end World

end SuperTrading
