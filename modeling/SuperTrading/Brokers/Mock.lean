import SuperTrading.Brokers.Base
import SuperTrading.Logic.Dict

/-!
# MockBroker

The in-memory broker of `app/brokers/mock.py`: it fills market and limit orders
on arrival, holds stop orders until a quote crosses their trigger, and keeps
cash, positions and marks. Every account without a connected broker trades
against it.
-/

namespace SuperTrading

open SuperTrading.Logic

/-- The state of a `MockBroker`. `rolls` is what `random.random()` will return,
`nextId` what `uuid.uuid4()` will. -/
structure MockBroker where
  balance : ℚ
  startingBalance : ℚ
  slippagePct : ℚ := 0
  rejectProbability : ℚ := 0
  partialFillProbability : ℚ := 0
  orders : Dict BrokerOrderId BrokerOrder := Dict.empty
  resting : Dict BrokerOrderId OrderRequest := Dict.empty
  positions : Dict Symbol BrokerPosition := Dict.empty
  quotes : Dict Symbol Quote := Dict.empty
  healthy : Bool := true
  rolls : List ℚ := []
  nextId : ℕ := 0

namespace MockBroker

/-- `MockBroker(starting_balance)`. -/
def new (startingBalance : ℚ) (nextId : ℕ := 0) : MockBroker :=
  { balance := startingBalance, startingBalance := startingBalance, nextId := nextId }

/-! ## Section 1: Fills and marks -/

def markToMarket (b : MockBroker) (symbol : Symbol) (ltp : ℚ) : MockBroker :=
  { b with
    positions := b.positions.modify symbol
      (fun p => { p with unrealizedPnl := (ltp - p.averagePrice) * p.quantity }) }

/-- `_apply_fill_to_position`: net one fill into the position of its symbol. -/
def applyFillToPosition (b : MockBroker) (symbol : Symbol) (direction : Direction)
    (quantity price : ℚ) : MockBroker :=
  let signedQty := direction.signed quantity
  match b.positions.get? symbol with
  | none =>
    { b with
      positions := b.positions.set symbol
        { symbol := symbol, quantity := signedQty, averagePrice := price } }
  | some position =>
    let newQuantity := position.quantity + signedQty
    let sameSide := decide (0 < position.quantity) == decide (0 < signedQty)
    -- The same side averages the cost basis in; the other side realizes against it.
    let averagePrice :=
      if sameSide then
        (position.averagePrice * position.quantity + price * signedQty) / newQuantity
      else if newQuantity ≠ 0 ∧ decide (0 < newQuantity) ≠ decide (0 < position.quantity) then
        -- Sold through zero and out the other side.
        price
      else position.averagePrice
    let balance :=
      if sameSide then b.balance
      else b.balance + (price - position.averagePrice)
        * min |signedQty| |position.quantity| * (if 0 < position.quantity then 1 else -1)
    -- A position that goes flat is dropped from the book.
    if newQuantity = 0 then
      { b with balance := balance, positions := b.positions.erase symbol }
    else
      let b := { b with
        balance := balance
        positions := b.positions.set symbol
          { position with quantity := newQuantity, averagePrice := averagePrice } }
      -- The stale mark is refreshed from the last quote, if there is one.
      match b.quotes.get? symbol with
      | some quote => b.markToMarket symbol quote.ltp
      | none => b

/-! ## Section 2: Resting stops -/

/-- Has this price crossed the stop's trigger? A sell-stop triggers at or below
it, a buy-stop at or above. -/
def crossed (request : OrderRequest) (ltp : ℚ) : Bool :=
  match request.triggerPrice with
  | none => false
  | some trigger =>
    match request.direction with
    | .short => decide (ltp ≤ trigger)
    | .long => decide (trigger ≤ ltp)

/-- The price a triggered stop fills at: its limit for SL, the print for SL_M. -/
def restingFillPrice (request : OrderRequest) (ltp : ℚ) : ℚ :=
  match request.orderType, request.price with
  | .sl, some price => if price ≤ 0 then ltp else price
  | _, _ => ltp

/-- Fill one triggered stop in full. -/
def fireResting (b : MockBroker) (brokerOrderId : BrokerOrderId) (request : OrderRequest)
    (ltp : ℚ) : MockBroker :=
  let fillPrice := restingFillPrice request ltp
  -- It leaves the resting book before its fill is netted.
  let b := { b with
    resting := b.resting.erase brokerOrderId
    orders := b.orders.modify brokerOrderId
      (fun o => { o with
        status := .filled
        filledQuantity := request.quantity
        averageFillPrice := some fillPrice }) }
  b.applyFillToPosition request.symbol request.direction request.quantity fillPrice

/-- `_trigger_resting_orders`: the loop runs over the stops that rest when it
starts, in the order they were placed. -/
def triggerRestingOrders (b : MockBroker) (symbol : Symbol) (ltp : ℚ) : MockBroker :=
  b.resting.entries.foldl
    (fun b e => if e.2.symbol = symbol ∧ crossed e.2 ltp then b.fireResting e.1 e.2 ltp else b) b

/-- `set_quote`: record a quote and mark the position; a market print also gives
the resting stops a chance to fire. -/
def setQuote (b : MockBroker) (symbol : Symbol) (ltp : ℚ) (isMarketPrint : Bool) : MockBroker :=
  let b := { b with quotes := b.quotes.set symbol { symbol := symbol, ltp := ltp } }
  let b := b.markToMarket symbol ltp
  -- The mark is taken again, since a stop that fired changed the position.
  if isMarketPrint then (b.triggerRestingOrders symbol ltp).markToMarket symbol ltp else b

/-! ## Section 3: Account -/

def restoreRealizedPnl (b : MockBroker) (realizedPnl : ℚ) : MockBroker :=
  { b with balance := b.startingBalance + realizedPnl }

def getAccount (b : MockBroker) : AccountInfo :=
  { balance := b.balance
    equity := b.balance + (b.positions.values.map BrokerPosition.unrealizedPnl).sum }

def getPositions (b : MockBroker) : List BrokerPosition := b.positions.values

def getOrders (b : MockBroker) : List BrokerOrder := b.orders.values

def getQuote (b : MockBroker) (symbol : Symbol) : Except String Quote :=
  match b.quotes.get? symbol with
  | some quote => .ok quote
  | none => .error s!"No mock quote set for {symbol}"

/-! ## Section 4: Orders -/

/-- `random.random()`. -/
def roll (b : MockBroker) : ℚ × MockBroker := (b.rolls.headD 0, { b with rolls := b.rolls.tail })

/-- `uuid.uuid4()`. -/
def uuid4 (b : MockBroker) : BrokerOrderId × MockBroker :=
  (.uuid b.nextId, { b with nextId := b.nextId + 1 })

/-- The order-book record of a request. -/
def bookEntry (brokerOrderId : BrokerOrderId) (request : OrderRequest) (status : OrderStatus) :
    BrokerOrder :=
  { brokerOrderId := brokerOrderId
    symbol := request.symbol
    direction := request.direction
    orderType := request.orderType
    quantity := request.quantity
    price := request.price
    status := status }

/-- `_resolve_fill_price`: the price this order fills at, if there is one. -/
def resolveFillPrice (b : MockBroker) (request : OrderRequest) : Option ℚ :=
  let basePrice :=
    match request.orderType with
    | .market =>
      -- A MARKET order needs a quote; without one it falls back on the request's price.
      match b.quotes.get? request.symbol with
      | some quote => some quote.ltp
      | none => request.price
    | _ => request.price
  match basePrice with
  | none => none
  | some price =>
    -- Zero or less is not a price.
    if price ≤ 0 then none
    else
      let slippage := price * (b.slippagePct / 100)
      match request.direction with
      | .long => some (price + slippage)
      | .short => some (price - slippage)

def rejectOrder (b : MockBroker) (brokerOrderId : BrokerOrderId) (request : OrderRequest)
    (reason : String) : OrderResult × MockBroker :=
  ({ brokerOrderId := brokerOrderId, status := .rejected, rejectionReason := some reason },
    { b with orders := b.orders.set brokerOrderId (bookEntry brokerOrderId request .rejected) })

/-- A stop does not fill on arrival: it rests until a price crosses its trigger,
at once if the last quote already has. -/
def placeStop (b : MockBroker) (brokerOrderId : BrokerOrderId) (request : OrderRequest) :
    MockBroker :=
  let b := { b with
    orders := b.orders.set brokerOrderId (bookEntry brokerOrderId request .acknowledged)
    resting := b.resting.set brokerOrderId request }
  -- Already through its trigger: it fires at once, with whatever else of the symbol does.
  match b.quotes.get? request.symbol with
  | some quote => b.triggerRestingOrders request.symbol quote.ltp
  | none => b

/-- The answer read off the order book, as `place_order` gives it for a stop. -/
def bookedResult (b : MockBroker) (brokerOrderId : BrokerOrderId) : OrderResult :=
  match b.orders.get? brokerOrderId with
  | some order =>
    match order.averageFillPrice with
    | some price =>
      { brokerOrderId := brokerOrderId, status := order.status,
        filledQuantity := order.filledQuantity, averageFillPrice := some price }
    | none => { brokerOrderId := brokerOrderId, status := order.status }
  | none => { brokerOrderId := brokerOrderId, status := .acknowledged }

/-- Fill a priced order on arrival, in part if the draw says so. -/
def fillOrder (b : MockBroker) (brokerOrderId : BrokerOrderId) (request : OrderRequest)
    (fillPrice : ℚ) : OrderResult × MockBroker :=
  let (filledQuantity, b) :=
    if 0 < b.partialFillProbability then
      let (draw, b) := b.roll
      -- A partial fill takes between 30% and 90% of the order.
      if draw < b.partialFillProbability then
        let (share, b) := b.roll
        (round6 (request.quantity * (3 / 10 + (9 / 10 - 3 / 10) * share)), b)
      else (request.quantity, b)
    else (request.quantity, b)
  let status := if request.quantity ≤ filledQuantity then .filled else .partiallyFilled
  let b := { b with
    orders := b.orders.set brokerOrderId
      { bookEntry brokerOrderId request status with
        filledQuantity := filledQuantity
        averageFillPrice := some fillPrice } }
  ({ brokerOrderId := brokerOrderId, status := status, filledQuantity := filledQuantity,
     averageFillPrice := some fillPrice },
    b.applyFillToPosition request.symbol request.direction filledQuantity fillPrice)

/-- `place_order`. -/
def placeOrder (b : MockBroker) (request : OrderRequest) : OrderResult × MockBroker :=
  let (brokerOrderId, b) := b.uuid4
  let (rejected, b) :=
    if 0 < b.rejectProbability then
      let (draw, b) := b.roll
      (decide (draw < b.rejectProbability), b)
    else (false, b)
  -- The simulated rejection is drawn before the order is looked at.
  if rejected then b.rejectOrder brokerOrderId request "Simulated rejection"
  else if (request.orderType = .sl ∨ request.orderType = .slM) ∧ request.triggerPrice.isSome then
    let b := b.placeStop brokerOrderId request
    (b.bookedResult brokerOrderId, b)
  else
    match b.resolveFillPrice request with
    | none => b.rejectOrder brokerOrderId request
        s!"No usable price for a {request.orderType.value} order on {request.symbol}"
    | some fillPrice => b.fillOrder brokerOrderId request fillPrice

/-- `cancel_order`: an unknown id is a `KeyError`, a finished order stays as it is. -/
def cancelOrder (b : MockBroker) (brokerOrderId : BrokerOrderId) :
    Except Raised OrderResult × MockBroker :=
  match b.orders.get? brokerOrderId with
  | none => (.error (.other "Unknown order"), b)
  | some order =>
    -- A finished order is reported as it stands.
    if order.status = .filled ∨ order.status = .cancelled ∨ order.status = .rejected then
      (.ok (b.bookedResult brokerOrderId), b)
    else
      (.ok { brokerOrderId := brokerOrderId, status := .cancelled },
        { b with
          resting := b.resting.erase brokerOrderId
          orders := b.orders.set brokerOrderId { order with status := .cancelled } })

/-- The broker `resolve_broker` builds for an account without a connection:
starting balance 100 000, nothing held, nothing random. -/
instance : Broker MockBroker where
  isMock := true
  placeOrder := placeOrder
  cancelOrder := cancelOrder
  getOrders b := .ok b.getOrders
  getPositions b := .ok b.getPositions
  getAccount := getAccount
  getQuote := getQuote
  isHealthy := healthy
  setQuote := setQuote
  restoreRealizedPnl := restoreRealizedPnl
  reconnect b := new 100000 b.nextId

end MockBroker

end SuperTrading
