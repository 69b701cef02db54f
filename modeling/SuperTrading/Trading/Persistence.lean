import SuperTrading.Logic.Tally
import SuperTrading.Trading.OrderManager
import SuperTrading.Trading.PositionManager

/-!
# Persistence

`app/trading/persistence.py`: the rows that mirror the in-memory books, and the
queries that rebuild the books from the rows. Only one user's rows are modelled;
every query of the source filters on the user.

- **Rows**: orders with their events, positions, and the trade journal
- **Writes**: `persist_order`, `persist_position`, `record_trade`
- **Reads**: `load_open_positions`, `load_recent_orders` and the journal sums
- **Keys**: which idempotency keys a table holds after a write
- **Journal**: what a write adds to the realized P&L
-/

namespace SuperTrading

/-! ## Section 1: Rows -/

structure OrderRow where
  id : OrderId
  idempotencyKey : String
  symbol : Symbol
  executionMode : ExecutionMode
  direction : Direction
  orderType : OrderType
  quantity : ℚ
  price : Option ℚ
  status : OrderStatus
  brokerOrderId : Option BrokerOrderId
  rejectionReason : Option String
  createdAt : Instant
  events : List OrderEventRecord
  deriving DecidableEq, Repr

structure PositionRow where
  symbol : Symbol
  executionMode : ExecutionMode
  sourceKey : String
  quantity : ℚ
  averagePrice : ℚ
  stop : Option ℚ
  target : Option ℚ
  protectiveOrderId : Option BrokerOrderId
  unrealizedPnl : ℚ
  realizedPnl : ℚ
  isOpen : Bool
  deriving DecidableEq, Repr

/-- The signed notional of a row. -/
def PositionRow.notional (row : PositionRow) : ℚ := row.quantity * row.averagePrice

structure TradeRow where
  symbol : Symbol
  executionMode : ExecutionMode
  source : String
  direction : Direction
  entryPrice : ℚ
  exitPrice : Option ℚ
  quantity : ℚ
  stop : Option ℚ
  target : Option ℚ
  pnl : ℚ
  closedAt : Instant
  deriving DecidableEq, Repr

/-- The committed rows of one user. -/
structure Db where
  orders : List OrderRow := []
  positions : List PositionRow := []
  trades : List TradeRow := []
  deriving DecidableEq, Repr

/-- The `journal.source` of every `record_trade` row. -/
def manualTradeSource : String := "manual_order"

/-- The `source_key` of the positions of the manual trading stack. -/
def manualSourceKey : String := "manual"

/-- The `source_key` of the positions of the auto-trading worker. -/
def autoSourceKey : String := "auto"

/-- `ACCOUNT_BACKED_SOURCE_KEYS`. -/
def accountBackedSourceKeys : List String := [manualSourceKey, autoSourceKey]

/-- `ORDER_REHYDRATION_WINDOW`. -/
def orderRehydrationWindow : ℕ := Instant.hours 24

/-- `_REJECTION_REASON_LIMIT`, the width of the column. -/
def rejectionReasonLimit : ℕ := 500

namespace Db

/-! ## Section 2: Writes -/

/-- The row `persist_order` inserts for an order it has not stored. -/
def newOrderRow (now : Instant) (order : OrderRecord) (executionMode : ExecutionMode) : OrderRow :=
  { id := order.id
    idempotencyKey := order.idempotencyKey
    symbol := order.symbol
    executionMode := executionMode
    direction := order.direction
    orderType := order.orderType
    quantity := numeric order.quantity
    price := order.price.map numeric
    status := order.status
    brokerOrderId := order.brokerOrderId
    rejectionReason := clip order.rejectionReason rejectionReasonLimit
    createdAt := now
    events := order.events }

/-- The row `persist_order` makes of one it finds: new status, and the events not
yet stored. -/
def updatedOrderRow (row : OrderRow) (order : OrderRecord) : OrderRow :=
  { row with
    status := order.status
    brokerOrderId := order.brokerOrderId
    rejectionReason := clip order.rejectionReason rejectionReasonLimit
    events := row.events ++ order.events.drop row.events.length }

/-- `persist_order`: insert or update, by idempotency key. -/
def persistOrder (db : Db) (now : Instant) (order : OrderRecord) (executionMode : ExecutionMode) :
    Db :=
  -- `idempotency_key` is unique, so at most one row is rewritten.
  if db.orders.any (fun row => row.idempotencyKey = order.idempotencyKey) then
    { db with
      orders := db.orders.map fun row =>
        if row.idempotencyKey = order.idempotencyKey then updatedOrderRow row order else row }
  else { db with orders := db.orders ++ [newOrderRow now order executionMode] }

/-- Is this the open row of the symbol in this engine's book? -/
def isOpenRowOf (symbol : Symbol) (executionMode : ExecutionMode) (sourceKey : String)
    (row : PositionRow) : Bool :=
  row.symbol = symbol ∧ row.executionMode = executionMode ∧ row.sourceKey = sourceKey ∧ row.isOpen

/-- The mirror of a position. -/
def positionRow (position : PositionRecord) (executionMode : ExecutionMode) (sourceKey : String) :
    PositionRow :=
  { symbol := position.symbol
    executionMode := executionMode
    sourceKey := sourceKey
    quantity := numeric position.quantity
    averagePrice := numeric position.averagePrice
    stop := position.stop.map numeric
    target := position.target.map numeric
    protectiveOrderId := position.protectiveOrderId
    unrealizedPnl := numeric position.unrealizedPnl
    realizedPnl := numeric position.realizedPnl
    isOpen := position.isOpen }

/-- `persist_position`: overwrite the one open row, or insert. -/
def persistPosition (db : Db) (position : PositionRecord) (executionMode : ExecutionMode)
    (sourceKey : String) : Db :=
  let isRow := isOpenRowOf position.symbol executionMode sourceKey
  let row := positionRow position executionMode sourceKey
  -- A closed row is history: only the open one is overwritten.
  if db.positions.any isRow then
    { db with positions := db.positions.map fun old => if isRow old then row else old }
  else { db with positions := db.positions ++ [row] }

/-- `record_trade`: journal what a fill realized. -/
def recordTrade (db : Db) (now : Instant) (symbol : Symbol) (direction : Direction)
    (entryPrice : ℚ) (exitPrice : Option ℚ) (quantity pnl : ℚ) (stop target : Option ℚ)
    (executionMode : ExecutionMode) : Db :=
  { db with
    trades := db.trades ++
      [{ symbol := symbol
         executionMode := executionMode
         source := manualTradeSource
         direction := direction
         entryPrice := numeric entryPrice
         exitPrice := exitPrice.map numeric
         quantity := numeric quantity
         stop := stop.map numeric
         target := target.map numeric
         pnl := numeric pnl
         closedAt := now }] }

/-! ## Section 3: Reads -/

/-- `load_open_positions`. -/
def loadOpenPositions (db : Db) (accountId : AccountId) (executionMode : ExecutionMode)
    (sourceKey : String) : List PositionRecord :=
  (db.positions.filter fun row =>
      row.executionMode = executionMode ∧ row.sourceKey = sourceKey ∧ row.isOpen).map fun row =>
    { accountId := accountId
      symbol := row.symbol
      quantity := row.quantity
      averagePrice := row.averagePrice
      realizedPnl := row.realizedPnl
      unrealizedPnl := row.unrealizedPnl
      stop := row.stop
      target := row.target
      protectiveOrderId := row.protectiveOrderId }

/-- `load_open_position_notionals_elsewhere`: signed, netted by symbol, over every mode. -/
def loadOpenPositionNotionalsElsewhere (db : Db) (excludingSourceKey : String) :
    Logic.Dict Symbol ℚ :=
  .tally ((db.positions.filter fun row =>
      row.sourceKey ∈ accountBackedSourceKeys ∧ row.sourceKey ≠ excludingSourceKey ∧
        row.isOpen).map fun row => (row.symbol, row.notional))

/-- The order an order row stands for. -/
def restoredOrder (accountId : AccountId) (row : OrderRow) : OrderRecord :=
  { id := row.id
    idempotencyKey := row.idempotencyKey
    accountId := accountId
    symbol := row.symbol
    direction := row.direction
    orderType := row.orderType
    quantity := row.quantity
    price := row.price
    status := row.status
    brokerOrderId := row.brokerOrderId
    rejectionReason := row.rejectionReason
    events := row.events }

/-- `load_recent_orders`. -/
def loadRecentOrders (db : Db) (accountId : AccountId) (executionMode : ExecutionMode)
    (since : Instant) : List OrderRecord :=
  (db.orders.filter fun row => row.executionMode = executionMode ∧ since ≤ row.createdAt).map
    (restoredOrder accountId)

/-- `load_orders_placed_since`. -/
def loadOrdersPlacedSince (db : Db) (executionMode : ExecutionMode) (since : Instant) : ℕ :=
  db.orders.countP fun row => row.executionMode = executionMode ∧ since ≤ row.createdAt

/-- `load_realized_pnl_since`. -/
def loadRealizedPnlSince (db : Db) (executionMode : ExecutionMode) (since : Instant) : ℚ :=
  ((db.trades.filter fun row =>
      row.executionMode = executionMode ∧ row.source = manualTradeSource ∧ since ≤ row.closedAt).map
    TradeRow.pnl).sum

/-! ## Section 4: The keys a table holds -/

/-- A row of this key and mode, created at `t` or later. -/
def HoldsKey (db : Db) (executionMode : ExecutionMode) (t : Instant) (key : String) : Prop :=
  ∃ row ∈ db.orders,
    row.idempotencyKey = key ∧ row.executionMode = executionMode ∧ t ≤ row.createdAt

/-- The keys of the order table, all modes and times. -/
def keys (db : Db) : List String := db.orders.map OrderRow.idempotencyKey

theorem mem_keys_persistOrder {db : Db} {now : Instant} {order : OrderRecord}
    {mode : ExecutionMode} {key : String} :
    key ∈ (db.persistOrder now order mode).keys ↔ key = order.idempotencyKey ∨ key ∈ db.keys := by
  unfold persistOrder keys
  split
  · rename_i hany
    -- An update rewrites rows without touching their keys.
    have hkeys : (db.orders.map fun row =>
        if row.idempotencyKey = order.idempotencyKey then updatedOrderRow row order else row).map
          OrderRow.idempotencyKey = db.orders.map OrderRow.idempotencyKey := by
      rw [List.map_map]
      apply List.map_congr_left
      intro row _
      show (if _ then _ else _ : OrderRow).idempotencyKey = _
      split <;> rfl
    show key ∈ (db.orders.map _).map _ ↔ _
    rw [hkeys]
    obtain ⟨row, hrow, hkey⟩ := List.any_eq_true.mp hany
    have hmem : order.idempotencyKey ∈ db.orders.map OrderRow.idempotencyKey :=
      List.mem_map.mpr ⟨row, hrow, of_decide_eq_true hkey⟩
    constructor
    · exact Or.inr
    · rintro (rfl | h)
      · exact hmem
      · exact h
  · simp [newOrderRow, or_comm]

/-- A row once held is held after any write. -/
theorem HoldsKey.persistOrder {db : Db} {mode : ExecutionMode} {t : Instant} {key : String}
    (h : db.HoldsKey mode t key) (now : Instant) (order : OrderRecord) (mode' : ExecutionMode) :
    (db.persistOrder now order mode').HoldsKey mode t key := by
  obtain ⟨row, hrow, hkey, hmode, ht⟩ := h
  unfold Db.persistOrder
  split
  · -- An update rewrites the row in place, and leaves its key, mode and time.
    refine ⟨_, List.mem_map_of_mem hrow, ?_⟩
    split <;> exact ⟨hkey, hmode, ht⟩
  · exact ⟨row, List.mem_append_left _ hrow, hkey, hmode, ht⟩

/-- An order whose key no row has is inserted. -/
theorem persistOrder_of_new {db : Db} {order : OrderRecord} (hnew : order.idempotencyKey ∉ db.keys)
    (now : Instant) (mode : ExecutionMode) :
    db.persistOrder now order mode =
      { db with orders := db.orders ++ [newOrderRow now order mode] } := by
  refine if_neg fun hany => hnew ?_
  obtain ⟨row, hrow, hkey⟩ := List.any_eq_true.mp hany
  exact List.mem_map.mpr ⟨row, hrow, of_decide_eq_true hkey⟩

/-- Storing an order of a new key holds that key from now on. -/
theorem holdsKey_persistOrder {db : Db} {now : Instant} {order : OrderRecord}
    {mode : ExecutionMode} (hnew : order.idempotencyKey ∉ db.keys) :
    (db.persistOrder now order mode).HoldsKey mode now order.idempotencyKey := by
  rw [persistOrder_of_new hnew]
  exact ⟨newOrderRow now order mode, by simp, rfl, rfl, le_refl now⟩

/-- A held key is among the orders reloaded from any time up to its own. -/
theorem HoldsKey.loadRecentOrders {db : Db} {mode : ExecutionMode} {t : Instant} {key : String}
    (h : db.HoldsKey mode t key) (accountId : AccountId) {since : Instant} (hs : since ≤ t) :
    ∃ order ∈ db.loadRecentOrders accountId mode since, order.idempotencyKey = key := by
  obtain ⟨row, hrow, hkey, hmode, ht⟩ := h
  refine ⟨restoredOrder accountId row, ?_, hkey⟩
  apply List.mem_map_of_mem
  rw [List.mem_filter]
  exact ⟨hrow, decide_eq_true ⟨hmode, hs.trans ht⟩⟩

/-! ## Section 5: The journal after a write -/

@[simp] theorem trades_persistOrder (db : Db) (now : Instant) (order : OrderRecord)
    (mode : ExecutionMode) : (db.persistOrder now order mode).trades = db.trades := by
  unfold persistOrder
  split <;> rfl

@[simp] theorem trades_persistPosition (db : Db) (p : PositionRecord) (mode : ExecutionMode)
    (key : String) : (db.persistPosition p mode key).trades = db.trades := by
  unfold persistPosition
  dsimp only
  split <;> rfl

/-- The sum reads the journal only. -/
theorem loadRealizedPnlSince_congr {db db' : Db} (h : db'.trades = db.trades)
    (mode : ExecutionMode) (since : Instant) :
    db'.loadRealizedPnlSince mode since = db.loadRealizedPnlSince mode since := by
  unfold loadRealizedPnlSince
  rw [h]

/-- A trade journaled since then adds what its column holds of the P&L. -/
theorem loadRealizedPnlSince_recordTrade (db : Db) {now since : Instant} (hsince : since ≤ now)
    (symbol : Symbol) (direction : Direction) (entryPrice : ℚ) (exitPrice : Option ℚ)
    (quantity pnl : ℚ) (stop target : Option ℚ) (mode : ExecutionMode) :
    (db.recordTrade now symbol direction entryPrice exitPrice quantity pnl stop target
      mode).loadRealizedPnlSince mode since = db.loadRealizedPnlSince mode since + numeric pnl := by
  simp [loadRealizedPnlSince, recordTrade, hsince]

end Db

end SuperTrading
