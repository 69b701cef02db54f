import SuperTrading.Trading.ProtectiveStops

/-!
# Reconciliation

`app/trading/reconciliation.py`, and the pass of `app/workers/reconciliation_worker.py`:
the books of an account against what the broker lists. A mismatch is kept as what it is
about; its text is what the source puts in the report.

- **Orders**: local orders against the broker's, and broker orders nobody knows
- **Positions**: by symbol, both ways
- **The pass**: what the worker compares, and when it halts
- **Agreement**: when a comparison reports nothing
-/

namespace SuperTrading

open SuperTrading.Logic

/-! ## Section 1: Orders -/

/-- `_OPEN_ORDER_STATUSES`. -/
def OrderStatus.isOpenOrder : OrderStatus → Bool
  | submitted | acknowledged | partiallyFilled => true
  | _ => false

/-- The statuses in which a broker order has to be known locally. -/
def OrderStatus.isLiveOrFilled : OrderStatus → Bool
  | submitted | acknowledged | partiallyFilled | filled => true
  | _ => false

/-- An id that Python takes for false. -/
def BrokerOrderId.isBlank : BrokerOrderId → Bool
  | uuid _ => false
  | text s => s = ""

/-- `1e-9`. -/
def quantityTolerance : ℚ := 1 / 10 ^ 9

inductive OrderMismatch
  | neverSubmitted (order : OrderRecord)
  | notAtBroker (order : OrderRecord) (id : BrokerOrderId)
  | status (order : OrderRecord) (brokerOrder : BrokerOrder)
  | filledQuantity (order : OrderRecord) (brokerOrder : BrokerOrder)
  | unknownLocally (brokerOrder : BrokerOrder)
  /-- the broker did not answer the pass -/
  | unreachable (problem : String)
  deriving DecidableEq

def OrderMismatch.text : OrderMismatch → String
  | neverSubmitted order =>
    s!"Order {order.id} is {order.status.value} locally but was never submitted to the broker"
  | notAtBroker order id => s!"Order {order.id} ({id.toText}) not found at broker"
  | status order brokerOrder =>
    s!"Order {order.id} ({brokerOrder.brokerOrderId.toText}) status mismatch: "
      ++ s!"local={order.status.value} broker={brokerOrder.status.value}"
  | filledQuantity order brokerOrder =>
    s!"Order {order.id} ({brokerOrder.brokerOrderId.toText}) filled quantity mismatch: "
      ++ s!"local={formatFloat order.filledQuantity} "
      ++ s!"broker={formatFloat brokerOrder.filledQuantity}"
  | unknownLocally brokerOrder =>
    s!"Broker order {brokerOrder.brokerOrderId.toText} for {brokerOrder.symbol} is unknown locally"
  | unreachable problem => s!"Broker unreachable during reconciliation: {problem}"

/-- What is wrong with a local order, if anything. -/
def localMismatch (brokerById : Dict BrokerOrderId BrokerOrder) (order : OrderRecord) :
    Option OrderMismatch :=
  if order.status.isOpenOrder = false then none
  else
    match order.brokerOrderId with
    | none => some (.neverSubmitted order)
    | some id =>
      match brokerById.get? id with
      | none => some (.notAtBroker order id)
      | some brokerOrder =>
        if brokerOrder.status ≠ order.status then some (.status order brokerOrder)
        else if quantityTolerance < |brokerOrder.filledQuantity - order.filledQuantity| then
          some (.filledQuantity order brokerOrder)
        else none

/-- The broker ids that local orders go by. -/
def localBrokerIds (localOrders : List OrderRecord) : List BrokerOrderId :=
  (localOrders.filterMap OrderRecord.brokerOrderId).filter fun id => !id.isBlank

/-- `reconcile_orders`. The protective orders have no `OrderRecord`, and are exempt by id. -/
def reconcileOrders (localOrders : List OrderRecord) (brokerOrders : List BrokerOrder)
    (protectiveOrderIds : List BrokerOrderId := []) : List OrderMismatch :=
  -- Of two orders with one id the later one is kept.
  let brokerById := Dict.index BrokerOrder.brokerOrderId brokerOrders
  let known := localBrokerIds localOrders ++ protectiveOrderIds
  localOrders.filterMap (localMismatch brokerById) ++
    (brokerOrders.filter fun brokerOrder =>
      brokerOrder.brokerOrderId ∉ known ∧ brokerOrder.status.isLiveOrFilled).map .unknownLocally

/-! ## Section 2: Positions -/

inductive PositionMismatch
  | notAtBroker (position : PositionRecord)
  | quantity (position : PositionRecord) (brokerPosition : BrokerPosition)
  | notTracked (brokerPosition : BrokerPosition)
  deriving DecidableEq

def PositionMismatch.text : PositionMismatch → String
  | notAtBroker position =>
    s!"{position.symbol}: open locally (qty={formatFloat position.quantity}) "
      ++ "but no position at broker"
  | quantity position brokerPosition =>
    s!"{position.symbol}: quantity mismatch local={formatFloat position.quantity} "
      ++ s!"broker={formatFloat brokerPosition.quantity}"
  | notTracked brokerPosition =>
    s!"{brokerPosition.symbol}: open at broker (qty={formatFloat brokerPosition.quantity}) "
      ++ "but not tracked locally"

/-- `reconcile_positions`. -/
def reconcilePositions (localPositions : List PositionRecord)
    (brokerPositions : List BrokerPosition) : List PositionMismatch :=
  -- One row a symbol: of several the last one is kept.
  let brokerBySymbol := Dict.index BrokerPosition.symbol brokerPositions
  let localBySymbol := Dict.index PositionRecord.symbol
    (localPositions.filter PositionRecord.isOpen)
  (localBySymbol.entries.filterMap fun e =>
    match brokerBySymbol.get? e.1 with
    | none => some (.notAtBroker e.2)
    | some brokerPosition =>
      if quantityTolerance < |brokerPosition.quantity - e.2.quantity| then
        some (.quantity e.2 brokerPosition)
      else none) ++
    (brokerBySymbol.entries.filter fun e =>
      (localBySymbol.get? e.1).isNone ∧ e.2.quantity ≠ 0).map fun e => .notTracked e.2

/-! ## Section 3: The pass -/

structure ReconciliationReport where
  orderMismatches : List OrderMismatch := []
  positionMismatches : List PositionMismatch := []

def ReconciliationReport.inSync (report : ReconciliationReport) : Bool :=
  report.orderMismatches.isEmpty && report.positionMismatches.isEmpty

/-- The ids of the protective orders that positions hold. -/
def protectiveOrderIds (positions : List PositionRecord) : List BrokerOrderId :=
  (positions.filterMap PositionRecord.protectiveOrderId).filter fun id => !id.isBlank

/-- `reconcile`. -/
def reconcile (localOrders : List OrderRecord) (brokerOrders : List BrokerOrder)
    (localPositions : List PositionRecord) (brokerPositions : List BrokerPosition) :
    ReconciliationReport :=
  { orderMismatches :=
      reconcileOrders localOrders brokerOrders (protectiveOrderIds localPositions)
    positionMismatches := reconcilePositions localPositions brokerPositions }

/-- `ReconciliationWorker.run_once`: the report, and the reason given to `halt_account`. -/
def reconciliationPass {β : Type} [Broker β] (accountId : AccountId) (broker : β)
    (orderManager : OrderManager) (positionManager : PositionManager) :
    ReconciliationReport × Option String :=
  match Broker.getOrders broker, Broker.getPositions broker with
  | .ok brokerOrders, .ok brokerPositions =>
    -- The worker asks for the open positions only.
    let report := reconcile (orderManager.listAll (some accountId)) brokerOrders
      (positionManager.openPositions accountId) brokerPositions
    let reason := "; ".intercalate (report.orderMismatches.map OrderMismatch.text ++
      report.positionMismatches.map PositionMismatch.text)
    (report, if report.inSync then none else some s!"Reconciliation mismatch: {reason}")
  | .error problem, _ | _, .error problem =>
    let mismatch := OrderMismatch.unreachable problem
    ({ orderMismatches := [mismatch] }, some mismatch.text)

/-! ## Section 4: Agreement -/

/-- The local order is not open, or is at the broker in its status and with its fill. -/
def OrderAgrees (brokerOrders : List BrokerOrder) (order : OrderRecord) : Prop :=
  order.status.isOpenOrder = true → ∃ id brokerOrder, order.brokerOrderId = some id ∧
    (Dict.index BrokerOrder.brokerOrderId brokerOrders).get? id = some brokerOrder ∧
    brokerOrder.status = order.status ∧
    |brokerOrder.filledQuantity - order.filledQuantity| ≤ quantityTolerance

theorem localMismatch_eq_none {brokerOrders : List BrokerOrder} {order : OrderRecord} :
    localMismatch (Dict.index BrokerOrder.brokerOrderId brokerOrders) order = none ↔
      OrderAgrees brokerOrders order := by
  unfold localMismatch OrderAgrees
  -- Only open orders are compared, by the broker's id.
  cases hopen : order.status.isOpenOrder with
  | false => simp
  | true =>
    simp only [Bool.true_eq_false, if_false, true_implies]
    cases hid : order.brokerOrderId with
    | none => simp
    | some id =>
      dsimp only
      cases hfound : (Dict.index BrokerOrder.brokerOrderId brokerOrders).get? id with
      | none => simp [hfound]
      | some brokerOrder =>
        dsimp only
        by_cases hstatus : brokerOrder.status = order.status
        · by_cases hfill : quantityTolerance < |brokerOrder.filledQuantity - order.filledQuantity|
          · simp [hstatus, hfill, hfound]
          · simp [hstatus, hfill, hfound, not_lt.mp hfill]
        · simp [hstatus, hfound]

theorem mem_localBrokerIds {localOrders : List OrderRecord} {id : BrokerOrderId} :
    id ∈ localBrokerIds localOrders ↔
      id.isBlank = false ∧ ∃ order ∈ localOrders, order.brokerOrderId = some id := by
  simp [localBrokerIds, and_comm]

/-- Nothing is reported of the orders exactly if every open local order agrees with the
broker's, and every broker order that is live or filled is known. -/
theorem reconcileOrders_eq_nil {localOrders : List OrderRecord} {brokerOrders : List BrokerOrder}
    {protective : List BrokerOrderId} :
    reconcileOrders localOrders brokerOrders protective = [] ↔
      (∀ order ∈ localOrders, OrderAgrees brokerOrders order) ∧
      ∀ brokerOrder ∈ brokerOrders, brokerOrder.status.isLiveOrFilled = true →
        brokerOrder.brokerOrderId ∈ localBrokerIds localOrders ∨
          brokerOrder.brokerOrderId ∈ protective := by
  unfold reconcileOrders
  rw [List.append_eq_nil_iff, List.filterMap_eq_nil_iff, List.map_eq_nil_iff,
    List.filter_eq_nil_iff]
  refine and_congr (forall₂_congr fun order _ => localMismatch_eq_none)
    (forall₂_congr fun brokerOrder _ => ?_)
  -- What the broker lists as live or filled is known by either list of ids.
  simp only [List.mem_append, decide_eq_true_eq, not_and, not_or, Bool.not_eq_true]
  constructor
  · intro h hlive
    by_contra hunknown
    rw [not_or] at hunknown
    rw [h hunknown] at hlive
    cases hlive
  · intro h hunknown
    refine Bool.eq_false_of_not_eq_true fun hlive => ?_
    exact not_or.mpr hunknown (h hlive)

/-- A broker order is reported as unknown exactly if it is live or filled and not known. -/
theorem unknownLocally_mem {localOrders : List OrderRecord} {brokerOrders : List BrokerOrder}
    {protective : List BrokerOrderId} {brokerOrder : BrokerOrder} :
    .unknownLocally brokerOrder ∈ reconcileOrders localOrders brokerOrders protective ↔
      brokerOrder ∈ brokerOrders ∧ brokerOrder.status.isLiveOrFilled = true ∧
        brokerOrder.brokerOrderId ∉ localBrokerIds localOrders ∧
        brokerOrder.brokerOrderId ∉ protective := by
  -- The local half reports orders of its own, never an unknown one.
  have hlocal : ∀ order, localMismatch (Dict.index BrokerOrder.brokerOrderId brokerOrders) order ≠
      some (.unknownLocally brokerOrder) := by
    intro order
    unfold localMismatch
    split
    · simp
    · split
      · simp
      · split
        · simp
        · split_ifs <;> simp
  unfold reconcileOrders
  simp only [List.mem_append, List.mem_filterMap, List.mem_map, List.mem_filter,
    decide_eq_true_eq, not_or]
  constructor
  · rintro (⟨order, -, horder⟩ | ⟨b, ⟨hmem, hknown, hlive⟩, hb⟩)
    · exact absurd horder (hlocal order)
    · cases hb
      exact ⟨hmem, hlive, hknown⟩
  · rintro ⟨hmem, hlive, hknown⟩
    exact .inr ⟨brokerOrder, ⟨hmem, hknown, hlive⟩, rfl⟩

end SuperTrading
