import SuperTrading.Brokers.Base
import SuperTrading.Trading.OrderManager
import SuperTrading.Trading.PositionManager

/-!
# Execution Engine

`app/trading/execution.py`: an approved order is sent to the broker, and the
broker's answer moves the order through the state machine and the position book.

- **submit**: the engine's one operation, in the source's steps
- **Closed form**: the order, the status and the book that `submit` leaves
-/

namespace SuperTrading

open SuperTrading.Logic

/-- What stands in for a reason the broker did not give. -/
def noReason : String := "no reason given"

/-- `a or b` on an optional text: an empty text counts as none. -/
def textOr (reason : Option String) (fallback : String) : String :=
  match reason with
  | none => fallback
  | some text => if text = "" then fallback else text

/-- The price of what an answer filled. It is only read where something was
filled, and then there is one. -/
def OrderResult.fillPrice (result : OrderResult) : ℚ := result.averageFillPrice.getD 0

/-- `ExecutionEngine`: a broker and the two books of the orders sent to it. -/
structure ExecutionEngine (β : Type) where
  broker : β
  orderManager : OrderManager := {}
  positionManager : PositionManager := {}

/-- The request that `submit` sends for an order. -/
def OrderRecord.request (order : OrderRecord) : OrderRequest :=
  { idempotencyKey := order.idempotencyKey
    symbol := order.symbol
    direction := order.direction
    orderType := order.orderType
    quantity := order.quantity
    price := order.price }

namespace OrderRecord

/-- `order.broker_order_id = ...`. -/
def identified (order : OrderRecord) (brokerOrderId : BrokerOrderId) : OrderRecord :=
  { order with brokerOrderId := some brokerOrderId }

/-- `order.filled_quantity = ...` and `order.average_fill_price = ...`. -/
def filledBy (order : OrderRecord) (result : OrderResult) : OrderRecord :=
  { order with
    filledQuantity := result.filledQuantity
    averageFillPrice := result.averageFillPrice }

@[simp] theorem identified_id (order : OrderRecord) (brokerOrderId : BrokerOrderId) :
    (order.identified brokerOrderId).id = order.id := rfl

@[simp] theorem filledBy_id (order : OrderRecord) (result : OrderResult) :
    (order.filledBy result).id = order.id := rfl

end OrderRecord

namespace ExecutionEngine

variable {β : Type} [Broker β]

/-- `submit`. -/
def submit (e : ExecutionEngine β) (now : Instant) (orderId : OrderId) :
    Except String (ExecutionEngine β) :=
  match e.orderManager.get orderId with
  | none => .error s!"Unknown order {orderId}"
  | some order =>
    if order.status ≠ .riskApproved then
      .error s!"Order {orderId} must be RISK_APPROVED before submission, is {order.status.value}"
    else do
      -- The request goes out in SUBMITTED; the answer moves the order on.
      let orders ← e.orderManager.transition now orderId .submitted "sent to broker"
      let (result, broker) := Broker.placeOrder e.broker order.request
      -- The broker's id is kept whatever the answer is.
      let orders := orders.update orderId (·.identified result.brokerOrderId) fun _ =>
        OrderRecord.identified_id ..
      if result.status = .rejected then do
        let orders ← orders.transition now orderId .rejected
          (textOr result.rejectionReason "rejected by broker")
        return { e with broker := broker, orderManager := orders }
      else if result.status = .failed then do
        -- The broker never answered: no acknowledgement, and no fill to trust.
        let orders ← orders.transition now orderId .failed
          (textOr result.rejectionReason "broker did not answer")
        return { e with broker := broker, orderManager := orders }
      else do
        let orders ← orders.transition now orderId .acknowledged "broker acknowledged"
        if 0 < result.filledQuantity then do
          let orders := orders.update orderId (·.filledBy result) fun _ =>
            OrderRecord.filledBy_id ..
          let nextStatus : OrderStatus :=
            if order.quantity ≤ result.filledQuantity then .filled else .partiallyFilled
          let orders ← orders.transition now orderId nextStatus "filled by broker"
          let positions := e.positionManager.applyFill order.accountId order.symbol
            order.direction result.filledQuantity result.fillPrice
          -- A complete fill opens (or closes) a position, which is monitored.
          let orders ←
            if nextStatus = .filled then
              orders.transition now orderId .monitoring "position open"
            else pure orders
          return { broker := broker, orderManager := orders, positionManager := positions }
        else
          -- Accepted without a fill: ACKNOWLEDGED is where this call ends.
          return { e with broker := broker, orderManager := orders }

end ExecutionEngine

/-! ## Section 1: The closed form -/

/-- The status in which `submit` leaves an order of this quantity. -/
def settledStatus (quantity : ℚ) (result : OrderResult) : OrderStatus :=
  if result.status = .rejected then .rejected
  else if result.status = .failed then .failed
  else if 0 < result.filledQuantity then
    if quantity ≤ result.filledQuantity then .monitoring else .partiallyFilled
  else .acknowledged

/-- Did `submit` apply a fill? -/
def OrderResult.fills (result : OrderResult) : Bool :=
  decide (result.status ≠ .rejected ∧ result.status ≠ .failed ∧ 0 < result.filledQuantity)

/-- The record `submit` leaves of an approved order. -/
def OrderRecord.answered (order : OrderRecord) (now : Instant) (result : OrderResult) :
    OrderRecord :=
  let sent := (order.moved now .submitted "sent to broker").identified result.brokerOrderId
  if result.status = .rejected then
    sent.moved now .rejected (textOr result.rejectionReason "rejected by broker")
  else if result.status = .failed then
    sent.moved now .failed (textOr result.rejectionReason "broker did not answer")
  else
    let acknowledged := sent.moved now .acknowledged "broker acknowledged"
    if 0 < result.filledQuantity then
      let filled := acknowledged.filledBy result
      if order.quantity ≤ result.filledQuantity then
        (filled.moved now .filled "filled by broker").moved now .monitoring "position open"
      else filled.moved now .partiallyFilled "filled by broker"
    else acknowledged

/-- The book after an answer to an order. -/
def PositionManager.answered (m : PositionManager) (order : OrderRecord) (result : OrderResult) :
    PositionManager :=
  if result.fills then
    m.applyFill order.accountId order.symbol order.direction result.filledQuantity result.fillPrice
  else m

namespace OrderRecord

variable (order : OrderRecord) (now : Instant) (result : OrderResult)

@[simp] theorem answered_id : (order.answered now result).id = order.id := by
  unfold answered
  split_ifs <;> simp only [moved_id, identified_id, filledBy_id]

@[simp] theorem answered_status :
    (order.answered now result).status = settledStatus order.quantity result := by
  unfold answered settledStatus
  split_ifs <;> exact moved_status ..

@[simp] theorem answered_brokerOrderId :
    (order.answered now result).brokerOrderId = some result.brokerOrderId := by
  unfold answered
  split_ifs <;> simp only [moved, identified, filledBy]

@[simp] theorem answered_idempotencyKey :
    (order.answered now result).idempotencyKey = order.idempotencyKey := by
  unfold answered
  split_ifs <;> simp only [moved, identified, filledBy]

/-- An answer that fills leaves its fill and its price on the order; no other changes them. -/
theorem answered_fill :
    (order.answered now result).filledQuantity =
        (if result.fills then result.filledQuantity else order.filledQuantity) ∧
      (order.answered now result).averageFillPrice =
        if result.fills then result.averageFillPrice else order.averageFillPrice := by
  unfold answered OrderResult.fills
  by_cases hrejected : result.status = .rejected
  · simp [hrejected, moved, identified]
  by_cases hfailed : result.status = .failed
  · simp [hfailed, moved, identified]
  by_cases hfilled : 0 < result.filledQuantity
  · by_cases hfull : order.quantity ≤ result.filledQuantity
    · simp [hrejected, hfailed, hfilled, hfull, moved, filledBy]
    · simp [hrejected, hfailed, hfilled, hfull, moved, filledBy]
  · simp [hrejected, hfailed, hfilled, moved, identified]

@[simp] theorem answered_filledQuantity (h : order.filledQuantity = 0) :
    (order.answered now result).filledQuantity =
      if result.fills then result.filledQuantity else 0 := by
  rw [(answered_fill order now result).1, h]

@[simp] theorem answered_averageFillPrice : (order.answered now result).averageFillPrice =
    if result.fills then result.averageFillPrice else order.averageFillPrice :=
  (answered_fill order now result).2

end OrderRecord

/-- What an answer leaves of a book: unchanged without a fill, and otherwise moved by it. -/
theorem PositionManager.quantity_answer (m : PositionManager) (order : OrderRecord)
    (result : OrderResult) (a : AccountId) (s : Symbol) :
    (m.answered order result).quantity a s = m.quantity a s +
      if (order.accountId, order.symbol) = (a, s) then
        if result.fills then order.direction.signed result.filledQuantity else 0
      else 0 := by
  unfold answered
  cases hfills : result.fills with
  | false => simp
  | true =>
    simp only [if_true]
    by_cases ha : order.accountId = a
    · subst ha
      rw [quantity_applyFill]
      simp
    · have hother : (order.accountId, order.symbol) ≠ (a, s) := fun h => ha (congrArg Prod.fst h)
      rw [if_neg hother, add_zero]
      unfold quantity
      rw [get_applyFill, if_neg hother]

namespace ExecutionEngine

variable {β : Type} [Broker β]

/-- **submit in closed form.** An approved order is always submitted: no
transition on the way is illegal. The broker has taken the request, and order and
book have taken its answer. -/
theorem submit_eq (e : ExecutionEngine β) (now : Instant) {i : OrderId} {order : OrderRecord}
    (hget : e.orderManager.get i = some order) (hstatus : order.status = .riskApproved) :
    e.submit now i =
      .ok { broker := (Broker.placeOrder e.broker order.request).2
            orderManager := e.orderManager.update i
              (fun o => o.answered now (Broker.placeOrder e.broker order.request).1)
              fun _ => OrderRecord.answered_id ..
            positionManager :=
              e.positionManager.answered order (Broker.placeOrder e.broker order.request).1 } := by
  have hsent := OrderManager.transition_ok hget now .submitted
    (by simp [hstatus, OrderStatus.allowedTransitions]) "sent to broker"
  -- Each transition below follows a rewrite of the same order.
  have hnext := fun f hf (toStatus : OrderStatus) hto detail =>
    OrderManager.transition_update hget f hf now toStatus hto detail
  have hdone := fun f hf g hg => OrderManager.update_congr hget (f := f) (g := g) hf hg
  unfold submit
  rw [hget]
  simp only [hstatus, ne_eq, not_true_eq_false, if_false, hsent, bind, Except.bind, pure,
    Except.pure, OrderManager.update_update]
  cases hr : Broker.placeOrder e.broker order.request with
  | mk result broker =>
  dsimp only
  by_cases hrej : result.status = .rejected
  · -- Refused: SUBMITTED to REJECTED.
    rw [if_pos hrej, hnext _ _ _ (by simp [OrderRecord.identified, OrderStatus.allowedTransitions])]
    refine congrArg Except.ok ?_
    congr 1
    · exact hdone _ _ _ _ (by simp [OrderRecord.answered, hrej])
    · simp [PositionManager.answered, OrderResult.fills, hrej]
  by_cases hfail : result.status = .failed
  · -- Unanswered: SUBMITTED to FAILED.
    rw [if_neg hrej, if_pos hfail,
      hnext _ _ _ (by simp [OrderRecord.identified, OrderStatus.allowedTransitions])]
    refine congrArg Except.ok ?_
    congr 1
    · exact hdone _ _ _ _ (by simp [OrderRecord.answered, hfail])
    · simp [PositionManager.answered, OrderResult.fills, hfail]
  rw [if_neg hrej, if_neg hfail,
    hnext _ _ _ (by simp [OrderRecord.identified, OrderStatus.allowedTransitions])]
  dsimp only
  by_cases hfill : 0 < result.filledQuantity
  · have hbook : e.positionManager.answered order result = e.positionManager.applyFill
        order.accountId order.symbol order.direction result.filledQuantity result.fillPrice := by
      simp [PositionManager.answered, OrderResult.fills, hrej, hfail, hfill]
    rw [if_pos hfill, hbook]
    simp only [OrderManager.update_update]
    by_cases hfull : order.quantity ≤ result.filledQuantity
    · -- Filled in full: ACKNOWLEDGED to FILLED to MONITORING.
      simp only [if_pos hfull]
      rw [hnext _ _ _ (by simp [OrderRecord.filledBy, OrderStatus.allowedTransitions])]
      dsimp only
      rw [if_pos trivial, hnext _ _ _ (by simp [OrderStatus.allowedTransitions])]
      refine congrArg Except.ok ?_
      congr 1
      exact hdone _ _ _ _ (by simp [OrderRecord.answered, hrej, hfail, hfill, hfull])
    · -- Filled in part: ACKNOWLEDGED to PARTIALLY_FILLED.
      simp only [if_neg hfull]
      rw [hnext _ _ _ (by simp [OrderRecord.filledBy, OrderStatus.allowedTransitions])]
      dsimp only
      rw [if_neg (by simp)]
      refine congrArg Except.ok ?_
      congr 1
      exact hdone _ _ _ _ (by simp [OrderRecord.answered, hrej, hfail, hfill, hfull])
  · -- Acknowledged, and nothing filled yet.
    rw [if_neg hfill]
    refine congrArg Except.ok ?_
    congr 1
    · exact hdone _ _ _ _ (by simp [OrderRecord.answered, hrej, hfail, hfill])
    · simp [PositionManager.answered, OrderResult.fills, hfill]

end ExecutionEngine

/-! ## Section 2: From new to finished -/

/-- An approved order. -/
def OrderRecord.approved (order : OrderRecord) (now : Instant) (detail : String) : OrderRecord :=
  (order.moved now .validating "").moved now .riskApproved detail

/-- An order after the broker's answer to it. -/
def OrderRecord.finished (order : OrderRecord) (now : Instant) (detail : String)
    (result : OrderResult) : OrderRecord :=
  (order.approved now detail).answered now result

namespace OrderRecord

variable (order : OrderRecord) (now : Instant) (detail : String) (result : OrderResult)

@[simp] theorem approved_id : (order.approved now detail).id = order.id := rfl

@[simp] theorem approved_status : (order.approved now detail).status = .riskApproved := rfl

@[simp] theorem finished_id : (order.finished now detail result).id = order.id :=
  answered_id ..

@[simp] theorem finished_status :
    (order.finished now detail result).status = settledStatus order.quantity result :=
  answered_status ..

@[simp] theorem finished_idempotencyKey :
    (order.finished now detail result).idempotencyKey = order.idempotencyKey :=
  answered_idempotencyKey ..

@[simp] theorem finished_filledQuantity (h : order.filledQuantity = 0) :
    (order.finished now detail result).filledQuantity =
      if result.fills then result.filledQuantity else 0 :=
  answered_filledQuantity (order.approved now detail) now result h

@[simp] theorem finished_averageFillPrice :
    (order.finished now detail result).averageFillPrice =
      if result.fills then result.averageFillPrice else order.averageFillPrice :=
  answered_averageFillPrice ..

end OrderRecord

namespace OrderManager

/-- The index and the book of a new order, up to its approval. -/
theorem approved_of_new {m : OrderManager} {key : String} (h : m.lookup key = none) (now : Instant)
    (accountId : AccountId) (symbol : Symbol) (direction : Direction) (orderType : OrderType)
    (quantity : ℚ) (price : Option ℚ) (detail : String) :
    let order := m.newOrder now key accountId symbol direction orderType quantity price
    m.createOrder now key accountId symbol direction orderType quantity price =
        (order, true, m.insert order) ∧
      ∃ validating, (m.insert order).transition now order.id .validating = .ok validating ∧
        validating.transition now order.id .riskApproved detail =
          .ok ((m.insert order).update order.id (fun order => order.approved now detail)
            fun _ => OrderRecord.approved_id ..) := by
  intro order
  have hget : (m.insert order).get order.id = some order := get_insert_self ..
  refine ⟨by simp [createOrder, h, order], _, transition_ok hget now .validating
    (by simp [order, newOrder, OrderStatus.allowedTransitions]) "", ?_⟩
  exact transition_update hget _ _ now .riskApproved
    (by simp [OrderStatus.allowedTransitions]) detail

end OrderManager

/-- **A new order, up to the broker's answer.** It is created, approved and submitted, no
move on the way is refused, and the order can be read again as it ended. -/
theorem ExecutionEngine.submit_new {β : Type} [Broker β] (e : ExecutionEngine β) {key : String}
    (h : e.orderManager.lookup key = none) (now : Instant) (accountId : AccountId) (symbol : Symbol)
    (direction : Direction) (orderType : OrderType) (quantity : ℚ) (price : Option ℚ)
    (detail : String) :
    let order := e.orderManager.newOrder now key accountId symbol direction orderType quantity price
    let answer := Broker.placeOrder e.broker order.request
    let orders := (e.orderManager.insert order).update order.id
      (fun order => order.finished now detail answer.1) fun _ => OrderRecord.finished_id ..
    e.orderManager.createOrder now key accountId symbol direction orderType quantity price =
        (order, true, e.orderManager.insert order) ∧
      (∃ validating approved,
        (e.orderManager.insert order).transition now order.id .validating = .ok validating ∧
        validating.transition now order.id .riskApproved detail = .ok approved ∧
        ExecutionEngine.submit ⟨e.broker, approved, e.positionManager⟩ now order.id =
          .ok ⟨answer.2, orders, e.positionManager.answered order answer.1⟩) ∧
      orders.get order.id = some (order.finished now detail answer.1) := by
  intro order answer orders
  have hget : (e.orderManager.insert order).get order.id = some order :=
    OrderManager.get_insert_self ..
  obtain ⟨hcreate, validating, hvalidating, happroved⟩ := OrderManager.approved_of_new h now
    accountId symbol direction orderType quantity price detail
  refine ⟨hcreate, ⟨validating, _, hvalidating, happroved, ?_⟩, ?_⟩
  · -- The moves on the way leave what the broker and the book read of the order.
    have hgot : ((e.orderManager.insert order).update order.id
        (fun order => order.approved now detail) fun _ => OrderRecord.approved_id ..).get order.id =
          some (order.approved now detail) := by simp [hget]
    rw [submit_eq _ now hgot rfl]
    refine congrArg Except.ok ?_
    congr 1
    exact OrderManager.update_update _ _ _ _ (fun _ => OrderRecord.approved_id ..)
      fun _ => OrderRecord.answered_id ..
  · simp [orders, hget]

end SuperTrading
