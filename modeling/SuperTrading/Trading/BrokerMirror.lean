import SuperTrading.Brokers.Scripted
import SuperTrading.Trading.Execution
import SuperTrading.Trading.Reconciliation

/-!
# Which Answers a Submitted Order Mirrors

Three lists have to agree on every status: what an adapter reports, what the transition
table lets `submit` record, and what `reconcile_orders` compares. They do for a rejection,
for a call nobody answered, and for an acknowledgement or a fill that names the order.
An answer in SUBMITTED or CANCELLED is recorded as an acknowledgement, which the next
reconciliation reports.

- **Layer A**: the answers, and what it means to mirror one
- **Layer B**: one order against its own entry at the broker
- **Layer C**: exactly which answers are mirrored
-/

namespace SuperTrading

open SuperTrading.Logic

/-! ## Layer A: Answers -/

/-- What fill a status allows. The statuses are those the adapters map to. -/
def OrderResult.MatchesStatus (result : OrderResult) (quantity : ℚ) : Prop :=
  match result.status with
  | .submitted | .acknowledged | .rejected | .failed => result.filledQuantity = 0
  | .partiallyFilled => 0 < result.filledQuantity ∧ result.filledQuantity < quantity
  | .filled => result.filledQuantity = quantity
  -- A cancelled order keeps what was filled before.
  | .cancelled => result.filledQuantity < quantity
  | _ => False

instance (result : OrderResult) (quantity : ℚ) : Decidable (result.MatchesStatus quantity) := by
  unfold OrderResult.MatchesStatus
  split <;> infer_instance

/-- An answer to an order of this quantity: no less than nothing and no more than the
quantity is filled, and the fill is one the status allows. -/
structure OrderResult.ConsistentFor (result : OrderResult) (quantity : ℚ) : Prop where
  nonneg : 0 ≤ result.filledQuantity
  le : result.filledQuantity ≤ quantity
  matchesStatus : result.MatchesStatus quantity

/-- The local name of a status: FILLED is shown as MONITORING. -/
def OrderStatus.shown : OrderStatus → OrderStatus
  | filled => monitoring
  | status => status

/-- The entry in the broker's list for an order it answered this way. -/
def OrderRecord.atBroker (order : OrderRecord) (result : OrderResult) : BrokerOrder :=
  { brokerOrderId := result.brokerOrderId
    symbol := order.symbol
    direction := order.direction
    orderType := order.orderType
    quantity := order.quantity
    price := order.price
    status := result.status
    filledQuantity := result.filledQuantity
    averageFillPrice := result.averageFillPrice }

/-- The answer names the order, and its status is one that `submit` records as it is. An
order that was never sent shows no fill. -/
def OrderResult.IsMirrored (result : OrderResult) (order : OrderRecord) : Prop :=
  match result.status with
  | .rejected | .failed => True
  | .acknowledged =>
    result.brokerOrderId.isBlank = false ∧ |order.filledQuantity| ≤ quantityTolerance
  | .partiallyFilled => result.brokerOrderId.isBlank = false
  | .filled => result.brokerOrderId.isBlank = false ∧ 0 < order.quantity
  | _ => False

namespace ExecutionEngine

variable {β : Type} [Broker β]

/-- `submit` raises nothing, leaves the order in the status of the answer and in agreement
with the broker's entry for it, and moves the position by exactly what was filled. -/
def Mirrors (e : ExecutionEngine β) (now : Instant) (order : OrderRecord) : Prop :=
  let result := (Broker.placeOrder e.broker order.request).1
  ∃ e' order', e.submit now order.id = .ok e' ∧
    e'.orderManager.get order.id = some order' ∧
    order'.status = result.status.shown ∧
    reconcileOrders [order'] [order.atBroker result] = [] ∧
    (e'.positionManager ≠ e.positionManager ↔ 0 < result.filledQuantity) ∧
    ∀ a s, e'.positionManager.quantity a s = e.positionManager.quantity a s +
      if (order.accountId, order.symbol) = (a, s) then
        order.direction.signed result.filledQuantity
      else 0

end ExecutionEngine

/-! ## Layer B: One order and its own entry -/

/-- An order and its own entry are in order exactly if an open order shows the entry's
status and fill, and a live or filled entry has an id to be known by. -/
theorem reconcileOrders_own_eq_nil {order : OrderRecord} {entry : BrokerOrder}
    (hid : order.brokerOrderId = some entry.brokerOrderId) :
    reconcileOrders [order] [entry] = [] ↔
      (order.status.isOpenOrder = true → entry.status = order.status ∧
        |entry.filledQuantity - order.filledQuantity| ≤ quantityTolerance) ∧
      (entry.status.isLiveOrFilled = true → entry.brokerOrderId.isBlank = false) := by
  have hfound : (Dict.index BrokerOrder.brokerOrderId [entry]).get? entry.brokerOrderId =
      some entry := Dict.get?_index_of_mem (by simp) List.mem_cons_self
  have hagrees : OrderAgrees [entry] order ↔
      (order.status.isOpenOrder = true → entry.status = order.status ∧
        |entry.filledQuantity - order.filledQuantity| ≤ quantityTolerance) := by
    unfold OrderAgrees
    apply imp_congr_right
    intro _
    constructor
    · rintro ⟨id, found, hheld, hget, hstatus, hfill⟩
      -- The id the order holds is that of the one entry.
      rw [hid] at hheld
      cases hheld
      rw [hfound] at hget
      cases hget
      exact ⟨hstatus, hfill⟩
    · rintro ⟨hstatus, hfill⟩
      exact ⟨_, entry, hid, hfound, hstatus, hfill⟩
  have hknown : entry.brokerOrderId ∈ localBrokerIds [order] ↔
      entry.brokerOrderId.isBlank = false := by
    simp [localBrokerIds, hid]
  rw [reconcileOrders_eq_nil]
  simp only [List.mem_singleton, forall_eq, hagrees, hknown, List.not_mem_nil, or_false]

/-! ## Layer C: Which answers are mirrored -/

namespace OrderResult

variable {result : OrderResult} {quantity : ℚ}

/-- What a consistent answer filled, `submit` applies. -/
theorem ConsistentFor.fills_iff (h : result.ConsistentFor quantity) :
    result.fills = true ↔ 0 < result.filledQuantity := by
  unfold fills
  rw [decide_eq_true_eq]
  constructor
  · exact fun hfills => hfills.2.2
  · intro hfilled
    refine ⟨fun hstatus => ?_, fun hstatus => ?_, hfilled⟩
    · have hfit := h.matchesStatus
      simp [MatchesStatus, hstatus, hfilled.ne'] at hfit
    · have hfit := h.matchesStatus
      simp [MatchesStatus, hstatus, hfilled.ne'] at hfit

/-- An answer that refuses nothing is recorded by its fill alone. -/
theorem settledStatus_of_fill (hrejected : result.status ≠ .rejected)
    (hfailed : result.status ≠ .failed) :
    settledStatus quantity result =
      if 0 < result.filledQuantity then
        if quantity ≤ result.filledQuantity then .monitoring else .partiallyFilled
      else .acknowledged := by
  rw [settledStatus, if_neg hrejected, if_neg hfailed]

/-- The order is left in the status shown, in agreement with its entry, exactly if the
answer is one that is mirrored. -/
theorem ConsistentFor.reported_iff {order : OrderRecord} (now : Instant)
    (h : result.ConsistentFor order.quantity) :
    (order.answered now result).status = result.status.shown ∧
      reconcileOrders [order.answered now result] [order.atBroker result] = [] ↔
    result.IsMirrored order := by
  have hfilled := (OrderRecord.answered_fill order now result).1
  rw [reconcileOrders_own_eq_nil (OrderRecord.answered_brokerOrderId ..),
    OrderRecord.answered_status, hfilled]
  -- The entry shows the answer's own status, id and fill.
  simp only [OrderRecord.atBroker, IsMirrored]
  have hfills := h.fills_iff
  replace h := h.matchesStatus
  unfold MatchesStatus at h
  cases hstatus : result.status with
  | rejected =>
    simp [settledStatus, hstatus, OrderStatus.shown, OrderStatus.isOpenOrder,
      OrderStatus.isLiveOrFilled]
  | failed =>
    simp [settledStatus, hstatus, OrderStatus.shown, OrderStatus.isOpenOrder,
      OrderStatus.isLiveOrFilled]
  | submitted =>
    -- Recorded as an acknowledgement.
    simp only [hstatus] at h
    rw [settledStatus_of_fill (by simp [hstatus]) (by simp [hstatus])]
    simp [h, OrderStatus.shown]
  | acknowledged =>
    simp only [hstatus] at h
    rw [settledStatus_of_fill (by simp [hstatus]) (by simp [hstatus])]
    have hnone : result.fills = false := by simpa [h] using hfills
    simp [h, hnone, OrderStatus.shown, OrderStatus.isOpenOrder, OrderStatus.isLiveOrFilled,
      and_comm]
  | partiallyFilled =>
    simp only [hstatus] at h
    rw [settledStatus_of_fill (by simp [hstatus]) (by simp [hstatus])]
    simp [h.1, not_le.mpr h.2, hfills.mpr h.1, OrderStatus.shown, OrderStatus.isOpenOrder,
      OrderStatus.isLiveOrFilled, quantityTolerance]
  | filled =>
    simp only [hstatus] at h
    rw [settledStatus_of_fill (by simp [hstatus]) (by simp [hstatus])]
    by_cases hquantity : 0 < order.quantity
    · simp [h, hquantity, OrderStatus.shown, OrderStatus.isOpenOrder, OrderStatus.isLiveOrFilled]
    · -- Nothing was asked for, and nothing filled: recorded as an acknowledgement.
      simp [h, hquantity, OrderStatus.shown]
  | cancelled =>
    simp only [hstatus] at h
    rw [settledStatus_of_fill (by simp [hstatus]) (by simp [hstatus]), if_neg (not_le.mpr h)]
    split_ifs <;> simp [OrderStatus.shown]
  | _ => simp [hstatus] at h

end OrderResult

namespace ExecutionEngine

variable {β : Type} [Broker β]

end ExecutionEngine

/-- An approved order for 100 shares. -/
def approvedOrder : OrderRecord :=
  { id := 0
    idempotencyKey := "entry"
    accountId := "user"
    symbol := "ACME"
    direction := .long
    orderType := .market
    quantity := 100
    price := none
    status := .riskApproved }

/-- An engine that holds the approved order, at a venue that gives it this answer. -/
def engineAnswered (answer : VenueAnswer) : ExecutionEngine ScriptedVenue :=
  { broker := { script := [answer] }, orderManager := OrderManager.insert {} approvedOrder }

end SuperTrading
