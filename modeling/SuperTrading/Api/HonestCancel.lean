import SuperTrading.Api.Orders
import SuperTrading.Brokers.Mock

/-!
# Honest Cancels

`POST /orders/{order_id}/cancel` asks the broker to cancel, and an order that the broker did not
cancel is to stay as it is. The handler catches what the broker raises, but does not read what it
answers: an order that the broker reports as filled is cancelled all the same.
-/

namespace SuperTrading

variable {β : Type} [Broker β]

/-! ## Section 1: What the broker reports -/

/-- The id by which the broker knows the order. -/
def OrderRecord.knownAtBroker (order : OrderRecord) : Option BrokerOrderId :=
  order.brokerOrderId.filter fun id => id ≠ .text ""

namespace World

/-- The broker's answer to a cancel, if it is asked. -/
def cancelAnswer (s : Stack β) (order : OrderRecord) : Option (Except Raised OrderResult) :=
  order.knownAtBroker.map fun id => (Broker.cancelOrder s.broker id).1

/-- The broker does not say that the order is cancelled, but something else. -/
def ReportsAnother (s : Stack β) (order : OrderRecord) : Prop :=
  ∃ result, cancelAnswer s order = some (.ok result) ∧ result.status ≠ .cancelled

/-- The handler gets past its guard on the status. -/
def Cancellable (order : OrderRecord) : Prop :=
  order.status = .submitted ∨ order.status = .acknowledged

/-- The cancel goes on unless the broker raises. -/
theorem cancelAtBroker_fst (s : Stack β) (order : OrderRecord) :
    (cancelAtBroker s order).1 =
      match cancelAnswer s order with
      | some (.error problem) => .error problem
      | _ => .ok () := by
  unfold cancelAtBroker cancelAnswer OrderRecord.knownAtBroker
  cases order.brokerOrderId with
  | none => rfl
  | some id =>
    by_cases hid : id = .text ""
    · subst hid
      rfl
    · have hsome : (some id).filter (fun id => id ≠ .text "") = some id := by simp [hid]
      rw [hsome]
      simp only [Option.map_some]
      cases h : Broker.cancelOrder s.broker id with
      | mk answer broker =>
        cases answer <;> simp

/-! ## Section 2: What the handler leaves -/

variable {w : World β} {now : Instant} {orderId : OrderId} {order : OrderRecord}

/-- Past the guard, the order is cancelled unless the broker raises. -/
theorem get_cancelOrder_of_cancellable (hget : w.stack.orderManager.get orderId = some order)
    (hstatus : Cancellable order) :
    (cancelOrder w now orderId).world.stack.orderManager.get orderId =
      match cancelAnswer w.stack order with
      | some (.error _) => some order
      | _ => some (order.moved now .cancelled "cancelled by user") := by
  have hguard : ¬ (order.status ≠ .submitted ∧ order.status ≠ .acknowledged) := by
    rintro ⟨hsubmitted, hacknowledged⟩
    exact hstatus.elim hsubmitted hacknowledged
  have hallowed : OrderStatus.cancelled ∈ order.status.allowedTransitions := by
    rcases hstatus with h | h
    · rw [h]
      decide
    · rw [h]
      decide
  -- The book does not depend on the broker that was asked.
  have hmoved : w.stack.orderManager.transition now orderId .cancelled "cancelled by user" =
      .ok (w.stack.orderManager.update orderId
        (fun order => order.moved now .cancelled "cancelled by user") fun _ =>
          OrderRecord.moved_id ..) := by
    unfold OrderManager.transition
    rw [hget]
    exact if_pos hallowed
  have hupdated := OrderManager.get_update_self w.stack.orderManager orderId
    (fun order => order.moved now .cancelled "cancelled by user") fun _ => OrderRecord.moved_id ..
  rw [hget, Option.map_some] at hupdated
  have hasked := cancelAtBroker_fst w.stack order
  unfold cancelOrder
  rw [hget]
  simp only [if_neg hguard]
  generalize cancelAtBroker w.stack order = asked at hasked ⊢
  obtain ⟨cancelled, broker⟩ := asked
  generalize cancelAnswer w.stack order = answer at hasked ⊢
  -- No id to ask for, a refusal, or an answer that nobody reads.
  rcases answer with _ | problem | result
  · cases hasked
    simp only [hmoved]
    exact hupdated
  · cases hasked
    cases problem with
    | brokerError text => exact hget
    | other text => exact hget
  · cases hasked
    simp only [hmoved]
    exact hupdated

/-- Before it, nothing happens. -/
theorem cancelOrder_of_not_cancellable (hget : w.stack.orderManager.get orderId = some order)
    (hstatus : ¬ Cancellable order) : (cancelOrder w now orderId).world = w := by
  have hguard : order.status ≠ .submitted ∧ order.status ≠ .acknowledged := not_or.mp hstatus
  unfold cancelOrder
  rw [hget]
  simp only [if_pos hguard]

/-- Unless the broker reports the order cancelled, or never had it, the cancel leaves its status
and its events as they were. -/
def CancelHonest (w : World β) (now : Instant) (orderId : OrderId) : Prop :=
  ∀ order, w.stack.orderManager.get orderId = some order →
    (order.knownAtBroker = none ∨
      ∃ result, cancelAnswer w.stack order = some (.ok result) ∧ result.status = .cancelled) ∨
    ∃ after, (cancelOrder w now orderId).world.stack.orderManager.get orderId = some after ∧
      after.status = order.status ∧ after.events = order.events

/-- The cancel is honest exactly if the broker does not report something else about an order that
could be cancelled. -/
theorem cancel_honest (w : World β) (now : Instant) (orderId : OrderId) :
    CancelHonest w now orderId ↔
      ∀ order, w.stack.orderManager.get orderId = some order →
        ¬ (Cancellable order ∧ ReportsAnother w.stack order) := by
  refine forall_congr' fun order => imp_congr_right fun hget => ?_
  by_cases hstatus : Cancellable order
  · -- An order that passes the guard ends up cancelled unless the broker raises.
    rw [get_cancelOrder_of_cancellable hget hstatus]
    have hmoved : OrderStatus.cancelled ≠ order.status := by
      intro h
      rcases hstatus with hs | hs
      · rw [hs] at h
        cases h
      · rw [hs] at h
        cases h
    unfold ReportsAnother
    cases hid : order.knownAtBroker with
    | none =>
      have hanswer : cancelAnswer w.stack order = none := by rw [cancelAnswer, hid, Option.map_none]
      simp [hanswer]
    | some id =>
      have hanswer :
          cancelAnswer w.stack order = some (Broker.cancelOrder w.stack.broker id).1 := by
        rw [cancelAnswer, hid, Option.map_some]
      rw [hanswer]
      cases (Broker.cancelOrder w.stack.broker id).1 with
      | error problem => simp
      | ok result => simp [hstatus, hmoved]
  · rw [cancelOrder_of_not_cancellable hget hstatus]
    constructor
    · exact fun _ h => hstatus h.1
    · exact fun _ => .inr ⟨order, hget, rfl, rfl⟩

/-- A buy of 10 at a limit of 100, which the simulated broker has filled on arrival. -/
def filledAtMock : OrderResult × MockBroker :=
  MockBroker.placeOrder (MockBroker.new 100000)
    { idempotencyKey := "key"
      symbol := "ACME"
      direction := .long
      orderType := .limit
      quantity := 10
      price := some 100 }

/-- The same order in the book, where the fill has not been recorded yet. -/
def unrecordedFill : OrderRecord :=
  { id := 0
    idempotencyKey := "key"
    accountId := "user"
    symbol := "ACME"
    direction := .long
    orderType := .limit
    quantity := 10
    price := some 100
    status := .acknowledged
    brokerOrderId := some filledAtMock.1.brokerOrderId
    events := [⟨none, .created, "created", 0⟩] }

def unrecordedWorld : World MockBroker :=
  { stack :=
      { broker := filledAtMock.2
        orderManager := ({} : OrderManager).restore [unrecordedFill]
        userId := "user" } }

/-- The broker reports the order as filled, and still holds it as filled after the cancel. The book
has it cancelled. -/
theorem filled_order_cancelled :
    ReportsAnother unrecordedWorld.stack unrecordedFill ∧
      ((cancelOrder unrecordedWorld 1 0).world.stack.broker.orders.get?
        filledAtMock.1.brokerOrderId).map (·.status) = some .filled ∧
      ((cancelOrder unrecordedWorld 1 0).world.stack.orderManager.get 0).map (·.status) =
        some .cancelled ∧
      ¬ CancelHonest unrecordedWorld 1 0 := by
  have hreports : ReportsAnother unrecordedWorld.stack unrecordedFill :=
    ⟨filledAtMock.2.bookedResult filledAtMock.1.brokerOrderId, rfl, by decide +kernel⟩
  refine ⟨hreports, by decide +kernel, by decide +kernel, fun h => ?_⟩
  have hget : unrecordedWorld.stack.orderManager.get 0 = some unrecordedFill := rfl
  obtain (hnone | ⟨result, hanswer, hcancelled⟩) | ⟨after, hafter, hstatus, -⟩ := h _ hget
  · cases hnone
  · obtain ⟨result', hanswer', hother⟩ := hreports
    cases hanswer.symm.trans hanswer'
    exact hother hcancelled
  · have hmoved := @get_cancelOrder_of_cancellable _ _ unrecordedWorld 1 0 _ hget (.inr rfl)
    cases hafter.symm.trans hmoved
    cases hstatus

end World

end SuperTrading
