import SuperTrading.Brokers.Base
import SuperTrading.Trading.Execution

/-!
# Protective Stops

`app/trading/protective_stops.py`: the resting order at the broker that enforces
a position's stop. The one memory across calls is the position's
`protectiveOrderId`; every call first cancels the order that id names, then
places a new one.

- **Cancel**: tolerant of an order that is gone, not of one that may still rest
- **Ensure**: cancel, then place, reporting what stays unprotected
- **Frames**: what the two operations leave alone
-/

namespace SuperTrading

/-- What happened when a position's stop was placed or replaced. -/
structure ProtectiveStopResult where
  orderId : Option BrokerOrderId := none
  problem : Option String := none
  fateUnknown : Bool := false
  deriving DecidableEq, Repr

/-- A stop was wanted and the position does not verifiably have one. -/
def ProtectiveStopResult.isUnprotected (result : ProtectiveStopResult) : Bool :=
  result.problem.isSome

/-- `_SETTLED_STATUSES`: an order in one of these can no longer fire. -/
def OrderStatus.isSettled : OrderStatus → Bool
  | filled | cancelled | rejected | expired | closed => true
  | _ => false

/-- A broker's order id spliced into a message. -/
def BrokerOrderId.toText : BrokerOrderId → String
  | uuid n => toString n
  | text s => s

section Operations

variable {β : Type} [Broker β]

/-! ## Section 1: Cancel -/

/-- `_is_no_longer_resting`: asked only after a cancel has failed. Unknown is
never read as gone. -/
def isNoLongerResting (broker : β) (orderId : BrokerOrderId) : Bool :=
  match Broker.getOrders broker with
  | .error _ => false
  | .ok orders =>
    match orders.find? (fun order => order.brokerOrderId = orderId) with
    | some order => order.status.isSettled
    | none => true

/-- `cancel_protective_stop`: is there verifiably no live protective order left?
The id survives a cancel whose outcome is not known. -/
def cancelProtectiveStop (broker : β) (position : PositionRecord) : Bool × β × PositionRecord :=
  match position.protectiveOrderId with
  | none => (true, broker, position)
  | some orderId =>
    match Broker.cancelOrder broker orderId with
    | (.ok _, broker) => (true, broker, { position with protectiveOrderId := none })
    | (.error _, broker) =>
      -- A raise is not an answer: ask the order list whether the stop is still there.
      if isNoLongerResting broker orderId then
        (true, broker, { position with protectiveOrderId := none })
      else (false, broker, position)

/-! ## Section 2: Ensure -/

/-- The stop order that guards a position: it closes the position, so it faces
the other way. `uuid` is the `uuid.uuid4()` in its key. -/
def stopRequest (position : PositionRecord) (uuid : ℕ) : OrderRequest :=
  { idempotencyKey := s!"protective:{position.accountId}:{position.symbol}:{uuid}"
    symbol := position.symbol
    direction := if position.isLong then .short else .long
    orderType := .slM
    quantity := |position.quantity|
    triggerPrice := position.stop }

/-- The id of the protective order as an f-string shows it. -/
def PositionRecord.protectiveOrderText (position : PositionRecord) : String :=
  position.protectiveOrderId.elim "None" BrokerOrderId.toText

/-- Place the stop, once the position has none resting. -/
def placeProtectiveStop (broker : β) (position : PositionRecord) (uuid : ℕ) :
    ProtectiveStopResult × β × PositionRecord :=
  -- SL_M: once the stop triggers, getting out matters more than the price.
  let (result, broker) := Broker.placeOrder broker (stopRequest position uuid)
  if result.status = .failed then
    ({ problem := some (s!"The broker did not answer the protective stop for {position.symbol} at "
        ++ s!"{formatOptional position.stop} ({textOr result.rejectionReason noReason}). "
        ++ "Whether one is resting is unknown -- reconcile against the broker.")
       fateUnknown := true }, broker, position)
  else if result.status = .rejected then
    ({ problem := some (s!"The broker rejected the protective stop for {position.symbol} at "
        ++ s!"{formatOptional position.stop} ({textOr result.rejectionReason noReason}). "
        ++ "This position has no stop-loss at the broker; the stop price it was sized from will "
        ++ "not be acted on.") }, broker, position)
  else
    ({ orderId := some result.brokerOrderId }, broker,
      { position with protectiveOrderId := some result.brokerOrderId })

/-- `ensure_protective_stop`: make the broker's resting stop match the
position's stop and size. -/
def ensureProtectiveStop (broker : β) (position : PositionRecord) (uuid : ℕ) :
    ProtectiveStopResult × β × PositionRecord :=
  match cancelProtectiveStop broker position with
  | (false, broker, position) =>
    -- The old stop may still rest, and two stops would over-sell the position.
    ({ problem := some (s!"The broker did not confirm cancelling the previous protective stop for "
        ++ s!"{position.symbol} ({position.protectiveOrderText}), "
        ++ "and still lists it as live. No replacement stop was placed: a second one could fire "
        ++ "alongside it and over-sell the position. Reconcile this order against the broker.")
       fateUnknown := true }, broker, position)
  | (true, broker, position) =>
    -- The cancel has run already: nothing rests that a flat position would trip over.
    if position.isOpen ∧ position.stop.isSome then placeProtectiveStop broker position uuid
    else ({}, broker, position)

/-! ## Section 3: Frames -/

/-- Two records that differ at most in the protective order they name. -/
def PositionRecord.SameButStop (p q : PositionRecord) : Prop :=
  { p with protectiveOrderId := none } = { q with protectiveOrderId := none }

namespace PositionRecord.SameButStop

variable {p q : PositionRecord} (h : p.SameButStop q)
include h

theorem accountId_eq : p.accountId = q.accountId :=
  (congrArg PositionRecord.accountId h : _)

theorem symbol_eq : p.symbol = q.symbol := (congrArg PositionRecord.symbol h : _)

theorem quantity_eq : p.quantity = q.quantity := (congrArg PositionRecord.quantity h : _)

end PositionRecord.SameButStop

theorem cancelProtectiveStop_sameButStop (broker : β) (position : PositionRecord) :
    (cancelProtectiveStop broker position).2.2.SameButStop position := by
  unfold cancelProtectiveStop
  split
  · rfl
  · split
    · rfl
    · split <;> rfl

theorem placeProtectiveStop_sameButStop (broker : β) (position : PositionRecord) (uuid : ℕ) :
    (placeProtectiveStop broker position uuid).2.2.SameButStop position := by
  unfold placeProtectiveStop
  dsimp only
  split
  · rfl
  · split <;> rfl

/-- Guarding a position changes which order guards it, and nothing else of it. -/
theorem ensureProtectiveStop_sameButStop (broker : β) (position : PositionRecord) (uuid : ℕ) :
    (ensureProtectiveStop broker position uuid).2.2.SameButStop position := by
  have hcancel := cancelProtectiveStop_sameButStop broker position
  unfold ensureProtectiveStop
  split
  · rename_i heq
    simpa only [heq] using hcancel
  · rename_i heq
    rw [heq] at hcancel
    split
    · exact (placeProtectiveStop_sameButStop ..).trans hcancel
    · exact hcancel

end Operations

end SuperTrading
