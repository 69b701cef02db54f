import SuperTrading.Api.Orders
import SuperTrading.Trading.MockBook

/-!
# POST /orders at the Mock Broker

What a call of `POST /orders` leaves of a stack that trades against a `MockBroker`:
the broker, the position book and the rows, in closed form.

- **Layer A**: guarding a position at the mock broker
- **Layer B**: the stack a call leaves
- **Layer C**: the invariant of the stack
- **Layer D**: one call, and the stack that calls start from
-/

namespace SuperTrading

open SuperTrading.Logic

/-! ## Layer A: Guarding a position -/

/-- Is there something to guard, and a stop to guard it with? -/
def PositionRecord.wantsStop (p : PositionRecord) : Bool := p.isOpen && p.stop.isSome

theorem stopRequest_direction (p : PositionRecord) (uuid : ℕ) :
    (stopRequest p uuid).direction = p.side.opposite := by
  unfold PositionRecord.side
  show (if p.isLong then Direction.short else .long) = _
  cases p.isLong <;> rfl

/-- The record after its guard was placed under this id, or withdrawn. -/
def PositionRecord.guardedBy (p : PositionRecord) (n : ℕ) : PositionRecord :=
  { p with protectiveOrderId := if p.wantsStop then some (.uuid n) else none }

namespace MockBroker

/-- The broker after the old stop of a position is withdrawn. -/
structure Withdrawn (b : MockBroker) (p : PositionRecord) (b' : MockBroker) : Prop where
  wellFormed : b'.WellFormed
  account : b.SameAccount b'
  resting : ∀ j, b'.resting.get? j =
    if p.protectiveOrderId = some j then none else b.resting.get? j
  quotes : b'.quotes = b.quotes
  nextId : b'.nextId = b.nextId

/-- The broker after it was given the stop of a position, on a last quote. -/
def guardedFor (b : MockBroker) (p : PositionRecord) (uuid : ℕ) (ltp : ℚ) : MockBroker :=
  if p.wantsStop then
    if crossed (stopRequest p uuid) ltp then
      (b.rested (stopRequest p uuid)).fireResting (.uuid b.nextId) (stopRequest p uuid) ltp
    else b.rested (stopRequest p uuid)
  else b

/-- The mock broker confirms every cancel: an unknown id is not in its book. -/
theorem cancelProtectiveStop_mock {b : MockBroker} (h : b.WellFormed) (p : PositionRecord) :
    ∃ b', cancelProtectiveStop b p = (true, b', { p with protectiveOrderId := none }) ∧
      b.Withdrawn p b' := by
  cases hid : p.protectiveOrderId with
  -- Without an id there is nothing to cancel.
  | none =>
    have hsame : { p with protectiveOrderId := none } = p := by
      cases p
      cases hid
      rfl
    refine ⟨b, ?_, h, ⟨fun _ => rfl, rfl, rfl⟩, fun j => by simp [hid], rfl, rfl⟩
    rw [hsame]
    simp [cancelProtectiveStop, hid]
  | some id =>
    obtain ⟨hwell, haccount, hresting, hquotes, hnext⟩ := h.cancelOrder id
    refine ⟨(b.cancelOrder id).2, ?_, hwell, haccount, fun j => ?_, hquotes, hnext⟩
    · unfold cancelProtectiveStop
      simp only [hid]
      cases ho : b.orders.get? id with
      | none =>
        -- The cancel raises, and the order list does not have the id either.
        have hcancel : b.cancelOrder id = (.error (.other "Unknown order"), b) := by
          simp [MockBroker.cancelOrder, ho]
        have hraises : Broker.cancelOrder b id = (.error (.other "Unknown order"), b) := hcancel
        have hgone : isNoLongerResting b id = true := by
          have hfind : b.getOrders.find? (fun order => order.brokerOrderId = id) = none := by
            rw [List.find?_eq_none]
            intro order hmem heq
            obtain ⟨j, hj⟩ := (Dict.mem_values_iff _).mp hmem
            have hstored := h.stored j order hj
            rw [of_decide_eq_true heq] at hstored
            rw [hstored, hj] at ho
            cases ho
          have hlist : Broker.getOrders b = .ok b.getOrders := rfl
          simp only [isNoLongerResting, hlist, hfind]
        simp [hraises, hcancel, hgone]
      -- A known id is answered, whether the order still rested or not.
      | some order =>
        have hanswers : ∃ result, Broker.cancelOrder b id = (.ok result, (b.cancelOrder id).2) := by
          show ∃ result, b.cancelOrder id = (.ok result, (b.cancelOrder id).2)
          simp only [MockBroker.cancelOrder, ho]
          split
          · exact ⟨_, rfl⟩
          · exact ⟨_, rfl⟩
        obtain ⟨result, hresult⟩ := hanswers
        rw [hresult]
    · rw [hresting, hid]
      simp only [Option.some.injEq]

/-- **Guarding at the mock broker.** The old stop is withdrawn, and the new one, if
the position wants one, is taken under a new id. -/
theorem ensureProtectiveStop_mock {b : MockBroker} (h : b.WellFormed) (p : PositionRecord)
    (uuid : ℕ) {quote : Quote} (hquote : b.quotes.get? p.symbol = some quote)
    (hlone : ∀ j r, b.resting.get? j = some r → r.symbol = p.symbol →
      p.protectiveOrderId = some j) :
    ∃ result b', b.Withdrawn p b' ∧
      ensureProtectiveStop b p uuid =
        (result, b'.guardedFor p uuid quote.ltp, p.guardedBy b'.nextId) := by
  obtain ⟨b', hcancel, hwithdrawn⟩ := cancelProtectiveStop_mock h p
  have hquote' : b'.quotes.get? (stopRequest p uuid).symbol = some quote := by
    rw [hwithdrawn.quotes]
    exact hquote
  have hlone' : ∀ j r, b'.resting.get? j = some r → r.symbol ≠ (stopRequest p uuid).symbol := by
    intro j r hr hsymbol
    rw [hwithdrawn.resting] at hr
    split at hr
    · cases hr
    · rename_i hne
      exact hne (hlone j r hr hsymbol)
  unfold ensureProtectiveStop
  simp only [hcancel]
  cases hwants : p.wantsStop with
  | false =>
    -- Nothing is placed, and the old order is withdrawn all the same.
    have hno : ¬ (p.isOpen = true ∧ p.stop.isSome = true) := by
      simpa [PositionRecord.wantsStop] using hwants
    refine ⟨{}, b', hwithdrawn, ?_⟩
    simp only [PositionRecord.guardedBy, guardedFor, hwants]
    exact if_neg hno
  | true =>
    have hyes : p.isOpen = true ∧ p.stop.isSome = true := by
      simpa [PositionRecord.wantsStop] using hwants
    have hcurrent : (stopRequest p uuid).triggerPrice.isSome := hyes.2
    -- The broker answers with its next id, whether the stop rests or fires at once.
    have hplace : ∀ placed, b'.placeOrder (stopRequest p uuid) = placed →
        placed.1.status ≠ .failed → placed.1.status ≠ .rejected →
        placed.1.brokerOrderId = .uuid b'.nextId →
        placeProtectiveStop b' { p with protectiveOrderId := none } uuid =
          ({ orderId := some (.uuid b'.nextId) }, placed.2, p.guardedBy b'.nextId) := by
      rintro ⟨result, broker⟩ hplaced hfailed hrejected hid
      have hbroker : Broker.placeOrder b' (stopRequest { p with protectiveOrderId := none } uuid) =
          (result, broker) := hplaced
      have hid' : result.brokerOrderId = .uuid b'.nextId := hid
      have hfailed' : ¬ result.status = .failed := hfailed
      have hrejected' : ¬ result.status = .rejected := hrejected
      unfold placeProtectiveStop
      rw [hbroker]
      dsimp only
      rw [if_neg hfailed', if_neg hrejected', hid']
      simp [PositionRecord.guardedBy, hwants]
    refine ⟨{ orderId := some (.uuid b'.nextId) }, b', hwithdrawn, ?_⟩
    refine (if_pos hyes).trans ?_
    cases hcross : crossed (stopRequest p uuid) quote.ltp with
    | false =>
      obtain ⟨hstatus, hid, hbroker⟩ := placeOrder_stop_rests hwithdrawn.wellFormed rfl hcurrent
        hquote' hlone' hcross
      rw [hplace _ rfl (by rw [hstatus]; decide) (by rw [hstatus]; decide) hid, hbroker]
      simp [guardedFor, hwants, hcross]
    | true =>
      obtain ⟨hstatus, hid, hbroker⟩ := placeOrder_stop_fires hwithdrawn.wellFormed rfl hcurrent
        hquote' hlone' hcross
      rw [hplace _ rfl (by rw [hstatus]; decide) (by rw [hstatus]; decide) hid, hbroker]
      simp [guardedFor, hwants, hcross]

/-- The stop that guards a position closes it. -/
theorem signed_stopRequest (p : PositionRecord) (uuid : ℕ) :
    (stopRequest p uuid).direction.signed (stopRequest p uuid).quantity = -p.quantity := by
  show (if p.isLong then Direction.short else .long).signed |p.quantity| = _
  cases hlong : p.isLong with
  | true =>
    have hpos : 0 < p.quantity := of_decide_eq_true hlong
    simp [abs_of_pos hpos]
  | false =>
    have hle : p.quantity ≤ 0 := not_lt.mp (of_decide_eq_false hlong)
    simp [abs_of_nonpos hle]

theorem stopRequest_quantity_pos {p : PositionRecord} (hwants : p.wantsStop = true) (uuid : ℕ) :
    0 < (stopRequest p uuid).quantity := by
  have hopen : p.isOpen = true := (Bool.and_eq_true_iff.mp hwants).1
  exact abs_pos.mpr (of_decide_eq_true hopen)

section Guarded

variable {b : MockBroker} (h : b.WellFormed) (p : PositionRecord) (uuid : ℕ) (ltp : ℚ)
include h

theorem WellFormed.guardedFor : (b.guardedFor p uuid ltp).WellFormed := by
  unfold MockBroker.guardedFor
  split
  · rename_i hwants
    split
    · exact (h.fired rfl (stopRequest_quantity_pos hwants uuid) ltp).1
    · exact h.rested _
  · exact h

/-- A new stop rests under the next id, unless it fires; the others rest on. -/
theorem resting_guardedFor (j : BrokerOrderId) :
    (b.guardedFor p uuid ltp).resting.get? j =
      if p.wantsStop = true ∧ crossed (stopRequest p uuid) ltp = false ∧ .uuid b.nextId = j then
        some (stopRequest p uuid)
      else b.resting.get? j := by
  unfold MockBroker.guardedFor
  cases hwants : p.wantsStop with
  | false => simp
  | true =>
    cases hcross : crossed (stopRequest p uuid) ltp with
    | true =>
      have hfired := (h.fired rfl (stopRequest_quantity_pos hwants uuid) ltp).2.2.1 j
      simpa using hfired
    | false =>
      have hrested : (b.rested (stopRequest p uuid)).resting.get? j =
          if BrokerOrderId.uuid b.nextId = j then some (stopRequest p uuid)
          else b.resting.get? j := Dict.get?_set ..
      simpa using hrested

theorem nextId_guardedFor :
    (b.guardedFor p uuid ltp).nextId = if p.wantsStop then b.nextId + 1 else b.nextId := by
  unfold MockBroker.guardedFor
  split
  · rename_i hwants
    split
    · exact (h.fired rfl (stopRequest_quantity_pos hwants uuid) ltp).2.2.2
    · rfl
  · rfl

/-- A stop that fires closes the lot of its symbol. -/
theorem takesFill_guardedFor (hwants : p.wantsStop = true)
    (hcross : crossed (stopRequest p uuid) ltp = true) :
    b.TakesFill (b.guardedFor p uuid ltp) p.symbol (-p.quantity) ltp := by
  have hfired := (h.fired rfl (stopRequest_quantity_pos hwants uuid) ltp).2.1
  rw [signed_stopRequest] at hfired
  unfold MockBroker.guardedFor
  rw [if_pos hwants, if_pos hcross]
  exact hfired

omit h in
/-- A stop that does not fire leaves the account alone. -/
theorem sameAccount_guardedFor
    (hquiet : p.wantsStop = true → crossed (stopRequest p uuid) ltp = false) :
    b.SameAccount (b.guardedFor p uuid ltp) := by
  unfold MockBroker.guardedFor
  split
  · rename_i hwants
    rw [hquiet hwants]
    exact ⟨fun _ => rfl, rfl, rfl⟩
  · exact ⟨fun _ => rfl, rfl, rfl⟩

end Guarded

end MockBroker

/-! ## Layer B: The stack a call leaves -/

namespace Stack

/-- The order a request makes, on this stack. -/
def requestOrder (s : Stack MockBroker) (env : CallEnv) (r : PlaceOrderRequest) : OrderRecord :=
  s.newOrder env.now (r.idempotencyKey s.userId) r.symbol r.direction r.orderType
    (s.orderQuantity r) r.price

/-- The position a fill of the request leaves, with the stop it then carries. -/
def filledPosition (s : Stack MockBroker) (r : PlaceOrderRequest) : PositionRecord :=
  withStop (PositionManager.fillRecord (s.positionManager.record s.userId r.symbol) r.direction
    (s.orderQuantity r) r.fillPrice) r

theorem withStop_fields (p : PositionRecord) (r : PlaceOrderRequest) :
    (withStop p r).accountId = p.accountId ∧ (withStop p r).symbol = p.symbol ∧
      (withStop p r).quantity = p.quantity ∧ (withStop p r).averagePrice = p.averagePrice ∧
      (withStop p r).realizedPnl = p.realizedPnl ∧
      (withStop p r).protectiveOrderId = p.protectiveOrderId := by
  unfold withStop
  split <;> exact ⟨rfl, rfl, rfl, rfl, rfl, rfl⟩

/-- A request on the position's side gives it its stop. -/
theorem withStop_of_side {p : PositionRecord} {r : PlaceOrderRequest} (hopen : p.isOpen = true)
    (hside : p.side = r.direction) : (withStop p r).stop = some r.stop := by
  have hlong : (p.isLong == (r.direction == .long)) = true := by
    rw [← hside]
    unfold PositionRecord.side
    cases p.isLong <;> rfl
  unfold withStop
  rw [hopen, hlong]
  rfl

/-- One on the other side leaves the stop it had. -/
theorem withStop_of_other_side {p : PositionRecord} {r : PlaceOrderRequest}
    (hside : p.side = r.direction.opposite) : (withStop p r).stop = p.stop := by
  have hlong : (p.isLong == (r.direction == .long)) = false := by
    have hopposite : r.direction = p.side.opposite := by rw [hside, Direction.opposite_opposite]
    rw [hopposite]
    unfold PositionRecord.side
    cases p.isLong <;> rfl
  unfold withStop
  rw [hlong, Bool.and_false]
  rfl

theorem filledPosition_fields (s : Stack MockBroker) (r : PlaceOrderRequest) :
    (s.filledPosition r).accountId = s.userId ∧ (s.filledPosition r).symbol = r.symbol ∧
      (s.filledPosition r).quantity =
        s.holding r.symbol + r.direction.signed (s.orderQuantity r) ∧
      (s.filledPosition r).protectiveOrderId =
        (s.positionManager.record s.userId r.symbol).protectiveOrderId := by
  obtain ⟨ha, hs, hq, -, -, hid⟩ := withStop_fields (PositionManager.fillRecord
    (s.positionManager.record s.userId r.symbol) r.direction (s.orderQuantity r) r.fillPrice) r
  obtain ⟨hkeyA, hkeyS⟩ := s.positionManager.record_key s.userId r.symbol
  have hholding : (s.positionManager.record s.userId r.symbol).quantity = s.holding r.symbol := by
    unfold PositionManager.record holding PositionManager.quantity
    cases s.positionManager.get s.userId r.symbol <;> rfl
  refine ⟨?_, ?_, ?_, ?_⟩
  · exact ha.trans ((PositionManager.fillRecord_accountId ..).trans hkeyA)
  · exact hs.trans ((PositionManager.fillRecord_symbol ..).trans hkeyS)
  · exact hq.trans ((PositionManager.fillRecord_quantity ..).trans (by rw [hholding]))
  · exact hid.trans (PositionManager.fillRecord_protectiveOrderId ..)

/-- What a fill of the request realizes on the position. -/
def realizes (s : Stack MockBroker) (r : PlaceOrderRequest) : ℚ :=
  (s.positionManager.lot s.userId r.symbol).realized (r.direction.signed (s.orderQuantity r))
    r.fillPrice

theorem realizes_of_no_position {s : Stack MockBroker} {r : PlaceOrderRequest}
    (h : s.position r.symbol = none) : s.realizes r = 0 := by
  have hlot : s.positionManager.lot s.userId r.symbol = Lot.empty := by
    unfold PositionManager.lot PositionManager.record
    rw [show s.positionManager.get s.userId r.symbol = none from h]
    simp
  rw [realizes, hlot, Lot.realized_empty]

/-- What the handler journals is what the lot realizes. -/
theorem realizedDelta_filledPosition (s : Stack MockBroker) {r : PlaceOrderRequest}
    (hqty : 0 < s.orderQuantity r) (n : ℕ) :
    realizedDelta (s.position r.symbol) ((s.filledPosition r).guardedBy n) = s.realizes r := by
  obtain ⟨-, -, -, -, hpnl, -⟩ := withStop_fields (PositionManager.fillRecord
    (s.positionManager.record s.userId r.symbol) r.direction (s.orderQuantity r) r.fillPrice) r
  have hfill := (PositionManager.fillRecord_spec (s.positionManager.record s.userId r.symbol)
    r.direction hqty r.fillPrice).2
  have hbefore : (s.position r.symbol).elim 0 PositionRecord.realizedPnl =
      (s.positionManager.record s.userId r.symbol).realizedPnl := by
    unfold position PositionManager.record
    cases s.positionManager.get s.userId r.symbol <;> rfl
  have hafter : ((s.filledPosition r).guardedBy n).realizedPnl =
      (s.positionManager.record s.userId r.symbol).realizedPnl + s.realizes r := hpnl.trans hfill
  unfold realizedDelta
  rw [hbefore, hafter, add_sub_cancel_left]

/-- A request that seeded its entry as the quote fills at its own price. -/
theorem resolveFillPrice_request {s : Stack MockBroker} (h : s.broker.WellFormed)
    {r : PlaceOrderRequest}
    (hquote : s.broker.quotes.get? r.symbol = some ⟨r.symbol, r.entry⟩) (env : CallEnv) :
    s.broker.resolveFillPrice (s.requestOrder env r).request = some r.fillPrice := by
  have hpos := r.fillPrice_pos
  rcases r.executable with hm | ⟨hl, hp⟩
  · have hentry : r.fillPrice = r.entry := by simp [hm, PlaceOrderRequest.fillPrice]
    rw [hentry] at hpos ⊢
    exact h.resolveFillPrice_market hm hpos hquote
  · obtain ⟨p, hp⟩ := Option.isSome_iff_exists.mp hp
    have hlimit : r.fillPrice = p := by simp [hl, hp, PlaceOrderRequest.fillPrice]
    rw [hlimit] at hpos ⊢
    exact h.resolveFillPrice_limit hl hpos hp

/-- The stack after the broker took a new request's order, before anything is guarded. -/
theorem orderEntered_fresh {s : Stack MockBroker} (h : s.broker.WellFormed) (env : CallEnv)
    {r : PlaceOrderRequest}
    (hnew : s.orderManager.lookup (r.idempotencyKey s.userId) = none)
    (hquote : s.broker.quotes.get? r.symbol = some ⟨r.symbol, r.entry⟩)
    (hqty : 0 < s.orderQuantity r) :
    ∃ order s', World.orderEntered s env r = .ok (order, true, s') ∧
      justFilled true order = true ∧
      s'.broker = s.broker.filled (s.requestOrder env r).request r.fillPrice ∧
      s'.positionManager = s.positionManager.applyFill s.userId r.symbol r.direction
        (s.orderQuantity r) r.fillPrice ∧
      s'.userId = s.userId ∧ s'.limits = s.limits := by
  -- The quote is the entry, so that the fresh order is filled at once and in full.
  have hplaced : Broker.placeOrder s.broker (s.requestOrder env r).request =
      ({ brokerOrderId := .uuid s.broker.nextId
         status := .filled
         filledQuantity := s.orderQuantity r
         averageFillPrice := some r.fillPrice },
        s.broker.filled (s.requestOrder env r).request r.fillPrice) :=
    MockBroker.placeOrder_filled h rfl (resolveFillPrice_request h hquote env)
  refine ⟨_, _, enterOrder_new hnew .., ?_, ?_, ?_, rfl, rfl⟩
  · show justFilled true ((s.requestOrder env r).finished env.now ""
      (Broker.placeOrder s.broker (s.requestOrder env r).request).1) = true
    rw [hplaced]
    simp [justFilled, settledStatus, hqty, requestOrder, newOrder, OrderManager.newOrder]
  · show (Broker.placeOrder s.broker (s.requestOrder env r).request).2 = _
    rw [hplaced]
  · show s.positionManager.answered (s.requestOrder env r)
      (Broker.placeOrder s.broker (s.requestOrder env r).request).1 = _
    rw [hplaced]
    have hfills : OrderResult.fills
        { brokerOrderId := .uuid s.broker.nextId
          status := .filled
          filledQuantity := s.orderQuantity r
          averageFillPrice := some r.fillPrice } = true := by
      simp [OrderResult.fills, hqty]
    unfold PositionManager.answered
    rw [if_pos hfills]
    rfl

/-- What rests at the broker for a symbol is what the position of that symbol names. -/
structure Book (s : Stack MockBroker) : Prop where
  wellFormed : s.broker.WellFormed
  limits : s.limits = {}
  guarded : ∀ id request, s.broker.resting.get? id = some request →
    ∃ p, s.position request.symbol = some p ∧ p.protectiveOrderId = some id

/-- The protective ids that positions name are ids the broker gave out already. -/
def Issued (s : Stack MockBroker) : Prop :=
  ∀ symbol p n, s.position symbol = some p → p.protectiveOrderId = some (.uuid n) →
    n < s.broker.nextId

/-- What a new request leaves: the broker filled it and guards the position it
makes; the book took the fill; the rest of the stack's identity is as before. -/
structure FilledAndGuarded (s : Stack MockBroker) (env : CallEnv) (r : PlaceOrderRequest)
    (s' : Stack MockBroker) : Prop where
  user : s'.userId = s.userId
  limits : s'.limits = s.limits
  guarded : ∃ b uuid,
    (s.broker.filled (s.requestOrder env r).request r.fillPrice).Withdrawn (s.filledPosition r) b ∧
    s'.broker = b.guardedFor (s.filledPosition r) uuid r.entry ∧
    s'.positionManager = (s.positionManager.applyFill s.userId r.symbol r.direction
      (s.orderQuantity r) r.fillPrice).put ((s.filledPosition r).guardedBy b.nextId)

/-- A known request leaves the broker alone, and may move the stop of its position. -/
structure StopMoved (s : Stack MockBroker) (r : PlaceOrderRequest) (s' : Stack MockBroker) :
    Prop where
  user : s'.userId = s.userId
  limits : s'.limits = s.limits
  broker : s'.broker = s.broker
  positions : s'.positionManager =
    match s.position r.symbol with
    | none => s.positionManager
    | some p => s.positionManager.put (withStop p r)

/-- After a fresh fill the stack is guarded as the broker and the position come back. -/
theorem guardPosition_of_filled {s : Stack MockBroker} {r : PlaceOrderRequest}
    {created : Bool} {order : OrderRecord} {after p : PositionRecord}
    {result : ProtectiveStopResult} {broker : MockBroker}
    (hfilled : justFilled created order = true)
    (hensure : ensureProtectiveStop s.broker (withStop after r) s.orderManager.nextId =
      (result, broker, p)) :
    s.guardPosition r created order after = (s.guarded broker p, p, result.problem) := by
  unfold guardPosition
  dsimp only
  rw [if_pos hfilled, hensure]

end Stack

namespace World

/-- The journal of a call, for a manual paper account. -/
theorem journal_stack (s : Stack MockBroker) (db : Db) (now : Instant)
    (before : Option PositionRecord) (after : PositionRecord) (order : OrderRecord)
    (stop target : Option ℚ) :
    let s' := (s.journal db now before after order stop target).1
    s'.broker = s.broker ∧ s'.positionManager = s.positionManager ∧ s'.userId = s.userId ∧
      s'.limits = s.limits := by
  intro s'
  show (Stack.journal ..).1.broker = _ ∧ (Stack.journal ..).1.positionManager = _ ∧
    (Stack.journal ..).1.userId = _ ∧ (Stack.journal ..).1.limits = _
  unfold Stack.journal
  dsimp only
  split
  · exact ⟨rfl, rfl, rfl, rfl⟩
  · split <;> exact ⟨rfl, rfl, rfl, rfl⟩

/-- The journal grows by what the column holds of a realized amount. -/
theorem journal_paid (s : Stack MockBroker) (db : Db) (now : Instant)
    (before : Option PositionRecord) (after : PositionRecord) (order : OrderRecord)
    (stop target : Option ℚ) (hnew : before = none → Stack.realizedDelta before after = 0) :
    (s.journal db now before after order stop target).2.loadRealizedPnlSince .paper 0 =
      db.loadRealizedPnlSince .paper 0 + numeric (Stack.realizedDelta before after) := by
  unfold Stack.journal
  cases before with
  | none => simp [hnew rfl]
  | some p =>
    dsimp only
    split
    · exact Db.loadRealizedPnlSince_recordTrade db (Nat.zero_le now) ..
    · rename_i hzero
      rw [not_not.mp hzero, numeric_zero, add_zero]

/-- A new request fills, is guarded, and journals what it realizes. -/
theorem settle_fresh {s : Stack MockBroker} (h : s.Book) (db : Db) (env : CallEnv)
    {r : PlaceOrderRequest}
    (hnew : s.orderManager.lookup (r.idempotencyKey s.userId) = none)
    (hquote : s.broker.quotes.get? r.symbol = some ⟨r.symbol, r.entry⟩)
    (hqty : 0 < s.orderQuantity r) :
    s.FilledAndGuarded env r (settle s db env r).2.1.stack ∧
      (settle s db env r).2.1.db.loadRealizedPnlSince .paper 0 =
        db.loadRealizedPnlSince .paper 0 + numeric (s.realizes r) := by
  -- The order fills in full at the request's price.
  obtain ⟨order, s', henter, hfilled, hbroker, hpositions, huser, hlimits⟩ :=
    Stack.orderEntered_fresh h.wellFormed env hnew hquote hqty
  set after := PositionManager.fillRecord (s.positionManager.record s.userId r.symbol) r.direction
    (s.orderQuantity r) r.fillPrice with hafter
  have hposition : s'.position r.symbol = some after := by
    unfold Stack.position
    rw [hpositions, huser, PositionManager.get_applyFill, if_pos rfl]
  obtain ⟨haccount, hsymbol, -, hprotective⟩ := s.filledPosition_fields r
  obtain ⟨hframeR, hframeQ, -⟩ :=
    s.broker.filled_frame (s.requestOrder env r).request r.fillPrice
  have hwell : s'.broker.WellFormed := by
    rw [hbroker]
    exact (h.wellFormed.filled hqty _).1
  have hquote' : s'.broker.quotes.get? (s.filledPosition r).symbol =
      some ⟨r.symbol, r.entry⟩ := by
    rw [hbroker, hframeQ, hsymbol]
    exact hquote
  -- Whatever rests for the symbol is the stop of the position before the fill.
  have hlone : ∀ j request, s'.broker.resting.get? j = some request →
      request.symbol = (s.filledPosition r).symbol →
      (s.filledPosition r).protectiveOrderId = some j := by
    intro j request hj hsame
    rw [hbroker, hframeR] at hj
    obtain ⟨p, hp, hid⟩ := h.guarded j request hj
    rw [hsame, hsymbol] at hp
    have hrecord : s.positionManager.record s.userId r.symbol = p := by
      unfold PositionManager.record
      rw [show s.positionManager.get s.userId r.symbol = some p from hp]
      rfl
    rw [hprotective, hrecord]
    exact hid
  -- The stop that rested is withdrawn, and a new one is placed.
  obtain ⟨result, b, hwithdrawn, hensure⟩ := MockBroker.ensureProtectiveStop_mock hwell
    (s.filledPosition r) s'.orderManager.nextId hquote' hlone
  have hguarded := Stack.guardPosition_of_filled (r := r) hfilled hensure
  have hguard : (s'.guardPosition r true order after).1 =
      s'.guarded (b.guardedFor (s.filledPosition r) s'.orderManager.nextId r.entry)
        ((s.filledPosition r).guardedBy b.nextId) := congrArg Prod.fst hguarded
  have hafter' : (s'.guardPosition r true order after).2.1 =
      (s.filledPosition r).guardedBy b.nextId := congrArg (fun x => x.2.1) hguarded
  have hdelta := s.realizedDelta_filledPosition hqty b.nextId
  -- The journal writes neither the book nor the broker.
  have hstack : ∀ db' stop target,
      s.FilledAndGuarded env r ((s'.guardPosition r true order after).1.journal db' env.now
        (s.position r.symbol) (s'.guardPosition r true order after).2.1 order stop target).1 := by
    intro db' stop target
    obtain ⟨hb, hp, hu, hl⟩ := journal_stack (s'.guardPosition r true order after).1 db' env.now
      (s.position r.symbol) (s'.guardPosition r true order after).2.1 order stop target
    refine ⟨?_, ?_, b, s'.orderManager.nextId, hbroker ▸ hwithdrawn, ?_, ?_⟩
    · rw [hu, hguard]
      exact huser
    · rw [hl, hguard]
      exact hlimits
    · rw [hb, hguard]
      rfl
    · rw [hp, hguard, ← hpositions]
      rfl
  -- What remains is the row of what was realized.
  unfold settle
  simp only [henter, hposition]
  refine ⟨hstack .., ?_⟩
  rw [journal_paid, hafter', hdelta]
  · rw [Db.loadRealizedPnlSince_congr (Db.trades_persistPosition ..),
      Db.loadRealizedPnlSince_congr (Db.trades_persistOrder ..)]
  · intro hnone
    rw [hafter', hdelta]
    exact Stack.realizes_of_no_position hnone

/-- A known request moves the stop of its position at most, and journals nothing. -/
theorem settle_known {s : Stack MockBroker} (db : Db) (env : CallEnv) {r : PlaceOrderRequest}
    {order : OrderRecord}
    (hknown : s.orderManager.lookup (r.idempotencyKey s.userId) = some order) :
    s.StopMoved r (settle s db env r).2.1.stack ∧
      (settle s db env r).2.1.db.trades = db.trades := by
  have henter : orderEntered s env r = .ok (order, false, s) := Stack.enterOrder_known hknown ..
  unfold settle
  simp only [henter]
  cases hposition : s.position r.symbol with
  | none =>
    refine ⟨⟨rfl, rfl, rfl, ?_⟩, Db.trades_persistOrder ..⟩
    rw [hposition]
  | some p =>
    have hguard : s.guardPosition r false order p =
        (s.guarded s.broker (Stack.withStop p r), Stack.withStop p r, none) := by
      simp [Stack.guardPosition, Stack.justFilled]
    have hsame : Stack.realizedDelta (some p) (Stack.withStop p r) = 0 := by
      obtain ⟨-, -, -, -, hpnl, -⟩ := Stack.withStop_fields p r
      simp [Stack.realizedDelta, hpnl]
    -- Nothing was realized, so nothing is journaled.
    simp only [hguard, Stack.journal, hsame, ne_eq, not_true_eq_false, if_false]
    refine ⟨⟨rfl, rfl, rfl, ?_⟩, ?_⟩
    · rw [hposition]
      rfl
    · rw [Db.trades_persistPosition, Db.trades_persistOrder]

end World

/-! ## Layer C: The invariant -/

namespace Stack

variable {s s' : Stack MockBroker} {env : CallEnv} {r : PlaceOrderRequest}

/-- The positions after a new request: the request's own is replaced. -/
theorem FilledAndGuarded.position {b : MockBroker} (huser : s'.userId = s.userId)
    (hpositions : s'.positionManager = (s.positionManager.applyFill s.userId r.symbol r.direction
      (s.orderQuantity r) r.fillPrice).put ((s.filledPosition r).guardedBy b.nextId))
    (j : Symbol) :
    s'.position j =
      if r.symbol = j then some ((s.filledPosition r).guardedBy b.nextId) else s.position j := by
  obtain ⟨ha, hs, -, -⟩ := s.filledPosition_fields r
  have hkey : (((s.filledPosition r).guardedBy b.nextId).accountId,
      ((s.filledPosition r).guardedBy b.nextId).symbol) = (s.userId, r.symbol) :=
    Prod.ext ha hs
  unfold Stack.position
  rw [hpositions, huser, PositionManager.get_put, hkey, PositionManager.get_applyFill]
  by_cases hj : r.symbol = j
  · simp [hj]
  · simp [hj]

/-- The positions after a known request: the request's own may have moved its stop. -/
theorem StopMoved.position (h : s.StopMoved r s') (j : Symbol) :
    s'.position j =
      if r.symbol = j then (s.position j).map fun p => withStop p r else s.position j := by
  have hpositions := h.positions
  unfold Stack.position at hpositions ⊢
  rw [h.user]
  cases hp : s.positionManager.get s.userId r.symbol with
  | none =>
    simp only [hp] at hpositions
    rw [hpositions]
    by_cases hj : r.symbol = j
    · rw [← hj, if_pos rfl, hp]
      rfl
    · rw [if_neg hj]
  | some p =>
    simp only [hp] at hpositions
    obtain ⟨ha, hs⟩ := PositionManager.key_of_get hp
    obtain ⟨ha', hs', -⟩ := withStop_fields p r
    -- Moving the stop keeps the key under which the position is stored.
    have hkey : ((withStop p r).accountId, (withStop p r).symbol) = (s.userId, r.symbol) :=
      Prod.ext (ha'.trans ha) (hs'.trans hs)
    rw [hpositions, PositionManager.get_put, hkey]
    by_cases hj : r.symbol = j
    · subst hj
      simp [hp]
    · simp [hj]

/-- Nothing moved but clocks, counters, quotes and marks. -/
structure Untouched (s s' : Stack MockBroker) : Prop where
  user : s'.userId = s.userId
  limits : s'.limits = s.limits
  positions : s'.positionManager = s.positionManager
  account : s.broker.SameAccount s'.broker
  resting : s'.broker.resting = s.broker.resting
  nextId : s'.broker.nextId = s.broker.nextId
  wellFormed : s.broker.WellFormed → s'.broker.WellFormed

theorem Untouched.refl (s : Stack MockBroker) : s.Untouched s :=
  ⟨rfl, rfl, rfl, ⟨fun _ => rfl, rfl, rfl⟩, rfl, rfl, id⟩

theorem untouched_rolled (s : Stack MockBroker) (now : Instant) :
    s.Untouched (s.rollRiskWindow now) :=
  ⟨rfl, rfl, rfl, ⟨fun _ => rfl, rfl, rfl⟩, rfl, rfl, id⟩

theorem untouched_prepared (s : Stack MockBroker) (env : CallEnv) (r : PlaceOrderRequest) :
    s.Untouched (s.prepared env r) :=
  ⟨rfl, rfl, rfl, MockBroker.sameAccount_setQuote_seed .., rfl, rfl, fun h => h.setQuote_seed ..⟩

theorem Untouched.position (h : s.Untouched s') (symbol : Symbol) :
    s'.position symbol = s.position symbol := by
  unfold Stack.position
  rw [h.user, h.positions]

theorem quote_prepared (s : Stack MockBroker) (env : CallEnv) (r : PlaceOrderRequest) :
    (s.prepared env r).broker.quotes.get? r.symbol = some ⟨r.symbol, r.entry⟩ :=
  Dict.get?_set_self ..

namespace Book

theorem untouched (h : s.Book) (hs' : s.Untouched s') : s'.Book where
  wellFormed := hs'.wellFormed h.wellFormed
  limits := hs'.limits.trans h.limits
  guarded id request hid := by
    rw [hs'.resting] at hid
    rw [hs'.position]
    exact h.guarded id request hid

theorem stopMoved (h : s.Book) (hs' : s.StopMoved r s') : s'.Book where
  wellFormed := by
    rw [hs'.broker]
    exact h.wellFormed
  limits := hs'.limits.trans h.limits
  guarded id request hid := by
    rw [hs'.broker] at hid
    obtain ⟨p, hp, hprotective⟩ := h.guarded id request hid
    rw [hs'.position]
    split
    · refine ⟨withStop p r, by rw [hp]; rfl, ?_⟩
      obtain ⟨-, -, -, -, -, hsame⟩ := withStop_fields p r
      exact hsame.trans hprotective
    · exact ⟨p, hp, hprotective⟩

theorem filledAndGuarded (h : s.Book) (hs' : s.FilledAndGuarded env r s') : s'.Book := by
  obtain ⟨b, uuid, hwithdrawn, hbroker, hpositions⟩ := hs'.guarded
  have hposition := FilledAndGuarded.position hs'.user hpositions
  obtain ⟨hresting, -, hnext⟩ := s.broker.filled_frame (s.requestOrder env r).request r.fillPrice
  obtain ⟨-, hsymbol, -, hprotective⟩ := s.filledPosition_fields r
  refine ⟨?_, hs'.limits.trans h.limits, ?_⟩
  · rw [hbroker]
    exact hwithdrawn.wellFormed.guardedFor ..
  · intro id request hid
    rw [hbroker, MockBroker.resting_guardedFor hwithdrawn.wellFormed] at hid
    rw [hposition]
    split at hid
    · -- The new stop rests under the id the position names.
      rename_i hnew
      cases hid
      refine ⟨_, if_pos hsymbol.symm, ?_⟩
      simp [PositionRecord.guardedBy, hnew.1, ← hnew.2.2]
    · -- An older stop still rests: it is another symbol's, whose position is as before.
      rw [hwithdrawn.resting] at hid
      split at hid
      · cases hid
      rename_i hother
      rw [hresting] at hid
      obtain ⟨p, hp, hnames⟩ := h.guarded id request hid
      have hne : r.symbol ≠ request.symbol := by
        rintro heq
        apply hother
        have hrecord : s.positionManager.record s.userId r.symbol = p := by
          unfold PositionManager.record
          rw [heq, show s.positionManager.get s.userId request.symbol = some p from hp]
          rfl
        rw [hprotective, hrecord]
        exact hnames
      exact ⟨p, by rw [if_neg hne]; exact hp, hnames⟩

/-- An approved order has a size. -/
theorem orderQuantity_pos (h : s.Book) {ltp : ℚ}
    (happroved : (RiskEngine.evaluate s.limits env.killSwitch
      (s.tradeProposal env r ltp)).approved = true) : 0 < s.orderQuantity r := by
  have hstop : r.fillPrice ≠ r.stop := RiskEngine.entry_ne_stop_of_approved happroved
  unfold orderQuantity
  dsimp only
  split
  · rename_i hopposes
    split
    · -- A budget that cannot size the exit closes the position, which is open.
      obtain ⟨p, hp, hopen⟩ : ∃ p, s.position r.symbol = some p ∧ p.isOpen = true := by
        unfold opposes at hopposes
        cases hp : s.position r.symbol with
        | none => simp [hp] at hopposes
        | some p =>
          rw [hp] at hopposes
          exact ⟨p, rfl, (Bool.and_eq_true_iff.mp hopposes).1⟩
      rw [holding_of_position hp]
      exact abs_pos.mpr (of_decide_eq_true hopen)
    · rename_i hpos
      exact not_le.mp hpos
  · rename_i hopens
    have hreducing : (s.tradeProposal env r ltp).isReducing = false := Bool.eq_false_iff.mpr hopens
    have hfunded : 0 < (Broker.getAccount s.broker).balance :=
      RiskEngine.funded_of_approved happroved hreducing
    rw [h.limits]
    exact RiskEngine.calculatePositionSize_pos hfunded (by norm_num) hstop (by simp)

end Book

namespace Issued

theorem untouched (h : s.Issued) (hs' : s.Untouched s') : s'.Issued := by
  intro symbol p n hp hprotective
  rw [hs'.position] at hp
  rw [hs'.nextId]
  exact h symbol p n hp hprotective

theorem stopMoved (h : s.Issued) (hs' : s.StopMoved r s') : s'.Issued := by
  intro symbol p n hp hprotective
  rw [hs'.position] at hp
  rw [hs'.broker]
  split at hp
  · obtain ⟨old, hold, rfl⟩ := Option.map_eq_some_iff.mp hp
    obtain ⟨-, -, -, -, -, hsame⟩ := withStop_fields old r
    exact h symbol old n hold (hsame.symm.trans hprotective)
  · exact h symbol p n hp hprotective

theorem filledAndGuarded (h : s.Issued) (hs' : s.FilledAndGuarded env r s') : s'.Issued := by
  obtain ⟨b, uuid, hwithdrawn, hbroker, hpositions⟩ := hs'.guarded
  have hposition := FilledAndGuarded.position hs'.user hpositions
  obtain ⟨-, -, hnext⟩ := s.broker.filled_frame (s.requestOrder env r).request r.fillPrice
  -- The fill took an id of the broker's, and the stop takes one more.
  have hlast : s'.broker.nextId =
      if (s.filledPosition r).wantsStop then s.broker.nextId + 2 else s.broker.nextId + 1 := by
    rw [hbroker, MockBroker.nextId_guardedFor hwithdrawn.wellFormed, hwithdrawn.nextId, hnext]
  intro symbol p n hp hnames
  rw [hlast]
  rw [hposition] at hp
  split at hp
  · -- The filled position names the id of its new stop, or none.
    cases hp
    cases hwants : (s.filledPosition r).wantsStop with
    | false => simp [PositionRecord.guardedBy, hwants] at hnames
    | true =>
      have hn : b.nextId = n := by simpa [PositionRecord.guardedBy, hwants] using hnames
      rw [← hn, hwithdrawn.nextId, hnext]
      exact Nat.lt_succ_self _
  · -- Another position names an older id.
    have hlt := h symbol p n hp hnames
    split
    · exact Nat.lt_succ_of_lt (Nat.lt_succ_of_lt hlt)
    · exact Nat.lt_succ_of_lt hlt

end Issued

/-! ## Layer D: One call -/

/-- The gate approves the request. -/
def Accepts (s : Stack MockBroker) (env : CallEnv) (r : PlaceOrderRequest) : Prop :=
  (s.gate env r).1 = .ok ()

/-- The gate approves the request, and its key is new. -/
def Enters (s : Stack MockBroker) (env : CallEnv) (r : PlaceOrderRequest) : Prop :=
  s.Accepts env r ∧ s.orderManager.lookup (r.idempotencyKey s.userId) = none

end Stack

namespace World

/-- What a call of `POST /orders` does to a world, by how it ends. -/
inductive CallEffect (w : World MockBroker) (env : CallEnv) (r : PlaceOrderRequest) :
    World MockBroker → Prop
  | refused {w' : World MockBroker} (hrefused : ¬ w.stack.Accepts env r)
      (hsame : w.stack.Untouched w'.stack) (hdb : w'.db = w.db) : CallEffect w env r w'
  | known {w' : World MockBroker} (haccepts : w.stack.Accepts env r)
      (hknown : w.stack.orderManager.lookup (r.idempotencyKey w.stack.userId) ≠ none)
      (hmoved : (w.stack.prepared env r).StopMoved r w'.stack)
      (htrades : w'.db.trades = w.db.trades) : CallEffect w env r w'
  | entered {w' : World MockBroker} (henters : w.stack.Enters env r)
      (hqty : 0 < w.stack.orderQuantity r)
      (hfilled : (w.stack.prepared env r).FilledAndGuarded env r w'.stack)
      (hjournal : w'.db.loadRealizedPnlSince .paper 0 =
        w.db.loadRealizedPnlSince .paper 0 + numeric (w.stack.realizes r)) : CallEffect w env r w'

/-- **One call.** Every call is refused, repeats a known request, or enters a new one. -/
theorem placeOrder_effect {w : World MockBroker} (h : w.stack.Book) (env : CallEnv)
    (r : PlaceOrderRequest) : CallEffect w env r (w.placeOrder env r).world := by
  have hbook : (w.stack.prepared env r).Book := h.untouched (w.stack.untouched_prepared env r)
  rcases w.stack.gate_cases env r with ⟨refusal, s, decision, hgate, hs, -⟩ |
    ⟨quote, decision, hgate, -, rfl, happroved⟩
  · have hworld : (w.placeOrder env r).world = { w with stack := s } := by
      unfold placeOrder
      rw [hgate]
    rw [hworld]
    refine .refused (by simp [Stack.Accepts, hgate]) ?_ rfl
    rcases hs with rfl | rfl | rfl
    · exact .refl _
    · exact w.stack.untouched_rolled env.now
    · exact w.stack.untouched_prepared env r
  · have hworld : (w.placeOrder env r).world =
        (settle (w.stack.prepared env r) w.db env r).2.1 := by
      unfold placeOrder
      rw [hgate]
    have haccepts : w.stack.Accepts env r := by simp [Stack.Accepts, hgate]
    rw [hworld]
    -- The key decides between a repeat, which moves the stop, and a new order.
    cases hlookup : w.stack.orderManager.lookup (r.idempotencyKey w.stack.userId) with
    | some order =>
      obtain ⟨hmoved, htrades⟩ := settle_known w.db env (s := w.stack.prepared env r) hlookup
      exact .known haccepts (by simp [hlookup]) hmoved htrades
    | none =>
      have hqty : 0 < (w.stack.prepared env r).orderQuantity r := hbook.orderQuantity_pos happroved
      obtain ⟨hfilled, hjournal⟩ := settle_fresh hbook w.db env hlookup
        (w.stack.quote_prepared env r) hqty
      exact .entered ⟨haccepts, hlookup⟩ hqty hfilled hjournal

/-- A call of `POST /orders`, with what it reads from outside. -/
abbrev OrderCall := CallEnv × PlaceOrderRequest

/-- The world after a call. -/
def orderStep (w : World MockBroker) (call : OrderCall) : World MockBroker :=
  (w.placeOrder call.1 call.2).world

theorem book_orderStep {w : World MockBroker} (h : w.stack.Book) (call : OrderCall) :
    (w.orderStep call).stack.Book := by
  have hprepared := h.untouched (w.stack.untouched_prepared call.1 call.2)
  unfold orderStep
  cases placeOrder_effect h call.1 call.2 with
  | refused _ hsame _ => exact h.untouched hsame
  | known _ _ hmoved _ => exact hprepared.stopMoved hmoved
  | entered _ _ hfilled _ => exact hprepared.filledAndGuarded hfilled

theorem issued_orderStep {w : World MockBroker} (h : w.stack.Book) (hissued : w.stack.Issued)
    (call : OrderCall) : (w.orderStep call).stack.Issued := by
  have hprepared := hissued.untouched (w.stack.untouched_prepared call.1 call.2)
  unfold orderStep
  cases placeOrder_effect h call.1 call.2 with
  | refused _ hsame _ => exact hissued.untouched hsame
  | known _ _ hmoved _ => exact hprepared.stopMoved hmoved
  | entered _ _ hfilled _ => exact hprepared.filledAndGuarded hfilled

/-- The world of an account whose stack has just been built from its rows. -/
def fresh (userId : AccountId) (db : Db) (nextId : ℕ) (now : Instant) : World MockBroker where
  stack := Stack.build userId (MockBroker.new 100000 nextId) db now
  db := db

/-- A stack just built over an empty broker has nothing resting. -/
theorem book_fresh (userId : AccountId) (db : Db) (nextId : ℕ) (now : Instant) :
    (fresh userId db nextId now).stack.Book where
  wellFormed := (MockBroker.wellFormed_new 100000 nextId).of_book
    (MockBroker.wellFormed_new 100000 nextId).noFlat ⟨_, _, _, rfl⟩
  limits := rfl
  guarded id request hid := by
    have hnone : (Dict.empty : Dict BrokerOrderId OrderRequest).get? id = some request := hid
    simp at hnone

end World

end SuperTrading
