import SuperTrading.Brokers.Base

/-!
# A Broker That Is Watched

Any broker, with a history of the orders that reached it. The history is outside
the process: no restart clears it.
-/

namespace SuperTrading

/-- An order as it reached the broker. -/
structure Arrival where
  time : Instant
  request : OrderRequest

structure Recording (β : Type) where
  inner : β
  clock : Instant
  arrivals : List Arrival := []

namespace Recording

variable {β : Type}

/-- Time passes. -/
def tick (b : Recording β) (elapsed : ℕ) : Recording β := { b with clock := b.clock + elapsed }

/-- When a key reached the broker as an entry order. Protective stops are the only
orders of type SL_M. -/
def uses (b : Recording β) (key : String) : List Instant :=
  (b.arrivals.filter fun a =>
    a.request.idempotencyKey = key ∧ a.request.orderType ≠ .slM).map Arrival.time

variable [Broker β]

instance : Broker (Recording β) where
  isMock := Broker.isMock β
  placeOrder b request :=
    ((Broker.placeOrder b.inner request).1,
      { b with
        inner := (Broker.placeOrder b.inner request).2
        arrivals := b.arrivals ++ [⟨b.clock, request⟩] })
  cancelOrder b id :=
    ((Broker.cancelOrder b.inner id).1, { b with inner := (Broker.cancelOrder b.inner id).2 })
  getOrders b := Broker.getOrders b.inner
  getPositions b := Broker.getPositions b.inner
  getAccount b := Broker.getAccount b.inner
  getQuote b := Broker.getQuote b.inner
  isHealthy b := Broker.isHealthy b.inner
  setQuote b symbol ltp isMarketPrint :=
    { b with inner := Broker.setQuote b.inner symbol ltp isMarketPrint }
  restoreRealizedPnl b pnl := { b with inner := Broker.restoreRealizedPnl b.inner pnl }
  reconnect b := { b with inner := Broker.reconnect b.inner }

/-- The same time, and the same entry orders so far. -/
structure Quiet (b b' : Recording β) : Prop where
  clock : b'.clock = b.clock
  uses : ∀ key, b'.uses key = b.uses key

omit [Broker β] in
theorem Quiet.refl (b : Recording β) : b.Quiet b := ⟨rfl, fun _ => rfl⟩

omit [Broker β] in
theorem Quiet.trans {a b c : Recording β} (h : a.Quiet b) (h' : b.Quiet c) : a.Quiet c :=
  ⟨h'.clock.trans h.clock, fun key => (h'.uses key).trans (h.uses key)⟩

omit [Broker β] in
/-- Whatever happens inside the broker is no entry order. -/
theorem quiet_inner (b : Recording β) (inner : β) : b.Quiet { b with inner := inner } :=
  ⟨rfl, fun _ => rfl⟩

/-- An order is an entry order of its own key, unless it is a stop. -/
theorem uses_placeOrder (b : Recording β) (request : OrderRequest) (key : String) :
    (Broker.placeOrder b request).2.uses key =
      b.uses key ++
        if request.idempotencyKey = key ∧ request.orderType ≠ .slM then [b.clock] else [] := by
  show List.map Arrival.time (List.filter _ (b.arrivals ++ [⟨b.clock, request⟩])) = _
  rw [List.filter_append, List.map_append]
  congr 1
  by_cases h : request.idempotencyKey = key ∧ request.orderType ≠ .slM
  · simp [h]
  · rw [if_neg h, List.filter_cons_of_neg (by simpa using h)]
    rfl

/-- A stop is quiet. -/
theorem quiet_placeOrder_stop (b : Recording β) (request : OrderRequest)
    (h : request.orderType = .slM) : b.Quiet (Broker.placeOrder b request).2 := by
  refine ⟨rfl, fun key => ?_⟩
  rw [uses_placeOrder, if_neg (by simp [h]), List.append_nil]

end Recording

end SuperTrading
