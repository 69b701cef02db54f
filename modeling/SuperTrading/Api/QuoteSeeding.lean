import SuperTrading.Api.Options
import SuperTrading.Trading.MockBook

/-!
# Seeding Quotes from Requests

A request's own price reaches the mock broker as a quote, at one place in
`POST /orders` and at one in `POST /options/execute`, legs and unwinds alike. The
first is a seed and moves nothing; the second is taken for a market print and fires
every stop of the symbol that it crosses.

- **Layer A**: what the mock broker's quote calls leave alone
- **Layer B**: the writes of the two endpoints, and when they move nothing
-/

namespace SuperTrading

open SuperTrading.Logic

/-! ## Layer A: Quotes at the mock broker -/

/-- Resting orders, order statuses, positions' quantities and cash are the same. -/
structure MockBroker.Unmoved (b b' : MockBroker) : Prop where
  resting : b'.resting = b.resting
  statuses : ∀ id, (b'.orders.get? id).map BrokerOrder.status =
    (b.orders.get? id).map BrokerOrder.status
  quantities : ∀ symbol, (b'.positions.get? symbol).map BrokerPosition.quantity =
    (b.positions.get? symbol).map BrokerPosition.quantity
  cash : b'.balance = b.balance

namespace MockBroker

theorem Unmoved.trans {a b c : MockBroker} (hab : a.Unmoved b) (hbc : b.Unmoved c) :
    a.Unmoved c where
  resting := hbc.resting.trans hab.resting
  statuses id := (hbc.statuses id).trans (hab.statuses id)
  quantities symbol := (hbc.quantities symbol).trans (hab.quantities symbol)
  cash := hbc.cash.trans hab.cash

theorem unmoved_markToMarket (b : MockBroker) (symbol : Symbol) (ltp : ℚ) :
    b.Unmoved (b.markToMarket symbol ltp) where
  resting := rfl
  statuses _ := rfl
  quantities s := by
    show ((b.positions.modify symbol _).get? s).map _ = _
    rw [Dict.get?_modify]
    split
    · rw [Option.map_map]
      rfl
    · rfl
  cash := rfl

/-- A quote that is no market print moves nothing. -/
theorem unmoved_setQuote_seed (b : MockBroker) (symbol : Symbol) (ltp : ℚ) :
    b.Unmoved (b.setQuote symbol ltp false) := by
  have hquote : b.Unmoved { b with quotes := b.quotes.set symbol ⟨symbol, ltp⟩ } :=
    ⟨rfl, fun _ => rfl, fun _ => rfl, rfl⟩
  exact hquote.trans (unmoved_markToMarket ..)

/-- A stop that fires no longer rests. -/
theorem triggerRestingOrders_get?_of_fires {b : MockBroker} {symbol : Symbol} {ltp : ℚ}
    {e : BrokerOrderId × OrderRequest} (hmem : e ∈ b.resting.entries) (hsym : e.2.symbol = symbol)
    (hcross : crossed e.2 ltp = true) :
    (b.triggerRestingOrders symbol ltp).resting.get? e.1 = none := by
  -- Along the loop an id that is gone stays gone, and its own turn removes it.
  have hloop : ∀ (es : List (BrokerOrderId × OrderRequest)) (b : MockBroker),
      (e ∈ es ∨ b.resting.get? e.1 = none) →
      (es.foldl (fun b e => if e.2.symbol = symbol ∧ crossed e.2 ltp = true
        then b.fireResting e.1 e.2 ltp else b) b).resting.get? e.1 = none := by
    intro es
    induction es with
    | nil =>
      rintro b (h | h)
      · cases h
      · exact h
    | cons f es ih =>
      rintro b h
      rw [List.foldl_cons]
      apply ih
      rcases h with h | h
      · rcases List.mem_cons.mp h with rfl | h
        · right
          rw [if_pos ⟨hsym, hcross⟩, resting_fireResting, Dict.get?_erase_self]
        · exact Or.inl h
      · right
        split
        · rw [resting_fireResting, Dict.get?_erase]
          split
          · rfl
          · exact h
        · exact h
  exact hloop _ _ (Or.inl hmem)

/-- A market print moves nothing exactly if it crosses no resting stop. -/
theorem unmoved_setQuote_print_iff (b : MockBroker) (symbol : Symbol) (ltp : ℚ) :
    b.Unmoved (b.setQuote symbol ltp true) ↔ ¬ b.Fires symbol ltp := by
  have hseed := unmoved_setQuote_seed b symbol ltp
  set marked := b.setQuote symbol ltp false with hmarked
  have hprint : b.setQuote symbol ltp true =
      (marked.triggerRestingOrders symbol ltp).markToMarket symbol ltp := rfl
  have hfires : marked.Fires symbol ltp ↔ b.Fires symbol ltp := by
    unfold Fires
    rw [hseed.resting]
  constructor
  · -- A stop that fires leaves the resting book, which then is not the one before.
    rintro h ⟨e, hmem, hsym, hcross⟩
    have hgone := triggerRestingOrders_get?_of_fires (b := marked)
      (hseed.resting ▸ hmem) hsym hcross
    have hrest : (marked.triggerRestingOrders symbol ltp).resting = b.resting := by
      rw [← h.resting, hprint]
      rfl
    rw [hrest, (b.resting.mem_entries_iff (k := e.1) (v := e.2)).mp hmem] at hgone
    cases hgone
  · -- With nothing to fire, a print is a seed marked twice.
    intro h
    rw [hprint, triggerRestingOrders_of_not_fires (fun hf => h (hfires.mp hf))]
    exact hseed.trans (unmoved_markToMarket ..)

end MockBroker

/-! ## Layer B: The writes of the two endpoints -/

/-- A place where a price of the request becomes the broker's quote. -/
inductive PriceWrite
  | entry (env : CallEnv) (request : PlaceOrderRequest)
  | leg (leg : ResolvedLeg)
  | unwind (leg : OpenedLeg)

namespace PriceWrite

/-- The write, as the endpoint makes it. -/
def record (s : Stack MockBroker) : PriceWrite → Stack MockBroker
  | entry env request => s.prepared env request
  | leg l => s.seedPremium l.symbol l.premium
  | unwind l => s.seedPremium l.symbol l.premium

/-- The write is a premium that crosses a resting stop of its symbol. -/
def CrossesStop (b : MockBroker) : PriceWrite → Prop
  | entry _ _ => False
  | leg l => b.Fires l.symbol l.premium
  | unwind l => b.Fires l.symbol l.premium

end PriceWrite

/-- **When a client's price moves nothing.** Recording the price of a request as the
quote leaves resting orders, order statuses, positions and cash as they were exactly
if it is not a premium that crosses a resting stop of its symbol. -/
theorem priceWrite_unmoved_iff (s : Stack MockBroker) (write : PriceWrite) :
    s.broker.Unmoved (write.record s).broker ↔ ¬ write.CrossesStop s.broker := by
  cases write with
  | entry env request =>
    exact iff_of_true (MockBroker.unmoved_setQuote_seed ..) not_false
  | leg l => exact MockBroker.unmoved_setQuote_print_iff ..
  | unwind l => exact MockBroker.unmoved_setQuote_print_iff ..

/-- A long of 100 opened through `POST /orders` at 100, its stop resting at 95. -/
def guardedLong : Stack MockBroker :=
  (World.placeOrder { stack := Stack.build "u" (MockBroker.new 100000) {} 0 } { now := 0 }
    (.market "ACME-CE" .long 100 95)).world.stack

/-- A closing leg on the same contract, at a premium of 90. -/
def closingLeg : ResolvedLeg :=
  { symbol := "ACME-CE"
    direction := .short
    quantity := 1
    premium := 90
    quantity_range := ExecuteOptionLeg.quantity_range_one
    premium_range := by decide +kernel
    optionType := .call
    strike := 1000
    lotSize := 50
    lotSize_pos := ResolvedLeg.lotSize_pos_fifty }

/-- The premium of the closing leg fires the resting stop: the broker's long of 100
is gone before the leg has been submitted. -/
theorem closing_premium_fires_stop :
    guardedLong.broker.resting.entries.length = 1 ∧
    ((PriceWrite.leg closingLeg).record guardedLong).broker.resting.entries = [] ∧
    ¬ guardedLong.broker.Unmoved ((PriceWrite.leg closingLeg).record guardedLong).broker := by
  have hbefore : guardedLong.broker.resting.entries.length = 1 := by decide +kernel
  have hafter : ((PriceWrite.leg closingLeg).record guardedLong).broker.resting.entries = [] := by
    decide +kernel
  refine ⟨hbefore, hafter, fun h => ?_⟩
  rw [h.resting] at hafter
  rw [hafter] at hbefore
  cases hbefore

end SuperTrading
