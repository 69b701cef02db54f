import SuperTrading.Brokers.Mock
import SuperTrading.Logic.Runs

/-!
# Marks of the Mock Broker

A position of `MockBroker` carries its open profit as `unrealized_pnl`, and the account's equity
is the cash and the sum of these. `set_quote` writes it, and so does a fill, except the fill that
opens the position: that one returns before the mark. The mark is then wrong until the next quote
if the fill was away from the last one.

- **Layer A**: calls, with the division that can raise in them
- **Layer B**: what one fill makes of a mark
- **Layer C**: the trigger loop
- **Layer D**: the calls
- **Layer E**: runs
-/

namespace SuperTrading

open SuperTrading.Logic

namespace MockBroker

/-! ## Layer A: Calls -/

/-- A fill of nothing averages over nothing in a position of nothing: `total_cost / new_quantity`
raises. -/
def fillRaises (b : MockBroker) (symbol : Symbol) (direction : Direction) (quantity : ℚ) : Bool :=
  match b.positions.get? symbol with
  | none => false
  | some position =>
    let signedQty := direction.signed quantity
    (decide (0 < position.quantity) == decide (0 < signedQty)) &&
      decide (position.quantity + signedQty = 0)

/-- `_apply_fill_to_position`, and whether it raised. Nothing is written before it does. -/
def tryFill (b : MockBroker) (symbol : Symbol) (direction : Direction) (quantity price : ℚ) :
    MockBroker × Bool :=
  if b.fillRaises symbol direction quantity then (b, true)
  else (b.applyFillToPosition symbol direction quantity price, false)

/-- A triggered stop leaves the resting book and its order is filled. -/
def unrest (b : MockBroker) (brokerOrderId : BrokerOrderId) (request : OrderRequest)
    (fillPrice : ℚ) : MockBroker :=
  { b with
    resting := b.resting.erase brokerOrderId
    orders := b.orders.modify brokerOrderId
      (fun o => { o with
        status := .filled
        filledQuantity := request.quantity
        averageFillPrice := some fillPrice }) }

/-- One turn of the trigger loop. -/
def tryFire (b : MockBroker) (brokerOrderId : BrokerOrderId) (request : OrderRequest) (ltp : ℚ) :
    MockBroker × Bool :=
  let fillPrice := restingFillPrice request ltp
  (b.unrest brokerOrderId request fillPrice).tryFill request.symbol request.direction
    request.quantity fillPrice

/-- The stops of a symbol that a price fires, in the order they were placed. -/
def triggered (resting : Dict BrokerOrderId OrderRequest) (symbol : Symbol) (ltp : ℚ) :
    List (BrokerOrderId × OrderRequest) :=
  resting.entries.filter fun e => e.2.symbol = symbol ∧ crossed e.2 ltp

/-- `_trigger_resting_orders`. A raise ends the loop. -/
def tryTriggerRestingOrders (b : MockBroker) (symbol : Symbol) (ltp : ℚ) : MockBroker × Bool :=
  runUntil (fun b e => b.tryFire e.1 e.2 ltp) b (triggered b.resting symbol ltp)

/-- The broker with a quote recorded and its position marked. -/
def quoted (b : MockBroker) (symbol : Symbol) (ltp : ℚ) : MockBroker :=
  let b := { b with quotes := b.quotes.set symbol { symbol := symbol, ltp := ltp } }
  b.markToMarket symbol ltp

/-- `set_quote`. After a raise the mark is not taken again. -/
def trySetQuote (b : MockBroker) (symbol : Symbol) (ltp : ℚ) (isMarketPrint : Bool) :
    MockBroker × Bool :=
  let b := b.quoted symbol ltp
  if isMarketPrint then
    let r := b.tryTriggerRestingOrders symbol ltp
    if r.2 then r else (r.1.markToMarket symbol ltp, false)
  else (b, false)

/-- The draw that rejects an order before it is looked at. -/
def drawRejection (b : MockBroker) : Bool × MockBroker :=
  if 0 < b.rejectProbability then
    let (draw, b) := b.roll
    (decide (draw < b.rejectProbability), b)
  else (false, b)

/-- The draws that leave a part of an order unfilled. -/
def drawFilled (b : MockBroker) (quantity : ℚ) : ℚ × MockBroker :=
  if 0 < b.partialFillProbability then
    let (draw, b) := b.roll
    if draw < b.partialFillProbability then
      let (share, b) := b.roll
      (round6 (quantity * (3 / 10 + (9 / 10 - 3 / 10) * share)), b)
    else (quantity, b)
  else (quantity, b)

/-- Does the order rest until its trigger is crossed? -/
def IsStop (request : OrderRequest) : Prop :=
  (request.orderType = .sl ∨ request.orderType = .slM) ∧ request.triggerPrice.isSome

instance (request : OrderRequest) : Decidable (IsStop request) :=
  inferInstanceAs (Decidable (_ ∧ _))

/-- `place_order` of a stop. -/
def tryPlaceStop (b : MockBroker) (brokerOrderId : BrokerOrderId) (request : OrderRequest) :
    MockBroker × Bool :=
  let b := { b with
    orders := b.orders.set brokerOrderId (bookEntry brokerOrderId request .acknowledged)
    resting := b.resting.set brokerOrderId request }
  match b.quotes.get? request.symbol with
  | some quote => b.tryTriggerRestingOrders request.symbol quote.ltp
  | none => (b, false)

/-- `place_order` of an order with a price. -/
def tryFillOrder (b : MockBroker) (brokerOrderId : BrokerOrderId) (request : OrderRequest)
    (fillPrice : ℚ) : MockBroker × Bool :=
  let (filledQuantity, b) := b.drawFilled request.quantity
  let status := if request.quantity ≤ filledQuantity then .filled else .partiallyFilled
  let b := { b with
    orders := b.orders.set brokerOrderId
      { bookEntry brokerOrderId request status with
        filledQuantity := filledQuantity
        averageFillPrice := some fillPrice } }
  b.tryFill request.symbol request.direction filledQuantity fillPrice

/-- `place_order`, and whether it raised. -/
def tryPlaceOrder (b : MockBroker) (request : OrderRequest) : MockBroker × Bool :=
  let (brokerOrderId, b) := b.uuid4
  let (rejected, b) := b.drawRejection
  if rejected then ((b.rejectOrder brokerOrderId request "Simulated rejection").2, false)
  else if IsStop request then b.tryPlaceStop brokerOrderId request
  else
    match b.resolveFillPrice request with
    | none => ((b.rejectOrder brokerOrderId request
        s!"No usable price for a {request.orderType.value} order on {request.symbol}").2, false)
    | some fillPrice => b.tryFillOrder brokerOrderId request fillPrice

/-- What is called on the broker. -/
inductive Call
  | setQuote (symbol : Symbol) (ltp : ℚ) (isMarketPrint : Bool)
  | placeOrder (request : OrderRequest)
  | cancelOrder (brokerOrderId : BrokerOrderId)
  deriving DecidableEq, Repr

/-- The broker after a call, and whether the call raised halfway. -/
def tryCall (b : MockBroker) : Call → MockBroker × Bool
  | .setQuote symbol ltp isMarketPrint => b.trySetQuote symbol ltp isMarketPrint
  | .placeOrder request => b.tryPlaceOrder request
  | .cancelOrder brokerOrderId => ((b.cancelOrder brokerOrderId).2, false)

def call (b : MockBroker) (c : Call) : MockBroker := (b.tryCall c).1

/-! Where nothing raises, the functions are those of the model without a division that can. -/

theorem fst_tryFill {b : MockBroker} {symbol : Symbol} {direction : Direction} {quantity price : ℚ}
    (h : (b.tryFill symbol direction quantity price).2 = false) :
    (b.tryFill symbol direction quantity price).1 =
      b.applyFillToPosition symbol direction quantity price := by
  unfold tryFill at h ⊢
  split
  · next hraises => simp [hraises] at h
  · rfl

theorem fst_tryFire {b : MockBroker} {brokerOrderId : BrokerOrderId} {request : OrderRequest}
    {ltp : ℚ} (h : (b.tryFire brokerOrderId request ltp).2 = false) :
    (b.tryFire brokerOrderId request ltp).1 = b.fireResting brokerOrderId request ltp :=
  fst_tryFill h

theorem fst_tryTriggerRestingOrders {b : MockBroker} {symbol : Symbol} {ltp : ℚ}
    (h : (b.tryTriggerRestingOrders symbol ltp).2 = false) :
    (b.tryTriggerRestingOrders symbol ltp).1 = b.triggerRestingOrders symbol ltp := by
  rw [tryTriggerRestingOrders, fst_runUntil (fun b e => fst_tryFire) h, run, triggered,
    List.foldl_filter, triggerRestingOrders]
  simp only [decide_eq_true_eq]

theorem trySetQuote_of_returns {b : MockBroker} {symbol : Symbol} {ltp : ℚ} {isMarketPrint : Bool}
    (h : (b.trySetQuote symbol ltp isMarketPrint).2 = false) :
    (b.trySetQuote symbol ltp isMarketPrint).1 = b.setQuote symbol ltp isMarketPrint := by
  cases isMarketPrint with
  | false => rfl
  | true =>
    simp only [trySetQuote, ↓reduceIte] at h ⊢
    split at h
    · next hraised =>
      rw [hraised] at h
      cases h
    · next hreturned =>
      rw [if_neg hreturned, fst_tryTriggerRestingOrders (Bool.eq_false_of_not_eq_true hreturned)]
      rfl

theorem tryPlaceStop_of_returns {b : MockBroker} {id : BrokerOrderId} {request : OrderRequest}
    (h : (b.tryPlaceStop id request).2 = false) :
    (b.tryPlaceStop id request).1 = b.placeStop id request := by
  unfold tryPlaceStop placeStop at *
  cases hquote : b.quotes.get? request.symbol with
  | none => simp only [hquote]
  | some quote =>
    simp only [hquote] at h ⊢
    exact fst_tryTriggerRestingOrders h

theorem tryFillOrder_of_returns {b : MockBroker} {id : BrokerOrderId} {request : OrderRequest}
    {fillPrice : ℚ} (h : (b.tryFillOrder id request fillPrice).2 = false) :
    (b.tryFillOrder id request fillPrice).1 = (b.fillOrder id request fillPrice).2 :=
  fst_tryFill h

theorem tryPlaceOrder_of_returns {b : MockBroker} {request : OrderRequest}
    (h : (b.tryPlaceOrder request).2 = false) :
    (b.tryPlaceOrder request).1 = (b.placeOrder request).2 := by
  have hplace : b.placeOrder request =
      let (id, b) := b.uuid4
      let (rejected, b) := b.drawRejection
      if rejected then b.rejectOrder id request "Simulated rejection"
      else if IsStop request then ((b.placeStop id request).bookedResult id, b.placeStop id request)
      else
        match b.resolveFillPrice request with
        | none => b.rejectOrder id request
            s!"No usable price for a {request.orderType.value} order on {request.symbol}"
        | some fillPrice => b.fillOrder id request fillPrice := rfl
  rw [hplace]
  -- Both take the same branches, one with the flag of a division by zero.
  unfold tryPlaceOrder at *
  dsimp only at h ⊢
  split
  · rfl
  · next haccepted =>
    rw [if_neg haccepted] at h
    split
    · next hstop =>
      rw [if_pos hstop] at h
      exact tryPlaceStop_of_returns h
    · next hstop =>
      rw [if_neg hstop] at h
      split
      · rfl
      · next fillPrice hprice =>
        rw [hprice] at h
        exact tryFillOrder_of_returns h

/-- The same call as the rest of the platform makes it, through the interface. -/
def interfaceCall (b : MockBroker) : Call → MockBroker
  | .setQuote symbol ltp isMarketPrint => Broker.setQuote b symbol ltp isMarketPrint
  | .placeOrder request => (Broker.placeOrder b request).2
  | .cancelOrder brokerOrderId => (Broker.cancelOrder b brokerOrderId).2

/-- A call that returns is the call of the interface. -/
theorem call_of_returns {b : MockBroker} {c : Call} (h : (b.tryCall c).2 = false) :
    b.call c = b.interfaceCall c := by
  cases c with
  | setQuote symbol ltp isMarketPrint => exact trySetQuote_of_returns h
  | placeOrder request => exact tryPlaceOrder_of_returns h
  | cancelOrder brokerOrderId => rfl

/-! ## Layer B: What one fill makes of a mark -/

/-- The quantity held of a symbol, if it has a position. -/
def held (b : MockBroker) (symbol : Symbol) : Option ℚ :=
  (b.positions.get? symbol).map BrokerPosition.quantity

/-- The quantity held after a fill. A position that goes flat is dropped. -/
def heldAfter (held : Option ℚ) (size : ℚ) : Option ℚ :=
  match held with
  | none => some size
  | some quantity => if quantity + size = 0 then none else some (quantity + size)

/-- The position of the symbol, if there is one, is marked at the price. -/
def MarkedAt (b : MockBroker) (symbol : Symbol) (ltp : ℚ) : Prop :=
  ∀ p, b.positions.get? symbol = some p → p.unrealizedPnl = (ltp - p.averagePrice) * p.quantity

/-- A position of nothing, or without a quote, is worth nothing. -/
def ZeroMarks (b : MockBroker) : Prop :=
  ∀ symbol p, b.positions.get? symbol = some p →
    b.quotes.get? symbol = none ∨ p.quantity = 0 → p.unrealizedPnl = 0

/-- All that a fill can do: it opens a position, raises, closes the position, or nets into it. -/
inductive FillOutcome (b : MockBroker) (symbol : Symbol) (size price : ℚ) : MockBroker × Bool → Prop
  | opened (hnone : b.positions.get? symbol = none) :
    FillOutcome b symbol size price
      ({ b with
          positions := b.positions.set symbol
            { symbol := symbol, quantity := size, averagePrice := price } }, false)
  | raised {p : BrokerPosition} (hsome : b.positions.get? symbol = some p)
      (hquantity : p.quantity = 0) (hsize : size = 0) :
    FillOutcome b symbol size price (b, true)
  | closed {p : BrokerPosition} (hsome : b.positions.get? symbol = some p) (hsize : size ≠ 0)
      (hflat : p.quantity + size = 0) (balance : ℚ) :
    FillOutcome b symbol size price
      ({ b with
          balance := balance
          positions := b.positions.erase symbol }, false)
  | netted {p : BrokerPosition} (hsome : b.positions.get? symbol = some p)
      (hopen : p.quantity + size ≠ 0) (balance averagePrice : ℚ) :
    FillOutcome b symbol size price
      ({ b with
          balance := balance
          positions := b.positions.set symbol
            { p with
              quantity := p.quantity + size
              averagePrice := averagePrice
              unrealizedPnl := (b.quotes.get? symbol).elim p.unrealizedPnl fun quote =>
                (quote.ltp - averagePrice) * (p.quantity + size) } }, false)

theorem fillRaises_iff {b : MockBroker} {symbol : Symbol} {direction : Direction} {quantity : ℚ}
    {p : BrokerPosition} (h : b.positions.get? symbol = some p) :
    b.fillRaises symbol direction quantity = true ↔
      p.quantity = 0 ∧ direction.signed quantity = 0 := by
  simp only [fillRaises, h, Bool.and_eq_true, beq_iff_eq, decide_eq_decide, decide_eq_true_eq]
  constructor
  · rintro ⟨hside, hsum⟩
    -- Opposites on one side of zero are zero.
    rcases lt_trichotomy p.quantity 0 with hneg | hzero | hpos
    · exact absurd (hside.mpr (by linarith)) (not_lt_of_gt hneg)
    · exact ⟨hzero, by linarith⟩
    · exact absurd (hside.mp hpos) (not_lt.mpr (by linarith))
  · rintro ⟨hquantity, hsize⟩
    simp [hquantity, hsize]

theorem tryFill_outcome (b : MockBroker) (symbol : Symbol) (direction : Direction)
    (quantity price : ℚ) :
    FillOutcome b symbol (direction.signed quantity) price
      (b.tryFill symbol direction quantity price) := by
  unfold tryFill
  cases hget : b.positions.get? symbol with
  | none =>
    have hraises : b.fillRaises symbol direction quantity = false := by simp [fillRaises, hget]
    simp only [hraises, Bool.false_eq_true, if_false, applyFillToPosition, hget]
    exact .opened hget
  | some p =>
    by_cases hraises : b.fillRaises symbol direction quantity = true
    · -- A fill of nothing on a flat record divides by zero.
      obtain ⟨hquantity, hsize⟩ := (fillRaises_iff hget).mp hraises
      rw [if_pos hraises]
      exact .raised hget hquantity hsize
    · rw [if_neg hraises]
      rw [fillRaises_iff hget] at hraises
      simp only [applyFillToPosition, hget]
      by_cases hflat : p.quantity + direction.signed quantity = 0
      · rw [if_pos hflat]
        refine .closed hget (fun hsize => hraises ⟨?_, hsize⟩) hflat _
        rw [hsize, add_zero] at hflat
        exact hflat
      · rw [if_neg hflat]
        have hnetted := @FillOutcome.netted b symbol (direction.signed quantity) price p hget hflat
        cases hquote : b.quotes.get? symbol with
        | none =>
          simp only [hquote, Option.elim_none] at hnetted
          exact hnetted _ _
        | some quote =>
          simp only [hquote, Option.elim_some] at hnetted
          simp only [markToMarket, Dict.modify, Dict.get?_set_self, Dict.set_set]
          exact hnetted _ _

/-- Does the last of the fills open the position, and away from the price? -/
def opensOff (ltp : ℚ) : Option ℚ → List (ℚ × ℚ) → Bool
  | _, [] => false
  | held, (size, price) :: fills =>
    -- A raise ends the fills, and one of nothing leaves nothing to mark.
    if held = some 0 ∧ size = 0 then false
    else if fills = [] then decide (held = none ∧ size ≠ 0 ∧ price ≠ ltp)
    else opensOff ltp (heldAfter held size) fills

namespace FillOutcome

variable {b : MockBroker} {symbol : Symbol} {size price : ℚ} {r : MockBroker × Bool}

theorem quotes (h : FillOutcome b symbol size price r) : r.1.quotes = b.quotes := by
  cases h <;> rfl

theorem others (h : FillOutcome b symbol size price r) {j : Symbol} (hj : j ≠ symbol) :
    r.1.positions.get? j = b.positions.get? j := by
  cases h with
  | opened hnone => exact Dict.get?_set_of_ne _ hj.symm _
  | raised hsome hquantity hsize => rfl
  | closed hsome hsize hflat balance => exact Dict.get?_erase_of_ne _ hj.symm
  | netted hsome hopen balance averagePrice => exact Dict.get?_set_of_ne _ hj.symm _

/-- A raise leaves a position of nothing. -/
theorem of_raised (h : FillOutcome b symbol size price r) (hraised : r.2 = true) :
    r.1 = b ∧ b.held symbol = some 0 ∧ size = 0 := by
  cases h with
  | raised hsome hquantity hsize =>
    exact ⟨rfl, by rw [held, hsome, Option.map_some, hquantity], hsize⟩
  | opened hnone => cases hraised
  | closed hsome hsize hflat balance => cases hraised
  | netted hsome hopen balance averagePrice => cases hraised

theorem held_eq (h : FillOutcome b symbol size price r) (hreturned : r.2 = false) :
    r.1.held symbol = heldAfter (b.held symbol) size ∧ ¬ (b.held symbol = some 0 ∧ size = 0) := by
  cases h with
  | raised hsome hquantity hsize => cases hreturned
  | opened hnone => simp [held, heldAfter, hnone]
  | closed hsome hsize hflat balance => simp [held, heldAfter, hsome, hsize, hflat]
  | netted hsome hopen balance averagePrice =>
    refine ⟨by simp [held, heldAfter, hsome, hopen], ?_⟩
    rintro ⟨hzero, hsize⟩
    simp only [held, hsome, Option.map_some, Option.some.injEq] at hzero
    exact hopen (by rw [hzero, hsize, add_zero])

/-- Only a position that was there is marked. One that is opened shows no profit. -/
theorem markedAt_iff (h : FillOutcome b symbol size price r) (hreturned : r.2 = false)
    {quote : Quote} (hquote : b.quotes.get? symbol = some quote) :
    r.1.MarkedAt symbol quote.ltp ↔ ¬ (b.held symbol = none ∧ size ≠ 0 ∧ price ≠ quote.ltp) := by
  cases h with
  | raised hsome hquantity hsize => cases hreturned
  | opened hnone =>
    -- Zero is the right mark on the quote, and for a fill of nothing.
    simp only [MarkedAt, Dict.get?_set_self, Option.some.injEq, forall_eq', held, hnone,
      Option.map_none, true_and, not_and_or, not_not]
    rw [eq_comm, mul_eq_zero, sub_eq_zero, or_comm, eq_comm (a := quote.ltp)]
  | closed hsome hsize hflat balance => simp [MarkedAt, held, hsome]
  | netted hsome hopen balance averagePrice => simp [MarkedAt, held, hsome, hquote]

theorem zeroMarks (h : FillOutcome b symbol size price r) (hb : b.ZeroMarks) : r.1.ZeroMarks := by
  intro j p hp hzero
  by_cases hj : j = symbol
  · subst hj
    cases h with
    | raised hsome hquantity hsize => exact hb j p hp hzero
    | opened hnone =>
      rw [Dict.get?_set_self, Option.some.injEq] at hp
      rw [← hp]
    | closed hsome hsize hflat balance =>
      rw [Dict.get?_erase_self] at hp
      cases hp
    | netted hsome hopen balance averagePrice =>
      rw [Dict.get?_set_self, Option.some.injEq] at hp
      subst hp
      -- A netted position is not flat, so that only the want of a quote is left.
      rcases hzero with hnone | hquantity
      · dsimp only at hnone ⊢
        rw [hnone, Option.elim_none]
        exact hb j _ hsome (.inl hnone)
      · exact absurd hquantity hopen
  · rw [h.others hj] at hp
    rw [h.quotes] at hzero
    exact hb j p hp hzero

end FillOutcome

/-! ## Layer C: The trigger loop -/

/-- What the fills of a symbol do to the marks, whatever else is written between them. -/
structure Fills (b : MockBroker) (symbol : Symbol) (fills : List (ℚ × ℚ)) (r : MockBroker × Bool) :
    Prop where
  quotes : r.1.quotes = b.quotes
  others : ∀ j, j ≠ symbol → r.1.positions.get? j = b.positions.get? j
  zeroMarks : b.ZeroMarks → r.1.ZeroMarks
  raised : r.2 = true → r.1.held symbol = some 0
  markedAt_iff : ∀ quote, b.quotes.get? symbol = some quote → b.ZeroMarks → fills ≠ [] →
    (r.1.MarkedAt symbol quote.ltp ↔ opensOff quote.ltp (b.held symbol) fills = false)
  unmoved : fills = [] → r.1.positions = b.positions

/-- A position of nothing is marked at any price. -/
theorem ZeroMarks.markedAt {b : MockBroker} (h : b.ZeroMarks) {symbol : Symbol}
    (hheld : b.held symbol = some 0) (ltp : ℚ) : b.MarkedAt symbol ltp := by
  intro p hp
  rw [held, hp, Option.map_some, Option.some.injEq] at hheld
  rw [h symbol p hp (.inr hheld), hheld, mul_zero]

theorem ZeroMarks.congr {b b' : MockBroker} (h : b.ZeroMarks)
    (hpositions : b'.positions = b.positions) (hquotes : b'.quotes = b.quotes) : b'.ZeroMarks := by
  unfold ZeroMarks
  rw [hpositions, hquotes]
  exact h

namespace Fills

variable {b : MockBroker} {symbol : Symbol} {fills : List (ℚ × ℚ)} {r : MockBroker × Bool}

/-- Orders, resting stops and draws have no part in it. -/
theorem of_same {b' : MockBroker} (h : Fills b' symbol fills r)
    (hpositions : b'.positions = b.positions) (hquotes : b'.quotes = b.quotes) :
    Fills b symbol fills r where
  quotes := h.quotes.trans hquotes
  others j hj := by rw [h.others j hj, hpositions]
  zeroMarks hb := h.zeroMarks (hb.congr hpositions hquotes)
  raised := h.raised
  markedAt_iff quote hquote hb hne := by
    rw [h.markedAt_iff quote (hquotes ▸ hquote) (hb.congr hpositions hquotes) hne, held, hpositions,
      held]
  unmoved hnil := (h.unmoved hnil).trans hpositions

theorem nil (b : MockBroker) (symbol : Symbol) : Fills b symbol [] (b, false) where
  quotes := rfl
  others _ _ := rfl
  zeroMarks hb := hb
  raised hraised := by cases hraised
  markedAt_iff _ _ _ hne := absurd rfl hne
  unmoved _ := rfl

/-- One fill, and the others after it unless it raised. -/
theorem cons {size price : ℚ} {r' : MockBroker × Bool} (hfill : FillOutcome b symbol size price r)
    (hrest : Fills r.1 symbol fills r') :
    Fills b symbol ((size, price) :: fills) (if r.2 then r else r') where
  quotes := by
    split
    · exact hfill.quotes
    · exact hrest.quotes.trans hfill.quotes
  others j hj := by
    split
    · exact hfill.others hj
    · exact (hrest.others j hj).trans (hfill.others hj)
  zeroMarks hb := by
    split
    · exact hfill.zeroMarks hb
    · exact hrest.zeroMarks (hfill.zeroMarks hb)
  -- What raised is the first fill that did, and it left the book as it was.
  raised hraised := by
    split at hraised
    · next hfirst =>
      obtain ⟨hsame, hheld, -⟩ := hfill.of_raised hfirst
      rw [if_pos hfirst, hsame, hheld]
    · next hfirst =>
      rw [if_neg hfirst]
      exact hrest.raised hraised
  -- The position is marked at the quote unless the last fill opened it off the mark.
  markedAt_iff quote hquote hb _ := by
    rw [opensOff]
    cases hfirst : r.2 with
    | true =>
      obtain ⟨hsame, hheld, hsize⟩ := hfill.of_raised hfirst
      rw [if_pos rfl, if_pos ⟨hheld, hsize⟩, hsame]
      exact iff_of_true (hb.markedAt hheld quote.ltp) rfl
    | false =>
      obtain ⟨hheld, hnotZero⟩ := hfill.held_eq hfirst
      rw [if_neg Bool.false_ne_true, if_neg hnotZero]
      by_cases hlast : fills = []
      · -- The last fill decides.
        rw [if_pos hlast, decide_eq_false_iff_not, ← hfill.markedAt_iff hfirst hquote, MarkedAt,
          hrest.unmoved hlast, MarkedAt]
      · rw [if_neg hlast, ← hheld]
        exact hrest.markedAt_iff quote (hfill.quotes ▸ hquote) (hfill.zeroMarks hb) hlast
  unmoved hnil := by cases hnil

/-- One fill alone. -/
theorem single {size price : ℚ} (hfill : FillOutcome b symbol size price r) :
    Fills b symbol [(size, price)] r := by
  have hcons := cons hfill (nil r.1 symbol)
  cases hraised : r.2 with
  | true => rwa [hraised, if_pos rfl] at hcons
  | false =>
    rw [hraised, if_neg Bool.false_ne_true, ← hraised] at hcons
    exact hcons

end Fills

/-- What a stop fills, as a size and a price. -/
def stopFill (ltp : ℚ) (e : BrokerOrderId × OrderRequest) : ℚ × ℚ :=
  (e.2.direction.signed e.2.quantity, restingFillPrice e.2 ltp)

/-- The loop fills one stop after the other. -/
theorem runUntil_fills {symbol : Symbol} {ltp : ℚ} {es : List (BrokerOrderId × OrderRequest)}
    (hsymbol : ∀ e ∈ es, e.2.symbol = symbol) (b : MockBroker) :
    Fills b symbol (es.map (stopFill ltp)) (runUntil (fun b e => b.tryFire e.1 e.2 ltp) b es) := by
  induction es generalizing b with
  | nil => exact Fills.nil b symbol
  | cons e es ih =>
    obtain ⟨hhead, htail⟩ := List.forall_mem_cons.mp hsymbol
    rw [runUntil, List.map_cons]
    have hfill := tryFill_outcome (b.unrest e.1 e.2 (restingFillPrice e.2 ltp)) e.2.symbol
      e.2.direction e.2.quantity (restingFillPrice e.2 ltp)
    rw [hhead] at hfill
    -- The stop leaves the book before its fill, and no mark depends on that.
    have hcons := (Fills.cons hfill (ih htail _)).of_same (b := b) rfl rfl
    rw [← hhead] at hcons ⊢
    exact hcons

theorem tryTriggerRestingOrders_fills (b : MockBroker) (symbol : Symbol) (ltp : ℚ) :
    Fills b symbol ((triggered b.resting symbol ltp).map (stopFill ltp))
      (b.tryTriggerRestingOrders symbol ltp) := by
  apply runUntil_fills
  intro e he
  rw [triggered, List.mem_filter, decide_eq_true_eq] at he
  exact he.2.1

/-! ## Layer D: The calls -/

/-- The fills that an order sets off at once: its own, or those of the stops that the last quote
fires when it is one. -/
def setOff (b : MockBroker) (request : OrderRequest) : List (ℚ × ℚ) :=
  let (brokerOrderId, b) := b.uuid4
  let (rejected, b) := b.drawRejection
  if rejected then []
  else if IsStop request then
    match b.quotes.get? request.symbol with
    | some quote =>
      (triggered (b.resting.set brokerOrderId request) request.symbol quote.ltp).map
        (stopFill quote.ltp)
    | none => []
  else
    match b.resolveFillPrice request with
    | none => []
    | some fillPrice => [(request.direction.signed (b.drawFilled request.quantity).1, fillPrice)]

/-- Does the call not end with a fill that opens a position away from the last quote? -/
def opensOnQuote (b : MockBroker) : Call → Bool
  | .placeOrder request =>
    (b.quotes.get? request.symbol).all fun quote =>
      !opensOff quote.ltp (b.held request.symbol) (b.setOff request)
  | _ => true

/-- Open profit at the last quotes. A position without a quote shows none. -/
def openPnl (b : MockBroker) : ℚ :=
  (b.positions.entries.map fun e =>
    (b.quotes.get? e.1).elim 0 fun quote => (quote.ltp - e.2.averagePrice) * e.2.quantity).sum

/-- Every position with a quote is marked at it, and the equity is what the quotes make it. -/
structure MarksCurrent (b : MockBroker) : Prop where
  marks : ∀ symbol quote, b.quotes.get? symbol = some quote → b.MarkedAt symbol quote.ltp
  equity : b.getAccount.equity = b.balance + b.openPnl

theorem equity_eq {b : MockBroker} (hzero : b.ZeroMarks)
    (hmarks : ∀ symbol quote, b.quotes.get? symbol = some quote → b.MarkedAt symbol quote.ltp) :
    b.getAccount.equity = b.balance + b.openPnl := by
  show b.balance + (b.positions.values.map BrokerPosition.unrealizedPnl).sum = _
  rw [Dict.values, List.map_map, openPnl]
  congr 2
  apply List.map_congr_left
  intro e he
  have hget : b.positions.get? e.1 = some e.2 := (Dict.mem_entries_iff _).mp he
  cases hquote : b.quotes.get? e.1 with
  | none => exact hzero e.1 e.2 hget (.inl hquote)
  | some quote => exact hmarks e.1 quote hquote e.2 hget

section Draws

variable (b : MockBroker)

theorem drawRejection_frame :
    b.drawRejection.2.positions = b.positions ∧ b.drawRejection.2.quotes = b.quotes := by
  unfold drawRejection
  split
  · exact ⟨rfl, rfl⟩
  · exact ⟨rfl, rfl⟩

theorem drawFilled_frame (quantity : ℚ) :
    (b.drawFilled quantity).2.positions = b.positions ∧
      (b.drawFilled quantity).2.quotes = b.quotes := by
  unfold drawFilled
  dsimp only
  split
  · split
    · exact ⟨rfl, rfl⟩
    · exact ⟨rfl, rfl⟩
  · exact ⟨rfl, rfl⟩

end Draws

theorem tryFillOrder_fills (b : MockBroker) (id : BrokerOrderId) (request : OrderRequest)
    (fillPrice : ℚ) :
    Fills b request.symbol
      [(request.direction.signed (b.drawFilled request.quantity).1, fillPrice)]
      (b.tryFillOrder id request fillPrice) := by
  obtain ⟨hpositions, hquotes⟩ := b.drawFilled_frame request.quantity
  exact (Fills.single (tryFill_outcome ..)).of_same hpositions hquotes

theorem tryPlaceOrder_fills (b : MockBroker) (request : OrderRequest) :
    Fills b request.symbol (b.setOff request) (b.tryPlaceOrder request) := by
  obtain ⟨hpositions, hquotes⟩ := b.uuid4.2.drawRejection_frame
  -- The draws change neither positions nor quotes.
  suffices hdrawn : Fills b.uuid4.2.drawRejection.2 request.symbol (b.setOff request)
      (b.tryPlaceOrder request) from hdrawn.of_same hpositions hquotes
  unfold setOff tryPlaceOrder
  dsimp only
  generalize b.uuid4.2.drawRejection = drawn
  generalize b.uuid4.1 = id
  obtain ⟨rejected, b⟩ := drawn
  dsimp only
  cases rejected with
  | true => exact (Fills.nil _ _).of_same rfl rfl
  | false =>
    simp only [Bool.false_eq_true, if_false]
    split
    · unfold tryPlaceStop
      cases hquote : b.quotes.get? request.symbol with
      | none =>
        simp only [hquote]
        exact (Fills.nil _ _).of_same rfl rfl
      | some quote =>
        simp only [hquote]
        have htrigger := tryTriggerRestingOrders_fills
          { b with
            orders := b.orders.set id (bookEntry id request .acknowledged)
            resting := b.resting.set id request } request.symbol quote.ltp
        exact htrigger.of_same rfl rfl
    · cases b.resolveFillPrice request with
      | none => exact (Fills.nil _ _).of_same rfl rfl
      | some fillPrice => exact tryFillOrder_fills ..

/-- A position is marked at the price it was marked to, and the others are left alone. -/
theorem markToMarket_frame (b : MockBroker) (symbol : Symbol) (ltp : ℚ) :
    (b.markToMarket symbol ltp).MarkedAt symbol ltp ∧
      ∀ j, j ≠ symbol → (b.markToMarket symbol ltp).positions.get? j = b.positions.get? j := by
  constructor
  · intro p hp
    rw [markToMarket, Dict.get?_modify, if_pos rfl] at hp
    obtain ⟨p', -, rfl⟩ := Option.map_eq_some_iff.mp hp
    rfl
  · intro j hj
    exact (Dict.get?_modify ..).trans (if_neg hj.symm)

theorem ZeroMarks.markToMarket {b : MockBroker} (h : b.ZeroMarks) {symbol : Symbol} {quote : Quote}
    (hquote : b.quotes.get? symbol = some quote) (ltp : ℚ) :
    (b.markToMarket symbol ltp).ZeroMarks := by
  intro j p hp hzero
  by_cases hj : j = symbol
  · subst hj
    rcases hzero with hnone | hquantity
    · cases hquote.symm.trans hnone
    · rw [(b.markToMarket_frame j ltp).1 p hp, hquantity, mul_zero]
  · rw [(b.markToMarket_frame symbol ltp).2 j hj] at hp
    exact h j p hp hzero

/-- A broker with one more quote. -/
theorem ZeroMarks.setQuotes {b : MockBroker} (h : b.ZeroMarks) (symbol : Symbol) (quote : Quote) :
    ({ b with quotes := b.quotes.set symbol quote } : MockBroker).ZeroMarks := by
  intro j p hp hzero
  apply h j p hp
  rw [Dict.get?_set] at hzero
  split at hzero
  · exact .inr (hzero.resolve_left (Option.some_ne_none _))
  · exact hzero

theorem quoted_frame (b : MockBroker) (symbol : Symbol) (ltp : ℚ) :
    (b.quoted symbol ltp).MarkedAt symbol ltp ∧
      ∀ j, j ≠ symbol → (b.quoted symbol ltp).positions.get? j = b.positions.get? j :=
  markToMarket_frame { b with quotes := b.quotes.set symbol { symbol := symbol, ltp := ltp } }
    symbol ltp

theorem quotes_quoted (b : MockBroker) (symbol : Symbol) (ltp : ℚ) :
    (b.quoted symbol ltp).quotes = b.quotes.set symbol { symbol := symbol, ltp := ltp } := rfl

theorem ZeroMarks.quoted {b : MockBroker} (h : b.ZeroMarks) (symbol : Symbol) (ltp : ℚ) :
    (b.quoted symbol ltp).ZeroMarks :=
  (h.setQuotes symbol { symbol := symbol, ltp := ltp }).markToMarket (Dict.get?_set_self ..) ltp

/-- A quote marks its symbol, whatever its print sets off. -/
theorem trySetQuote_spec {b : MockBroker} (h : b.ZeroMarks) (symbol : Symbol) (ltp : ℚ)
    (isMarketPrint : Bool) :
    (b.trySetQuote symbol ltp isMarketPrint).1.ZeroMarks ∧
    (b.trySetQuote symbol ltp isMarketPrint).1.quotes =
      b.quotes.set symbol { symbol := symbol, ltp := ltp } ∧
    (b.trySetQuote symbol ltp isMarketPrint).1.MarkedAt symbol ltp ∧
    ∀ j, j ≠ symbol →
      (b.trySetQuote symbol ltp isMarketPrint).1.positions.get? j = b.positions.get? j := by
  have hquoted := h.quoted symbol ltp
  obtain ⟨hmarked, hothers⟩ := b.quoted_frame symbol ltp
  have hfills := (b.quoted symbol ltp).tryTriggerRestingOrders_fills symbol ltp
  unfold trySetQuote
  cases isMarketPrint with
  | false => exact ⟨hquoted, rfl, hmarked, hothers⟩
  | true =>
    have hzero := hfills.zeroMarks hquoted
    simp only [↓reduceIte]
    split
    · next hraised =>
      -- A raise leaves the marking out, on a record of nothing.
      refine ⟨hzero, hfills.quotes, hzero.markedAt (hfills.raised hraised) ltp, ?_⟩
      exact fun j hj => (hfills.others j hj).trans (hothers j hj)
    · obtain ⟨hmarked', hothers'⟩ := markToMarket_frame
        ((b.quoted symbol ltp).tryTriggerRestingOrders symbol ltp).1 symbol ltp
      have hquote : ((b.quoted symbol ltp).tryTriggerRestingOrders symbol ltp).1.quotes.get?
          symbol = some { symbol := symbol, ltp := ltp } := by
        rw [hfills.quotes, quotes_quoted, Dict.get?_set_self]
      refine ⟨hzero.markToMarket hquote ltp, hfills.quotes, hmarked', ?_⟩
      exact fun j hj => (hothers' j hj).trans ((hfills.others j hj).trans (hothers j hj))

theorem cancelOrder_frame (b : MockBroker) (id : BrokerOrderId) :
    (b.cancelOrder id).2.positions = b.positions ∧ (b.cancelOrder id).2.quotes = b.quotes := by
  unfold cancelOrder
  split
  · exact ⟨rfl, rfl⟩
  · split
    · exact ⟨rfl, rfl⟩
    · exact ⟨rfl, rfl⟩

/-! ## Layer E: Runs -/

theorem zeroMarks_call {b : MockBroker} (h : b.ZeroMarks) (c : Call) : (b.call c).ZeroMarks := by
  cases c with
  | setQuote symbol ltp isMarketPrint => exact (trySetQuote_spec h symbol ltp isMarketPrint).1
  | placeOrder request => exact (b.tryPlaceOrder_fills request).zeroMarks h
  | cancelOrder id =>
    obtain ⟨hpositions, hquotes⟩ := b.cancelOrder_frame id
    exact h.congr hpositions hquotes

/-- The marks that depend on the positions and the quotes, and on no more. -/
theorem MarkedAt.congr {b b' : MockBroker} {symbol : Symbol} {ltp : ℚ} (h : b.MarkedAt symbol ltp)
    (hsame : b'.positions.get? symbol = b.positions.get? symbol) : b'.MarkedAt symbol ltp :=
  fun p hp => h p (hsame ▸ hp)

/-- After fills the marks are right exactly when the last one did not open a position off the
quote. -/
theorem Fills.marks_iff {b : MockBroker} {symbol : Symbol} {fills : List (ℚ × ℚ)}
    {r : MockBroker × Bool} (hfills : Fills b symbol fills r) (hzero : b.ZeroMarks)
    (hmarks : ∀ symbol quote, b.quotes.get? symbol = some quote → b.MarkedAt symbol quote.ltp) :
    (∀ symbol quote, r.1.quotes.get? symbol = some quote → r.1.MarkedAt symbol quote.ltp) ↔
      ∀ quote, b.quotes.get? symbol = some quote →
        opensOff quote.ltp (b.held symbol) fills = false := by
  rw [hfills.quotes]
  -- Only the symbol of the fills is in question, and only if there are any.
  have hsymbol : ∀ quote, b.quotes.get? symbol = some quote →
      (r.1.MarkedAt symbol quote.ltp ↔ opensOff quote.ltp (b.held symbol) fills = false) := by
    intro quote hquote
    by_cases hnil : fills = []
    · refine iff_of_true ((hmarks symbol quote hquote).congr ?_) (by rw [hnil, opensOff])
      rw [hfills.unmoved hnil]
    · exact hfills.markedAt_iff quote hquote hzero hnil
  constructor
  · exact fun h quote hquote => (hsymbol quote hquote).mp (h symbol quote hquote)
  · intro h j quote hquote
    by_cases hj : j = symbol
    · subst hj
      exact (hsymbol quote hquote).mpr (h quote hquote)
    · exact (hmarks j quote hquote).congr (hfills.others j hj)

/-- One call keeps the marks current exactly when it does not open a position off the quote. -/
theorem marksCurrent_call_iff {b : MockBroker} (hzero : b.ZeroMarks) (h : b.MarksCurrent)
    (c : Call) : (b.call c).MarksCurrent ↔ b.opensOnQuote c = true := by
  -- Equity follows from the marks, so that the marks are all there is to show.
  suffices hmarks : (∀ symbol quote, (b.call c).quotes.get? symbol = some quote →
      (b.call c).MarkedAt symbol quote.ltp) ↔ b.opensOnQuote c = true by
    rw [← hmarks]
    exact ⟨fun hcurrent => hcurrent.marks,
      fun hmarks => ⟨hmarks, equity_eq (zeroMarks_call hzero c) hmarks⟩⟩
  cases c with
  | setQuote symbol ltp isMarketPrint =>
    obtain ⟨-, hquotes, hmarked, hothers⟩ := trySetQuote_spec hzero symbol ltp isMarketPrint
    refine iff_of_true ?_ rfl
    intro j quote hquote
    rw [call, tryCall, hquotes, Dict.get?_set] at hquote
    split at hquote
    · next hj =>
      cases hquote
      exact hj ▸ hmarked
    · next hj => exact (h.marks j quote hquote).congr (hothers j (Ne.symm hj))
  | placeOrder request =>
    have hmarks := (b.tryPlaceOrder_fills request).marks_iff hzero h.marks
    rw [call, tryCall, hmarks, opensOnQuote, Option.all_eq_true]
    simp only [Bool.not_eq_true']
  | cancelOrder id =>
    obtain ⟨hpositions, hquotes⟩ := b.cancelOrder_frame id
    refine iff_of_true ?_ rfl
    intro j quote hquote
    rw [call, tryCall, hquotes] at hquote
    exact (h.marks j quote hquote).congr (by rw [call, tryCall, hpositions])

/-- `MockBroker(...)`, with any chances, and any draws to come. -/
def fresh (startingBalance slippagePct rejectProbability partialFillProbability : ℚ)
    (rolls : List ℚ) : MockBroker :=
  { new startingBalance with
    slippagePct := slippagePct
    rejectProbability := rejectProbability
    partialFillProbability := partialFillProbability
    rolls := rolls }

section Fresh

variable (startingBalance slippagePct rejectProbability partialFillProbability : ℚ) (rolls : List ℚ)

theorem zeroMarks_fresh :
    (fresh startingBalance slippagePct rejectProbability partialFillProbability
      rolls).ZeroMarks := by
  intro symbol p hp
  cases hp

theorem marksCurrent_fresh :
    (fresh startingBalance slippagePct rejectProbability partialFillProbability
      rolls).MarksCurrent := by
  refine ⟨?_, ?_⟩
  · intro symbol quote hquote
    cases hquote
  · simp [fresh, new, getAccount, openPnl, Dict.values, Dict.empty]

/-- **Marks are current** in every state of a run exactly when no order of it ends with a fill that
opens a position away from the last quote. -/
theorem marksCurrent_iff (calls : List Call) :
    let b := fresh startingBalance slippagePct rejectProbability partialFillProbability rolls
    Throughout call MarksCurrent b calls ↔
      Each call (fun b c => b.opensOnQuote c = true) b calls := by
  apply throughout_iff_each (I := ZeroMarks)
  · exact fun b c hb _ _ => zeroMarks_call hb c
  · exact fun b c hb h => marksCurrent_call_iff hb h c
  · exact zeroMarks_fresh _ _ _ _ _
  · exact marksCurrent_fresh ..

/-- So are those that the rest of the platform sees, in a run in which nothing raises. -/
theorem marksCurrent_interface_iff {calls : List Call}
    (hreturns : Each interfaceCall (fun b c => (b.tryCall c).2 = false)
      (fresh startingBalance slippagePct rejectProbability partialFillProbability rolls) calls) :
    let b := fresh startingBalance slippagePct rejectProbability partialFillProbability rolls
    Throughout interfaceCall MarksCurrent b calls ↔
      Each interfaceCall (fun b c => b.opensOnQuote c = true) b calls := by
  refine throughout_iff_each_on (I := ZeroMarks) ?_ ?_ (zeroMarks_fresh _ _ _ _ _)
    (marksCurrent_fresh ..) hreturns
  · intro b c hb _ hc _
    rw [← call_of_returns hc]
    exact zeroMarks_call hb c
  · intro b c hb h hc
    rw [← call_of_returns hc]
    exact marksCurrent_call_iff hb h c

end Fresh

/-- Ten bought at a limit of 90 with the last quote at 100: the profit of 100 is not shown. -/
theorem limitBelowQuote_not_marked :
    let order : OrderRequest :=
      { idempotencyKey := "key", symbol := "ACME", direction := .long, orderType := .limit
        quantity := 10, price := some 90 }
    ¬ (run call (fresh 100000 0 0 0 [])
      [.setQuote "ACME" 100 true, .placeOrder order]).MarksCurrent := by
  intro order h
  have hquote : (run call (fresh 100000 0 0 0 [])
      [.setQuote "ACME" 100 true, .placeOrder order]).quotes.get? "ACME" =
        some { symbol := "ACME", ltp := 100 } := by decide +kernel
  have hposition : (run call (fresh 100000 0 0 0 [])
      [.setQuote "ACME" 100 true, .placeOrder order]).positions.get? "ACME" =
        some { symbol := "ACME", quantity := 10, averagePrice := 90 } := by decide +kernel
  have hmark := h.marks "ACME" _ hquote _ hposition
  norm_num at hmark

end MockBroker

end SuperTrading
