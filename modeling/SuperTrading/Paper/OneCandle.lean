import SuperTrading.Paper.BacktestParity

/-!
# What One Candle Does

Every way a call of `on_candle` can end on a simulated account: an open position is held,
closed at a level of its bracket, or left open because its exit order is not executed; a
flat one is entered, or not. The broker stands for any `MockBroker` without simulated
mishaps, whatever it holds.

- **Layer A**: the broker
- **Layer B**: a market order of any size
- **Layer C**: a candle that finds the position open
- **Layer D**: a candle that finds it flat
- **Layer E**: when a record is made
-/

namespace SuperTrading

open SuperTrading.Logic
open Smc (Candle)

/-! ## Layer A: The broker -/

namespace MockBroker

/-- No simulated mishaps, and nothing resting. -/
structure Plain (b : MockBroker) : Prop where
  slippage : b.slippagePct = 0
  rejection : b.rejectProbability = 0
  partFill : b.partialFillProbability = 0
  quiet : b.resting.entries = []

theorem plain_new (startingBalance : ℚ) (nextId : ℕ) : (new startingBalance nextId).Plain :=
  ⟨rfl, rfl, rfl, rfl⟩

namespace Plain

variable {b : MockBroker}

/-- Fills, marks and quotes keep the broker plain. -/
theorem of_book {b' : MockBroker} (h : b.Plain)
    (hsame : ∃ positions balance quotes orders nextId, b' =
      { b with
        positions := positions
        balance := balance
        quotes := quotes
        orders := orders
        nextId := nextId }) : b'.Plain := by
  obtain ⟨positions, balance, quotes, orders, nextId, rfl⟩ := hsame
  exact ⟨h.slippage, h.rejection, h.partFill, h.quiet⟩

/-- A print is a quote and a mark: there is nothing to trigger. -/
theorem setQuote_marks (h : b.Plain) (symbol : Symbol) (ltp : ℚ) :
    b.setQuote symbol ltp true =
      { b with
        quotes := b.quotes.set symbol { symbol := symbol, ltp := ltp }
        positions := b.positions.modify symbol fun p =>
          { p with unrealizedPnl := (ltp - p.averagePrice) * p.quantity } } := by
  have htrigger : (b.setQuote symbol ltp false).triggerRestingOrders symbol ltp =
      b.setQuote symbol ltp false := by
    unfold triggerRestingOrders
    rw [show (b.setQuote symbol ltp false).resting.entries = [] from h.quiet]
    rfl
  have hprint : b.setQuote symbol ltp true =
      (b.setQuote symbol ltp false).markToMarket symbol ltp :=
    congrArg (fun b => markToMarket b symbol ltp) htrigger
  rw [hprint]
  unfold setQuote markToMarket
  dsimp only
  rw [if_neg Bool.false_ne_true, Dict.modify_modify]

theorem setQuote_eq (h : b.Plain) (symbol : Symbol) (ltp : ℚ) :
    ∃ mark : BrokerPosition → ℚ, b.setQuote symbol ltp true =
      { b with
        quotes := b.quotes.set symbol { symbol := symbol, ltp := ltp }
        positions := b.positions.modify symbol fun p => { p with unrealizedPnl := mark p } } :=
  ⟨_, h.setQuote_marks symbol ltp⟩

theorem setQuote (h : b.Plain) (symbol : Symbol) (ltp : ℚ) :
    (b.setQuote symbol ltp true).Plain ∧
      (b.setQuote symbol ltp true).quotes.get? symbol = some { symbol := symbol, ltp := ltp } := by
  obtain ⟨mark, heq⟩ := h.setQuote_eq symbol ltp
  rw [heq]
  exact ⟨h.of_book ⟨_, b.balance, _, b.orders, b.nextId, rfl⟩, Dict.get?_set_self ..⟩

end Plain

/-- A position of nothing, which an order of nothing leaves in the broker's book. -/
def HoldsNothing (b : MockBroker) (symbol : Symbol) : Prop :=
  ∃ p ∈ b.positions.get? symbol, p.quantity = 0

/-- A print makes no position of nothing. -/
theorem Plain.holdsNothing_setQuote {b : MockBroker} (h : b.Plain) {symbol symbol' : Symbol}
    {ltp : ℚ} (hnothing : (b.setQuote symbol' ltp true).HoldsNothing symbol) :
    b.HoldsNothing symbol := by
  obtain ⟨mark, heq⟩ := h.setQuote_eq symbol' ltp
  rw [heq] at hnothing
  obtain ⟨p, hp, hquantity⟩ := hnothing
  rw [Option.mem_def, Dict.get?_modify] at hp
  split at hp
  · obtain ⟨old, hold, rfl⟩ := Option.map_eq_some_iff.mp hp
    rename_i hsymbol
    exact ⟨old, hsymbol ▸ hold, hquantity⟩
  · exact ⟨p, hp, hquantity⟩

/-- What a fill does to the positions is read off the positions and the quotes. -/
theorem positions_applyFillToPosition (b : MockBroker) (orders : Dict BrokerOrderId BrokerOrder)
    (nextId : ℕ) (symbol : Symbol) (direction : Direction) (quantity price : ℚ) :
    (applyFillToPosition { b with orders := orders, nextId := nextId } symbol direction quantity
      price).positions = (b.applyFillToPosition symbol direction quantity price).positions := by
  unfold applyFillToPosition
  dsimp only
  cases b.positions.get? symbol with
  | none => rfl
  | some p =>
    cases b.quotes.get? symbol <;> dsimp only <;> split_ifs <;> rfl

/-- **A market order at a quote.** A quote of nothing is no price, and refuses it; at any
other it fills in full. -/
theorem Plain.placeOrder_market {b : MockBroker} (h : b.Plain) {request : OrderRequest}
    (htype : request.orderType = .market) (htrigger : request.triggerPrice = none) {ltp : ℚ}
    (hquote : b.quotes.get? request.symbol = some { symbol := request.symbol, ltp := ltp }) :
    (b.placeOrder request).2.Plain ∧
      (if ltp ≤ 0 then
        (b.placeOrder request).1.status = .rejected ∧
          (b.placeOrder request).2.positions = b.positions
      else
        (b.placeOrder request).1 =
          { brokerOrderId := .uuid b.nextId
            status := .filled
            filledQuantity := request.quantity
            averageFillPrice := some ltp } ∧
          (b.placeOrder request).2.positions = (b.applyFillToPosition request.symbol
            request.direction request.quantity ltp).positions) := by
  have hreject : ¬ 0 < b.rejectProbability := by simp [h.rejection]
  have hpart : ¬ 0 < b.partialFillProbability := by simp [h.partFill]
  -- A market order fills at the quote, as there is no slippage.
  have hresolve : ({ b with nextId := b.nextId + 1 } : MockBroker).resolveFillPrice request =
      if ltp ≤ 0 then none else some ltp := by
    simp only [resolveFillPrice, htype, hquote, h.slippage]
    split_ifs
    · rfl
    · cases request.direction <;> simp
  by_cases hltp : ltp ≤ 0
  · -- A quote of nothing rejects the order.
    rw [if_pos hltp] at hresolve ⊢
    simp only [placeOrder, uuid4, hreject, if_false, htrigger, Option.isSome_none,
      Bool.false_eq_true, and_false, hresolve, rejectOrder]
    exact ⟨h.of_book ⟨b.positions, b.balance, b.quotes, _, _, rfl⟩, trivial, trivial⟩
  · -- At any other the fill goes to the book, which changes positions and balance alone.
    rw [if_neg hltp] at hresolve ⊢
    simp only [placeOrder, uuid4, hreject, if_false, htrigger, Option.isSome_none,
      Bool.false_eq_true, and_false, hresolve, fillOrder, hpart, le_refl, if_true]
    refine ⟨?_, trivial, positions_applyFillToPosition ..⟩
    obtain ⟨positions, balance, heq⟩ := applyFillToPosition_frame
      { b with
        nextId := b.nextId + 1
        orders := b.orders.set (.uuid b.nextId)
          { bookEntry (.uuid b.nextId) request .filled with
            filledQuantity := request.quantity
            averageFillPrice := some ltp } }
      request.symbol request.direction request.quantity ltp
    rw [heq]
    exact h.of_book ⟨positions, balance, b.quotes, _, _, rfl⟩

end MockBroker

/-! ## Layer B: A market order -/

/-- The statuses in which an order has been filled, in part or in full. -/
def OrderStatus.isFilled (status : OrderStatus) : Bool :=
  decide (status ∈ [OrderStatus.partiallyFilled, .filled, .monitoring])

/-- An order ends filled exactly when the broker's answer fills something. -/
theorem isFilled_settledStatus (quantity : ℚ) (result : OrderResult) :
    (settledStatus quantity result).isFilled = result.fills := by
  unfold settledStatus OrderResult.fills
  split_ifs with hrejected hfailed hfilled hfull
  · simp [OrderStatus.isFilled, hrejected]
  · simp [OrderStatus.isFilled, hfailed]
  · simp [OrderStatus.isFilled, hrejected, hfailed, hfilled]
  · simp [OrderStatus.isFilled, hrejected, hfailed, hfilled]
  · simp [OrderStatus.isFilled, hfilled]

/-- Did the call enter a position? -/
def PaperTradeOutcome.entryFilled (outcome : PaperTradeOutcome) : Bool :=
  outcome.orderCreated && outcome.orderStatus.any OrderStatus.isFilled

namespace PaperTradingEngine

variable {e e' : PaperTradingEngine} {a a' : PaperAccount} {key : String}

/-- An order of this key goes out and fills at the quote. -/
def Executes (e : PaperTradingEngine) (key : String) (ltp quantity : ℚ) : Prop :=
  e.orderManager.lookup key = none ∧ 0 < ltp ∧ 0 < quantity

instance (e : PaperTradingEngine) (key : String) (ltp quantity : ℚ) :
    Decidable (e.Executes key ltp quantity) :=
  inferInstanceAs (Decidable (_ ∧ _ ∧ _))

/-- What a market order leaves: the position moves if the order executes, and only then is
it filled. -/
structure MarketOrder (e : PaperTradingEngine) (a : PaperAccount) (key : String)
    (direction : Direction) (ltp quantity : ℚ) (order : OrderRecord) (created : Bool)
    (e' : PaperTradingEngine) (a' : PaperAccount) : Prop where
  engine : ∃ orders, e' = { e with orderManager := orders }
  keys : ∀ key', (e'.orderManager.lookup key').isSome ↔
    key' = key ∨ (e.orderManager.lookup key').isSome
  plain : a'.broker.Plain
  book : a'.positionManager = if e.Executes key ltp quantity then
    a.positionManager.applyFill e.accountId e.symbol direction quantity ltp else a.positionManager
  positions : a'.broker.positions =
    if e.orderManager.lookup key = none ∧ 0 < ltp then
      (a.broker.applyFillToPosition e.symbol direction quantity ltp).positions
    else a.broker.positions
  isNew : e.Executes key ltp quantity → created = true
  filled : created = true → (order.status.isFilled = true ↔ e.Executes key ltp quantity)
  price : e.Executes key ltp quantity → order.averageFillPrice = some ltp

/-- The records after a market order. -/
theorem MarketOrder.get {direction : Direction} {ltp quantity : ℚ} {order : OrderRecord}
    {created : Bool} (h : MarketOrder e a key direction ltp quantity order created e' a')
    (accountId : AccountId) (symbol : Symbol) :
    a'.positionManager.get accountId symbol =
      if e.Executes key ltp quantity ∧ (e.accountId, e.symbol) = (accountId, symbol) then
        some (PositionManager.fillRecord (e.record a) direction quantity ltp)
      else a.positionManager.get accountId symbol := by
  rw [h.book]
  by_cases hexecutes : e.Executes key ltp quantity
  · rw [if_pos hexecutes, PositionManager.get_applyFill]
    exact if_congr (and_iff_right hexecutes).symm rfl rfl
  · rw [if_neg hexecutes, if_neg fun hboth => hexecutes hboth.1]

/-- An order of something divides by no zero, and one of nothing only into a position of
nothing. -/
theorem dividesByZero_market {b : MockBroker} (h : b.Plain) {request : OrderRequest}
    (htype : request.orderType = .market) (htrigger : request.triggerPrice = none) {ltp : ℚ}
    (hquote : b.quotes.get? request.symbol = some { symbol := request.symbol, ltp := ltp })
    (hqty : 0 ≤ request.quantity) (hdivides : dividesByZero b request = true) :
    request.quantity = 0 ∧ b.HoldsNothing request.symbol := by
  obtain ⟨-, hplaced⟩ := h.placeOrder_market htype htrigger hquote
  unfold dividesByZero at hdivides
  cases hp : b.positions.get? request.symbol with
  | none => simp [hp] at hdivides
  | some p =>
    by_cases hltp : ltp ≤ 0
    · rw [if_pos hltp] at hplaced
      simp [hp, hplaced.1] at hdivides
    · rw [if_neg hltp] at hplaced
      simp only [hp, hplaced.1, Option.any_some, decide_eq_true_eq, true_or, true_and] at hdivides
      obtain ⟨hside, hsum⟩ := hdivides
      -- On one side, the sum is further from zero than what was added.
      have hzero : request.quantity = 0 := by
        by_contra hne
        have hpos : 0 < request.quantity := lt_of_le_of_ne hqty (Ne.symm hne)
        cases hd : request.direction with
        | long =>
          rw [hd, Direction.signed_long] at hside hsum
          linarith [hside.mpr hpos]
        | short =>
          rw [hd, Direction.signed_short] at hside hsum
          linarith [hside.mp (by linarith)]
      refine ⟨hzero, p, hp, ?_⟩
      cases hd : request.direction <;> simpa [hd, hzero] using hsum

/-- **A market order at a quote.** It raises only where it is of nothing. -/
theorem submitMarket_spec (h : a.broker.Plain) {ltp : ℚ}
    (hquote : a.broker.quotes.get? e.symbol = some { symbol := e.symbol, ltp := ltp })
    (now : Instant) (key : String) (direction : Direction) {quantity : ℚ} (hqty : 0 ≤ quantity) :
    (quantity = 0 ∧ a.broker.HoldsNothing e.symbol ∧
        ∃ message, e.submitMarket a now key direction quantity = .error message) ∨
      ∃ order created e' a', e.submitMarket a now key direction quantity =
          .ok (order, created, e', a') ∧
        MarketOrder e a key direction ltp quantity order created e' a' := by
  cases hknown : e.orderManager.lookup key with
  | some order =>
    -- The key was used: the order it names is given back, and nothing happens.
    have hno : ¬ e.Executes key ltp quantity := fun hexecutes => by
      cases hknown.symm.trans hexecutes.1
    refine Or.inr ⟨order, false, e, a, by simp [submitMarket, OrderManager.createOrder, hknown],
      ⟨⟨_, rfl⟩, ?_, h, (if_neg hno).symm, ?_, fun hexecutes => absurd hexecutes hno,
        fun hcreated => absurd hcreated Bool.false_ne_true, fun hexecutes => absurd hexecutes hno⟩⟩
    · intro key'
      constructor
      · exact Or.inr
      · rintro (rfl | hold)
        · rw [hknown]
          rfl
        · exact hold
    · rw [if_neg fun hboth => by cases hknown.symm.trans hboth.1]
  | none =>
    set order := e.newOrder now key direction quantity with horder
    have htype : order.request.orderType = .market := rfl
    have htrigger : order.request.triggerPrice = none := rfl
    have hquote' : a.broker.quotes.get? order.request.symbol =
        some { symbol := order.request.symbol, ltp := ltp } := hquote
    obtain ⟨hplain, hplaced⟩ := h.placeOrder_market htype htrigger hquote'
    cases hdivides : dividesByZero a.broker order.request with
    | true =>
      obtain ⟨hzero, hnothing⟩ := dividesByZero_market h htype htrigger hquote hqty hdivides
      have hcreate : e.orderManager.createOrder now key e.accountId e.symbol direction .market
          quantity = (order, true, e.orderManager.insert order) := by
        simp [OrderManager.createOrder, hknown, horder, newOrder]
      refine Or.inl ⟨hzero, hnothing, "float division by zero", ?_⟩
      rw [submitMarket, hcreate]
      simp only [hdivides, if_true]
    | false =>
      obtain ⟨orders, hsubmit, hkeys⟩ := submitMarket_new hknown now direction quantity hdivides
      set answer := (a.broker.placeOrder order.request).1 with hanswer
      -- The broker's answer fills the order exactly when the order executes.
      have hfills : answer.fills = true ↔ e.Executes key ltp quantity := by
        have hsize : order.request.quantity = quantity := rfl
        by_cases hltp : ltp ≤ 0
        · rw [if_pos hltp] at hplaced
          simp [OrderResult.fills, hplaced.1, Executes, not_lt.mpr hltp]
        · rw [if_neg hltp] at hplaced
          simp [OrderResult.fills, hplaced.1, hsize, Executes, hknown, not_le.mp hltp]
      have hfilled : e.Executes key ltp quantity → answer.filledQuantity = quantity ∧
          answer.averageFillPrice = some ltp := by
        rintro ⟨-, hltp, -⟩
        rw [if_neg (not_le.mpr hltp)] at hplaced
        rw [hplaced.1]
        exact ⟨rfl, rfl⟩
      refine Or.inr ⟨_, _, _, _, hsubmit,
        ⟨⟨_, rfl⟩, hkeys, hplain, ?_, ?_, fun _ => rfl, fun _ => ?_, ?_⟩⟩
      · show a.positionManager.answered order answer = _
        unfold PositionManager.answered
        by_cases hexecutes : e.Executes key ltp quantity
        · obtain ⟨hquantity, hprice⟩ := hfilled hexecutes
          rw [if_pos (hfills.mpr hexecutes), if_pos hexecutes, OrderResult.fillPrice, hquantity,
            hprice]
          rfl
        · rw [if_neg (mt hfills.mp hexecutes), if_neg hexecutes]
      · simp only [hknown, true_and]
        by_cases hltp : ltp ≤ 0
        · rw [if_pos hltp] at hplaced
          rw [if_neg (not_lt.mpr hltp)]
          exact hplaced.2
        · rw [if_neg hltp] at hplaced
          rw [if_pos (not_le.mp hltp)]
          exact hplaced.2
      · rw [OrderRecord.finished_status, isFilled_settledStatus, hfills]
      · intro hexecutes
        rw [OrderRecord.finished_averageFillPrice, if_pos (hfills.mpr hexecutes)]
        exact (hfilled hexecutes).2

/-! ## Layer C: A candle that finds the position open -/

end PaperTradingEngine

namespace PositionRecord

/-- The record after an exit of its whole quantity. -/
def closed (p : PositionRecord) (price : ℚ) : PositionRecord :=
  PositionManager.fillRecord p (if p.isLong then .short else .long) |p.quantity| price

/-- An order of the whole quantity, on the other side, brings the quantity to nothing. -/
theorem closing_quantity (p : PositionRecord) :
    p.quantity + (if p.isLong then Direction.short else .long).signed |p.quantity| = 0 := by
  by_cases hlong : 0 < p.quantity
  · simp [isLong, hlong, abs_of_pos hlong]
  · simp [isLong, hlong, abs_of_nonpos (not_lt.mp hlong)]

@[simp] theorem closed_isOpen (p : PositionRecord) (price : ℚ) :
    (p.closed price).isOpen = false := by
  have hquantity : (p.closed price).quantity = 0 := by
    rw [closed, PositionManager.fillRecord_quantity, closing_quantity]
  simp [isOpen, hquantity]

end PositionRecord

namespace PaperTradingEngine

variable {e e' : PaperTradingEngine} {a a' : PaperAccount} {analyze : Analysis} {env : PaperEnv}
  {candle : Candle} {p : PositionRecord}

/-- What a call leaves beside the position it is about. -/
structure Elsewhere (e : PaperTradingEngine) (a a' : PaperAccount) : Prop where
  plain : a'.broker.Plain
  others : ∀ accountId symbol, (e.accountId, e.symbol) ≠ (accountId, symbol) →
    a'.positionManager.get accountId symbol = a.positionManager.get accountId symbol

/-- What a call leaves of the engine: its candle is appended, and its orders grow. -/
structure Fed (e : PaperTradingEngine) (candle : Candle) (keys : String → Prop)
    (e' : PaperTradingEngine) : Prop where
  engine : ∃ orders, e' = { e with
    candles := e.candles ++ [candle]
    orderManager := orders }
  keys : ∀ key, (e'.orderManager.lookup key).isSome ↔
    keys key ∨ (e.orderManager.lookup key).isSome

/-- The candle is observed. -/
theorem observed_elsewhere (h : a.broker.Plain) (candle : Candle) :
    Elsewhere e a (e.observed a candle) where
  plain := (h.setQuote e.symbol candle.close).1
  others accountId symbol hne := by
    show (a.positionManager.markToMarket e.accountId e.symbol candle.close).get accountId symbol = _
    rw [PositionManager.get_marked, if_neg hne]

theorem position_observed (candle : Candle) : e.position (e.observed a candle) =
    (e.position a).map fun p => if p.isOpen then p.marked candle.close else p := by
  show (a.positionManager.markToMarket e.accountId e.symbol candle.close).get e.accountId
    e.symbol = _
  rw [PositionManager.get_marked, if_pos rfl]
  rfl

theorem position_observed_open (hp : e.position a = some p) (hopen : p.isOpen = true)
    (candle : Candle) : e.position (e.observed a candle) = some (p.marked candle.close) := by
  rw [position_observed, hp, Option.map_some, if_pos hopen]

/-- The level of the bracket that the candle hits is a price, and its exit has a key of its
own. -/
def ExitGoesOut (e : PaperTradingEngine) (p : PositionRecord) (candle : Candle) : Prop :=
  ∀ hit ∈ trigger p candle, 0 < hit.1 ∧ e.orderManager.lookup (e.closeKey candle) = none

instance (e : PaperTradingEngine) (p : PositionRecord) (candle : Candle) :
    Decidable (e.ExitGoesOut p candle) :=
  inferInstanceAs (Decidable (∀ hit ∈ trigger p candle, _ ∧ _))

/-- A candle that hits no level of an open position is observed. -/
theorem onCandle_miss (analyze : Analysis) (env : PaperEnv) (hp : e.position a = some p)
    (hopen : p.isOpen = true) (hmiss : trigger p candle = none) :
    e.onCandle analyze a env candle =
      .ok ({ signal := none }, { e with candles := e.candles ++ [candle] },
        e.observed a candle) := by
  have hmiss' : trigger (p.marked candle.close) candle = none := hmiss
  rw [onCandle_open env (position_observed_open hp hopen candle) hopen, maybeExit, hmiss']

theorem onCandle_hold (analyze : Analysis) (env : PaperEnv) (h : a.broker.Plain)
    (hp : e.position a = some p) (hopen : p.isOpen = true) (hmiss : trigger p candle = none) :
    ∃ a', e.onCandle analyze a env candle =
        .ok ({ signal := none }, { e with candles := e.candles ++ [candle] }, a') ∧
      Elsewhere e a a' ∧ e.position a' = some (p.marked candle.close) :=
  ⟨e.observed a candle, onCandle_miss analyze env hp hopen hmiss, observed_elsewhere h candle,
    position_observed_open hp hopen candle⟩

/-- The book does not depend on the broker. -/
theorem position_broker (e : PaperTradingEngine) (a : PaperAccount) (broker : MockBroker) :
    e.position { a with broker := broker } = e.position a := rfl

@[simp] theorem record_pinned (e : PaperTradingEngine) (a : PaperAccount) (price : ℚ) :
    e.record (e.pinned a price) = e.record a := rfl

/-- The order that a level hit sends, and what the call reports of it. -/
theorem onCandle_exit (analyze : Analysis) (env : PaperEnv) (h : a.broker.Plain)
    (hp : e.position a = some p) (hopen : p.isOpen = true) {level : ℚ} {reason : ExitReason}
    (hhit : trigger p candle = some (level, reason)) :
    ∃ order created e' a',
      MarketOrder { e with candles := e.candles ++ [candle] } (e.pinned (e.observed a candle) level)
        (e.closeKey candle) (if p.isLong then .short else .long) level |p.quantity|
        order created e' a' ∧
      let pnl := (e.position a').elim 0 PositionRecord.realizedPnl - p.realizedPnl
      e.onCandle analyze a env candle =
        .ok (
          { signal := none
            closedPositionPnl := some pnl
            exitReason := some reason
            exitPrice := order.averageFillPrice },
          e', { a' with riskWindow := a'.riskWindow.realize pnl }) := by
  -- A mark moves no level, so that the marked position is hit where the unmarked one is.
  have hhit' : trigger (p.marked candle.close) candle = some (level, reason) := hhit
  set e₁ : PaperTradingEngine := { e with candles := e.candles ++ [candle] } with he₁
  have helse := observed_elsewhere (e := e) h candle
  obtain ⟨hplain, hquote⟩ := helse.plain.setQuote e.symbol level
  have hsize : 0 < |p.quantity| := abs_pos.mpr (of_decide_eq_true hopen)
  rcases submitMarket_spec (e := e₁) (a := e.pinned (e.observed a candle) level) hplain hquote
      env.now (e₁.closeKey candle) (if p.isLong then .short else .long) hsize.le with
    ⟨hzero, -⟩ | ⟨order, created, e', a', hsubmit, hmarket⟩
  · exact absurd hzero hsize.ne'
  · refine ⟨order, created, e', a', hmarket, ?_⟩
    obtain ⟨orders, hengine⟩ := hmarket.engine
    have hsubmit' : e₁.submitMarket
        { e.observed a candle with
          broker := (e.observed a candle).broker.setQuote e₁.symbol level true }
        env.now (e₁.closeKey candle) (if (p.marked candle.close).isLong then .short else .long)
        |(p.marked candle.close).quantity| = .ok (order, created, e', a') := hsubmit
    rw [onCandle_open env (position_observed_open hp hopen candle) hopen, maybeExit, hhit']
    dsimp only
    rw [hsubmit', hengine]
    rfl

/-- The exit of an open position executes exactly if it goes out. -/
theorem executes_exit (hopen : p.isOpen = true) {level : ℚ} {reason : ExitReason}
    (hhit : trigger p candle = some (level, reason)) (candles : List Candle) :
    Executes { e with candles := candles } (e.closeKey candle) level |p.quantity| ↔
      e.ExitGoesOut p candle := by
  have hsize : 0 < |p.quantity| := abs_pos.mpr (of_decide_eq_true hopen)
  simp only [Executes, ExitGoesOut, hhit, Option.mem_def, Option.some.injEq, forall_eq', hsize,
    and_true]
  exact and_comm

/-- The position behind the exit order. -/
theorem MarketOrder.position_exit (hp : e.position a = some p) (hopen : p.isOpen = true)
    {level : ℚ} {reason : ExitReason} (hhit : trigger p candle = some (level, reason))
    {order : OrderRecord} {created : Bool}
    (hmarket : MarketOrder { e with candles := e.candles ++ [candle] }
      (e.pinned (e.observed a candle) level) (e.closeKey candle)
      (if p.isLong then .short else .long) level |p.quantity| order created e' a') :
    e.position a' = if e.ExitGoesOut p candle then
      some ((p.marked candle.close).closed level) else some (p.marked candle.close) := by
  have hbefore : (e.pinned (e.observed a candle) level).positionManager.get e.accountId e.symbol =
      some (p.marked candle.close) := position_observed_open hp hopen candle
  have hrecord : record { e with candles := e.candles ++ [candle] }
      (e.pinned (e.observed a candle) level) = p.marked candle.close := by
    simp [record, PositionManager.record, hbefore]
  refine (hmarket.get e.accountId e.symbol).trans ?_
  rw [hrecord]
  exact if_congr ((and_iff_left rfl).trans (executes_exit hopen hhit _)) rfl hbefore

/-- **A candle that hits a level of an open position.** The position is closed at the level
if the exit goes out; else the call reports a P&L of 0, and the position stays. -/
theorem onCandle_hit (analyze : Analysis) (env : PaperEnv) (h : a.broker.Plain)
    (hp : e.position a = some p) (hopen : p.isOpen = true) {level : ℚ} {reason : ExitReason}
    (hhit : trigger p candle = some (level, reason)) :
    ∃ outcome e' a', e.onCandle analyze a env candle = .ok (outcome, e', a') ∧
      Elsewhere e a a' ∧ Fed e candle (· = e.closeKey candle) e' ∧
      outcome.orderCreated = false ∧ outcome.exitReason = some reason ∧
      if e.ExitGoesOut p candle then
        e.position a' = some ((p.marked candle.close).closed level) ∧
          outcome.closedPositionPnl =
            some (((p.marked candle.close).closed level).realizedPnl - p.realizedPnl) ∧
          outcome.exitPrice = some level
      else
        e.position a' = some (p.marked candle.close) ∧ outcome.closedPositionPnl = some 0 := by
  obtain ⟨order, created, e', a', hmarket, hcall⟩ := onCandle_exit analyze env h hp hopen hhit
  obtain ⟨orders, hengine⟩ := hmarket.engine
  have hafter := hmarket.position_exit hp hopen hhit
  have hothers : ∀ accountId symbol, (e.accountId, e.symbol) ≠ (accountId, symbol) →
      a'.positionManager.get accountId symbol = a.positionManager.get accountId symbol := by
    intro accountId symbol hne
    rw [hmarket.get, if_neg fun hboth => hne hboth.2]
    exact (observed_elsewhere h candle).others accountId symbol hne
  refine ⟨_, _, _, hcall, ⟨hmarket.plain, hothers⟩, ⟨⟨orders, hengine⟩, hmarket.keys⟩, rfl, rfl, ?_⟩
  show if _ then e.position a' = _ ∧ some _ = some _ ∧ _ else e.position a' = _ ∧ some _ = some _
  -- A key that is known already gets its old order back, and nothing is closed.
  rw [hafter]
  by_cases hgoes : e.ExitGoesOut p candle
  · rw [if_pos hgoes, if_pos hgoes]
    exact ⟨rfl, rfl, hmarket.price ((executes_exit hopen hhit _).mpr hgoes)⟩
  · rw [if_neg hgoes, if_neg hgoes]
    exact ⟨rfl, congrArg some (sub_self _)⟩

/-! ## Layer D: A candle that finds it flat -/

/-- The bracket goes to the record of the engine's own position. -/
theorem get_attributed (e : PaperTradingEngine) (a : PaperAccount) (signal : Signal)
    (accountId : AccountId) (symbol : Symbol) :
    (e.attributed a signal).positionManager.get accountId symbol =
      if (e.accountId, e.symbol) = (accountId, symbol) then
        (e.position a).map fun p => { p with
          stop := some signal.stop
          target := some signal.target
          strategyId := e.strategyId }
      else a.positionManager.get accountId symbol := by
  unfold attributed
  cases hp : e.position a with
  -- Without a position nothing is attributed.
  | none =>
    split_ifs with heq
    · obtain ⟨rfl, rfl⟩ := Prod.mk.inj heq
      exact hp
    · rfl
  | some p =>
    -- The record is put back under the key that it was read from.
    obtain ⟨haccount, hsymbol⟩ := PositionManager.key_of_get hp
    dsimp only
    rw [PositionManager.get_put]
    simp only [haccount, hsymbol, Option.map_some]

@[simp] theorem broker_attributed (e : PaperTradingEngine) (a : PaperAccount) (signal : Signal) :
    (e.attributed a signal).broker = a.broker := by
  unfold attributed
  cases e.position a <;> rfl

/-- The record that an entry leaves of a flat one: filled at the level the signal names, and
bracketed by it. -/
def entered (e : PaperTradingEngine) (a : PaperAccount) (signal : Signal) : PositionRecord :=
  { e.record a with
    quantity := signal.side.signed (e.entryQuantity a signal)
    averagePrice := signal.entry
    stop := some signal.stop
    target := some signal.target
    strategyId := e.strategyId }

/-- The gate approves the entry of a signal, and its order executes. -/
def EntryGoesOut (e : PaperTradingEngine) (a : PaperAccount) (env : PaperEnv) (candle : Candle)
    (signal : Signal) : Prop :=
  (e.decision a env signal).approved = true ∧
    e.Executes (e.entryKey candle) signal.entry (e.entryQuantity a signal)

instance (e : PaperTradingEngine) (a : PaperAccount) (env : PaperEnv) (candle : Candle)
    (signal : Signal) : Decidable (e.EntryGoesOut a env candle signal) :=
  inferInstanceAs (Decidable (_ ∧ _))

theorem entered_isOpen {signal : Signal} {key : String}
    (h : e.Executes key signal.entry (e.entryQuantity a signal)) :
    (e.entered a signal).isOpen = true := by
  simp [entered, PositionRecord.isOpen, Direction.signed_ne_zero h.2.2]

/-- How a call ends that finds the position flat: nothing is closed, and a position is open
behind it exactly when the entry of a signal went out. -/
structure Flat (e : PaperTradingEngine) (a : PaperAccount) (takes : Signal → Prop)
    (outcome : PaperTradeOutcome) (a' : PaperAccount) : Prop where
  elsewhere : Elsewhere e a a'
  closedPnl : outcome.closedPositionPnl = none
  noExit : outcome.exitReason = none
  entered : outcome.entryFilled = true →
    ∃ signal, takes signal ∧ e.position a' = some (e.entered a signal)
  stayed : outcome.entryFilled = false →
    (∀ signal, ¬ takes signal) ∧ (e.position a').any PositionRecord.isOpen = false

/-- Where an entry raises: it is of nothing, into a position of nothing. -/
def RaisesOnNothing (e : PaperTradingEngine) (a : PaperAccount) : Prop :=
  a.broker.HoldsNothing e.symbol ∧
    ¬ (0 < e.limits.riskPerTradePct ∧ ∀ cap ∈ e.limits.maxPositionSize, 0 < cap)

theorem entryQuantity_nonneg (e : PaperTradingEngine) (a : PaperAccount) (signal : Signal) :
    0 ≤ e.entryQuantity a signal := by
  unfold entryQuantity calculatePositionSize
  dsimp only
  split_ifs
  · exact le_refl 0
  · exact le_max_right ..

/-- The order that an approved entry sends, and what the call leaves. -/
theorem enter_order (h : a.broker.Plain) {env : PaperEnv} {signal : Signal}
    (happroved : (e.decision a env signal).approved = true) (candle : Candle)
    (result : StrategyEvaluationResult) :
    (e.entryQuantity a signal = 0 ∧ e.RaisesOnNothing a ∧
        ∃ message, e.enter a env candle result signal = .error message) ∨
      ∃ order created e' a',
        MarketOrder e (e.pinned a signal.entry) (e.entryKey candle) signal.side signal.entry
          (e.entryQuantity a signal) order created e' a' ∧
        let riskChecks := (e.decision a env signal).checks.map fun check =>
          (check.name, check.passed)
        e.enter a env candle result signal = .ok (
          if created then
            ({ signal := some result
               orderCreated := true
               riskChecks := some riskChecks
               orderStatus := some order.status },
              e', e'.attributed { a' with riskWindow := a'.riskWindow.traded order.status } signal)
          else ({ signal := some result, riskChecks := some riskChecks }, e', a')) := by
  have happroved' : ¬ (e.decision a env signal).approved = false := by simp [happroved]
  obtain ⟨hplain, hquote⟩ := h.setQuote e.symbol signal.entry
  rcases submitMarket_spec (e := e) (a := e.pinned a signal.entry) hplain hquote env.now
      (e.entryKey candle) signal.side (e.entryQuantity_nonneg a signal) with
    ⟨hnone, hnothing, message, hraises⟩ | ⟨order, created, e', a', hsubmit, hmarket⟩
  · refine Or.inl ⟨hnone, ⟨h.holdsNothing_setQuote hnothing, ?_⟩, message, ?_⟩
    · -- On a funded account, a share of something buys something.
      rintro ⟨hshare, hcap⟩
      have hfunded : 0 < a.broker.getAccount.balance :=
        RiskEngine.funded_of_approved happroved rfl
      have hpercent : 0 < min e.strategy.risk.riskPercent e.limits.riskPerTradePct :=
        lt_min e.strategy.risk.risk_range.1 hshare
      exact (RiskEngine.calculatePositionSize_pos hfunded hpercent signal.entry_ne_stop hcap).ne'
        hnone
    · have hraises' : e.submitMarket
          { a with broker := a.broker.setQuote e.symbol signal.entry true } env.now
          (e.entryKey candle) signal.side (e.entryQuantity a signal) = .error message := hraises
      rw [enter, if_neg happroved']
      dsimp only
      rw [hraises']
      rfl
  · -- The order was answered, or the key was known and no order was made.
    refine Or.inr ⟨order, created, e', a', hmarket, ?_⟩
    have hsubmit' : e.submitMarket
        { a with broker := a.broker.setQuote e.symbol signal.entry true } env.now
        (e.entryKey candle) signal.side (e.entryQuantity a signal) =
          .ok (order, created, e', a') := hsubmit
    rw [enter, if_neg happroved']
    dsimp only
    rw [hsubmit']
    cases created <;> rfl

/-- A fill opens a flat record at its own price. -/
theorem fillRecord_flat {p : PositionRecord} (hflat : p.quantity = 0) (direction : Direction)
    {quantity : ℚ} (hqty : 0 < quantity) (price : ℚ) :
    PositionManager.fillRecord p direction quantity price =
      { p with
        quantity := direction.signed quantity
        averagePrice := price } := by
  have hsigned : direction.signed quantity ≠ 0 := Direction.signed_ne_zero hqty
  simp [PositionManager.fillRecord, hflat, hsigned]

/-- A record that is not open holds nothing. -/
theorem record_flat (hflat : (e.position a).any PositionRecord.isOpen = false) :
    (e.record a).quantity = 0 := by
  unfold record PositionManager.record
  cases hget : a.positionManager.get e.accountId e.symbol with
  | none => rfl
  | some p =>
    have hp : e.position a = some p := hget
    simpa [hp, PositionRecord.isOpen] using hflat

/-- The entry of a signal. -/
theorem enter_flat (h : a.broker.Plain) (hflat : (e.position a).any PositionRecord.isOpen = false)
    (env : PaperEnv) (candle : Candle) (result : StrategyEvaluationResult) (signal : Signal) :
    (e.RaisesOnNothing a ∧ ∃ message, e.enter a env candle result signal = .error message) ∨
      ∃ outcome e' a', e.enter a env candle result signal = .ok (outcome, e', a') ∧
        Flat e a (fun s => s = signal ∧ e.EntryGoesOut a env candle s) outcome a' := by
  by_cases happroved : (e.decision a env signal).approved = false
  · -- A refused entry leaves everything.
    have hno : ∀ s, ¬ (s = signal ∧ e.EntryGoesOut a env candle s) := by
      rintro s ⟨rfl, hgoes⟩
      exact Bool.false_ne_true (happroved.symm.trans hgoes.1)
    exact Or.inr ⟨_, _, _, if_pos happroved, ⟨h, fun _ _ _ => rfl⟩, rfl, rfl,
      fun hfilled => absurd hfilled Bool.false_ne_true, fun _ => ⟨hno, hflat⟩⟩
  have happroved' : (e.decision a env signal).approved = true := by simpa using happroved
  have hzero : (e.record a).quantity = 0 := record_flat hflat
  rcases enter_order h happroved' candle result with
    ⟨-, hraises⟩ | ⟨order, created, e₁, a₂, hmarket, hcall⟩
  · exact Or.inl hraises
  obtain ⟨orders, hengine⟩ := hmarket.engine
  have hbook := hmarket.get e.accountId e.symbol
  have hothers : ∀ accountId symbol, (e.accountId, e.symbol) ≠ (accountId, symbol) →
      a₂.positionManager.get accountId symbol = a.positionManager.get accountId symbol := by
    intro accountId symbol hne
    rw [hmarket.get, if_neg fun hboth => hne hboth.2]
    rfl
  -- Where the order does not execute, the position is the one the candle found.
  have hstays : ¬ e.Executes (e.entryKey candle) signal.entry (e.entryQuantity a signal) →
      (∀ s, ¬ (s = signal ∧ e.EntryGoesOut a env candle s)) ∧ e.position a₂ = e.position a := by
    intro hno
    rw [if_neg fun hboth => hno hboth.1] at hbook
    refine ⟨?_, hbook⟩
    rintro s ⟨rfl, hgoes⟩
    exact hno hgoes.2
  cases created with
  | false =>
    obtain ⟨hno, hsame⟩ := hstays fun hexecutes => Bool.false_ne_true (hmarket.isNew hexecutes)
    refine Or.inr ⟨_, _, _, hcall, ⟨hmarket.plain, hothers⟩, rfl, rfl,
      fun hfilled => absurd hfilled Bool.false_ne_true, fun _ => ⟨hno, ?_⟩⟩
    show (e.position a₂).any PositionRecord.isOpen = false
    rw [hsame]
    exact hflat
  | true =>
    set a₃ : PaperAccount := { a₂ with riskWindow := a₂.riskWindow.traded order.status } with ha₃
    have hget : ∀ accountId symbol, (e₁.attributed a₃ signal).positionManager.get accountId symbol =
        if (e.accountId, e.symbol) = (accountId, symbol) then
          (e.position a₂).map fun p => { p with
            stop := some signal.stop
            target := some signal.target
            strategyId := e.strategyId }
        else a₂.positionManager.get accountId symbol := by
      intro accountId symbol
      rw [get_attributed, hengine]
      rfl
    have hposition : e.position (e₁.attributed a₃ signal) = (e.position a₂).map fun p => { p with
        stop := some signal.stop
        target := some signal.target
        strategyId := e.strategyId } := (hget e.accountId e.symbol).trans (if_pos rfl)
    refine Or.inr ⟨_, _, _, hcall, ⟨?_, fun accountId symbol hne => ?_⟩, rfl, rfl,
      fun hfilled => ?_, fun hfilled => ?_⟩
    · show (e₁.attributed a₃ signal).broker.Plain
      rw [broker_attributed]
      exact hmarket.plain
    · exact (hget accountId symbol).trans ((if_neg hne).trans (hothers accountId symbol hne))
    · have hexecutes := (hmarket.filled rfl).mp hfilled
      rw [if_pos ⟨hexecutes, rfl⟩, record_pinned,
        fillRecord_flat hzero signal.side hexecutes.2.2] at hbook
      have hbook' : e.position a₂ = some { e.record a with
          quantity := signal.side.signed (e.entryQuantity a signal)
          averagePrice := signal.entry } := hbook
      exact ⟨signal, ⟨rfl, happroved', hexecutes⟩,
        hposition.trans (congrArg (Option.map _) hbook')⟩
    · obtain ⟨hno, hsame⟩ := hstays fun hexecutes => by
        cases ((hmarket.filled rfl).mpr hexecutes).symm.trans hfilled
      refine ⟨hno, ?_⟩
      show (e.position (e₁.attributed a₃ signal)).any PositionRecord.isOpen = false
      rw [hposition, hsame, Option.any_map]
      exact hflat

/-- A quote opens no position. -/
theorem flat_observed (candle : Candle) (hflat : (e.position a).any PositionRecord.isOpen = false) :
    (e.position (e.observed a candle)).filter PositionRecord.isOpen = none := by
  rw [position_observed]
  cases hp : e.position a with
  | none => rfl
  | some p =>
    have hp' : ¬ p.isOpen = true := by simpa [hp] using hflat
    rw [Option.map_some, if_neg hp', Option.filter, if_neg hp']

/-- A quote moves no cash. -/
theorem entryQuantity_observed (h : a.broker.Plain) (candle : Candle) (signal : Signal) :
    e.entryQuantity (e.observed a candle) signal = e.entryQuantity a signal := by
  obtain ⟨mark, heq⟩ := h.setQuote_eq e.symbol candle.close
  have hbalance : (e.observed a candle).broker.getAccount.balance =
      a.broker.getAccount.balance := by
    show (a.broker.setQuote e.symbol candle.close true).balance = _
    rw [heq]
    rfl
  rw [entryQuantity, hbalance]
  rfl

/-- A quote does not mark a flat position. -/
theorem record_observed (hflat : (e.position a).any PositionRecord.isOpen = false)
    (candle : Candle) : e.record (e.observed a candle) = e.record a := by
  have hposition := position_observed (e := e) (a := a) candle
  unfold position at hposition hflat
  unfold record PositionManager.record
  rw [hposition]
  cases hp : a.positionManager.get e.accountId e.symbol with
  | none => rfl
  | some p =>
    have hp' : ¬ p.isOpen = true := by simpa [hp] using hflat
    rw [Option.map_some, if_neg hp']

theorem entered_observed (h : a.broker.Plain)
    (hflat : (e.position a).any PositionRecord.isOpen = false) (candle : Candle) (signal : Signal) :
    e.entered (e.observed a candle) signal = e.entered a signal := by
  rw [entered, record_observed hflat, entryQuantity_observed h]
  rfl

/-- The strategy has a signal that the candle can fill, and its entry goes out. -/
def Takes (analyze : Analysis) (e : PaperTradingEngine) (a : PaperAccount) (env : PaperEnv)
    (candle : Candle) (signal : Signal) : Prop :=
  fillableSignal analyze e.strategy (e.candles ++ [candle]) candle = some signal ∧
    EntryGoesOut { e with candles := e.candles ++ [candle] } (e.observed a candle) env candle signal

/-- What is taken executes, at a size read off the account the candle found. -/
theorem Takes.executes {signal : Signal} (h : e.Takes analyze a env candle signal)
    (hplain : a.broker.Plain) :
    e.Executes (e.entryKey candle) signal.entry (e.entryQuantity a signal) := by
  obtain ⟨hkey, hentry, hqty⟩ := h.2.2
  exact ⟨hkey, hentry, (entryQuantity_observed hplain candle signal) ▸ hqty⟩

theorem Takes.isOpen {signal : Signal} (h : e.Takes analyze a env candle signal)
    (hplain : a.broker.Plain) : (e.entered a signal).isOpen = true :=
  entered_isOpen (h.executes hplain)

theorem any_observed (candle : Candle) (hflat : (e.position a).any PositionRecord.isOpen = false) :
    (e.position (e.observed a candle)).any PositionRecord.isOpen = false := by
  have hnone := flat_observed candle hflat
  cases hp : e.position (e.observed a candle) with
  | none => rfl
  | some p => simpa [hp, Option.filter] using hnone

/-- **A candle that finds the position flat.** -/
theorem onCandle_flat (analyze : Analysis) (env : PaperEnv) (candle : Candle) (h : a.broker.Plain)
    (hflat : (e.position a).any PositionRecord.isOpen = false) :
    (e.RaisesOnNothing a ∧ ∃ message, e.onCandle analyze a env candle = .error message) ∨
      ∃ outcome e' a', e.onCandle analyze a env candle = .ok (outcome, e', a') ∧
        Flat e a (e.Takes analyze a env candle) outcome a' := by
  set e₁ : PaperTradingEngine := { e with candles := e.candles ++ [candle] } with he₁
  set a₁ := e.observed a candle with ha₁
  have helse : Elsewhere e a a₁ := observed_elsewhere h candle
  have hnone : (e₁.position a₁).filter PositionRecord.isOpen = none := flat_observed candle hflat
  have hflat₁ : (e₁.position a₁).any PositionRecord.isOpen = false := any_observed candle hflat
  -- Only an entry can raise: one of nothing, on a record of nothing.
  cases hsignal : fillableSignal analyze e.strategy (e.candles ++ [candle]) candle with
  | none =>
    obtain ⟨result, hcall⟩ := onCandle_quiet env hnone hsignal
    refine Or.inr ⟨_, _, _, hcall, helse, rfl, rfl,
      fun hfilled => absurd hfilled Bool.false_ne_true, fun _ => ⟨?_, hflat₁⟩⟩
    rintro signal ⟨hsome, -⟩
    cases hsignal.symm.trans hsome
  | some signal =>
    obtain ⟨-, result, hcall⟩ := onCandle_signal env hnone hsignal
    rcases enter_flat (e := e₁) (a := a₁) helse.plain hflat₁ env candle result signal with
      ⟨⟨hnothing, hshare⟩, message, hraises⟩ | ⟨outcome, e', a', henter, hafter⟩
    · exact Or.inl ⟨⟨h.holdsNothing_setQuote hnothing, hshare⟩, message, hcall.trans hraises⟩
    · refine Or.inr ⟨outcome, e', a', hcall.trans henter,
        ⟨hafter.elsewhere.plain, fun _ _ hne => ?_⟩,
        hafter.closedPnl, hafter.noExit, fun hfilled => ?_, fun hfilled => ?_⟩
      · exact (hafter.elsewhere.others _ _ hne).trans (helse.others _ _ hne)
      · obtain ⟨_, ⟨rfl, hgoes⟩, hposition⟩ := hafter.entered hfilled
        exact ⟨_, ⟨hsignal, hgoes⟩, hposition.trans
          (congrArg some (entered_observed h hflat candle _))⟩
      · obtain ⟨hno, hstays⟩ := hafter.stayed hfilled
        refine ⟨?_, hstays⟩
        rintro s ⟨hsome, hgoes⟩
        exact hno s ⟨Option.some.inj (hsome.symm.trans hsignal), hgoes⟩

/-- The strategy has an entry, and the candle traded at it. -/
def WantsEntry (analyze : Analysis) (e : PaperTradingEngine) (candle : Candle) : Prop :=
  3 ≤ (e.candles ++ [candle]).length ∧
    ∃ signal ∈ (e.strategy.evaluate (analyze e.strategy (e.candles ++ [candle]))).signal,
      candle.low ≤ signal.entry ∧ signal.entry ≤ candle.high

instance (analyze : Analysis) (e : PaperTradingEngine) (candle : Candle) :
    Decidable (e.WantsEntry analyze candle) :=
  inferInstanceAs (Decidable (_ ∧ _))

/-- A candle that finds the position flat raises for an entry only. -/
theorem wantsEntry_of_error {analyze : Analysis} {env : PaperEnv} {candle : Candle}
    {message : String} (hflat : (e.position a).any PositionRecord.isOpen = false)
    (hraises : e.onCandle analyze a env candle = .error message) : e.WantsEntry analyze candle := by
  have hposition : ({ e with candles := e.candles ++ [candle] } : PaperTradingEngine).position
      (e.observed a candle) = e.position (e.observed a candle) := rfl
  unfold onCandle at hraises
  dsimp only at hraises
  rw [hposition, flat_observed candle hflat] at hraises
  dsimp only at hraises
  split_ifs at hraises with hfew
  split at hraises
  · cases hraises
  · rename_i signal hsignal
    split_ifs at hraises with htraded
    exact ⟨Nat.not_lt.mp hfew, signal, hsignal, htraded⟩

/-! ## Layer E: The record behind a candle -/

/-- How a candle moves a record: an open position keeps its own, and a flat one is entered, or
stays without a record if it had none. -/
structure RecordMoves (before : Option PositionRecord) (enters : Prop)
    (after : Option PositionRecord) : Prop where
  kept : before.any PositionRecord.isOpen = true → after.isSome = true
  entered : before.any PositionRecord.isOpen = false → enters →
    after.any PositionRecord.isOpen = true
  passed : before.any PositionRecord.isOpen = false → ¬ enters →
    after.any PositionRecord.isOpen = false ∧ after.isSome = before.isSome

/-- A flat record never is left behind a candle that found none open, if and only if the candle
enters wherever it finds a flat one. -/
theorem RecordMoves.left_open_iff {before after : Option PositionRecord} {enters : Prop}
    (h : RecordMoves before enters after) :
    (before.any PositionRecord.isOpen = false → after.isSome = true →
      after.any PositionRecord.isOpen = true) ↔ ∀ p ∈ before, p.isOpen = false → enters := by
  constructor
  · rintro hopen p rfl hflat
    by_contra hno
    obtain ⟨hclosed, hsome⟩ := h.passed hflat hno
    cases hclosed.symm.trans (hopen hflat hsome)
  · intro henters hflat hsome
    by_contra hclosed
    by_cases hentered : enters
    · exact hclosed (h.entered hflat hentered)
    · obtain ⟨-, hsame⟩ := h.passed hflat hentered
      obtain ⟨p, rfl⟩ := Option.isSome_iff_exists.mp (hsame ▸ hsome)
      exact hentered (henters p rfl hflat)

/-- There is a record behind the candle if there was one, or one is entered. -/
theorem RecordMoves.isSome_iff {before after : Option PositionRecord} {enters : Prop}
    (h : RecordMoves before enters after) : after.isSome = true ↔
      before.isSome = true ∨ before.any PositionRecord.isOpen = false ∧ enters := by
  cases hheld : before.any PositionRecord.isOpen with
  | true =>
    obtain ⟨p, rfl, -⟩ := (Option.any_eq_true ..).mp hheld
    simp [h.kept hheld]
  | false =>
    by_cases henters : enters
    · obtain ⟨p, rfl, -⟩ := (Option.any_eq_true ..).mp (h.entered hheld henters)
      simp [henters]
    · rw [(h.passed hheld henters).2]
      simp [henters]

/-- The strategy has a signal that the candle can fill, and its entry goes out. -/
def Enters (analyze : Analysis) (e : PaperTradingEngine) (a : PaperAccount) (env : PaperEnv)
    (candle : Candle) : Prop :=
  ∃ signal ∈ fillableSignal analyze e.strategy (e.candles ++ [candle]) candle,
    EntryGoesOut { e with candles := e.candles ++ [candle] } (e.observed a candle) env candle signal

instance (analyze : Analysis) (e : PaperTradingEngine) (a : PaperAccount) (env : PaperEnv)
    (candle : Candle) : Decidable (e.Enters analyze a env candle) :=
  inferInstanceAs (Decidable (∃ signal ∈ _, _))

theorem Flat.enters_iff {outcome : PaperTradeOutcome}
    (h : Flat e a (e.Takes analyze a env candle) outcome a') :
    e.Enters analyze a env candle ↔ outcome.entryFilled = true := by
  constructor
  · rintro ⟨signal, hsignal, hgoes⟩
    by_contra hfilled
    exact (h.stayed (Bool.not_eq_true _ ▸ hfilled)).1 signal ⟨hsignal, hgoes⟩
  · intro hfilled
    obtain ⟨signal, ⟨hsignal, hgoes⟩, -⟩ := h.entered hfilled
    exact ⟨signal, hsignal, hgoes⟩

/-- The record of an entry that is not executed is there behind it if it was there before. -/
theorem enter_record (h : a.broker.Plain) {signal : Signal} {result : StrategyEvaluationResult}
    {outcome : PaperTradeOutcome}
    (hcall : e.enter a env candle result signal = .ok (outcome, e', a'))
    (hno : ¬ e.EntryGoesOut a env candle signal) :
    (e.position a').isSome = (e.position a).isSome := by
  by_cases happroved : (e.decision a env signal).approved = true
  · rcases enter_order h happroved candle result with
      ⟨-, -, message, hraises⟩ | ⟨order, created, e₁, a₁, hmarket, henter⟩
    · cases hraises.symm.trans hcall
    · -- The order was placed without a fill: the manager's book is as it was.
      have hexecutes : ¬ e.Executes (e.entryKey candle) signal.entry (e.entryQuantity a signal) :=
        fun hexecutes => hno ⟨happroved, hexecutes⟩
      have hsame : e.position a₁ = e.position a := by
        refine (hmarket.get e.accountId e.symbol).trans ?_
        rw [if_neg fun hboth => hexecutes hboth.1]
        rfl
      obtain ⟨orders, hengine⟩ := hmarket.engine
      rw [henter] at hcall
      cases created with
      | false =>
        cases hcall
        rw [hsame]
      | true =>
        cases hcall
        have hattributed := get_attributed e'
          { a₁ with riskWindow := a₁.riskWindow.traded order.status } signal e.accountId e.symbol
        rw [if_pos (by rw [hengine])] at hattributed
        have hsome := congrArg Option.isSome hattributed
        rw [Option.isSome_map] at hsome
        refine hsome.trans ?_
        rw [hengine]
        exact congrArg Option.isSome hsame
  · have hrefused : (e.decision a env signal).approved = false := by simpa using happroved
    unfold enter at hcall
    dsimp only at hcall
    rw [if_pos hrefused] at hcall
    cases hcall
    rfl

/-- A candle that finds no open position and enters none makes no record and drops none. -/
theorem onCandle_record (h : a.broker.Plain)
    (hflat : (e.position a).any PositionRecord.isOpen = false) {outcome : PaperTradeOutcome}
    (hcall : e.onCandle analyze a env candle = .ok (outcome, e', a'))
    (hno : ¬ e.Enters analyze a env candle) :
    (e.position a').isSome = (e.position a).isSome := by
  set e₁ : PaperTradingEngine := { e with candles := e.candles ++ [candle] } with he₁
  have hobserved : (e.position (e.observed a candle)).isSome = (e.position a).isSome := by
    rw [position_observed, Option.isSome_map]
  have hnone : (e₁.position (e.observed a candle)).filter PositionRecord.isOpen = none :=
    flat_observed candle hflat
  cases hsignal : fillableSignal analyze e.strategy (e.candles ++ [candle]) candle with
  | none =>
    obtain ⟨result, hquiet⟩ := onCandle_quiet env hnone hsignal
    cases hquiet.symm.trans hcall
    exact hobserved
  | some signal =>
    obtain ⟨-, result, henter⟩ := onCandle_signal env hnone hsignal
    have hplain : (e.observed a candle).broker.Plain := (h.setQuote e.symbol candle.close).1
    -- The entry does not go out, and places no record.
    have hrecord := enter_record (e := e₁) hplain (henter.symm.trans hcall)
      fun hgoes => hno ⟨signal, hsignal, hgoes⟩
    exact hrecord.trans hobserved

/-- A candle that returns moves the record so. -/
theorem onCandle_moves (hplain : a.broker.Plain) {outcome : PaperTradeOutcome}
    (hcall : e.onCandle analyze a env candle = .ok (outcome, e', a')) :
    RecordMoves (e.position a) (e.Enters analyze a env candle) (e.position a') ∧
      a'.broker.Plain := by
  cases hheld : (e.position a).any PositionRecord.isOpen with
  | true =>
    obtain ⟨p, hp, hopen⟩ := (Option.any_eq_true ..).mp hheld
    -- A position that closes leaves its record behind, at size zero.
    have hmoves : (e.position a').isSome = true ∧ a'.broker.Plain := by
      cases hhit : trigger p candle with
      | none =>
        obtain ⟨a₁, hcall₁, helse, hafter⟩ := onCandle_hold analyze env hplain hp hopen hhit
        cases hcall₁.symm.trans hcall
        exact ⟨by rw [hafter]; rfl, helse.plain⟩
      | some hit =>
        obtain ⟨outcome₁, e₁, a₁, hcall₁, helse, -, -, -, hends⟩ :=
          onCandle_hit analyze env hplain hp hopen hhit
        cases hcall₁.symm.trans hcall
        refine ⟨?_, helse.plain⟩
        split_ifs at hends with hgoes
        · rw [hends.1]
          rfl
        · rw [hends.1]
          rfl
    refine ⟨⟨fun _ => hmoves.1, fun hflat => ?_, fun hflat => ?_⟩, hmoves.2⟩
    · cases hheld.symm.trans hflat
    · cases hheld.symm.trans hflat
  | false =>
    -- A flat record opens by an entry alone.
    rcases onCandle_flat analyze env candle hplain hheld with
      ⟨-, message, hraises⟩ | ⟨outcome₁, e₁, a₁, hcall₁, hflat⟩
    · cases hraises.symm.trans hcall
    · cases hcall₁.symm.trans hcall
      refine ⟨⟨fun hopen => ?_, fun _ henters => ?_, fun _ hno => ?_⟩, hflat.elsewhere.plain⟩
      · cases hheld.symm.trans hopen
      · obtain ⟨signal, htakes, hafter⟩ := hflat.entered (hflat.enters_iff.mp henters)
        rw [hafter]
        exact htakes.isOpen hplain
      · have hfilled : outcome.entryFilled = false := by
          simpa using fun h => hno (hflat.enters_iff.mpr h)
        exact ⟨(hflat.stayed hfilled).2, onCandle_record hplain hheld hcall hno⟩

/-- A candle that returns reports an entry where it finds no open position and enters one. -/
theorem onCandle_filled (hplain : a.broker.Plain) {outcome : PaperTradeOutcome}
    (hcall : e.onCandle analyze a env candle = .ok (outcome, e', a')) :
    outcome.entryFilled = true ↔
      (e.position a).any PositionRecord.isOpen = false ∧ e.Enters analyze a env candle := by
  cases hheld : (e.position a).any PositionRecord.isOpen with
  | true =>
    obtain ⟨p, hp, hopen⟩ := (Option.any_eq_true ..).mp hheld
    -- A candle that finds a position creates no entry.
    have hnone : outcome.orderCreated = false := by
      cases hhit : trigger p candle with
      | none =>
        obtain ⟨a₁, hcall₁, -⟩ := onCandle_hold analyze env hplain hp hopen hhit
        cases hcall₁.symm.trans hcall
        rfl
      | some hit =>
        obtain ⟨outcome₁, e₁, a₁, hcall₁, -, -, hcreated, -⟩ :=
          onCandle_hit analyze env hplain hp hopen hhit
        cases hcall₁.symm.trans hcall
        exact hcreated
    simp [PaperTradeOutcome.entryFilled, hnone]
  | false =>
    rcases onCandle_flat analyze env candle hplain hheld with
      ⟨-, message, hraises⟩ | ⟨outcome₁, e₁, a₁, hcall₁, hflat⟩
    · cases hraises.symm.trans hcall
    · cases hcall₁.symm.trans hcall
      rw [← hflat.enters_iff, and_iff_right rfl]

/-- A call that raises found no position, and leaves none. -/
theorem abandoned_elsewhere {e : PaperTradingEngine} {a : PaperAccount} (analyze : Analysis)
    (env : PaperEnv) (candle : Candle) (h : a.broker.Plain)
    (hflat : (e.position a).any PositionRecord.isOpen = false) :
    Elsewhere e a (e.abandoned analyze a env candle).2 ∧
      (e.position (e.abandoned analyze a env candle).2).any PositionRecord.isOpen = false := by
  have hobserved := observed_elsewhere (e := e) h candle
  have hnone := any_observed candle hflat
  cases hsignal : fillableSignal analyze e.strategy (e.candles ++ [candle]) candle with
  | none =>
    rw [abandoned_quiet hsignal]
    exact ⟨hobserved, hnone⟩
  | some signal =>
    obtain ⟨nextId, orders, hleft⟩ := abandoned_signal hsignal a env
    rw [hleft, position_broker]
    refine ⟨⟨?_, hobserved.others⟩, hnone⟩
    exact (hobserved.plain.setQuote e.symbol _).1.of_book ⟨_, _, _, _, _, rfl⟩

end PaperTradingEngine

end SuperTrading
