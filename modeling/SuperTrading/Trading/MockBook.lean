import SuperTrading.Trading.NettingAgreement

/-!
# The Mock Broker's Book

What the calls of a `MockBroker` do to its order book, its resting stops, its lots
and its cash, for a broker as `resolve_broker` makes it: no slippage, no simulated
rejection, no simulated part fill.

- **Layer A**: the trigger loop
- **Layer B**: the invariant of the book
- **Layer C**: one theorem for each call
-/

namespace SuperTrading

open SuperTrading.Logic

namespace MockBroker

/-! ## Layer A: The trigger loop -/

/-- Some resting stop of the symbol would fire at this price. -/
def Fires (b : MockBroker) (symbol : Symbol) (ltp : ℚ) : Prop :=
  ∃ e ∈ b.resting.entries, e.2.symbol = symbol ∧ crossed e.2 ltp = true

/-- The loop passes over stops that do not fire. -/
theorem foldl_of_none_fires {symbol : Symbol} {ltp : ℚ} (es : List (BrokerOrderId × OrderRequest))
    (b : MockBroker) (h : ∀ e ∈ es, ¬ (e.2.symbol = symbol ∧ crossed e.2 ltp = true)) :
    es.foldl (fun b e =>
      if e.2.symbol = symbol ∧ crossed e.2 ltp = true then b.fireResting e.1 e.2 ltp else b) b =
      b := by
  induction es with
  | nil => rfl
  | cons e es ih =>
    rw [List.foldl_cons, if_neg (h e List.mem_cons_self)]
    exact ih fun e' he' => h e' (List.mem_cons_of_mem _ he')

/-- With no stop to fire, the trigger loop does nothing. -/
theorem triggerRestingOrders_of_not_fires {b : MockBroker} {symbol : Symbol} {ltp : ℚ}
    (h : ¬ b.Fires symbol ltp) : b.triggerRestingOrders symbol ltp = b :=
  foldl_of_none_fires _ b fun e he hc => h ⟨e, he, hc⟩

@[simp] theorem resting_applyFillToPosition (b : MockBroker) (s : Symbol) (d : Direction)
    (q x : ℚ) : (b.applyFillToPosition s d q x).resting = b.resting := by
  unfold applyFillToPosition
  dsimp only
  split
  · rfl
  · split
    · rfl
    · split <;> rfl

theorem resting_fireResting (b : MockBroker) (id : BrokerOrderId) (r : OrderRequest) (ltp : ℚ) :
    (b.fireResting id r ltp).resting = b.resting.erase id := by
  unfold fireResting
  rw [resting_applyFillToPosition]

/-- A fill moves positions and cash, and nothing else of the broker. -/
theorem applyFillToPosition_frame (b : MockBroker) (s : Symbol) (d : Direction) (q x : ℚ) :
    ∃ positions balance, b.applyFillToPosition s d q x =
      { b with
        positions := positions
        balance := balance } := by
  unfold applyFillToPosition
  dsimp only
  split
  · exact ⟨_, b.balance, rfl⟩
  · split
    · exact ⟨_, _, rfl⟩
    · split
      · exact ⟨_, _, rfl⟩
      · exact ⟨_, _, rfl⟩

/-- With one stop of the symbol resting, a price that crosses it fires it alone. -/
theorem triggerRestingOrders_of_lone {b : MockBroker} {symbol : Symbol} {ltp : ℚ}
    {es : List (BrokerOrderId × OrderRequest)} {id : BrokerOrderId} {request : OrderRequest}
    (hentries : b.resting.entries = es ++ [(id, request)]) (hsymbol : request.symbol = symbol)
    (hcross : crossed request ltp = true) (hothers : ∀ e ∈ es, e.2.symbol ≠ symbol) :
    b.triggerRestingOrders symbol ltp = b.fireResting id request ltp := by
  unfold triggerRestingOrders
  rw [hentries, List.foldl_append,
    foldl_of_none_fires es b fun e he hfires => hothers e he hfires.1]
  simp [hsymbol, hcross]

/-! ## Layer B: The invariant -/

/-- A broker without simulated mishaps, that lists no flat position, whose orders
are stored under ids it issued, and whose resting stops are acknowledged orders. -/
structure WellFormed (b : MockBroker) : Prop where
  slippage : b.slippagePct = 0
  rejection : b.rejectProbability = 0
  partFill : b.partialFillProbability = 0
  noFlat : b.NoFlat
  stored : ∀ id order, b.orders.get? id = some order → order.brokerOrderId = id
  issued : ∀ id order, b.orders.get? id = some order → ∃ n, id = .uuid n ∧ n < b.nextId
  live : ∀ id request, b.resting.get? id = some request →
    ∃ order, b.orders.get? id = some order ∧ order.status = .acknowledged

theorem wellFormed_new (startingBalance : ℚ) (nextId : ℕ) :
    (new startingBalance nextId).WellFormed where
  slippage := rfl
  rejection := rfl
  partFill := rfl
  noFlat symbol p h := by simp [new] at h
  stored id order h := by simp [new] at h
  issued id order h := by simp [new] at h
  live id request h := by simp [new] at h

namespace WellFormed

variable {b : MockBroker}

/-- Fills, marks and quotes keep the order book as it is. -/
theorem of_book {b' : MockBroker} (h : b.WellFormed) (hflat : b'.NoFlat)
    (hsame : ∃ positions balance quotes, b' =
      { b with
        positions := positions
        balance := balance
        quotes := quotes }) : b'.WellFormed := by
  obtain ⟨positions, balance, quotes, rfl⟩ := hsame
  exact
    { slippage := h.slippage
      rejection := h.rejection
      partFill := h.partFill
      noFlat := hflat
      stored := h.stored
      issued := h.issued
      live := h.live }

/-- The id of the next order is not in the book yet. -/
theorem fresh_order (h : b.WellFormed) : b.orders.get? (.uuid b.nextId) = none := by
  cases hget : b.orders.get? (.uuid b.nextId) with
  | none => rfl
  | some order =>
    obtain ⟨n, hn, hlt⟩ := h.issued _ order hget
    cases hn
    exact absurd hlt (lt_irrefl _)

theorem fresh_resting (h : b.WellFormed) : b.resting.get? (.uuid b.nextId) = none := by
  cases hget : b.resting.get? (.uuid b.nextId) with
  | none => rfl
  | some request =>
    obtain ⟨order, horder, -⟩ := h.live _ request hget
    rw [h.fresh_order] at horder
    cases horder

end WellFormed

/-- The same lots and the same cash. -/
structure SameAccount (b b' : MockBroker) : Prop where
  lots : ∀ j, b'.lot j = b.lot j
  balance : b'.balance = b.balance
  startingBalance : b'.startingBalance = b.startingBalance

/-- The account took one fill. -/
structure TakesFill (b b' : MockBroker) (symbol : Symbol) (size price : ℚ) : Prop where
  lots : ∀ j, b'.lot j = if symbol = j then (b.lot symbol).fill size price else b.lot j
  balance : b'.balance = b.balance + (b.lot symbol).realized size price
  startingBalance : b'.startingBalance = b.startingBalance

theorem SameAccount.trans {a b c : MockBroker} (h : a.SameAccount b) (h' : b.SameAccount c) :
    a.SameAccount c where
  lots j := (h'.lots j).trans (h.lots j)
  balance := h'.balance.trans h.balance
  startingBalance := h'.startingBalance.trans h.startingBalance

theorem TakesFill.sameAccount {a b c : MockBroker} {symbol : Symbol} {size price : ℚ}
    (h : a.TakesFill b symbol size price) (h' : b.SameAccount c) :
    a.TakesFill c symbol size price where
  lots j := (h'.lots j).trans (h.lots j)
  balance := h'.balance.trans h.balance
  startingBalance := h'.startingBalance.trans h.startingBalance

/-! ## Layer C: The calls -/

section Calls

variable {b : MockBroker}

/-- `set_quote` with a price that is no market print. -/
theorem WellFormed.setQuote_seed (h : b.WellFormed) (symbol : Symbol) (ltp : ℚ) :
    (b.setQuote symbol ltp false).WellFormed := by
  refine h.of_book ?_ ⟨_, b.balance, _, rfl⟩
  exact noFlat_markToMarket (b := { b with quotes := _ }) h.noFlat symbol ltp

theorem sameAccount_setQuote_seed (b : MockBroker) (symbol : Symbol) (ltp : ℚ) :
    b.SameAccount (b.setQuote symbol ltp false) where
  lots j := lot_markToMarket { b with quotes := _ } symbol j ltp
  balance := rfl
  startingBalance := rfl

/-- `set_quote` with nothing resting: a print marks positions, and no more. -/
theorem WellFormed.setQuote_quiet (h : b.WellFormed) (hquiet : b.resting.entries = [])
    (symbol : Symbol) (ltp : ℚ) (isMarketPrint : Bool) :
    (b.setQuote symbol ltp isMarketPrint).WellFormed ∧
      b.SameAccount (b.setQuote symbol ltp isMarketPrint) ∧
      (b.setQuote symbol ltp isMarketPrint).resting.entries = [] ∧
      (b.setQuote symbol ltp isMarketPrint).quotes.get? symbol =
        some { symbol := symbol, ltp := ltp } := by
  have hseed := h.setQuote_seed symbol ltp
  have hsame := sameAccount_setQuote_seed b symbol ltp
  cases isMarketPrint with
  | false => exact ⟨hseed, hsame, hquiet, Dict.get?_set_self ..⟩
  | true =>
    have hnone : ¬ (b.setQuote symbol ltp false).Fires symbol ltp := by
      rintro ⟨e, he, -⟩
      have hnil : e ∈ b.resting.entries := he
      rw [hquiet] at hnil
      cases hnil
    -- Nothing fires, so the print is the seed with its mark taken twice.
    have hprint : b.setQuote symbol ltp true =
        (b.setQuote symbol ltp false).markToMarket symbol ltp :=
      congrArg (fun b => markToMarket b symbol ltp) (triggerRestingOrders_of_not_fires hnone)
    rw [hprint]
    refine ⟨hseed.of_book (noFlat_markToMarket hseed.noFlat symbol ltp) ⟨_, b.balance, _, rfl⟩,
      hsame.trans ⟨fun j => lot_markToMarket .., rfl, rfl⟩, hquiet, Dict.get?_set_self ..⟩

/-- A market order resolves to the last quote, if that is a price. -/
theorem WellFormed.resolveFillPrice_market (h : b.WellFormed) {request : OrderRequest}
    (htype : request.orderType = .market) {ltp : ℚ} (hltp : 0 < ltp)
    (hquote : b.quotes.get? request.symbol = some { symbol := request.symbol, ltp := ltp }) :
    b.resolveFillPrice request = some ltp := by
  simp only [resolveFillPrice, htype, hquote, if_neg (not_le.mpr hltp), h.slippage]
  cases request.direction <;> simp

/-- A limit order resolves to its own price. -/
theorem WellFormed.resolveFillPrice_limit (h : b.WellFormed) {request : OrderRequest}
    (htype : request.orderType = .limit) {price : ℚ} (hpos : 0 < price)
    (hprice : request.price = some price) : b.resolveFillPrice request = some price := by
  simp only [resolveFillPrice, htype, hprice, if_neg (not_le.mpr hpos), h.slippage]
  cases request.direction <;> simp

/-- A new order in the book. -/
theorem WellFormed.booked (h : b.WellFormed) (order : BrokerOrder)
    (hid : order.brokerOrderId = .uuid b.nextId) :
    ({ b with
        nextId := b.nextId + 1
        orders := b.orders.set (.uuid b.nextId) order } : MockBroker).WellFormed where
  slippage := h.slippage
  rejection := h.rejection
  partFill := h.partFill
  noFlat := h.noFlat
  stored id o ho := by
    rw [Dict.get?_set] at ho
    split at ho
    · rename_i heq
      cases ho
      exact hid.trans heq
    · exact h.stored id o ho
  issued id o ho := by
    rw [Dict.get?_set] at ho
    split at ho
    · rename_i heq
      exact ⟨b.nextId, heq.symm, Nat.lt_succ_self _⟩
    · obtain ⟨n, hn, hlt⟩ := h.issued id o ho
      exact ⟨n, hn, Nat.lt_succ_of_lt hlt⟩
  live id r hr := by
    obtain ⟨o, ho, hstatus⟩ := h.live id r hr
    -- A resting stop has an order in the book, so its id is not the fresh one.
    have hne : BrokerOrderId.uuid b.nextId ≠ id := by
      rintro rfl
      rw [h.fresh_order] at ho
      cases ho
    exact ⟨o, (Dict.get?_set_of_ne _ hne _).trans ho, hstatus⟩

/-- A fill of any size at any price. -/
theorem WellFormed.applyFill (h : b.WellFormed) (symbol : Symbol) (direction : Direction) {q : ℚ}
    (hq : 0 < q) (price : ℚ) :
    (b.applyFillToPosition symbol direction q price).WellFormed ∧
      b.TakesFill (b.applyFillToPosition symbol direction q price) symbol (direction.signed q)
        price := by
  obtain ⟨hlots, hcash, hflat⟩ := b.applyFillToPosition_spec h.noFlat symbol direction hq price
  obtain ⟨positions, balance, heq⟩ := b.applyFillToPosition_frame symbol direction q price
  exact ⟨h.of_book hflat ⟨positions, balance, b.quotes, heq⟩, hlots, hcash,
    startingBalance_applyFillToPosition ..⟩

/-- The broker after it filled an order in full, at a price. -/
def filled (b : MockBroker) (request : OrderRequest) (price : ℚ) : MockBroker :=
  { b with
    nextId := b.nextId + 1
    orders := b.orders.set (.uuid b.nextId)
      { bookEntry (.uuid b.nextId) request .filled with
        filledQuantity := request.quantity
        averageFillPrice := some price } }.applyFillToPosition request.symbol request.direction
          request.quantity price

/-- `place_order` of an order that is no stop and has a price: it fills in full. -/
theorem placeOrder_filled (h : b.WellFormed) {request : OrderRequest}
    (htype : request.triggerPrice = none) {price : ℚ}
    (hprice : b.resolveFillPrice request = some price) :
    b.placeOrder request =
      ({ brokerOrderId := .uuid b.nextId
         status := .filled
         filledQuantity := request.quantity
         averageFillPrice := some price }, b.filled request price) := by
  have hreject : ¬ (0 < b.rejectProbability) := by simp [h.rejection]
  have hpart : ¬ (0 < b.partialFillProbability) := by simp [h.partFill]
  have hresolve : ({ b with nextId := b.nextId + 1 } : MockBroker).resolveFillPrice request =
      some price := hprice
  -- No draw is taken, and an order without a trigger is filled on arrival.
  simp [placeOrder, uuid4, hreject, htype, hresolve, fillOrder, hpart, filled]

/-- A fill leaves quotes and resting stops alone. -/
theorem filled_frame (b : MockBroker) (request : OrderRequest) (price : ℚ) :
    (b.filled request price).resting = b.resting ∧ (b.filled request price).quotes = b.quotes ∧
      (b.filled request price).nextId = b.nextId + 1 := by
  obtain ⟨positions, balance, heq⟩ := applyFillToPosition_frame
    { b with
      nextId := b.nextId + 1
      orders := b.orders.set (.uuid b.nextId)
        { bookEntry (.uuid b.nextId) request .filled with
          filledQuantity := request.quantity
          averageFillPrice := some price } }
    request.symbol request.direction request.quantity price
  unfold filled
  rw [heq]
  exact ⟨rfl, rfl, rfl⟩

/-- A fill keeps the book well formed and moves the account. -/
theorem WellFormed.filled (h : b.WellFormed) {request : OrderRequest} (hqty : 0 < request.quantity)
    (price : ℚ) :
    (b.filled request price).WellFormed ∧ b.TakesFill (b.filled request price) request.symbol
      (request.direction.signed request.quantity) price := by
  have hbooked := h.booked
    { bookEntry (.uuid b.nextId) request .filled with
      filledQuantity := request.quantity
      averageFillPrice := some price } rfl
  obtain ⟨hwell, htakes⟩ := hbooked.applyFill request.symbol request.direction hqty price
  exact ⟨hwell, htakes.lots, htakes.balance, htakes.startingBalance⟩

/-- `cancel_order` withdraws a stop that rests, and an order that does not rest was
finished or never there. -/
theorem WellFormed.cancelOrder (h : b.WellFormed) (id : BrokerOrderId) :
    (b.cancelOrder id).2.WellFormed ∧ b.SameAccount (b.cancelOrder id).2 ∧
    (∀ j, (b.cancelOrder id).2.resting.get? j = if id = j then none else b.resting.get? j) ∧
    (b.cancelOrder id).2.quotes = b.quotes ∧ (b.cancelOrder id).2.nextId = b.nextId := by
  -- An id without an acknowledged order names no resting stop.
  have hgone : (∀ o, b.orders.get? id = some o → o.status ≠ .acknowledged) →
      ∀ j, b.resting.get? j = if id = j then none else b.resting.get? j := by
    intro hfinished j
    split
    · rename_i heq
      subst heq
      cases hr : b.resting.get? id with
      | none => rfl
      | some r =>
        obtain ⟨o, ho, hstatus⟩ := h.live id r hr
        exact absurd hstatus (hfinished o ho)
    · rfl
  -- Three ends: no such order, a finished one, and one that still rests.
  unfold MockBroker.cancelOrder
  cases ho : b.orders.get? id with
  | none => exact ⟨h, ⟨fun _ => rfl, rfl, rfl⟩, hgone (by simp [ho]), rfl, rfl⟩
  | some order =>
    dsimp only
    split
    · rename_i hfinished
      refine ⟨h, ⟨fun _ => rfl, rfl, rfl⟩, hgone ?_, rfl, rfl⟩
      intro o ho' hack
      rw [ho] at ho'
      cases ho'
      rw [hack] at hfinished
      simp at hfinished
    · refine ⟨?_, ⟨fun _ => rfl, rfl, rfl⟩, fun j => Dict.get?_erase .., rfl, rfl⟩
      exact
        { slippage := h.slippage
          rejection := h.rejection
          partFill := h.partFill
          noFlat := h.noFlat
          stored := fun j o hj => by
            rw [Dict.get?_set] at hj
            split at hj
            · rename_i heq
              cases hj
              exact (h.stored id order ho).trans heq
            · exact h.stored j o hj
          issued := fun j o hj => by
            rw [Dict.get?_set] at hj
            split at hj
            · rename_i heq
              exact heq ▸ h.issued id order ho
            · exact h.issued j o hj
          live := fun j r hj => by
            rw [Dict.get?_erase] at hj
            split at hj
            · cases hj
            · rename_i hne
              obtain ⟨o, ho', hstatus⟩ := h.live j r hj
              exact ⟨o, (Dict.get?_set_of_ne _ hne _).trans ho', hstatus⟩ }

/-- The book with a stop that rests. -/
def rested (b : MockBroker) (request : OrderRequest) : MockBroker :=
  { b with
    nextId := b.nextId + 1
    orders := b.orders.set (.uuid b.nextId) (bookEntry (.uuid b.nextId) request .acknowledged)
    resting := b.resting.set (.uuid b.nextId) request }

theorem WellFormed.rested (h : b.WellFormed) (request : OrderRequest) :
    (b.rested request).WellFormed := by
  have hbooked := h.booked (bookEntry (.uuid b.nextId) request .acknowledged) rfl
  exact
    { slippage := h.slippage
      rejection := h.rejection
      partFill := h.partFill
      noFlat := h.noFlat
      stored := hbooked.stored
      issued := hbooked.issued
      live := fun j r hj => by
        rw [MockBroker.rested, Dict.get?_set] at hj
        split at hj
        · rename_i heq
          subst heq
          exact ⟨_, Dict.get?_set_self .., rfl⟩
        · exact hbooked.live j r hj }

/-- `place_order` of a stop, up to the trigger loop. -/
theorem placeOrder_stop (h : b.WellFormed) {request : OrderRequest}
    (htype : request.orderType = .slM) (htrigger : request.triggerPrice.isSome) {quote : Quote}
    (hquote : b.quotes.get? request.symbol = some quote) :
    b.placeOrder request =
      (((b.rested request).triggerRestingOrders request.symbol quote.ltp).bookedResult
        (.uuid b.nextId), (b.rested request).triggerRestingOrders request.symbol quote.ltp) := by
  have hreject : ¬ (0 < b.rejectProbability) := by simp [h.rejection]
  simp [placeOrder, uuid4, hreject, htype, htrigger, placeStop, hquote, MockBroker.rested]

/-- A stop whose trigger the last quote has not crossed rests. -/
theorem placeOrder_stop_rests (h : b.WellFormed) {request : OrderRequest}
    (htype : request.orderType = .slM) (htrigger : request.triggerPrice.isSome) {quote : Quote}
    (hquote : b.quotes.get? request.symbol = some quote)
    (hlone : ∀ j r, b.resting.get? j = some r → r.symbol ≠ request.symbol)
    (hcross : crossed request quote.ltp = false) :
    (b.placeOrder request).1.status = .acknowledged ∧
      (b.placeOrder request).1.brokerOrderId = .uuid b.nextId ∧
      (b.placeOrder request).2 = b.rested request := by
  have hquiet : ¬ (b.rested request).Fires request.symbol quote.ltp := by
    rintro ⟨⟨j, r⟩, hmem, hsymbol, hfires⟩
    have hget := (Dict.mem_entries_iff _).mp hmem
    rw [MockBroker.rested, Dict.get?_set] at hget
    split at hget
    · cases hget
      rw [hcross] at hfires
      cases hfires
    · exact hlone j r hget hsymbol
  rw [placeOrder_stop h htype htrigger hquote, triggerRestingOrders_of_not_fires hquiet]
  simp [bookedResult, MockBroker.rested, bookEntry]

/-- The book with a stop that fired: its order filled, and it rests no more. -/
def firedBook (b : MockBroker) (request : OrderRequest) (ltp : ℚ) : MockBroker :=
  { b.rested request with
    resting := (b.rested request).resting.erase (.uuid b.nextId)
    orders := (b.rested request).orders.modify (.uuid b.nextId) fun o =>
      { o with
        status := .filled
        filledQuantity := request.quantity
        averageFillPrice := some (restingFillPrice request ltp) } }

/-- A stop whose trigger the last quote has crossed fires on arrival. -/
theorem placeOrder_stop_fires (h : b.WellFormed) {request : OrderRequest}
    (htype : request.orderType = .slM) (htrigger : request.triggerPrice.isSome) {quote : Quote}
    (hquote : b.quotes.get? request.symbol = some quote)
    (hlone : ∀ j r, b.resting.get? j = some r → r.symbol ≠ request.symbol)
    (hcross : crossed request quote.ltp = true) :
    (b.placeOrder request).1.status = .filled ∧
      (b.placeOrder request).1.brokerOrderId = .uuid b.nextId ∧
      (b.placeOrder request).2 =
        (b.rested request).fireResting (.uuid b.nextId) request quote.ltp := by
  have hentries : (b.rested request).resting.entries =
      b.resting.entries ++ [(.uuid b.nextId, request)] :=
    Dict.entries_set_of_fresh _ h.fresh_resting _
  have hothers : ∀ e ∈ b.resting.entries, e.2.symbol ≠ request.symbol := fun e he =>
    hlone e.1 e.2 ((Dict.mem_entries_iff _).mp he)
  -- The new stop comes last in the loop, and it is the only one of its symbol.
  rw [placeOrder_stop h htype htrigger hquote,
    triggerRestingOrders_of_lone hentries rfl hcross hothers]
  obtain ⟨positions, balance, heq⟩ := (b.firedBook request quote.ltp).applyFillToPosition_frame
    request.symbol request.direction request.quantity (restingFillPrice request quote.ltp)
  rw [firedBook] at heq
  simp only [fireResting, heq, bookedResult, Dict.get?_modify]
  simp [MockBroker.rested]

theorem WellFormed.firedBook (h : b.WellFormed) (request : OrderRequest) (ltp : ℚ) :
    (b.firedBook request ltp).WellFormed := by
  have hrested := h.rested request
  exact
    { slippage := h.slippage
      rejection := h.rejection
      partFill := h.partFill
      noFlat := h.noFlat
      -- Firing rewrites one order and takes it from the resting ones.
      stored := fun j o ho => by
        rw [MockBroker.firedBook, Dict.get?_modify] at ho
        split at ho
        · obtain ⟨old, hold, rfl⟩ := Option.map_eq_some_iff.mp ho
          exact hrested.stored j old hold
        · exact hrested.stored j o ho
      issued := fun j o ho => by
        rw [MockBroker.firedBook, Dict.get?_modify] at ho
        split at ho
        · obtain ⟨old, hold, rfl⟩ := Option.map_eq_some_iff.mp ho
          exact hrested.issued j old hold
        · exact hrested.issued j o ho
      live := fun j r hj => by
        rw [MockBroker.firedBook, Dict.get?_erase] at hj
        split at hj
        · cases hj
        · rename_i hne
          obtain ⟨o, ho, hstatus⟩ := hrested.live j r hj
          refine ⟨o, ?_, hstatus⟩
          rw [MockBroker.firedBook, Dict.get?_modify, if_neg hne]
          exact ho }

/-- A fired stop leaves a well-formed book and the resting stops of before. -/
theorem WellFormed.fired (h : b.WellFormed) {request : OrderRequest}
    (htype : request.orderType = .slM) (hqty : 0 < request.quantity) (ltp : ℚ) :
    let fired := (b.rested request).fireResting (.uuid b.nextId) request ltp
    fired.WellFormed ∧ b.TakesFill fired request.symbol (request.direction.signed request.quantity)
      ltp ∧ (∀ j, fired.resting.get? j = b.resting.get? j) ∧ fired.nextId = b.nextId + 1 := by
  intro fired
  have hprice : restingFillPrice request ltp = ltp := by simp [restingFillPrice, htype]
  have hfired : fired = (b.firedBook request ltp).applyFillToPosition request.symbol
      request.direction request.quantity ltp := by
    show (b.firedBook request ltp).applyFillToPosition _ _ _ (restingFillPrice request ltp) = _
    rw [hprice]
  obtain ⟨hwell, htakes⟩ := (h.firedBook request ltp).applyFill request.symbol request.direction
    hqty ltp
  obtain ⟨positions, balance, hframe⟩ := (b.firedBook request ltp).applyFillToPosition_frame
    request.symbol request.direction request.quantity ltp
  rw [hfired]
  refine ⟨hwell, ⟨htakes.lots, htakes.balance, htakes.startingBalance⟩, fun j => ?_, ?_⟩
  · rw [hframe]
    show ((b.resting.set (.uuid b.nextId) request).erase (.uuid b.nextId)).get? j = _
    rw [Dict.get?_erase, Dict.get?_set]
    split
    · -- The id was not resting before, and rests no more.
      rename_i heq
      rw [← heq]
      exact h.fresh_resting.symm
    · rfl
  · rw [hframe]
    rfl

end Calls

end MockBroker

end SuperTrading
