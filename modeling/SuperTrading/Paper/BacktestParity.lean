import SuperTrading.Paper.Engine
import SuperTrading.Trading.MockBook

/-!
# Paper and Backtest Agree

The same candles through `PaperTradingEngine.on_candle`, one by one, and through
`BacktestEngine.run`, at once. The paper engine goes through an order manager, a
broker and a position book; the backtest keeps one open trade and a sum. A simulation
relates the two candle by candle.

- **Layer A**: what the two report, in one form
- **Layer B**: a market order, from its key to the books
- **Layer C**: the relation, and one lemma for each thing a candle can do
- **Layer D**: whole runs
-/

namespace SuperTrading

open SuperTrading.Logic
open Smc (Candle)

/-! ## Layer A: What the two report -/

/-- A completed trade. -/
structure CompletedTrade where
  direction : Direction
  entryPrice : ℚ
  exitPrice : Option ℚ
  quantity : ℚ
  pnl : ℚ
  openedAt : Option Timestamp
  closedAt : Timestamp
  deriving DecidableEq, Repr

/-- A position that is still open. -/
structure HeldPosition where
  direction : Direction
  entryPrice : ℚ
  stop : Option ℚ
  target : Option ℚ
  quantity : ℚ
  openedAt : Option Timestamp
  deriving DecidableEq, Repr

def BacktestTradeRecord.completed (t : BacktestTradeRecord) : CompletedTrade :=
  { direction := t.direction
    entryPrice := t.entryPrice
    exitPrice := some t.exitPrice
    quantity := t.quantity
    pnl := t.pnl
    openedAt := some t.openedAt
    closedAt := t.closedAt }

def OpenTrade.held (t : OpenTrade) : HeldPosition :=
  { direction := t.direction
    entryPrice := t.entryPrice
    stop := some t.stop
    target := some t.target
    quantity := t.quantity
    openedAt := some t.openedAt }

/-- A paper engine and its account, with what their outcomes have reported so far: the
candle the position was opened on, the trades completed, and the reasons the gate gave. -/
structure PaperSession where
  engine : PaperTradingEngine
  account : PaperAccount
  openedAt : Option Timestamp := none
  trades : List CompletedTrade := []
  refusals : List String := []

namespace PaperSession

def held (s : PaperSession) : Option PositionRecord :=
  (s.engine.position s.account).filter PositionRecord.isOpen

def openPosition (s : PaperSession) : Option HeldPosition :=
  s.held.map fun p =>
    { direction := p.side
      entryPrice := p.averagePrice
      stop := p.stop
      target := p.target
      quantity := |p.quantity|
      openedAt := s.openedAt }

/-- The trade that an outcome completes: of the position as the candle found it. -/
def completed (s : PaperSession) (candle : Candle) (outcome : PaperTradeOutcome) :
    List CompletedTrade :=
  match s.held, outcome.closedPositionPnl with
  | some p, some pnl =>
    [ { direction := p.side
        entryPrice := p.averagePrice
        exitPrice := outcome.exitPrice
        quantity := |p.quantity|
        pnl := pnl
        openedAt := s.openedAt
        closedAt := candle.timestamp } ]
  | _, _ => []

/-- The session after a call that returned. -/
def after (s : PaperSession) (candle : Candle) (outcome : PaperTradeOutcome)
    (engine : PaperTradingEngine) (account : PaperAccount) : PaperSession :=
  let isOpen := (engine.position account).any PositionRecord.isOpen
  { engine := engine
    account := account
    openedAt := if s.held = none ∧ isOpen then some candle.timestamp else s.openedAt
    trades := s.trades ++ s.completed candle outcome
    refusals := s.refusals ++ outcome.riskRejectedReason.toList }

variable (analyze : Analysis)

def onCandle (s : PaperSession) (env : PaperEnv) (candle : Candle) :
    Except String PaperSession := do
  let (outcome, engine, account) ← s.engine.onCandle analyze s.account env candle
  return s.after candle outcome engine account

/-- The candles one by one, each with what its call reads from elsewhere. -/
def feed : PaperSession → List (PaperEnv × Candle) → Except String PaperSession
  | s, [] => .ok s
  | s, e :: es => do
    let s ← s.onCandle analyze e.1 e.2
    feed s es

/-- The risk gate approves every proposal of the run. -/
def GateApproves : PaperSession → List (PaperEnv × Candle) → Prop
  | _, [] => True
  | s, e :: es => ∀ s', s.onCandle analyze e.1 e.2 = .ok s' →
      s'.refusals = s.refusals ∧ GateApproves s' es

/-- The session reports what the backtest reports. -/
structure Agrees (s : PaperSession) (r : BacktestResult) : Prop where
  trades : s.trades = r.trades.map BacktestTradeRecord.completed
  openPosition : s.openPosition = r.openTrade.map fun t => t.toOpenTrade.held
  cash : s.account.broker.getAccount.balance = r.equity

end PaperSession

/-! ## Layer B: A market order -/

namespace PaperTradingEngine

variable {e : PaperTradingEngine} {a : PaperAccount} {key : String}

/-- A new key enters one order: the broker takes it, and the books take the answer. -/
theorem submitMarket_new (h : e.orderManager.lookup key = none) (now : Instant)
    (direction : Direction) (quantity : ℚ)
    (hdivides : dividesByZero a.broker (e.newOrder now key direction quantity).request = false) :
    let order := e.newOrder now key direction quantity
    let answer := a.broker.placeOrder order.request
    ∃ orders, e.submitMarket a now key direction quantity =
        .ok (order.finished now "" answer.1, true, { e with orderManager := orders },
          { a with
            broker := answer.2
            positionManager := a.positionManager.answered order answer.1 }) ∧
      ∀ key', (orders.lookup key').isSome ↔ key' = key ∨ (e.orderManager.lookup key').isSome := by
  intro order answer
  obtain ⟨hcreate, ⟨validating, approved, hvalidating, happroved, hsubmit⟩, hget⟩ :=
    ExecutionEngine.submit_new ⟨a.broker, e.orderManager, a.positionManager⟩ h now e.accountId
      e.symbol direction .market quantity none ""
  have hdivides' : dividesByZero a.broker
      (e.orderManager.newOrder now key e.accountId e.symbol direction .market quantity
        none).request =
        false := hdivides
  -- Every step of the order's life rewrites the one entry.
  refine ⟨(e.orderManager.insert order).update order.id
    (fun order => order.finished now "" answer.1) fun _ => OrderRecord.finished_id .., ?_, ?_⟩
  · unfold submitMarket
    dsimp only at hcreate
    rw [hcreate]
    simp only [hdivides', hvalidating, happroved, hsubmit, hget, bind, Except.bind, pure,
      Except.pure, Bool.false_eq_true, if_false]
    rfl
  · -- The keys that are known are the old ones and the new one.
    intro key'
    rw [OrderManager.lookup_update_isSome, OrderManager.lookup_insert_isSome]
    rfl

/-- A fill of something divides by no zero. -/
theorem dividesByZero_of_filled {b : MockBroker} (h : b.WellFormed) {request : OrderRequest}
    (htype : request.triggerPrice = none) (hqty : 0 < request.quantity) {price : ℚ}
    (hprice : b.resolveFillPrice request = some price) : dividesByZero b request = false := by
  rw [dividesByZero, MockBroker.placeOrder_filled h htype hprice]
  cases hp : b.positions.get? request.symbol with
  | none => rfl
  | some p =>
    simp only [Option.any_some, decide_eq_false_iff_not]
    -- On one side, the sum is further from zero than what was added.
    cases request.direction with
    | long =>
      rintro ⟨-, hside, hsum⟩
      have hpos : 0 < p.quantity := hside.mpr hqty
      simp only [Direction.signed_long] at hsum
      linarith
    | short =>
      rintro ⟨-, hside, hsum⟩
      have hneg : ¬ 0 < p.quantity := fun hpos => by
        have := hside.mp hpos
        simp only [Direction.signed_short] at this
        linarith
      simp only [Direction.signed_short] at hsum
      linarith

/-- The books around an engine: a broker with nothing resting, and the same lot with the
broker and in the position book. The keys used so far end in the candles seen so far. -/
structure Books (e : PaperTradingEngine) (a : PaperAccount) (seen : List Candle) : Prop where
  wellFormed : a.broker.WellFormed
  quiet : a.broker.resting.entries = []
  lots : a.broker.lot e.symbol = a.positionManager.lot e.accountId e.symbol
  keys : ∀ key, (e.orderManager.lookup key).isSome →
    ∃ pre, ∃ c ∈ seen, key = pre ++ c.timestamp.isoformat c.utcOffset

/-- The record that the engine's fills are applied to. -/
def record (e : PaperTradingEngine) (a : PaperAccount) : PositionRecord :=
  a.positionManager.record e.accountId e.symbol

/-- **A market order of something, on a candle of its own.** It fills at the quote, in
the broker's book and in the position book alike. -/
theorem Books.submitMarket {seen : List Candle} (h : Books e a seen) {candle : Candle}
    (hfresh : ∀ c ∈ seen, c.timestamp ≠ candle.timestamp) (pre : String) {ltp : ℚ} (hltp : 0 < ltp)
    (hquote : a.broker.quotes.get? e.symbol = some { symbol := e.symbol, ltp := ltp })
    (now : Instant) (direction : Direction) {quantity : ℚ} (hqty : 0 < quantity) :
    ∃ order orders broker,
      let e' := { e with orderManager := orders }
      let a' := { a with
        broker := broker
        positionManager := a.positionManager.applyFill e.accountId e.symbol direction quantity ltp }
      e.submitMarket a now (pre ++ candle.timestamp.isoformat candle.utcOffset) direction quantity =
          .ok (order, true, e', a') ∧
        order.averageFillPrice = some ltp ∧ Books e' a' (seen ++ [candle]) ∧
        broker.balance = a.broker.balance +
          (a.positionManager.lot e.accountId e.symbol).realized
            (direction.signed quantity) ltp := by
  -- The key ends in the candle's time, which no key before does.
  have hnew : e.orderManager.lookup (pre ++ candle.timestamp.isoformat candle.utcOffset) =
      none := by
    by_contra hsome
    obtain ⟨pre', c, hc, heq⟩ := h.keys _ (Option.isSome_iff_ne_none.mpr hsome)
    exact hfresh c hc (Timestamp.eq_of_isoformat_suffix heq).1.symm
  set order := e.newOrder now (pre ++ candle.timestamp.isoformat candle.utcOffset) direction
    quantity with horder
  -- The broker fills at the quote, in full.
  have hprice : a.broker.resolveFillPrice order.request = some ltp :=
    h.wellFormed.resolveFillPrice_market rfl hltp hquote
  have htrigger : order.request.triggerPrice = none := rfl
  have hpositive : 0 < order.request.quantity := hqty
  have hplaced := MockBroker.placeOrder_filled h.wellFormed htrigger hprice
  have hdivides := dividesByZero_of_filled h.wellFormed htrigger hpositive hprice
  obtain ⟨orders, hsubmit, hkeys⟩ := submitMarket_new hnew now direction quantity hdivides
  rw [← horder, hplaced] at hsubmit
  have hfills : OrderResult.fills
      { brokerOrderId := .uuid a.broker.nextId
        status := .filled
        filledQuantity := order.request.quantity
        averageFillPrice := some ltp } = true := by
    simp [OrderResult.fills, hpositive]
  -- The position book takes the same fill.
  have hbook : a.positionManager.answered order
      { brokerOrderId := .uuid a.broker.nextId
        status := .filled
        filledQuantity := order.request.quantity
        averageFillPrice := some ltp } =
      a.positionManager.applyFill e.accountId e.symbol direction quantity ltp := by
    rw [PositionManager.answered, if_pos hfills]
    rfl
  rw [hbook] at hsubmit
  obtain ⟨hwell, htakes⟩ := h.wellFormed.filled hpositive ltp
  obtain ⟨hresting, -, -⟩ := a.broker.filled_frame order.request ltp
  obtain ⟨hlots, -⟩ := a.positionManager.applyFill_spec e.accountId e.symbol direction hqty ltp
  refine ⟨_, orders, _, hsubmit, by simp [hfills], ⟨hwell, ?_, ?_, ?_⟩, ?_⟩
  · show (a.broker.filled order.request ltp).resting.entries = []
    rw [hresting, h.quiet]
  · -- Both lots took the one fill.
    have hbroker := htakes.lots e.symbol
    have hmanager := hlots e.symbol
    rw [if_pos rfl, ← h.lots] at hmanager
    exact (hbroker.trans (if_pos rfl)).trans hmanager.symm
  · -- The keys are those of before and the new one.
    intro key' hknown
    rcases (hkeys key').mp hknown with rfl | hold
    · exact ⟨pre, candle, by simp, rfl⟩
    · obtain ⟨pre', c, hc, heq⟩ := h.keys key' hold
      exact ⟨pre', c, List.mem_append_left _ hc, heq⟩
  · rw [← h.lots]
    exact htakes.balance

/-- A quote of the engine's symbol leaves the books as they are. -/
theorem Books.quoted {seen : List Candle} (h : Books e a seen) (ltp : ℚ) :
    let a' := { a with broker := a.broker.setQuote e.symbol ltp true }
    Books e a' seen ∧ a'.broker.balance = a.broker.balance ∧
      a'.broker.quotes.get? e.symbol = some { symbol := e.symbol, ltp := ltp } := by
  obtain ⟨hwell, hsame, hquiet, hquote⟩ := h.wellFormed.setQuote_quiet h.quiet e.symbol ltp true
  exact ⟨⟨hwell, hquiet, (hsame.lots e.symbol).trans h.lots, h.keys⟩, hsame.balance, hquote⟩

theorem Books.append {seen : List Candle} (h : Books e a seen) (candle : Candle) :
    Books e a (seen ++ [candle]) where
  wellFormed := h.wellFormed
  quiet := h.quiet
  lots := h.lots
  keys key hknown := by
    obtain ⟨pre, c, hc, heq⟩ := h.keys key hknown
    exact ⟨pre, c, List.mem_append_left _ hc, heq⟩

/-! ## Layer C: What a candle does -/

/-- A position as a mark leaves it. -/
theorem get_markToMarket (m : PositionManager) (accountId : AccountId) (symbol : Symbol) (x : ℚ) :
    ∃ unrealized : PositionRecord → ℚ, (m.markToMarket accountId symbol x).get accountId symbol =
      (m.get accountId symbol).map fun p => { p with unrealizedPnl := unrealized p } := by
  refine ⟨fun p => if p.isOpen then (x - p.averagePrice) * p.quantity else p.unrealizedPnl, ?_⟩
  rw [PositionManager.get_marked, if_pos rfl]
  cases m.get accountId symbol with
  | none => rfl
  | some p =>
    by_cases hopen : p.isOpen = true <;> simp [hopen, PositionRecord.marked]

/-- The candle is observed: the books stay, and the position is marked. -/
theorem Books.observed {seen : List Candle} (h : Books e a seen) (candles : List Candle)
    (candle : Candle) :
    let e' := { e with candles := candles }
    let a' := e.observed a candle
    Books e' a' seen ∧ a'.broker.balance = a.broker.balance ∧
      ∃ unrealized : PositionRecord → ℚ, e'.position a' =
        (e.position a).map fun p => { p with unrealizedPnl := unrealized p } := by
  intro e' a'
  obtain ⟨hquoted, hbalance, -⟩ := h.quoted candle.close
  obtain ⟨unrealized, hget⟩ :=
    get_markToMarket a.positionManager e.accountId e.symbol candle.close
  -- A mark moves the unrealized profit, and neither size nor price.
  have hlot : a'.positionManager.lot e.accountId e.symbol =
      a.positionManager.lot e.accountId e.symbol := by
    show (a.positionManager.markToMarket e.accountId e.symbol candle.close).lot _ _ = _
    simp only [PositionManager.lot, PositionManager.record, hget]
    cases a.positionManager.get e.accountId e.symbol with
    | none => rfl
    | some p => rfl
  exact ⟨⟨hquoted.wellFormed, hquoted.quiet, hquoted.lots.trans hlot.symm, hquoted.keys⟩,
    hbalance, unrealized, hget⟩

/-- The record is that of the open trade. -/
structure Covers (p : PositionRecord) (t : OpenTrade) : Prop where
  quantity : p.quantity = t.direction.signed t.quantity
  quantity_pos : 0 < t.quantity
  averagePrice : p.averagePrice = t.entryPrice
  stop : p.stop = some t.stop
  target : p.target = some t.target
  entry_pos : 0 < t.entryPrice
  bracketed : t.direction = .long ∧ t.stop < t.entryPrice ∧ t.entryPrice < t.target ∨
    t.direction = .short ∧ t.entryPrice < t.stop ∧ t.target < t.entryPrice

namespace Covers

variable {p : PositionRecord} {t : OpenTrade}

theorem isOpen (h : Covers p t) : p.isOpen = true ∧ p.side = t.direction :=
  PositionRecord.side_of_signed (by rw [h.quantity, Direction.signed_signed]; exact h.quantity_pos)

theorem abs_quantity (h : Covers p t) : |p.quantity| = t.quantity := by
  rw [h.quantity, Direction.abs_signed, abs_of_pos h.quantity_pos]

theorem isLong (h : Covers p t) : p.isLong = decide (t.direction = .long) := by
  have hside := h.isOpen.2
  unfold PositionRecord.side at hside
  rw [← hside]
  cases p.isLong <;> rfl

theorem opposite (h : Covers p t) :
    (if p.isLong then Direction.short else .long) = t.direction.opposite := by
  rw [h.isLong]
  cases t.direction <;> rfl

/-- Both engines read the same level off the candle. -/
theorem trigger (h : Covers p t) (candle : Candle) :
    (PaperTradingEngine.trigger p candle).map Prod.fst = t.hitPrice candle := by
  unfold PaperTradingEngine.trigger OpenTrade.hitPrice
  rw [h.isLong, h.stop, h.target]
  cases t.direction with
  | long =>
    by_cases hstop : candle.low ≤ t.stop
    · simp [Option.filter, hstop]
    · by_cases htarget : t.target ≤ candle.high <;> simp [Option.filter, hstop, htarget]
  | short =>
    by_cases hstop : t.stop ≤ candle.high
    · simp [Option.filter, hstop]
    · by_cases htarget : candle.low ≤ t.target <;> simp [Option.filter, hstop, htarget]

/-- A level that a candle of positive prices hits is a positive price. -/
theorem hitPrice_pos (h : Covers p t) {candle : Candle} (hlow : 0 < candle.low) {x : ℚ}
    (hx : t.hitPrice candle = some x) : 0 < x := by
  have hentry := h.entry_pos
  unfold OpenTrade.hitPrice at hx
  rcases h.bracketed with ⟨hd, hstop, htarget⟩ | ⟨hd, hstop, htarget⟩
  · rw [hd] at hx
    dsimp only at hx
    split_ifs at hx with hhit hhit
    · cases hx
      exact hlow.trans_le hhit
    · cases hx
      exact hentry.trans htarget
  · rw [hd] at hx
    dsimp only at hx
    split_ifs at hx with hhit hhit
    · cases hx
      exact hentry.trans hstop
    · cases hx
      exact hlow.trans_le hhit

/-- What closing the position realizes: the move, on the side of the trade. -/
theorem realized (h : Covers p t) (x : ℚ) :
    (Lot.ofPair p.quantity p.averagePrice).realized (t.direction.opposite.signed t.quantity) x =
      t.direction.signed (x - t.entryPrice) * t.quantity := by
  have hq := h.quantity_pos
  have hne : t.direction.signed t.quantity ≠ 0 := Direction.signed_ne_zero hq
  have hsquare : ¬ 0 ≤ t.direction.signed t.quantity * -t.direction.signed t.quantity := by
    have := mul_self_pos.mpr hne
    linarith
  rw [h.quantity, h.averagePrice, Lot.realized, Lot.ofPair_qty, Lot.ofPair_avg hne,
    Direction.signed_opposite, if_neg hsquare, abs_neg, min_self, Direction.abs_signed,
    abs_of_pos hq]
  cases t.direction with
  | long => simp [hq, mul_comm]
  | short =>
    have hneg : ¬ 0 < -t.quantity := by linarith
    simp only [Direction.signed_short, hneg, if_false]
    ring

end Covers

theorem maybeExit_miss {p : PositionRecord} {t : OpenTrade} (hcovers : Covers p t) {candle : Candle}
    (hmiss : t.hitPrice candle = none) (now : Instant) :
    e.maybeExit a now p candle = .ok ({ signal := none }, e, a) := by
  have htrigger : trigger p candle = none := by
    rw [← Option.map_eq_none_iff (f := Prod.fst), hcovers.trigger, hmiss]
  rw [maybeExit, htrigger]

/-- A candle that hits a level of the position closes it there. -/
theorem Books.maybeExit_hit {seen : List Candle} (h : Books e a seen) {p : PositionRecord}
    {t : OpenTrade} (hp : e.position a = some p) (hcovers : Covers p t) {candle : Candle}
    (hfresh : ∀ c ∈ seen, c.timestamp ≠ candle.timestamp) (hlow : 0 < candle.low) {x : ℚ}
    (hhit : t.hitPrice candle = some x) (now : Instant) :
    ∃ outcome orders a',
      let e' := { e with orderManager := orders }
      let pnl := t.direction.signed (x - t.entryPrice) * t.quantity
      e.maybeExit a now p candle = .ok (outcome, e', a') ∧
        outcome.closedPositionPnl = some pnl ∧ outcome.exitPrice = some x ∧
        outcome.riskRejectedReason = none ∧ Books e' a' (seen ++ [candle]) ∧
        (e'.position a').any PositionRecord.isOpen = false ∧
        a'.broker.balance = a.broker.balance + pnl := by
  -- The level that the position would exit at is the one the trade is hit at.
  obtain ⟨⟨level, reason⟩, htrigger, hlevel⟩ : ∃ r, trigger p candle = some r ∧ r.1 = x :=
    Option.map_eq_some_iff.mp ((hcovers.trigger candle).trans hhit)
  cases hlevel
  obtain ⟨hbooks, hbalance, hquote⟩ := h.quoted level
  obtain ⟨order, orders, broker, hsubmit, hprice, hbooks', hcash⟩ :=
    hbooks.submitMarket hfresh s!"{e.accountId}:{e.symbol}:close:"
      (hcovers.hitPrice_pos hlow hhit) hquote now t.direction.opposite hcovers.quantity_pos
  have hkey : s!"{e.accountId}:{e.symbol}:close:" ++ candle.timestamp.isoformat candle.utcOffset =
      e.closeKey candle := rfl
  -- The record that takes the fill is the position.
  have hrecord : a.positionManager.record e.accountId e.symbol = p := by
    have hget : a.positionManager.get e.accountId e.symbol = some p := hp
    simp [PositionManager.record, hget]
  have hlot : a.positionManager.lot e.accountId e.symbol =
      Lot.ofPair p.quantity p.averagePrice := by
    rw [PositionManager.lot, hrecord]
  -- What the fill realizes is the trade's P&L.
  obtain ⟨-, hrealized⟩ := PositionManager.fillRecord_spec p t.direction.opposite
    hcovers.quantity_pos level
  rw [hcovers.realized] at hrealized
  rw [hlot, hcovers.realized] at hcash
  set a' : PaperAccount := { a with
    broker := broker
    positionManager := a.positionManager.applyFill e.accountId e.symbol t.direction.opposite
      t.quantity level } with ha'
  -- The position is closed with the key of the candle.
  have hafter : ({ e with orderManager := orders } : PaperTradingEngine).position a' =
      some (PositionManager.fillRecord p t.direction.opposite t.quantity level) := by
    show a'.positionManager.get e.accountId e.symbol = _
    rw [ha', PositionManager.get_applyFill, if_pos rfl, hrecord]
  refine ⟨{ signal := none
            closedPositionPnl := some (t.direction.signed (level - t.entryPrice) * t.quantity)
            exitReason := some reason
            exitPrice := order.averageFillPrice },
    orders,
    { a' with riskWindow :=
        a'.riskWindow.realize (t.direction.signed (level - t.entryPrice) * t.quantity) },
    ?_, rfl, hprice, rfl, ⟨hbooks'.wellFormed, hbooks'.quiet, hbooks'.lots, hbooks'.keys⟩, ?_, ?_⟩
  · rw [maybeExit, htrigger]
    dsimp only
    rw [hcovers.opposite, hcovers.abs_quantity, ← hkey, hsubmit]
    simp only [bind, Except.bind, pure, Except.pure, hafter, Option.elim_some, hrealized,
      add_sub_cancel_left]
  · show (({ e with orderManager := orders } : PaperTradingEngine).position a').any _ = false
    rw [hafter]
    simp [PositionRecord.isOpen, hcovers.quantity]
  · exact hcash.trans (congrArg (· + _) hbalance)

/-- The trade that a signal opens. -/
def opened (e : PaperTradingEngine) (a : PaperAccount) (candle : Candle) (signal : Signal) :
    OpenTrade :=
  { direction := signal.side
    entryPrice := signal.entry
    stop := signal.stop
    target := signal.target
    quantity := e.entryQuantity a signal
    openedAt := candle.timestamp }

/-- An approved entry of something opens the position at the signal's entry. -/
theorem Books.enter_approved {seen : List Candle} (h : Books e a seen)
    (hflat : (e.position a).filter PositionRecord.isOpen = none) {candle : Candle}
    (hfresh : ∀ c ∈ seen, c.timestamp ≠ candle.timestamp) {signal : Signal}
    (hentry : 0 < signal.entry) {env : PaperEnv}
    (happroved : (e.decision a env signal).approved = true)
    (hqty : 0 < e.entryQuantity a signal) (result : StrategyEvaluationResult) :
    ∃ outcome orders a' p,
      let e' := { e with orderManager := orders }
      e.enter a env candle result signal = .ok (outcome, e', a') ∧
        outcome.closedPositionPnl = none ∧ Books e' a' (seen ++ [candle]) ∧
        e'.position a' = some p ∧ Covers p (e.opened a candle signal) ∧
        a'.broker.balance = a.broker.balance := by
  obtain ⟨hbooks, hbalance, hquote⟩ := h.quoted signal.entry
  obtain ⟨order, orders, broker, hsubmit, -, hbooks', hcash⟩ :=
    hbooks.submitMarket hfresh s!"{e.accountId}:{e.strategy.name}:" hentry hquote env.now
      signal.side hqty
  have hkey : s!"{e.accountId}:{e.strategy.name}:" ++ candle.timestamp.isoformat candle.utcOffset =
      e.entryKey candle := rfl
  -- The record that takes the fill is flat, or not there yet.
  have hzero : (a.positionManager.record e.accountId e.symbol).quantity = 0 := by
    unfold PositionManager.record
    cases hget : a.positionManager.get e.accountId e.symbol with
    | none => rfl
    | some p =>
      have hp : e.position a = some p := hget
      rw [hp] at hflat
      simpa [Option.filter, PositionRecord.isOpen] using hflat
  have hlot : a.positionManager.lot e.accountId e.symbol = Lot.empty := by
    rw [PositionManager.lot, hzero, Lot.ofPair_zero]
  rw [hlot, Lot.realized_empty, add_zero] at hcash
  have hsigned : signal.side.signed (e.entryQuantity a signal) ≠ 0 := Direction.signed_ne_zero hqty
  set filled := PositionManager.fillRecord (a.positionManager.record e.accountId e.symbol)
    signal.side (e.entryQuantity a signal) signal.entry with hfilled
  have hquantity : filled.quantity = signal.side.signed (e.entryQuantity a signal) := by
    rw [hfilled, PositionManager.fillRecord_quantity, hzero, zero_add]
  have hprice : filled.averagePrice = signal.entry := by
    simp [hfilled, PositionManager.fillRecord, hzero, hsigned]
  obtain ⟨haccount, hsymbol⟩ := a.positionManager.record_key e.accountId e.symbol
  set a' : PaperAccount := { a with
    broker := broker
    positionManager := a.positionManager.applyFill e.accountId e.symbol signal.side
      (e.entryQuantity a signal) signal.entry } with ha'
  have hafter : a'.positionManager.get e.accountId e.symbol = some filled := by
    rw [ha', PositionManager.get_applyFill, if_pos rfl]
  obtain ⟨haccount', hsymbol'⟩ := PositionManager.key_of_get hafter
  set p : PositionRecord := { filled with
    stop := some signal.stop
    target := some signal.target
    strategyId := e.strategyId } with hp
  have hput : (a'.positionManager.put p).get e.accountId e.symbol = some p := by
    rw [PositionManager.get_put, if_pos (by rw [hp]; exact Prod.ext haccount' hsymbol')]
  refine ⟨{ signal := some result
            orderCreated := true
            riskChecks := some ((e.decision a env signal).checks.map fun check =>
              (check.name, check.passed))
            orderStatus := some order.status },
    orders,
    { a' with
      positionManager := a'.positionManager.put p
      riskWindow := a'.riskWindow.traded order.status }, p, ?_, rfl, ?_, hput, ?_, ?_⟩
  · rw [enter, if_neg (by simp [happroved]), ← hkey]
    dsimp only
    rw [hsubmit]
    simp only [bind, Except.bind, pure, Except.pure, if_true, attributed, position]
    rw [hafter]
  · refine ⟨hbooks'.wellFormed, hbooks'.quiet, ?_, hbooks'.keys⟩
    -- The bracket changes neither the size nor the price of the record.
    have hsame : (a'.positionManager.put p).lot e.accountId e.symbol =
        a'.positionManager.lot e.accountId e.symbol := by
      simp only [PositionManager.lot, PositionManager.record, hput, hafter, Option.getD_some]
      rfl
    exact hbooks'.lots.trans hsame.symm
  · exact
      { quantity := hquantity
        quantity_pos := hqty
        averagePrice := hprice
        stop := rfl
        target := rfl
        entry_pos := hentry
        bracketed := signal.side_bracketed }
  · exact hcash.trans hbalance

variable {analyze : Analysis}

/-- A candle that finds the position open. -/
theorem onCandle_open (env : PaperEnv) {candle : Candle} {p : PositionRecord}
    (h : ({ e with candles := e.candles ++ [candle] } : PaperTradingEngine).position
      (e.observed a candle) = some p) (hopen : p.isOpen = true) :
    e.onCandle analyze a env candle =
      ({ e with candles := e.candles ++ [candle] } : PaperTradingEngine).maybeExit
        (e.observed a candle) env.now p candle := by
  simp [onCandle, h, Option.filter, hopen]

/-- A candle that finds no position and no signal it could fill. -/
theorem onCandle_quiet (env : PaperEnv) {candle : Candle}
    (h : (({ e with candles := e.candles ++ [candle] } : PaperTradingEngine).position
      (e.observed a candle)).filter PositionRecord.isOpen = none)
    (hsignal : fillableSignal analyze e.strategy (e.candles ++ [candle]) candle = none) :
    ∃ result, e.onCandle analyze a env candle =
      .ok ({ signal := result }, { e with candles := e.candles ++ [candle] },
        e.observed a candle) := by
  unfold onCandle
  dsimp only
  rw [h]
  unfold fillableSignal at hsignal
  split_ifs at hsignal with hthree
  · exact ⟨none, by simp only [if_pos hthree]⟩
  · refine ⟨some (e.strategy.evaluate (analyze e.strategy (e.candles ++ [candle]))), ?_⟩
    simp only [if_neg hthree]
    cases hs : (e.strategy.evaluate (analyze e.strategy (e.candles ++ [candle]))).signal with
    | none => rfl
    | some signal =>
      rw [hs] at hsignal
      -- There is a signal, whose entry the candle does not reach.
      have hrange : ¬ (candle.low ≤ signal.entry ∧ signal.entry ≤ candle.high) := by
        simpa [Option.filter] using hsignal
      simp only [if_neg hrange]

/-- A candle that finds no position, and a signal it can fill. -/
theorem onCandle_signal (env : PaperEnv) {candle : Candle} {signal : Signal}
    (h : (({ e with candles := e.candles ++ [candle] } : PaperTradingEngine).position
      (e.observed a candle)).filter PositionRecord.isOpen = none)
    (hsignal : fillableSignal analyze e.strategy (e.candles ++ [candle]) candle = some signal) :
    (candle.low ≤ signal.entry ∧ signal.entry ≤ candle.high) ∧
      ∃ result, e.onCandle analyze a env candle =
        ({ e with candles := e.candles ++ [candle] } : PaperTradingEngine).enter
          (e.observed a candle) env candle result signal := by
  unfold fillableSignal at hsignal
  split_ifs at hsignal with hthree
  obtain ⟨hs, hrange⟩ := Option.filter_eq_some_iff.mp hsignal
  have hrange' : candle.low ≤ signal.entry ∧ signal.entry ≤ candle.high := of_decide_eq_true hrange
  refine ⟨hrange', e.strategy.evaluate (analyze e.strategy (e.candles ++ [candle])), ?_⟩
  unfold onCandle
  dsimp only
  rw [h]
  simp only [if_neg hthree, hs, if_pos hrange']

end PaperTradingEngine

/-! ## Layer D: Whole runs -/

open PaperTradingEngine (Books Covers)

/-- The paper session stands where the backtest stands. -/
structure Follows (b : BacktestEngine) (seen : List Candle) (s : PaperSession) (t : BacktestState) :
    Prop where
  strategy : s.engine.strategy = b.strategy
  cap : s.engine.limits.maxPositionSize = b.maxPositionSize
  percent : b.strategy.risk.riskPercent ≤ s.engine.limits.riskPerTradePct
  candles : s.engine.candles = seen
  books : Books s.engine s.account seen
  cash : s.account.broker.balance = t.equity
  trades : s.trades = t.trades.map BacktestTradeRecord.completed
  flat : t.openTrade = none → s.held = none
  covers : ∀ trade ∈ t.openTrade, ∃ p, s.engine.position s.account = some p ∧ Covers p trade ∧
    s.openedAt = some trade.openedAt

namespace PaperSession

variable {analyze : Analysis} {s : PaperSession}

theorem onCandle_ok {env : PaperEnv} {candle : Candle} {outcome : PaperTradeOutcome}
    {engine : PaperTradingEngine} {account : PaperAccount}
    (h : s.engine.onCandle analyze s.account env candle = .ok (outcome, engine, account)) :
    s.onCandle analyze env candle = .ok (s.after candle outcome engine account) := by
  simp only [onCandle, h, bind, Except.bind, pure, Except.pure]

end PaperSession

namespace Follows

variable {analyze : Analysis} {b : BacktestEngine} {seen : List Candle} {s : PaperSession}
  {t : BacktestState} {env : PaperEnv} {candle : Candle}

/-- The engine with one more candle. -/
abbrev grown (s : PaperSession) (candle : Candle) : PaperTradingEngine :=
  { s.engine with candles := s.engine.candles ++ [candle] }

/-- A candle that finds the trade open, as the paper engine observes it. -/
theorem observed_open (h : Follows b seen s t) {trade : OpenTrade}
    (ht : t.openTrade = some trade) (candle : Candle) :
    ∃ p p', s.engine.position s.account = some p ∧ Covers p trade ∧
      (grown s candle).position (s.engine.observed s.account candle) = some p' ∧ Covers p' trade ∧
      s.openedAt = some trade.openedAt := by
  obtain ⟨p, hp, hcovers, hopened⟩ := h.covers trade ht
  obtain ⟨-, -, unrealized, hmarked⟩ := h.books.observed (s.engine.candles ++ [candle]) candle
  rw [hp] at hmarked
  refine ⟨p, _, hp, hcovers, hmarked, ?_, hopened⟩
  -- A mark leaves everything the relation reads.
  exact ⟨hcovers.quantity, hcovers.quantity_pos, hcovers.averagePrice, hcovers.stop,
    hcovers.target, hcovers.entry_pos, hcovers.bracketed⟩

/-- A candle that finds no trade, as the paper engine observes it. -/
theorem observed_flat (h : Follows b seen s t) (ht : t.openTrade = none) (candle : Candle) :
    ((grown s candle).position (s.engine.observed s.account candle)).filter
      PositionRecord.isOpen = none := by
  obtain ⟨-, -, unrealized, hmarked⟩ := h.books.observed (s.engine.candles ++ [candle]) candle
  have hflat : (s.engine.position s.account).filter PositionRecord.isOpen = none := h.flat ht
  rw [hmarked]
  cases hp : s.engine.position s.account with
  | none => rfl
  | some p =>
    rw [hp] at hflat
    simpa [Option.filter, PositionRecord.isOpen] using hflat

/-- Neither level hit: both keep what they hold. -/
theorem hold (h : Follows b seen s t) {trade : OpenTrade} (ht : t.openTrade = some trade)
    (hmiss : trade.hitPrice candle = none) :
    ∃ s', s.onCandle analyze env candle = .ok s' ∧ Follows b (seen ++ [candle]) s' t := by
  obtain ⟨p, p', hp, hcovers, hp', hcovers', hopened⟩ := h.observed_open ht candle
  obtain ⟨hbooks, hbalance, -⟩ := h.books.observed (s.engine.candles ++ [candle]) candle
  have hcall : s.engine.onCandle analyze s.account env candle = _ :=
    PaperTradingEngine.onCandle_open env hp' hcovers'.isOpen.1
  rw [PaperTradingEngine.maybeExit_miss hcovers' hmiss] at hcall
  -- Held before and after, so that no trade is completed.
  have hheld : s.held ≠ none := by
    simp [PaperSession.held, hp, Option.filter, hcovers.isOpen.1]
  refine ⟨_, PaperSession.onCandle_ok hcall, ?_⟩
  exact
    { strategy := h.strategy
      cap := h.cap
      percent := h.percent
      candles := congrArg (· ++ [candle]) h.candles
      books := hbooks.append candle
      cash := hbalance.trans h.cash
      trades := by
        simp [PaperSession.after, PaperSession.completed, h.trades]
      flat := fun hnone => by
        rw [ht] at hnone
        cases hnone
      covers := fun trade' ht' => by
        cases ht.symm.trans ht'
        refine ⟨p', hp', hcovers', ?_⟩
        simp [PaperSession.after, hheld, hopened] }

/-- A level hit: both complete the same trade. -/
theorem close (h : Follows b seen s t) (hcosts : b.costModel = {}) {trade : OpenTrade}
    (ht : t.openTrade = some trade)
    (hfresh : ∀ c ∈ seen, c.timestamp ≠ candle.timestamp) (hlow : 0 < candle.low)
    {closed : BacktestTradeRecord} (hclosed : b.checkExit trade candle = some closed) :
    ∃ s', s.onCandle analyze env candle = .ok s' ∧
      Follows b (seen ++ [candle]) s'
        { trades := t.trades ++ [closed], equity := t.equity + closed.pnl } := by
  obtain ⟨x, hhit, rfl⟩ := Option.map_eq_some_iff.mp hclosed
  -- The open trade is the position, seen with the new candle.
  obtain ⟨p, p', hp, hcovers, hp', hcovers', hopened⟩ := h.observed_open ht candle
  obtain ⟨hbooks, hbalance, -⟩ := h.books.observed (s.engine.candles ++ [candle]) candle
  have hcall : s.engine.onCandle analyze s.account env candle = _ :=
    PaperTradingEngine.onCandle_open env hp' hcovers'.isOpen.1
  obtain ⟨outcome, orders, a', hexit, hpnl, hprice, -, hbooks', hflat, hcash⟩ :=
    hbooks.maybeExit_hit hp' hcovers' hfresh hlow hhit env.now
  rw [hexit] at hcall
  -- Without costs, the price that the backtest books is the level that was hit.
  obtain ⟨hentryPrice, hexitPrice, hfree⟩ :=
    CostModel.zero_costs x (trade.entryPrice * trade.quantity)
    (x * trade.quantity) trade.direction
  have hheld : s.held = some p := by
    simp [PaperSession.held, hp, Option.filter, hcovers.isOpen.1]
  refine ⟨_, PaperSession.onCandle_ok hcall, ?_⟩
  simp only [hcosts, hexitPrice, hfree, sub_zero]
  -- Both have the trade now, and neither has anything open.
  exact
    { strategy := h.strategy
      cap := h.cap
      percent := h.percent
      candles := congrArg (· ++ [candle]) h.candles
      books := hbooks'
      cash := by
        show a'.broker.balance = _
        rw [hcash, hbalance, h.cash]
      trades := by
        simp [PaperSession.after, PaperSession.completed, hheld, hpnl, hprice, h.trades,
          BacktestTradeRecord.completed, hcovers.isOpen.2, hcovers.averagePrice,
          hcovers.abs_quantity, hopened]
      flat := fun _ => by
        show (({ grown s candle with
          orderManager := orders } : PaperTradingEngine).position a').filter
          PositionRecord.isOpen = none
        rw [Option.filter_eq_none_iff]
        intro q hq hopen
        rw [hq] at hflat
        simp [hopen] at hflat
      covers := fun trade' ht' => by cases ht' }

/-- No trade and no signal to fill: both wait. -/
theorem wait (h : Follows b seen s t) (ht : t.openTrade = none)
    (hsignal : fillableSignal analyze b.strategy (seen ++ [candle]) candle = none) :
    ∃ s', s.onCandle analyze env candle = .ok s' ∧ Follows b (seen ++ [candle]) s' t := by
  -- The candle is observed, and nothing else happens on either side.
  obtain ⟨hbooks, hbalance, -⟩ := h.books.observed (s.engine.candles ++ [candle]) candle
  have hflat := h.observed_flat ht candle
  rw [← h.strategy, ← h.candles] at hsignal
  obtain ⟨result, hcall⟩ := PaperTradingEngine.onCandle_quiet env hflat hsignal
  refine ⟨_, PaperSession.onCandle_ok hcall, ?_⟩
  exact
    { strategy := h.strategy
      cap := h.cap
      percent := h.percent
      candles := congrArg (· ++ [candle]) h.candles
      books := hbooks.append candle
      cash := hbalance.trans h.cash
      trades := by simp [PaperSession.after, PaperSession.completed, h.trades]
      flat := fun _ => hflat
      covers := fun trade ht' => by
        rw [ht] at ht'
        cases ht' }

/-- An entry the gate lets pass was approved. -/
theorem approved_of_passed {e : PaperTradingEngine} {a : PaperAccount}
    {result : StrategyEvaluationResult} {signal : Signal}
    (hcall : s.engine.onCandle analyze s.account env candle = e.enter a env candle result signal)
    (hpassed : ∀ s', s.onCandle analyze env candle = .ok s' → s'.refusals = s.refusals) :
    (e.decision a env signal).approved = true := by
  by_contra hrefused
  have hfalse : (e.decision a env signal).approved = false := Bool.eq_false_iff.mpr hrefused
  obtain ⟨reason, hreason⟩ :=
    Option.isSome_iff_exists.mp (RiskEngine.reason_isSome_of_refused hfalse)
  have hreason' : (e.decision a env signal).reason = some reason := hreason
  -- A refusal would have been written down.
  rw [PaperTradingEngine.enter, if_pos hfalse] at hcall
  have hafter := hpassed _ (PaperSession.onCandle_ok hcall)
  simp [PaperSession.after, hreason'] at hafter

/-- The two size an entry alike. -/
theorem entryQuantity_eq (h : Follows b seen s t) (candle : Candle) (signal : Signal) :
    (grown s candle).entryQuantity (s.engine.observed s.account candle) signal =
      calculatePositionSize t.equity b.strategy.risk.riskPercent signal.entry signal.stop
        b.maxPositionSize := by
  obtain ⟨-, hbalance, -⟩ := h.books.observed (s.engine.candles ++ [candle]) candle
  have hmin : min b.strategy.risk.riskPercent s.engine.limits.riskPerTradePct =
      b.strategy.risk.riskPercent := min_eq_left h.percent
  show calculatePositionSize (s.engine.observed s.account candle).broker.balance _ _ _ _ = _
  rw [hbalance, h.cash, h.cap]
  show calculatePositionSize _ (min s.engine.strategy.risk.riskPercent _) _ _ _ = _
  rw [h.strategy, hmin]

/-- A signal to fill: both open the same trade. -/
theorem enter (h : Follows b seen s t) (hcosts : b.costModel = {})
    (hcap : ∀ cap ∈ b.maxPositionSize, 0 < cap) (ht : t.openTrade = none)
    (hfresh : ∀ c ∈ seen, c.timestamp ≠ candle.timestamp) (hlow : 0 < candle.low) {signal : Signal}
    (hsignal : fillableSignal analyze b.strategy (seen ++ [candle]) candle = some signal)
    (hpassed : ∀ s', s.onCandle analyze env candle = .ok s' → s'.refusals = s.refusals) :
    ∃ s', s.onCandle analyze env candle = .ok s' ∧
      Follows b (seen ++ [candle]) s'
        { t with openTrade := some (b.openTrade signal candle t.equity) } := by
  -- The candle is observed first, and its signal is the same on both sides.
  obtain ⟨hbooks, hbalance, -⟩ := h.books.observed (s.engine.candles ++ [candle]) candle
  have hflat := h.observed_flat ht candle
  rw [← h.strategy, ← h.candles] at hsignal
  obtain ⟨hrange, result, hcall⟩ := PaperTradingEngine.onCandle_signal env hflat hsignal
  have happroved := approved_of_passed hcall hpassed
  have hsize := h.entryQuantity_eq candle signal
  -- The gate approves no entry of an account without money.
  have hfunded : 0 < t.equity := by
    have hpos : 0 < (s.engine.observed s.account candle).broker.balance :=
      RiskEngine.funded_of_approved happroved rfl
    rwa [hbalance, h.cash] at hpos
  -- Both size the entry by the same rule, on the same money.
  have hqty : 0 < (grown s candle).entryQuantity (s.engine.observed s.account candle) signal := by
    rw [hsize]
    exact RiskEngine.calculatePositionSize_pos hfunded b.strategy.risk.risk_range.1
      signal.entry_ne_stop hcap
  obtain ⟨outcome, orders, a', p, henter, hpnl, hbooks', hp, hcovers, hcash⟩ :=
    hbooks.enter_approved hflat hfresh (hlow.trans_le hrange.1) happroved hqty result
  rw [henter] at hcall
  have hopened : (grown s candle).opened (s.engine.observed s.account candle) candle signal =
      b.openTrade signal candle t.equity := by
    obtain ⟨hentry, -, -⟩ := CostModel.zero_costs signal.entry 0 0 signal.side
    rw [PaperTradingEngine.opened, hsize, BacktestEngine.openTrade, hcosts, hentry]
  rw [hopened] at hcovers
  refine ⟨_, PaperSession.onCandle_ok hcall, ?_⟩
  -- The trade that opens is covered by the position that was entered.
  exact
    { strategy := h.strategy
      cap := h.cap
      percent := h.percent
      candles := congrArg (· ++ [candle]) h.candles
      books := hbooks'
      cash := (hcash.trans hbalance).trans h.cash
      trades := by simp [PaperSession.after, PaperSession.completed, hpnl, h.trades]
      flat := fun hnone => by cases hnone
      covers := fun trade htrade => by
        cases htrade
        refine ⟨p, hp, hcovers, ?_⟩
        simp [PaperSession.after, h.flat ht, hp, hcovers.isOpen.1, BacktestEngine.openTrade] }

/-- **One candle.** The two stay together over any candle the gate has no objection to,
unless its signal is filled with nothing. -/
theorem onCandle (h : Follows b seen s t) (hcosts : b.costModel = {})
    (hcap : (∀ cap ∈ b.maxPositionSize, 0 < cap) ∨
      fillableSignal analyze b.strategy (seen ++ [candle]) candle = none)
    (hfresh : ∀ c ∈ seen, c.timestamp ≠ candle.timestamp) (hpriced : candle.Priced)
    (hpassed : ∀ s', s.onCandle analyze env candle = .ok s' → s'.refusals = s.refusals) :
    ∃ s', s.onCandle analyze env candle = .ok s' ∧
      Follows b (seen ++ [candle]) s' (b.onCandle analyze (seen ++ [candle]) candle t) := by
  obtain ⟨-, -, hlow, -⟩ := hpriced
  unfold BacktestEngine.onCandle
  cases ht : t.openTrade with
  | some trade =>
    cases hclosed : b.checkExit trade candle with
    | some closed =>
      simp only [hclosed]
      exact h.close hcosts ht hfresh hlow hclosed
    | none =>
      simp only [hclosed]
      exact h.hold ht (Option.map_eq_none_iff.mp hclosed)
  | none =>
    cases hsignal : fillableSignal analyze b.strategy (seen ++ [candle]) candle with
    | none => exact h.wait ht hsignal
    | some signal =>
      -- A cap of nothing is ruled out by a signal that can be filled.
      rcases hcap with hcap | hnone
      · exact h.enter hcosts hcap ht hfresh hlow hsignal hpassed
      · rw [hsignal] at hnone
        cases hnone

/-- No candle of the list gives a signal that it can fill. -/
def NoFill (analyze : Analysis) (strategy : StrategyDefinition) (candles : List Candle) : Prop :=
  ∀ seen c, seen ++ [c] <+: candles → fillableSignal analyze strategy (seen ++ [c]) c = none

/-- The run of the rest of the candles, behind those already seen. -/
theorem feed (hcosts : b.costModel = {}) (candles : List (PaperEnv × Candle))
    (hpriced : ∀ e ∈ candles, e.2.Priced)
    (hdistinct : ((seen ++ candles.map Prod.snd).map Candle.timestamp).Nodup)
    (hcap : (∀ cap ∈ b.maxPositionSize, 0 < cap) ∨
      NoFill analyze b.strategy (seen ++ candles.map Prod.snd))
    (hgate : s.GateApproves analyze candles) (h : Follows b seen s t) :
    ∃ s', s.feed analyze candles = .ok s' ∧
      Follows b (seen ++ candles.map Prod.snd) s'
        (b.loop analyze seen t (candles.map Prod.snd)) := by
  induction candles generalizing seen s t with
  | nil => exact ⟨s, rfl, by simpa [BacktestEngine.loop] using h⟩
  | cons e candles ih =>
    have hsplit : seen ++ (e :: candles).map Prod.snd =
        (seen ++ [e.2]) ++ candles.map Prod.snd := by simp
    -- Distinct timestamps, so that this candle is none of those seen.
    have hfresh : ∀ c ∈ seen, c.timestamp ≠ e.2.timestamp := by
      intro c hc heq
      rw [List.map_append, List.nodup_append] at hdistinct
      exact hdistinct.2.2 _ (List.mem_map_of_mem hc) _ (by simp) heq
    have hhere : (∀ cap ∈ b.maxPositionSize, 0 < cap) ∨
        fillableSignal analyze b.strategy (seen ++ [e.2]) e.2 = none :=
      hcap.imp_right fun hnone => hnone seen e.2 (hsplit ▸ List.prefix_append ..)
    obtain ⟨s', hs', hfollows⟩ := h.onCandle hcosts hhere hfresh (hpriced e List.mem_cons_self)
      fun s' hs' => (hgate s' hs').1
    rw [hsplit] at hdistinct hcap ⊢
    obtain ⟨s'', hs'', hfollows'⟩ := ih (fun e' he' => hpriced e' (List.mem_cons_of_mem _ he'))
      hdistinct hcap (hgate s' hs').2 hfollows
    refine ⟨s'', ?_, hfollows'⟩
    rw [PaperSession.feed, hs']
    exact hs''

end Follows

namespace PaperSession

/-- A fresh engine on a fresh account. -/
def new (strategy : StrategyDefinition) (symbol : Symbol) (accountId : AccountId)
    (strategyId : Option String) (limits : RiskLimits) (capital : ℚ) : PaperSession :=
  { engine :=
      { strategy := strategy
        symbol := symbol
        accountId := accountId
        strategyId := strategyId
        limits := limits }
    account := { broker := MockBroker.new capital } }

variable {analyze : Analysis} {strategy : StrategyDefinition} {symbol : Symbol}
  {accountId : AccountId} {strategyId : Option String} {limits : RiskLimits} {capital : ℚ}

theorem new_follows (hpercent : strategy.risk.riskPercent ≤ limits.riskPerTradePct) :
    Follows
      { strategy := strategy
        startingCapital := capital
        maxPositionSize := limits.maxPositionSize } []
      (new strategy symbol accountId strategyId limits capital) { equity := capital } where
  strategy := rfl
  cap := rfl
  percent := hpercent
  candles := rfl
  books :=
    { wellFormed := MockBroker.wellFormed_new capital 0
      quiet := rfl
      lots := by
        simp [new, MockBroker.new, MockBroker.lot, PositionManager.lot, PositionManager.record,
          PositionManager.get]
      keys := fun key hknown => by
        simp [new, OrderManager.lookup] at hknown }
  cash := rfl
  trades := rfl
  flat _ := by
    simp [new, held, PaperTradingEngine.position, PositionManager.get]
  covers trade ht := by cases ht

/-- Where the two stand together, they report the same. -/
theorem agrees_of_follows {b : BacktestEngine} {candles : List Candle} {s : PaperSession}
    (h : Follows b candles s (b.loop analyze [] { equity := b.startingCapital } candles)) :
    s.Agrees (b.run analyze candles) where
  trades := h.trades
  cash := h.cash
  openPosition := by
    unfold openPosition BacktestEngine.run
    cases ht : (b.loop analyze [] { equity := b.startingCapital } candles).openTrade with
    | none => simp [h.flat ht, ht]
    | some trade =>
      obtain ⟨p, hp, hcovers, hopened⟩ := h.covers trade ht
      have hheld : s.held = some p := by simp [held, hp, Option.filter, hcovers.isOpen.1]
      -- A trade was opened on some candle, so there is a last one.
      cases hlast : candles.getLast? with
      | none =>
        rw [List.getLast?_eq_none_iff] at hlast
        subst hlast
        cases ht
      | some last =>
        simp [ht, hheld, OpenTrade.held, OpenTrade.describe, hcovers.isOpen.2,
          hcovers.averagePrice, hcovers.stop, hcovers.target, hcovers.abs_quantity, hopened]

/-! ### A cap that leaves nothing -/

/-- No position record, and no trade. -/
structure Idle (s : PaperSession) (cap : ℚ) : Prop where
  position : s.engine.position s.account = none
  trades : s.trades = []
  cap : s.engine.limits.maxPositionSize = some cap

/-- A market order of nothing is filled with nothing, however it ends. -/
theorem placeOrder_of_zero (b : MockBroker) {request : OrderRequest}
    (htype : request.orderType = .market) (hqty : request.quantity = 0) :
    (b.placeOrder request).1.filledQuantity = 0 := by
  have hround : round6 0 = 0 := by decide +kernel
  have hfill : ∀ (b : MockBroker) id price,
      (b.fillOrder id request price).1.filledQuantity = 0 := by
    intro b id price
    simp only [MockBroker.fillOrder, hqty, zero_mul, hround]
    split_ifs <;> rfl
  unfold MockBroker.placeOrder
  simp only [htype, reduceCtorEq, or_self, false_and, if_false]
  -- The draw decides between a rejection and a fill; neither fills anything.
  generalize (if 0 < b.uuid4.2.rejectProbability then
      (decide (b.uuid4.2.roll.1 < b.uuid4.2.roll.2.rejectProbability), b.uuid4.2.roll.2)
    else (false, b.uuid4.2)) = draw
  obtain ⟨rejected, b'⟩ := draw
  cases rejected with
  | true => rfl
  | false =>
    simp only [Bool.false_eq_true, if_false]
    cases b'.resolveFillPrice request with
    | none => rfl
    | some price => exact hfill ..

/-- An entry of nothing opens no position. -/
theorem enter_of_zero {e : PaperTradingEngine} {a : PaperAccount} (hposition : e.position a = none)
    {signal : Signal} (hqty : e.entryQuantity a signal = 0) {env : PaperEnv} {candle : Candle}
    {result : StrategyEvaluationResult} {outcome : PaperTradeOutcome} {e' : PaperTradingEngine}
    {a' : PaperAccount} (h : e.enter a env candle result signal = .ok (outcome, e', a')) :
    e'.position a' = none ∧ e'.limits = e.limits := by
  unfold PaperTradingEngine.enter at h
  dsimp only at h
  split at h
  · cases h
    exact ⟨hposition, rfl⟩
  -- An approved entry of a size of nothing goes to the broker all the same.
  rw [hqty] at h
  set a₁ : PaperAccount :=
    { a with broker := a.broker.setQuote e.symbol signal.entry true } with ha₁
  have hposition₁ : e.position a₁ = none := hposition
  cases hknown : e.orderManager.lookup (e.entryKey candle) with
  | some order =>
    -- The key was used: nothing is entered.
    have hsame : e.submitMarket a₁ env.now (e.entryKey candle) signal.side 0 =
        .ok (order, false, e, a₁) := by
      simp [PaperTradingEngine.submitMarket, OrderManager.createOrder, hknown]
    rw [hsame] at h
    cases h
    exact ⟨hposition, rfl⟩
  | none =>
    cases hdivides : PaperTradingEngine.dividesByZero a₁.broker
        (e.newOrder env.now (e.entryKey candle) signal.side 0).request with
    -- On a position of nothing the mock divides by zero: the call raises.
    | true =>
      have hraises : e.submitMarket a₁ env.now (e.entryKey candle) signal.side 0 =
          .error "float division by zero" := by
        have hnew : e.orderManager.createOrder env.now (e.entryKey candle) e.accountId e.symbol
            signal.side .market 0 = (e.newOrder env.now (e.entryKey candle) signal.side 0, true,
              e.orderManager.insert (e.newOrder env.now (e.entryKey candle) signal.side 0)) := by
          simp [OrderManager.createOrder, hknown, PaperTradingEngine.newOrder]
        rw [PaperTradingEngine.submitMarket, hnew]
        simp only [hdivides, if_true]
      rw [hraises] at h
      cases h
    | false =>
      obtain ⟨orders, hsubmit, -⟩ :=
        PaperTradingEngine.submitMarket_new hknown env.now signal.side 0 hdivides
      -- Otherwise the fill is of nothing, and makes no position.
      have hnothing : a₁.positionManager.answered
          (e.newOrder env.now (e.entryKey candle) signal.side 0)
          (a₁.broker.placeOrder (e.newOrder env.now (e.entryKey candle) signal.side 0).request).1 =
            a₁.positionManager := by
        have hzero : (a₁.broker.placeOrder
            (e.newOrder env.now (e.entryKey candle) signal.side 0).request).1.filledQuantity = 0 :=
          placeOrder_of_zero a₁.broker rfl rfl
        simp [PositionManager.answered, OrderResult.fills, hzero]
      rw [hnothing] at hsubmit
      rw [hsubmit] at h
      simp only [bind, Except.bind, pure, Except.pure, if_true, Except.ok.injEq, Prod.mk.injEq] at h
      obtain ⟨-, rfl, rfl⟩ := h
      refine ⟨?_, rfl⟩
      have hget : a₁.positionManager.get e.accountId e.symbol = none := hposition
      simp [PaperTradingEngine.attributed, PaperTradingEngine.position, hget]

theorem Idle.onCandle {cap : ℚ} (hcap : cap ≤ 0) {s s' : PaperSession} (h : s.Idle cap)
    {env : PaperEnv} {candle : Candle} (hs' : s.onCandle analyze env candle = .ok s') :
    s'.Idle cap := by
  have hheld : s.held = none := by simp [held, h.position]
  obtain ⟨unrealized, hget⟩ := PaperTradingEngine.get_markToMarket s.account.positionManager
    s.engine.accountId s.engine.symbol candle.close
  have hnone : (Follows.grown s candle).position (s.engine.observed s.account candle) = none :=
    hget.trans (congrArg (Option.map _) h.position)
  have hflat : ((Follows.grown s candle).position (s.engine.observed s.account candle)).filter
      PositionRecord.isOpen = none := by simp [hnone]
  -- Whatever the call returns, the trade that it could complete is missing.
  have hafter : ∀ outcome engine account,
      s.engine.onCandle analyze s.account env candle = .ok (outcome, engine, account) →
      engine.position account = none → engine.limits = s.engine.limits → s'.Idle cap := by
    intro outcome engine account hcall hposition hlimits
    rw [onCandle_ok hcall] at hs'
    cases hs'
    exact ⟨hposition, by simp [after, completed, hheld, h.trades],
      (congrArg RiskLimits.maxPositionSize hlimits).trans h.cap⟩
  cases hsignal :
    fillableSignal analyze s.engine.strategy (s.engine.candles ++ [candle]) candle with
  | none =>
    obtain ⟨result, hcall⟩ := PaperTradingEngine.onCandle_quiet env hflat hsignal
    exact hafter _ _ _ hcall hnone rfl
  | some signal =>
    obtain ⟨-, result, hcall⟩ := PaperTradingEngine.onCandle_signal env hflat hsignal
    have hqty : (Follows.grown s candle).entryQuantity (s.engine.observed s.account candle) signal =
        0 := by
      show calculatePositionSize _ _ _ _ s.engine.limits.maxPositionSize = 0
      rw [h.cap, RiskEngine.calculatePositionSize_of_cap hcap]
    cases henter : (Follows.grown s candle).enter (s.engine.observed s.account candle) env candle
        result signal with
    | error message =>
      simp [PaperSession.onCandle, hcall, henter, bind, Except.bind] at hs'
    | ok r =>
      obtain ⟨outcome, engine, account⟩ := r
      obtain ⟨hposition, hlimits⟩ := enter_of_zero hnone hqty henter
      exact hafter _ _ _ (hcall.trans henter) hposition hlimits

theorem Idle.feed {cap : ℚ} (hcap : cap ≤ 0) {s s' : PaperSession} (h : s.Idle cap)
    (candles : List (PaperEnv × Candle)) (hs' : s.feed analyze candles = .ok s') :
    s'.Idle cap := by
  induction candles generalizing s with
  | nil =>
    cases hs'
    exact h
  | cons e candles ih =>
    cases hcall : s.onCandle analyze e.1 e.2 with
    | error message => simp [PaperSession.feed, hcall, bind, Except.bind] at hs'
    | ok s₁ =>
      rw [PaperSession.feed, hcall] at hs'
      exact ih (h.onCandle hcap hcall) hs'

end PaperSession

namespace BacktestEngine

variable {analyze : Analysis} {b : BacktestEngine}

/-- The loop has a trade, completed or open. -/
def Engaged (t : BacktestState) : Prop := t.trades ≠ [] ∨ t.openTrade ≠ none

theorem engaged_onCandle {t : BacktestState} {visible : List Candle} {candle : Candle}
    (h : Engaged t ∨ fillableSignal analyze b.strategy visible candle ≠ none) :
    Engaged (b.onCandle analyze visible candle t) := by
  unfold onCandle
  cases ht : t.openTrade with
  | some trade =>
    cases hclosed : b.checkExit trade candle with
    | some closed => simp [Engaged, hclosed]
    | none => simp [Engaged, hclosed, ht]
  | none =>
    cases hsignal : fillableSignal analyze b.strategy visible candle with
    | some signal => simp [Engaged]
    | none => simpa [Engaged, ht, hsignal] using h

/-- A loop that has a trade, or comes to a signal it can fill, ends with one. -/
theorem engaged_loop (candles : List Candle) {seen : List Candle} {t : BacktestState}
    (h : Engaged t ∨ ∃ pre c, seen ++ pre ++ [c] <+: seen ++ candles ∧
      fillableSignal analyze b.strategy (seen ++ pre ++ [c]) c ≠ none) :
    Engaged (b.loop analyze seen t candles) := by
  induction candles generalizing seen t with
  | nil =>
    rcases h with h | ⟨pre, c, hbegins, -⟩
    · exact h
    · -- No candle is left for the signal to come at.
      have hlength := hbegins.length_le
      simp only [List.length_append, List.length_cons, List.length_nil] at hlength
      omega
  | cons candle candles ih =>
    rw [loop]
    apply ih
    rcases h with h | ⟨pre, c, hbegins, hsignal⟩
    · exact Or.inl (engaged_onCandle (Or.inl h))
    · rw [List.append_assoc, List.prefix_append_right_inj] at hbegins
      cases pre with
      | nil =>
        obtain ⟨rfl, -⟩ := List.cons_prefix_cons.mp hbegins
        exact Or.inl (engaged_onCandle (Or.inr (by simpa using hsignal)))
      | cons d pre =>
        obtain ⟨rfl, hrest⟩ := List.cons_prefix_cons.mp hbegins
        refine Or.inr ⟨pre, c, ?_, by simpa using hsignal⟩
        rw [List.append_assoc, List.prefix_append_right_inj]
        exact hrest

end BacktestEngine

namespace PaperSession

variable {analyze : Analysis} {strategy : StrategyDefinition} {symbol : Symbol}
  {accountId : AccountId} {strategyId : Option String} {limits : RiskLimits} {capital : ℚ}

/-- The backtest of the same strategy, with the same capital and the same cap. -/
abbrev backtest (strategy : StrategyDefinition) (limits : RiskLimits) (capital : ℚ) :
    BacktestEngine :=
  { strategy := strategy
    startingCapital := capital
    maxPositionSize := limits.maxPositionSize }

/-- Under a cap that leaves something, the two agree. -/
theorem agrees_of_cap {candles : List (PaperEnv × Candle)}
    (hpercent : strategy.risk.riskPercent ≤ limits.riskPerTradePct)
    (hpriced : ∀ e ∈ candles, e.2.Priced)
    (hdistinct : ((candles.map Prod.snd).map Candle.timestamp).Nodup)
    (hgate : (new strategy symbol accountId strategyId limits capital).GateApproves analyze candles)
    (hcap : (∀ cap ∈ limits.maxPositionSize, 0 < cap) ∨
      Follows.NoFill analyze strategy (candles.map Prod.snd)) :
    ∃ s, (new strategy symbol accountId strategyId limits capital).feed analyze candles = .ok s ∧
      s.Agrees ((backtest strategy limits capital).run analyze (candles.map Prod.snd)) := by
  obtain ⟨s, hs, hfollows⟩ := (new_follows hpercent).feed rfl candles hpriced hdistinct hcap hgate
  exact ⟨s, hs, agrees_of_follows hfollows⟩

/-- Under a cap that leaves nothing, the backtest has a trade and the paper engine none. -/
theorem disagrees_of_cap {cap : ℚ} (hlimits : limits.maxPositionSize = some cap) (hcap : cap ≤ 0)
    {candles : List (PaperEnv × Candle)} {seen : List Candle} {c : Candle}
    (hbegins : seen ++ [c] <+: candles.map Prod.snd)
    (hsignal : fillableSignal analyze strategy (seen ++ [c]) c ≠ none) {s : PaperSession}
    (hs : (new strategy symbol accountId strategyId limits capital).feed analyze candles = .ok s) :
    ¬ s.Agrees ((backtest strategy limits capital).run analyze (candles.map Prod.snd)) := by
  intro hagrees
  have hnew : (new strategy symbol accountId strategyId limits capital).Idle cap :=
    ⟨rfl, rfl, hlimits⟩
  have hidle := hnew.feed hcap candles hs
  have hengaged : BacktestEngine.Engaged ((backtest strategy limits capital).loop analyze []
      { equity := capital } (candles.map Prod.snd)) :=
    BacktestEngine.engaged_loop _ (Or.inr ⟨seen, c, by simpa using hbegins, by simpa using hsignal⟩)
  rcases hengaged with htrades | hopen
  · -- A completed trade that the session does not list.
    have hlists := hagrees.trades
    rw [hidle.trades] at hlists
    exact htrades (List.map_eq_nil_iff.mp hlists.symm)
  · -- An open trade that the session does not hold.
    have hholds := hagrees.openPosition
    have hheld : s.held = none := by simp [held, hidle.position]
    obtain ⟨trade, htrade⟩ := Option.ne_none_iff_exists'.mp hopen
    have hlast : (candles.map Prod.snd).getLast? ≠ none := by
      rw [Ne, List.getLast?_eq_none_iff]
      intro hnil
      rw [hnil] at hbegins
      simp at hbegins
    obtain ⟨last, hlast⟩ := Option.ne_none_iff_exists'.mp hlast
    simp only [openPosition, hheld, BacktestEngine.run, htrade, hlast] at hholds
    simp at hholds

/-- **Paper and backtest agree exactly if entries are sized.** Over candles of positive
prices at distinct instants, with limits that allow what the strategy risks and a gate
that approves every proposal, the paper run returns and reports the backtest's trades,
open position and cash if and only if the cap on the position size, where there is one,
is positive, or no candle fills a signal. -/
theorem agrees_iff (analyze : Analysis) (strategy : StrategyDefinition) (symbol : Symbol)
    (accountId : AccountId) (strategyId : Option String) (limits : RiskLimits) (capital : ℚ)
    (candles : List (PaperEnv × Candle))
    (hpercent : strategy.risk.riskPercent ≤ limits.riskPerTradePct)
    (hpriced : ∀ e ∈ candles, e.2.Priced)
    (hdistinct : ((candles.map Prod.snd).map Candle.timestamp).Nodup)
    (hgate : (new strategy symbol accountId strategyId limits capital).GateApproves analyze
      candles) :
    (∃ s, (new strategy symbol accountId strategyId limits capital).feed analyze candles = .ok s ∧
        s.Agrees ((backtest strategy limits capital).run analyze (candles.map Prod.snd))) ↔
      (∀ cap ∈ limits.maxPositionSize, 0 < cap) ∨
        Follows.NoFill analyze strategy (candles.map Prod.snd) := by
  constructor
  · rintro ⟨s, hs, hagrees⟩
    -- A cap of nothing and a signal that can be filled: the backtest trades alone.
    by_contra hneither
    obtain ⟨hcap, hsignal⟩ := not_or.mp hneither
    simp only [not_forall, not_lt] at hcap
    obtain ⟨cap, hlimits, hcap⟩ := hcap
    simp only [Follows.NoFill, not_forall] at hsignal
    obtain ⟨seen, c, hbegins, hsignal⟩ := hsignal
    exact disagrees_of_cap hlimits hcap hbegins hsignal hs hagrees
  · exact agrees_of_cap hpercent hpriced hdistinct hgate

/-! ### Runs -/

instance instDecidableGateApproves (s : PaperSession) (candles : List (PaperEnv × Candle)) :
    Decidable (s.GateApproves analyze candles) :=
  match candles with
  | [] => isTrue trivial
  | e :: es =>
    match h : s.onCandle analyze e.1 e.2 with
    | .error _ => isTrue fun s' hs' => by rw [h] at hs'; cases hs'
    | .ok s' =>
      have := instDecidableGateApproves s' es
      decidable_of_iff (s'.refusals = s.refusals ∧ s'.GateApproves analyze es)
        ⟨fun hboth s'' hs'' => by rw [h] at hs''; cases hs''; exact hboth, fun hall => hall s' h⟩

/-- An analysis that finds one setup: on the third candle, to buy at 100 with a stop at 98. -/
def thirdCandle : Analysis := fun _ visible =>
  { allSatisfied := visible.length = 3
    satisfied := []
    missing := []
    bias := some .bullish
    entryAndStop := fun _ => (some 100, some 98) }

/-- Four candles: the fourth falls through the stop. -/
def stoppedOut : List (PaperEnv × Candle) :=
  [ ({}, { timestamp := 0, «open» := 100, high := 101, low := 99, close := 100 }),
    ({}, { timestamp := 1, «open» := 100, high := 101, low := 99, close := 100 }),
    ({}, { timestamp := 2, «open» := 100, high := 101, low := 99, close := 100 }),
    ({}, { timestamp := 3, «open» := 100, high := 101, low := 97, close := 98 }) ]

/-- The strategy that is run on them. -/
def buyTheThird : StrategyDefinition := { name := "third", timeframe := "1m" }

/-- The trade is opened and stopped out alike. -/
theorem stoppedOut_agrees :
    ∃ s, (new buyTheThird "NIFTY" "paper" none {} 100000).feed thirdCandle stoppedOut = .ok s ∧
      s.Agrees ((backtest buyTheThird {} 100000).run thirdCandle (stoppedOut.map Prod.snd)) :=
  (agrees_iff thirdCandle buyTheThird "NIFTY" "paper" none {} 100000 stoppedOut (by decide +kernel)
    (by decide +kernel) (by decide +kernel) (by decide +kernel)).mpr (Or.inl (by simp))

/-- With a cap of 0 every proposal is approved as well, and the two disagree: the backtest
reports a trade of nothing. -/
theorem stoppedOut_disagrees :
    let limits : RiskLimits := { maxPositionSize := some 0 }
    let s := new buyTheThird "NIFTY" "paper" none limits 100000
    (buyTheThird.risk.riskPercent ≤ limits.riskPerTradePct ∧ (∀ e ∈ stoppedOut, e.2.Priced) ∧
        ((stoppedOut.map Prod.snd).map Candle.timestamp).Nodup ∧
        s.GateApproves thirdCandle stoppedOut) ∧
      ¬ ∃ s', s.feed thirdCandle stoppedOut = .ok s' ∧
        s'.Agrees ((backtest buyTheThird limits 100000).run thirdCandle
          (stoppedOut.map Prod.snd)) := by
  refine ⟨⟨by decide +kernel, by decide +kernel, by decide +kernel, by decide +kernel⟩, ?_⟩
  rintro ⟨s', hs', hagrees⟩
  have hbegins : (stoppedOut.map Prod.snd).take 2 ++ [(stoppedOut.map Prod.snd)[2]] <+:
      stoppedOut.map Prod.snd := ⟨(stoppedOut.map Prod.snd).drop 3, rfl⟩
  have hsignal : (fillableSignal thirdCandle buyTheThird
      ((stoppedOut.map Prod.snd).take 2 ++ [(stoppedOut.map Prod.snd)[2]])
      (stoppedOut.map Prod.snd)[2]).isSome = true := by decide +kernel
  exact disagrees_of_cap rfl le_rfl hbegins (Option.isSome_iff_ne_none.mp hsignal) hs' hagrees

end PaperSession

end SuperTrading
