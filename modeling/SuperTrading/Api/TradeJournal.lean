import SuperTrading.Api.RiskCounters
import SuperTrading.Brokers.Mock

/-!
# The Trade Journal

`POST /orders` writes a `trades` row for what a fill closed. Whether it closed anything is read
off the P&L: a fill that closes at the average price of the position realizes nothing, and no
row is written for the quantity it closed.

- **Layer A**: what a symbol has in the journal, and what one call is to add to it
- **Layer B**: what entering, guarding and journaling an order add
- **Layer C**: runs
-/

namespace SuperTrading

open SuperTrading.Logic

variable {β : Type} [Broker β]

/-! ## Layer A: The journal of a symbol -/

namespace Db

def tradesOf (db : Db) (symbol : Symbol) : List TradeRow :=
  db.trades.filter fun row => row.symbol = symbol

/-- The total quantity over the trades of a symbol. -/
def tradedQuantity (db : Db) (symbol : Symbol) : ℚ :=
  ((db.tradesOf symbol).map TradeRow.quantity).sum

/-- The total P&L over the trades of a symbol. -/
def tradedPnl (db : Db) (symbol : Symbol) : ℚ := ((db.tradesOf symbol).map TradeRow.pnl).sum

theorem tradesOf_congr {db db' : Db} (h : db'.trades = db.trades) (symbol : Symbol) :
    db'.tradesOf symbol = db.tradesOf symbol := by
  unfold tradesOf
  rw [h]

theorem traded_recordTrade (db : Db) (now : Instant) (symbol : Symbol) (direction : Direction)
    (entryPrice : ℚ) (exitPrice : Option ℚ) (quantity pnl : ℚ) (stop target : Option ℚ)
    (mode : ExecutionMode) (j : Symbol) :
    let db' := db.recordTrade now symbol direction entryPrice exitPrice quantity pnl stop target
      mode
    db'.tradedQuantity j = db.tradedQuantity j + (if symbol = j then numeric quantity else 0) ∧
      db'.tradedPnl j = db.tradedPnl j + if symbol = j then numeric pnl else 0 := by
  unfold tradedQuantity tradedPnl tradesOf recordTrade
  by_cases hj : symbol = j
  · simp [hj]
  · simp [hj]

end Db

/-- A fill, and what the account held of its symbol when it came. -/
structure MetFill where
  lot : Lot ℚ
  size : ℚ
  price : ℚ

namespace MetFill

/-- The quantity that a reducing, closing or flipping fill closes. -/
def closed (f : MetFill) : ℚ := f.lot.closed f.size

def realized (f : MetFill) : ℚ := f.lot.realized f.size f.price

/-- The quantity that goes into the journal. -/
def journaled (f : MetFill) : ℚ := if f.realized = 0 then 0 else numeric f.closed

/-- What the fill closes goes into the journal unchanged. -/
def Kept (f : MetFill) : Prop :=
  f.closed ≠ 0 → f.price ≠ f.lot.avg ∧ Representable f.closed ∧ Representable f.realized

theorem kept_iff (f : MetFill) :
    f.Kept ↔ f.journaled = f.closed ∧ numeric f.realized = f.realized := by
  have hzero : f.realized = 0 ↔ f.closed = 0 ∨ f.price = f.lot.avg :=
    f.lot.realized_eq_zero_iff f.size f.price
  unfold Kept journaled Representable
  by_cases hclosed : f.closed = 0
  · have hnone : f.realized = 0 := hzero.mpr (.inl hclosed)
    simp [hclosed, hnone]
  · by_cases hprice : f.price = f.lot.avg
    · have hnone : f.realized = 0 := hzero.mpr (.inr hprice)
      simp [hclosed, hprice, hnone, Ne.symm hclosed]
    · have hsome : f.realized ≠ 0 := fun h => (hzero.mp h).elim hclosed hprice
      simp [hclosed, hprice, hsome]

end MetFill

namespace Stack

/-- The P&L that the book has for a symbol. -/
def realizedPnl (s : Stack β) (symbol : Symbol) : ℚ :=
  (s.position symbol).elim 0 PositionRecord.realizedPnl

/-- The fill that the broker's answer to an order brings. -/
def fillOf (s : Stack β) (order : OrderRecord) : Option MetFill :=
  let result := (Broker.placeOrder s.broker order.request).1
  if result.fills then
    some ⟨s.positionManager.lot s.userId order.symbol,
      order.direction.signed result.filledQuantity, result.fillPrice⟩
  else none

/-- The fill of an approved request: a key that was seen brings none. -/
def requestFill (s : Stack β) (env : CallEnv) (r : PlaceOrderRequest) : Option MetFill :=
  let key := r.idempotencyKey s.userId
  match s.orderManager.lookup key with
  | some _ => none
  | none => s.fillOf (s.newOrder env.now key r.symbol r.direction r.orderType (s.orderQuantity r)
      r.price)

end Stack

/-- The fill of a call. -/
def World.callFill (w : World β) (env : CallEnv) (r : PlaceOrderRequest) : Option MetFill :=
  match (w.stack.gate env r).1 with
  | .error _ => none
  | .ok () => (w.stack.prepared env r).requestFill env r

/-- What a fill of a symbol leaves: the P&L in the book, and one row at most in the journal. -/
structure Booked (s s' : Stack β) (db db' : Db) (symbol : Symbol) (fill : Option MetFill) :
    Prop where
  realized : ∀ j, s'.realizedPnl j =
    s.realizedPnl j + if symbol = j then fill.elim 0 MetFill.realized else 0
  quantity : ∀ j, db'.tradedQuantity j =
    db.tradedQuantity j + if symbol = j then fill.elim 0 MetFill.journaled else 0
  pnl : ∀ j, db'.tradedPnl j =
    db.tradedPnl j + if symbol = j then numeric (fill.elim 0 MetFill.realized) else 0

/-! ## Layer B: One call -/

namespace Booked

omit [Broker β] in
/-- No fill, and nothing is booked. -/
theorem of_none {s s' : Stack β} {db db' : Db} (hpnl : ∀ j, s'.realizedPnl j = s.realizedPnl j)
    (htrades : db'.trades = db.trades) (symbol : Symbol) : Booked s s' db db' symbol none where
  realized j := by simp [hpnl]
  quantity j := by simp [Db.tradedQuantity, Db.tradesOf_congr htrades]
  pnl j := by simp [Db.tradedPnl, Db.tradesOf_congr htrades]

omit [Broker β] in
/-- What comes before, realizes nothing and journals nothing does not matter. -/
theorem of_start {s₀ s s' : Stack β} {db₀ db db' : Db} {symbol : Symbol} {fill : Option MetFill}
    (h : Booked s s' db db' symbol fill) (hpnl : ∀ j, s.realizedPnl j = s₀.realizedPnl j)
    (htrades : db.trades = db₀.trades) : Booked s₀ s' db₀ db' symbol fill where
  realized j := (h.realized j).trans (by rw [hpnl])
  quantity j := (h.quantity j).trans (by simp only [Db.tradedQuantity, Db.tradesOf_congr htrades])
  pnl j := (h.pnl j).trans (by simp only [Db.tradedPnl, Db.tradesOf_congr htrades])

end Booked

namespace Stack

theorem realizedPnl_prepared (s : Stack β) (env : CallEnv) (r : PlaceOrderRequest) (j : Symbol) :
    (s.prepared env r).realizedPnl j = s.realizedPnl j := by
  unfold prepared seedQuote
  split <;> rfl

/-- The record that guarding stores back has the key and the P&L of the one that was read. -/
theorem guardPosition_stored {s : Stack β} {r : PlaceOrderRequest} {after : PositionRecord}
    (h : s.position r.symbol = some after) (created : Bool) (order : OrderRecord) :
    ∃ broker p problem, s.guardPosition r created order after = (s.guarded broker p, p, problem) ∧
      p.accountId = s.userId ∧ p.symbol = r.symbol ∧ p.realizedPnl = after.realizedPnl := by
  obtain ⟨haccount, hsymbol⟩ := PositionManager.key_of_get h
  obtain ⟨-, hpnl⟩ := s.sameCounters_guardPosition r created order after
  -- The stop of the request changes neither the key nor the P&L.
  have hstop : (withStop after r).accountId = after.accountId ∧
      (withStop after r).symbol = after.symbol := by
    unfold withStop
    split <;> exact ⟨rfl, rfl⟩
  unfold guardPosition at hpnl ⊢
  dsimp only at hpnl ⊢
  -- Only a fill calls the broker; otherwise the record is stored as it was read.
  split at hpnl
  · rename_i hfilled
    have hsame := ensureProtectiveStop_sameButStop s.broker (withStop after r)
      s.orderManager.nextId
    rw [if_pos hfilled]
    exact ⟨_, _, _, rfl, hsame.accountId_eq.trans (hstop.1.trans haccount),
      hsame.symbol_eq.trans (hstop.2.trans hsymbol), hpnl⟩
  · rename_i hfilled
    rw [if_neg hfilled]
    exact ⟨_, _, _, rfl, hstop.1.trans haccount, hstop.2.trans hsymbol, hpnl⟩

omit [Broker β] in
theorem realizedPnl_guarded {s : Stack β} {symbol : Symbol} {after p : PositionRecord}
    (h : s.position symbol = some after) (haccount : p.accountId = s.userId)
    (hsymbol : p.symbol = symbol) (hpnl : p.realizedPnl = after.realizedPnl) (broker : β)
    (j : Symbol) : (s.guarded broker p).realizedPnl j = s.realizedPnl j := by
  unfold realizedPnl
  show ((s.positionManager.put p).get s.userId j).elim 0 PositionRecord.realizedPnl = _
  rw [PositionManager.get_put, haccount, hsymbol]
  by_cases hj : symbol = j
  · subst hj
    rw [if_pos rfl, h]
    exact hpnl
  · rw [if_neg fun heq => hj (congrArg Prod.snd heq)]
    rfl

/-- Without a record nothing is held, and nothing is closed. -/
theorem fillOf_of_flat {s : Stack β} {order : OrderRecord} (h : s.position order.symbol = none)
    {f : MetFill} (hf : s.fillOf order = some f) : f.closed = 0 ∧ f.realized = 0 := by
  have hlot : s.positionManager.lot s.userId order.symbol = Lot.empty := by
    unfold PositionManager.lot PositionManager.record
    rw [show s.positionManager.get s.userId order.symbol = none from h]
    exact Lot.ofPair_zero _
  unfold fillOf at hf
  dsimp only at hf
  split at hf
  · cases hf
    exact ⟨by rw [MetFill.closed, hlot, Lot.closed_empty],
      by rw [MetFill.realized, hlot, Lot.realized_empty]⟩
  · cases hf

/-- A fill makes a record. -/
theorem fillOf_of_no_record {s : Stack β} {now : Instant} {order : OrderRecord} {detail : String}
    (haccount : order.accountId = s.userId)
    (h : (s.entered now order detail).position order.symbol = none) : s.fillOf order = none := by
  unfold fillOf
  dsimp only
  split
  · rename_i hfills
    have hbook : (s.positionManager.answered order
        (Broker.placeOrder s.broker order.request).1).get s.userId order.symbol = none := h
    unfold PositionManager.answered at hbook
    rw [if_pos hfills, haccount, PositionManager.get_applyFill, if_pos rfl] at hbook
    cases hbook
  · rfl

/-- What a new order adds to the book. -/
theorem realizedPnl_entered (s : Stack β) (now : Instant) {order : OrderRecord} (detail : String)
    (haccount : order.accountId = s.userId) (j : Symbol) :
    (s.entered now order detail).realizedPnl j = s.realizedPnl j +
      if order.symbol = j then (s.fillOf order).elim 0 MetFill.realized else 0 := by
  -- A symbol without a position has realized nothing.
  have hrecord : (s.position order.symbol).elim 0 PositionRecord.realizedPnl =
      (s.positionManager.record s.userId order.symbol).realizedPnl := by
    unfold position PositionManager.record
    cases s.positionManager.get s.userId order.symbol <;> rfl
  unfold realizedPnl fillOf
  show ((s.positionManager.answered order (Broker.placeOrder s.broker order.request).1).get
    s.userId j).elim 0 PositionRecord.realizedPnl = _
  unfold PositionManager.answered
  dsimp only
  by_cases hfills : (Broker.placeOrder s.broker order.request).1.fills = true
  · rw [if_pos hfills, if_pos hfills, haccount, PositionManager.get_applyFill]
    -- Only the order's own symbol is booked.
    by_cases hj : order.symbol = j
    · subst hj
      have hpnl := (PositionManager.fillRecord_spec (s.positionManager.record s.userId order.symbol)
        order.direction (of_decide_eq_true hfills).2.2
        (Broker.placeOrder s.broker order.request).1.fillPrice).2
      rw [if_pos rfl, if_pos rfl, hrecord]
      exact hpnl
    · rw [if_neg fun heq => hj (congrArg Prod.snd heq), if_neg hj, add_zero]
      rfl
  · rw [if_neg hfills, if_neg hfills]
    show s.realizedPnl j = s.realizedPnl j + _
    simp

/-- With nothing realized no row is written. -/
theorem journal_db_of_none {s : Stack β} {db : Db} {now : Instant} {before : Option PositionRecord}
    {after : PositionRecord} (h : before = none ∨ realizedDelta before after = 0)
    (order : OrderRecord) (stop target : Option ℚ) :
    (s.journal db now before after order stop target).2 = db := by
  unfold journal
  dsimp only
  rcases h with rfl | h
  · rfl
  · cases before with
    | none => rfl
    | some before => simp [h]

theorem realizedPnl_journal (s : Stack β) (db : Db) (now : Instant) (before : Option PositionRecord)
    (after : PositionRecord) (order : OrderRecord) (stop target : Option ℚ) (j : Symbol) :
    (s.journal db now before after order stop target).1.realizedPnl j = s.realizedPnl j := by
  unfold journal
  dsimp only
  split
  · rfl
  · split <;> rfl

/-- The quantity that the handler works out from the position before the fill is what the fill
closed. -/
theorem min_filledQuantity {s : Stack β} {order : OrderRecord}
    (hunfilled : order.filledQuantity = 0) {before : PositionRecord}
    (hbefore : s.position order.symbol = some before) {f : MetFill}
    (hf : s.fillOf order = some f) (hrealized : f.realized ≠ 0) (now : Instant) (detail : String) :
    min (order.finished now detail (Broker.placeOrder s.broker order.request).1).filledQuantity
      |before.quantity| = f.closed := by
  -- What realizes something opposes the position.
  have hopposes : ¬ 0 ≤ f.lot.qty * f.size := by
    intro hside
    exact hrealized (if_pos hside)
  have hheld : s.positionManager.quantity s.userId order.symbol = before.quantity := by
    unfold PositionManager.quantity
    rw [show s.positionManager.get s.userId order.symbol = some before from hbefore]
    rfl
  unfold fillOf at hf
  dsimp only at hf
  split at hf
  · rename_i hfills
    cases hf
    have hpos := (of_decide_eq_true hfills).2.2
    rw [MetFill.closed, Lot.closed, if_neg hopposes, OrderRecord.finished_filledQuantity _ _ _ _
      hunfilled, if_pos hfills, PositionManager.lot_qty, hheld, Direction.abs_signed,
      abs_of_pos hpos]
  · cases hf

/-- Guarding the position and journaling book the fill that the order had. -/
theorem journal_booked {s s' : Stack β} {r : PlaceOrderRequest} {fill : Option MetFill}
    {order : OrderRecord} {after : PositionRecord}
    (hpnl : ∀ j, s'.realizedPnl j =
      s.realizedPnl j + if r.symbol = j then fill.elim 0 MetFill.realized else 0)
    (hafter : s'.position r.symbol = some after)
    (hclosed : ∀ f ∈ fill, f.realized ≠ 0 → ∃ before, s.position r.symbol = some before ∧
      min order.filledQuantity |before.quantity| = f.closed)
    (db : Db) (now : Instant) (created : Bool) (stop target : Option ℚ) :
    let guarded := s'.guardPosition r created order after
    let db' := db.persistPosition guarded.2.1 (executionModeFor β) manualSourceKey
    let journaled :=
      guarded.1.journal db' now (s.position r.symbol) guarded.2.1 order stop target
    Booked s journaled.1 db journaled.2 r.symbol fill := by
  obtain ⟨broker, p, problem, hguarded, haccount, hsymbol, hkept⟩ :=
    guardPosition_stored hafter created order
  rw [hguarded]
  intro guarded db' journaled
  have hstack : ∀ j, journaled.1.realizedPnl j =
      s.realizedPnl j + if r.symbol = j then fill.elim 0 MetFill.realized else 0 := fun j =>
    ((realizedPnl_journal ..).trans
      (realizedPnl_guarded hafter haccount hsymbol hkept broker j)).trans (hpnl j)
  have hdb : db'.trades = db.trades := Db.trades_persistPosition ..
  have hdelta : realizedDelta (s.position r.symbol) p = fill.elim 0 MetFill.realized := by
    have hheld := hpnl r.symbol
    rw [if_pos rfl] at hheld
    unfold realizedPnl at hheld
    rw [hafter] at hheld
    rw [realizedDelta, hkept]
    exact sub_eq_of_eq_add' hheld
  by_cases hrealized : fill.elim 0 MetFill.realized = 0
  · -- The handler reads a difference of 0 as an opening fill, also of a close at the average price.
    have hnone : journaled.2 = db' :=
      journal_db_of_none (.inr (hdelta.trans hrealized)) order stop target
    have hjournaled : fill.elim 0 MetFill.journaled = 0 := by
      cases fill with
      | none => rfl
      | some f => exact if_pos hrealized
    refine ⟨hstack, fun j => ?_, fun j => ?_⟩
    · simp [hnone, hjournaled, Db.tradedQuantity, Db.tradesOf_congr hdb]
    · simp [hnone, hrealized, Db.tradedPnl, Db.tradesOf_congr hdb]
  · -- Something was realized, so there was a fill and a position for it to close.
    obtain ⟨f, rfl⟩ : ∃ f, fill = some f := by
      cases fill with
      | none => exact absurd rfl hrealized
      | some f => exact ⟨f, rfl⟩
    obtain ⟨before, hbefore, hquantity⟩ := hclosed f rfl hrealized
    have hjournaled : ∃ direction, journaled.2 = db'.recordTrade now p.symbol direction
        before.averagePrice order.averageFillPrice (min order.filledQuantity |before.quantity|)
        f.realized stop target (executionModeFor β) := by
      refine ⟨if before.isLong then .long else .short, ?_⟩
      show (guarded.1.journal db' now (s.position r.symbol) p order stop target).2 = _
      rw [hbefore] at hdelta ⊢
      unfold journal
      dsimp only
      rw [if_pos (hdelta ▸ hrealized), hdelta]
      rfl
    obtain ⟨direction, hjournaled⟩ := hjournaled
    have hrow := fun j => db'.traded_recordTrade now p.symbol direction before.averagePrice
      order.averageFillPrice (min order.filledQuantity |before.quantity|) f.realized stop target
      (executionModeFor β) j
    refine ⟨hstack, fun j => ?_, fun j => ?_⟩
    · rw [hjournaled, (hrow j).1, hsymbol, hquantity]
      simp only [Db.tradedQuantity, Db.tradesOf_congr hdb, Option.elim_some, MetFill.journaled]
      rw [if_neg (show f.realized ≠ 0 from hrealized)]
    · rw [hjournaled, (hrow j).2, hsymbol]
      simp only [Db.tradedPnl, Db.tradesOf_congr hdb, Option.elim_some]

end Stack

namespace World

/-- The rows that a request's fill leaves. -/
theorem settle_booked (s : Stack β) (db : Db) (env : CallEnv) (r : PlaceOrderRequest) :
    Booked s (settle s db env r).2.1.stack db (settle s db env r).2.1.db r.symbol
      (s.requestFill env r) := by
  have hstored : ∀ order, (db.persistOrder env.now order (executionModeFor β)).trades = db.trades :=
    fun order => Db.trades_persistOrder ..
  unfold settle orderEntered Stack.requestFill
  dsimp only
  cases hlookup : s.orderManager.lookup (r.idempotencyKey s.userId) with
  -- A known order has no fill to book; what is journaled is a difference of 0.
  | some known =>
    rw [Stack.enterOrder_known hlookup]
    dsimp only
    cases hafter : s.position r.symbol with
    | none => exact .of_none (fun _ => rfl) (hstored known) _
    | some after =>
      dsimp only
      have hpnl : ∀ j, s.realizedPnl j = s.realizedPnl j +
          if r.symbol = j then (none : Option MetFill).elim 0 MetFill.realized else 0 := by simp
      have hclosed : ∀ f ∈ (none : Option MetFill), f.realized ≠ 0 → ∃ before,
          s.position r.symbol = some before ∧
            min known.filledQuantity |before.quantity| = f.closed := by simp
      have hbooked := Stack.journal_booked hpnl hafter hclosed
        (db.persistOrder env.now known (executionModeFor β)) env.now false after.stop after.target
      rw [hafter] at hbooked
      exact hbooked.of_start (fun _ => rfl) (hstored known)
  -- A new order is booked as the broker answers it.
  | none =>
    rw [Stack.enterOrder_new hlookup]
    dsimp only
    set order := s.newOrder env.now (r.idempotencyKey s.userId) r.symbol r.direction r.orderType
      (s.orderQuantity r) r.price with horder
    set finished := order.finished env.now "" (Broker.placeOrder s.broker order.request).1
    have haccount : order.accountId = s.userId := rfl
    have hpnl := s.realizedPnl_entered env.now "" haccount
    cases hafter : (s.entered env.now order "").position r.symbol with
    | none =>
      -- No record was made, so nothing was filled.
      have hnone : s.fillOf order = none := Stack.fillOf_of_no_record rfl hafter
      rw [hnone] at hpnl ⊢
      exact .of_none (fun j => by simpa using hpnl j) (hstored finished) _
    | some after =>
      dsimp only
      -- What realizes something found a position.
      have hclosed : ∀ f ∈ s.fillOf order, f.realized ≠ 0 → ∃ before,
          s.position r.symbol = some before ∧
            min finished.filledQuantity |before.quantity| = f.closed := by
        intro f hf hrealized
        cases hbefore : s.position r.symbol with
        | none => exact absurd (Stack.fillOf_of_flat hbefore hf).2 hrealized
        | some before =>
          exact ⟨before, rfl, Stack.min_filledQuantity rfl hbefore hf hrealized env.now ""⟩
      exact (Stack.journal_booked hpnl hafter hclosed _ _ _ _ _).of_start (fun _ => rfl)
        (hstored finished)

/-- The rows that the fill of a call leaves. -/
theorem placeOrder_booked (w : World β) (env : CallEnv) (r : PlaceOrderRequest) :
    Booked w.stack (w.placeOrder env r).world.stack w.db (w.placeOrder env r).world.db r.symbol
      (w.callFill env r) := by
  have hprepared : ∀ j, (w.stack.prepared env r).realizedPnl j = w.stack.realizedPnl j :=
    fun j => Stack.realizedPnl_prepared ..
  have hrolled : ∀ j, (w.stack.rollRiskWindow env.now).realizedPnl j = w.stack.realizedPnl j :=
    fun _ => rfl
  unfold placeOrder callFill
  rcases w.stack.gate_cases env r with
    ⟨refusal, s', decision, hgate, hs', -⟩ | ⟨quote, decision, hgate, -⟩
  · rw [hgate]
    -- A refused request has at most rolled the windows and seeded the quote.
    rcases hs' with rfl | rfl | rfl
    · exact .of_none (fun _ => rfl) rfl _
    · exact .of_none hrolled rfl _
    · exact .of_none hprepared rfl _
  · rw [hgate]
    exact (settle_booked (w.stack.prepared env r) w.db env r).of_start hprepared rfl

end World

/-! ## Layer C: Runs -/

/-- A world, and what the fills so far have closed of each symbol. -/
structure JournalRun (β : Type) where
  world : World β
  closed : Symbol → ℚ := fun _ => 0

namespace JournalRun

/-- A completed call of `POST /orders`. -/
def step (v : JournalRun β) (call : CallEnv × PlaceOrderRequest) : JournalRun β where
  world := (v.world.placeOrder call.1 call.2).world
  closed j := v.closed j +
    if call.2.symbol = j then (v.world.callFill call.1 call.2).elim 0 MetFill.closed else 0

/-- The journal of every symbol adds up: its quantities to what was closed, its P&L to that of
the book. -/
def JournalComplete (v : JournalRun β) : Prop :=
  ∀ j, v.world.db.tradedQuantity j = v.closed j ∧
    v.world.db.tradedPnl j = v.world.stack.realizedPnl j

/-- What the fill of the call closes goes into the journal unchanged. -/
def FillKept (v : JournalRun β) (call : CallEnv × PlaceOrderRequest) : Prop :=
  ∀ f ∈ v.world.callFill call.1 call.2, f.Kept

/-- One call keeps a complete journal complete exactly if the journal takes its fill. -/
theorem journalComplete_step {v : JournalRun β} (h : v.JournalComplete)
    (call : CallEnv × PlaceOrderRequest) :
    (v.step call).JournalComplete ↔ v.FillKept call := by
  obtain ⟨env, r⟩ := call
  have hbooked := v.world.placeOrder_booked env r
  unfold FillKept
  dsimp only
  -- The journal is complete before the call, so only the fill's own terms are left to compare.
  have hcomplete : (v.step (env, r)).JournalComplete ↔
      (v.world.callFill env r).elim 0 MetFill.journaled =
          (v.world.callFill env r).elim 0 MetFill.closed ∧
        numeric ((v.world.callFill env r).elim 0 MetFill.realized) =
          (v.world.callFill env r).elim 0 MetFill.realized := by
    constructor
    · intro hafter
      obtain ⟨hquantity, hpnl⟩ := hafter r.symbol
      obtain ⟨hquantity₀, hpnl₀⟩ := h r.symbol
      simp only [step, hbooked.quantity, hbooked.pnl, hbooked.realized, hquantity₀, hpnl₀,
        if_true] at hquantity hpnl
      exact ⟨add_left_cancel hquantity, add_left_cancel hpnl⟩
    · rintro ⟨hquantity, hpnl⟩ j
      obtain ⟨hquantity₀, hpnl₀⟩ := h j
      simp only [step, hbooked.quantity, hbooked.pnl, hbooked.realized, hquantity₀, hpnl₀,
        hquantity, hpnl]
      exact ⟨trivial, trivial⟩
  rw [hcomplete]
  cases v.world.callFill env r with
  | none => simp
  | some f => simp [MetFill.kept_iff]

/-- An account that never traded. -/
def Fresh (w : World β) : Prop :=
  w.db.trades = [] ∧ ∀ j, w.stack.position j = none

/-- **The journal is complete.** In a run of completed calls of a new account, the trades of every
symbol add up to what its fills closed and to the P&L of the book, in every state, exactly if no
fill closes at the average price and the columns keep what each closes and realizes. -/
theorem journal_complete {w : World β} (hfresh : Fresh w)
    (calls : List (CallEnv × PlaceOrderRequest)) :
    Throughout step JournalComplete { world := w } calls ↔
      Each step FillKept { world := w } calls := by
  have hstart : ({ world := w } : JournalRun β).JournalComplete := by
    intro j
    simp [Db.tradedQuantity, Db.tradedPnl, Db.tradesOf, hfresh.1, Stack.realizedPnl, hfresh.2 j]
  exact throughout_iff_each (I := fun _ => True) (fun _ _ _ _ _ => trivial)
    (fun _ call _ hcomplete => journalComplete_step hcomplete call) trivial hstart

/-- A new account at the simulated broker. -/
def newAccount : World MockBroker := ⟨Stack.build "user" (MockBroker.new 100000) {} 0, {}⟩

/-- Buy at 100, with a stop at 95. -/
def bought : CallEnv × PlaceOrderRequest := ({ now := 0 }, .market "ACME" .long 100 95)

/-- Sell at the price at which it was bought. -/
def soldAtAverage : CallEnv × PlaceOrderRequest := ({ now := 1 }, .market "ACME" .short 100 105)

/-- Sell at 110. -/
def soldAbove : CallEnv × PlaceOrderRequest := ({ now := 1 }, .market "ACME" .short 110 115)

/-- The 100 that were bought are sold again at the same price: the position is closed, and the
journal has nothing. -/
theorem closed_at_average_not_journaled :
    let sold := run step { world := newAccount } [bought, soldAtAverage]
    sold.closed "ACME" = 100 ∧ sold.world.stack.holding "ACME" = 0 ∧ sold.world.db.trades = [] ∧
      ¬ Throughout step JournalComplete { world := newAccount } [bought, soldAtAverage] := by
  intro sold
  have hclosed : sold.closed "ACME" = 100 := by decide +kernel
  have htrades : sold.world.db.trades = [] := by decide +kernel
  have hnone : sold.world.db.tradedQuantity "ACME" = 0 := by
    unfold Db.tradedQuantity Db.tradesOf
    rw [htrades]
    rfl
  refine ⟨hclosed, by decide +kernel, htrades, fun h => ?_⟩
  have hquantity : sold.world.db.tradedQuantity "ACME" = sold.closed "ACME" := (h.last "ACME").1
  rw [hnone, hclosed] at hquantity
  revert hquantity
  decide

theorem journal_complete_sold_above :
    Throughout step JournalComplete { world := newAccount } [bought, soldAbove] := by
  have hfresh : Fresh newAccount := ⟨rfl, fun _ => rfl⟩
  have hkept : Each step FillKept { world := newAccount } [bought, soldAbove] := by
    refine ⟨?_, ?_, trivial⟩
    · unfold FillKept MetFill.Kept
      decide +kernel
    · unfold FillKept MetFill.Kept
      decide +kernel
  exact (journal_complete hfresh [bought, soldAbove]).mpr hkept

end JournalRun

end SuperTrading
