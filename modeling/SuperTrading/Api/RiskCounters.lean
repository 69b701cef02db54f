import SuperTrading.Api.Options
import SuperTrading.Brokers.Scripted
import SuperTrading.Logic.Runs
import SuperTrading.Market.Clock
import SuperTrading.Trading.NettingAgreement

/-!
# The Manual Risk Counters After a Restart

`_stack_for` counts the order rows of the day and sums the trade rows of the day and the
week. The process counts the orders it creates and sums what their fills realize. The two
agree as long as every order the process creates gets a row of its own, and the column keeps
what is realized. A key older than the rehydration window that is sent again after a restart
creates an order without a row of its own.

- **Layer A**: the counters and the rows, at one time
- **Layer B**: what entering and journaling an order keep
- **Layer C**: the two handlers
- **Layer D**: runs
-/

namespace SuperTrading

open SuperTrading.Logic

variable {β : Type} [Broker β]

/-! ## Layer A: The counters and the rows -/

namespace Db

/-- No row is from after the time. -/
structure Until (db : Db) (t : Instant) : Prop where
  orders : ∀ row ∈ db.orders, row.createdAt ≤ t
  trades : ∀ row ∈ db.trades, row.closedAt ≤ t

theorem Until.mono {db : Db} {t now : Instant} (h : db.Until t) (hle : t ≤ now) : db.Until now where
  orders row hrow := (h.orders row hrow).trans hle
  trades row hrow := (h.trades row hrow).trans hle

variable {mode : ExecutionMode}

/-- After the last row nothing was placed and nothing realized. -/
theorem Until.placed_eq_zero {db : Db} {t since : Instant} (h : db.Until t) (hlt : t < since) :
    db.loadOrdersPlacedSince mode since = 0 := by
  rw [loadOrdersPlacedSince, List.countP_eq_zero]
  intro row hrow hcounted
  exact absurd (of_decide_eq_true hcounted).2 (not_le.mpr ((h.orders row hrow).trans_lt hlt))

theorem Until.realized_eq_zero {db : Db} {t since : Instant} (h : db.Until t) (hlt : t < since) :
    db.loadRealizedPnlSince mode since = 0 := by
  have hnone : (db.trades.filter fun row => row.executionMode = mode ∧
      row.source = manualTradeSource ∧ since ≤ row.closedAt) = [] := by
    rw [List.filter_eq_nil_iff]
    intro row hrow hcounted
    exact absurd (of_decide_eq_true hcounted).2.2
      (not_le.mpr ((h.trades row hrow).trans_lt hlt))
  rw [loadRealizedPnlSince, hnone]
  rfl

/-- A row that is rewritten is counted as before. -/
theorem placed_persistOrder_known {db : Db} {order : OrderRecord}
    (hkey : order.idempotencyKey ∈ db.keys)
    (now since : Instant) (mode' : ExecutionMode) :
    (db.persistOrder now order mode').loadOrdersPlacedSince mode since =
      db.loadOrdersPlacedSince mode since := by
  obtain ⟨row, hrow, hrowkey⟩ := List.mem_map.mp hkey
  unfold persistOrder
  rw [if_pos (List.any_eq_true.mpr ⟨row, hrow, decide_eq_true hrowkey⟩)]
  unfold loadOrdersPlacedSince
  rw [List.countP_map]
  apply List.countP_congr
  intro row _
  simp only [Function.comp]
  split <;> rfl

/-- An order of a new key is counted from its own time on. -/
theorem placed_persistOrder_new {db : Db} {order : OrderRecord}
    (hkey : order.idempotencyKey ∉ db.keys) {now since : Instant} (hsince : since ≤ now) :
    (db.persistOrder now order mode).loadOrdersPlacedSince mode since =
      db.loadOrdersPlacedSince mode since + 1 := by
  rw [persistOrder_of_new hkey]
  unfold loadOrdersPlacedSince
  simp [newOrderRow, hsince]

theorem Until.persistOrder {db : Db} {now : Instant} (h : db.Until now) (order : OrderRecord)
    (mode : ExecutionMode) : (db.persistOrder now order mode).Until now where
  orders row hrow := by
    unfold Db.persistOrder at hrow
    split at hrow
    · obtain ⟨old, hold, rfl⟩ := List.mem_map.mp hrow
      split <;> exact h.orders old hold
    · rcases List.mem_append.mp hrow with hold | hnew
      · exact h.orders row hold
      · rw [List.mem_singleton.mp hnew]
        exact le_refl now
  trades row hrow := h.trades row (trades_persistOrder db now order mode ▸ hrow)

end Db

/-- The orders in memory have rows, the windows are those of the time, and the counters are
what the rows of the windows come to. -/
structure Stack.Counted (s : Stack β) (db : Db) (t : Instant) : Prop where
  day : s.riskDay = some t.date
  week : s.riskWeek = some t.isoWeek
  trades : s.tradesToday = db.loadOrdersPlacedSince (executionModeFor β) t.dayStart
  daily : s.dailyPnl = db.loadRealizedPnlSince (executionModeFor β) t.dayStart
  weekly : s.weeklyPnl = db.loadRealizedPnlSince (executionModeFor β) t.weekStart
  past : db.Until t
  stored : ∀ i order, s.orderManager.get i = some order → order.idempotencyKey ∈ db.keys

/-- The same counters, windows and orders. -/
structure Stack.SameCounters (s s' : Stack β) : Prop where
  day : s'.riskDay = s.riskDay
  week : s'.riskWeek = s.riskWeek
  trades : s'.tradesToday = s.tradesToday
  daily : s'.dailyPnl = s.dailyPnl
  weekly : s'.weeklyPnl = s.weeklyPnl
  orders : s'.orderManager = s.orderManager

namespace Stack.Counted

variable {s s' : Stack β} {db db' : Db} {t now : Instant}

theorem congr (h : s.Counted db t) (hsame : s.SameCounters s') (horders : db'.orders = db.orders)
    (htrades : db'.trades = db.trades) : s'.Counted db' t where
  day := hsame.day.trans h.day
  week := hsame.week.trans h.week
  trades := by
    rw [hsame.trades, h.trades, Db.loadOrdersPlacedSince, Db.loadOrdersPlacedSince, horders]
  daily := by rw [hsame.daily, h.daily, Db.loadRealizedPnlSince_congr htrades]
  weekly := by rw [hsame.weekly, h.weekly, Db.loadRealizedPnlSince_congr htrades]
  past := ⟨horders ▸ h.past.orders, htrades ▸ h.past.trades⟩
  stored i order hget := by
    unfold Db.keys
    rw [horders]
    exact h.stored i order (hsame.orders ▸ hget)

/-- A counter that a window which ended resets, and what its rows come to. -/
theorem kept_or_reset {α : Type} [Zero α] {same : Prop} [Decidable same] {counter total total' : α}
    (h : counter = total) (hsame : same → total' = total) (hended : ¬ same → total' = 0) :
    (if same then counter else 0) = total' := by
  split_ifs with hs
  · rw [h, hsame hs]
  · rw [hended hs]

/-- Rolling the windows forward keeps the counters true: a window that ended is empty. -/
theorem roll (h : s.Counted db t) (hle : t ≤ now) : (s.rollRiskWindow now).Counted db now := by
  refine ⟨rfl, rfl, ?_, ?_, ?_, h.past.mono hle, h.stored⟩
  · -- Of an earlier day, no order counts.
    have hrolled : (s.rollRiskWindow now).tradesToday =
        if t.date = now.date then s.tradesToday else 0 := by
      simp [rollRiskWindow, h.day]
    exact hrolled.trans (kept_or_reset h.trades
      (fun hdate => by rw [Instant.dayStart_congr hdate.symm])
      fun hdate => h.past.placed_eq_zero (Instant.lt_dayStart hle (Ne.symm hdate)))
  · have hrolled : (s.rollRiskWindow now).dailyPnl =
        if t.date = now.date then s.dailyPnl else 0 := by
      simp [rollRiskWindow, h.day]
    exact hrolled.trans (kept_or_reset h.daily
      (fun hdate => by rw [Instant.dayStart_congr hdate.symm])
      fun hdate => h.past.realized_eq_zero (Instant.lt_dayStart hle (Ne.symm hdate)))
  · have hrolled : (s.rollRiskWindow now).weeklyPnl =
        if t.isoWeek = now.isoWeek then s.weeklyPnl else 0 := by
      simp [rollRiskWindow, h.week]
    exact hrolled.trans (kept_or_reset h.weekly
      (fun hweek => by rw [Instant.weekStart_congr hweek.symm])
      fun hweek => h.past.realized_eq_zero (Instant.lt_weekStart hle (Ne.symm hweek)))

/-- A stack built of the rows starts with true counters. -/
theorem build (userId : AccountId) (broker : β) {db : Db} (hpast : db.Until now) :
    (Stack.build userId broker db now).Counted db now where
  day := rfl
  week := rfl
  trades := rfl
  daily := rfl
  weekly := rfl
  past := hpast
  stored i order hget := by
    rcases OrderManager.get_restore hget with hmem | hnone
    · obtain ⟨row, hrow, rfl⟩ := List.mem_map.mp hmem
      exact List.mem_map_of_mem (List.mem_of_mem_filter hrow)
    · simp [OrderManager.get] at hnone

/-- A key in memory names an order with a row. -/
theorem known (h : s.Counted db t) {key : String} {order : OrderRecord}
    (hlookup : s.orderManager.lookup key = some order) : order.idempotencyKey ∈ db.keys := by
  obtain ⟨i, -, hget⟩ := Option.bind_eq_some_iff.mp hlookup
  exact h.stored i order hget

/-! ## Layer B: Entering and journaling -/

/-- Writing a known order again changes nothing that is counted. -/
theorem rewritten (h : s.Counted db now) {order : OrderRecord}
    (hrow : order.idempotencyKey ∈ db.keys) (mode : ExecutionMode) :
    s.Counted (db.persistOrder now order mode) now where
  day := h.day
  week := h.week
  trades := by rw [h.trades, Db.placed_persistOrder_known hrow]
  daily := by rw [h.daily, Db.loadRealizedPnlSince_congr (Db.trades_persistOrder ..)]
  weekly := by rw [h.weekly, Db.loadRealizedPnlSince_congr (Db.trades_persistOrder ..)]
  past := h.past.persistOrder order mode
  stored i order' hget := Db.mem_keys_persistOrder.mpr (.inr (h.stored i order' hget))

/-- A new order is one more in memory, and one row more if its key has none. -/
theorem entered (h : s.Counted db now) (order : OrderRecord) (detail : String)
    (hkey : order.idempotencyKey ∉ db.keys) :
    (s.entered now order detail).Counted
      (db.persistOrder now
        (order.finished now detail (Broker.placeOrder s.broker order.request).1)
        (executionModeFor β)) now where
  day := h.day
  week := h.week
  trades := by
    rw [Db.placed_persistOrder_new (by rwa [OrderRecord.finished_idempotencyKey])
      (Instant.dayStart_le now), ← h.trades]
    rfl
  daily := by
    rw [Db.loadRealizedPnlSince_congr (Db.trades_persistOrder ..)]
    exact h.daily
  weekly := by
    rw [Db.loadRealizedPnlSince_congr (Db.trades_persistOrder ..)]
    exact h.weekly
  past := h.past.persistOrder _ _
  stored i order' hget := by
    rw [Db.mem_keys_persistOrder, OrderRecord.finished_idempotencyKey]
    simp only [Stack.entered, OrderManager.get_update, OrderManager.get_insert] at hget
    -- The order just placed, or one that was there before.
    split at hget
    · obtain rfl : order.finished now detail (Broker.placeOrder s.broker order.request).1 =
          order' := by simpa using hget
      exact .inl (OrderRecord.finished_idempotencyKey ..)
    · exact .inr (h.stored i order' hget)

/-- What is realized enters the counters and, as the column keeps it, the journal. -/
theorem journal (h : s.Counted db now) (before : Option PositionRecord) (after : PositionRecord)
    (order : OrderRecord) (stop target : Option ℚ)
    (hkept : before.isSome → Representable (realizedDelta before after)) :
    (s.journal db now before after order stop target).1.Counted
      (s.journal db now before after order stop target).2 now := by
  unfold Stack.journal
  cases before with
  | none => exact h
  | some before =>
    dsimp only
    split
    · -- The trade is stored exactly, so that its row counts as much as the counter adds.
      have hnumeric : numeric (realizedDelta (some before) after) =
          realizedDelta (some before) after := hkept rfl
      refine ⟨h.day, h.week, h.trades, ?_, ?_, ⟨h.past.orders, ?_⟩, h.stored⟩
      · rw [Db.loadRealizedPnlSince_recordTrade _ (Instant.dayStart_le now), hnumeric, ← h.daily]
      · rw [Db.loadRealizedPnlSince_recordTrade _ (Instant.weekStart_le now), hnumeric, ← h.weekly]
      · intro row hrow
        rcases List.mem_append.mp hrow with hold | hnew
        · exact h.past.trades row hold
        · rw [List.mem_singleton.mp hnew]
    · exact h

end Stack.Counted

namespace Stack

/-- What the broker's answer to an order realizes on the position held in a symbol. -/
def fillRealizes (s : Stack β) (order : OrderRecord) (symbol : Symbol) : ℚ :=
  let result := (Broker.placeOrder s.broker order.request).1
  if result.fills then
    (s.positionManager.lot s.userId symbol).realized
      (order.direction.signed result.filledQuantity) result.fillPrice
  else 0

/-- A key that memory does not know has no row, and what the order of that key realizes is
kept by the column. -/
def EntryKept (s : Stack β) (db : Db) (now : Instant) (key : String) (symbol : Symbol)
    (direction : Direction) (orderType : OrderType) (quantity : ℚ) (price : Option ℚ) : Prop :=
  s.orderManager.lookup key = none → key ∉ db.keys ∧
    Representable (s.fillRealizes (s.newOrder now key symbol direction orderType quantity price)
      symbol)

/-- What a call realized on a position is what the fill of its order does. -/
theorem realizedDelta_entered (s : Stack β) (now : Instant) (order : OrderRecord)
    (detail : String) (haccount : order.accountId = s.userId) {after : PositionRecord}
    (hafter : (s.entered now order detail).position order.symbol = some after) :
    realizedDelta (s.position order.symbol) after = s.fillRealizes order order.symbol := by
  have hbefore : (s.position order.symbol).elim 0 PositionRecord.realizedPnl =
      (s.positionManager.record s.userId order.symbol).realizedPnl := by
    unfold position PositionManager.record
    cases s.positionManager.get s.userId order.symbol <;> rfl
  have hbook : (s.positionManager.answered order (Broker.placeOrder s.broker order.request).1).get
      s.userId order.symbol = some after := hafter
  unfold fillRealizes
  dsimp only
  unfold PositionManager.answered at hbook
  split at hbook
  · rename_i hfills
    rw [if_pos hfills]
    rw [haccount, PositionManager.get_applyFill, if_pos rfl] at hbook
    -- The fill books on the record what it realizes.
    have hpnl := (PositionManager.fillRecord_spec (s.positionManager.record s.userId order.symbol)
      order.direction (of_decide_eq_true hfills).2.2
      (Broker.placeOrder s.broker order.request).1.fillPrice).2
    rw [realizedDelta, hbefore, ← Option.some.inj hbook, hpnl, add_sub_cancel_left]
    rfl
  · rename_i hfills
    rw [if_neg hfills, realizedDelta, show s.position order.symbol = some after from hbook]
    exact sub_self _

/-- Entering an order and storing it keeps the counters true, and what it realizes is kept. -/
theorem EntryKept.enterOrder {s s' : Stack β} {db : Db} {now : Instant} {key : String}
    {symbol : Symbol} {direction : Direction} {orderType : OrderType} {quantity : ℚ}
    {price : Option ℚ} (hkept : s.EntryKept db now key symbol direction orderType quantity price)
    (h : s.Counted db now) {detail : String} {order : OrderRecord} {created : Bool}
    (hentered : s.enterOrder now key symbol direction orderType quantity price detail =
      .ok (order, created, s')) :
    s'.Counted (db.persistOrder now order (executionModeFor β)) now ∧
      ∀ after, s'.position symbol = some after →
        Representable (realizedDelta (s.position symbol) after) := by
  cases hlookup : s.orderManager.lookup key with
  | some known =>
    rw [enterOrder_known hlookup] at hentered
    cases hentered
    -- A known order is answered again: its row is rewritten, and nothing is realized.
    refine ⟨h.rewritten (h.known hlookup) _, fun after hafter => ?_⟩
    rw [realizedDelta, hafter]
    show Representable (after.realizedPnl - after.realizedPnl)
    rw [sub_self]
    exact numeric_zero
  | none =>
    obtain ⟨hkey, hrealized⟩ := hkept hlookup
    rw [enterOrder_new hlookup] at hentered
    cases hentered
    refine ⟨h.entered _ detail hkey, fun after hafter => ?_⟩
    have hdelta := realizedDelta_entered s now
      (s.newOrder now key symbol direction orderType quantity price) detail rfl hafter
    rw [show realizedDelta (s.position symbol) after = _ from hdelta]
    exact hrealized

omit [Broker β] in
theorem SameCounters.refl (s : Stack β) : s.SameCounters s := ⟨rfl, rfl, rfl, rfl, rfl, rfl⟩

theorem sameCounters_seedQuote (s : Stack β) (symbol : Symbol) (ltp : ℚ) (print : Bool) :
    s.SameCounters (s.seedQuote symbol ltp print) := by
  unfold seedQuote
  split <;> exact ⟨rfl, rfl, rfl, rfl, rfl, rfl⟩

/-- Guarding a position counts nothing, and realizes nothing. -/
theorem sameCounters_guardPosition (s : Stack β) (r : PlaceOrderRequest) (created : Bool)
    (order : OrderRecord) (after : PositionRecord) :
    s.SameCounters (s.guardPosition r created order after).1 ∧
      (s.guardPosition r created order after).2.1.realizedPnl = after.realizedPnl := by
  have hstop : (withStop after r).realizedPnl = after.realizedPnl := by
    unfold withStop
    split <;> rfl
  unfold guardPosition
  dsimp only
  split
  · have hguard := ensureProtectiveStop_sameButStop s.broker (withStop after r)
      s.orderManager.nextId
    exact ⟨⟨rfl, rfl, rfl, rfl, rfl, rfl⟩,
      (congrArg PositionRecord.realizedPnl hguard : _).trans hstop⟩
  · exact ⟨⟨rfl, rfl, rfl, rfl, rfl, rfl⟩, hstop⟩

end Stack

/-! ## Layer C: The two handlers -/

namespace World

/-- The counters of a world's stack are what its rows come to. -/
def Counted (w : World β) (t : Instant) : Prop := w.stack.Counted w.db t

@[simp] theorem orders_persistPosition (db : Db) (p : PositionRecord) (mode : ExecutionMode)
    (sourceKey : String) : (db.persistPosition p mode sourceKey).orders = db.orders := by
  unfold Db.persistPosition
  dsimp only
  split <;> rfl

/-- Settling an approved order keeps the counters true. -/
theorem settle_counted {s : Stack β} {db : Db} {env : CallEnv} {r : PlaceOrderRequest}
    (h : s.Counted db env.now)
    (hkept : s.EntryKept db env.now (r.idempotencyKey s.userId) r.symbol r.direction r.orderType
      (s.orderQuantity r) r.price) :
    (settle s db env r).2.1.Counted env.now := by
  unfold settle
  dsimp only
  split
  · exact h
  · rename_i order created s' hentered
    obtain ⟨hcounted, hrealized⟩ := hkept.enterOrder h hentered
    split
    · exact hcounted
    · rename_i after hafter
      -- Guarding the position moves a stop, and no counter.
      obtain ⟨hsame, hpnl⟩ := s'.sameCounters_guardPosition r created order after
      apply Stack.Counted.journal
      · exact hcounted.congr hsame (orders_persistPosition ..) (Db.trades_persistPosition ..)
      · intro _
        rw [Stack.realizedDelta, hpnl]
        exact hrealized after hafter

/-- `POST /orders`: the order of an approved request is kept. -/
def OrderKept (w : World β) (env : CallEnv) (r : PlaceOrderRequest) : Prop :=
  (w.stack.gate env r).1 = .ok () →
    let s := w.stack.prepared env r
    s.EntryKept w.db env.now (r.idempotencyKey s.userId) r.symbol r.direction r.orderType
      (s.orderQuantity r) r.price

theorem placeOrder_counted {w : World β} {t : Instant} (h : w.Counted t) {env : CallEnv}
    (hle : t ≤ env.now) {r : PlaceOrderRequest} (hkept : w.OrderKept env r) :
    ∃ t', t' ≤ env.now ∧ (w.placeOrder env r).world.Counted t' := by
  have hprepared : (w.stack.prepared env r).Counted w.db env.now :=
    (Stack.Counted.roll h hle).congr (Stack.sameCounters_seedQuote ..) rfl rfl
  unfold placeOrder
  rcases w.stack.gate_cases env r with
    ⟨refusal, s', decision, hgate, hs', -⟩ | ⟨quote, decision, hgate, -⟩
  · rw [hgate]
    -- A refused request has rolled the windows, or not even that.
    rcases hs' with rfl | rfl | rfl
    · exact ⟨t, hle, h⟩
    · exact ⟨env.now, le_refl _, Stack.Counted.roll h hle⟩
    · exact ⟨env.now, le_refl _, hprepared⟩
  · have hok : (w.stack.gate env r).1 = .ok () := by rw [hgate]
    rw [hgate]
    exact ⟨env.now, le_refl _, settle_counted hprepared (hkept hok)⟩

/-- The order of a leg is kept. -/
def LegKept (w : World β) (now : Instant) (symbol : Symbol) (direction : Direction)
    (premium quantity : ℚ) (key : String) : Prop :=
  (w.stack.seedPremium symbol premium).EntryKept w.db now key symbol direction .market quantity
    none

theorem LegKept.submitLeg {w w' : World β} {now : Instant} {symbol : Symbol}
    {direction : Direction} {premium quantity opened : ℚ} {key reason : String}
    {order : OrderRecord} (hkept : w.LegKept now symbol direction premium quantity key)
    (h : w.Counted now)
    (hleg : w.submitLeg now symbol direction premium quantity key reason =
      .ok (order, opened, w')) : w'.Counted now := by
  -- Seeding the premium leaves the counters.
  have hseeded : (w.stack.seedPremium symbol premium).Counted w.db now :=
    Stack.Counted.congr h (Stack.sameCounters_seedQuote ..) rfl rfl
  unfold World.submitLeg at hleg
  dsimp only at hleg
  split at hleg
  · cases hleg
  · rename_i entered created s' hentered
    obtain ⟨hcounted, hrealized⟩ := hkept.enterOrder hseeded hentered
    -- Only an order that was created here and has a position is journaled.
    split at hleg
    · cases hleg
      exact hcounted
    · rename_i after hafter
      cases hleg
      apply Stack.Counted.journal
      · exact hcounted.congr (.refl _) (orders_persistPosition ..) (Db.trades_persistPosition ..)
      · exact fun _ => hrealized after hafter

/-- Each leg of a batch is kept, on the world the legs before it leave. -/
def LegsKept (now : Instant) (batchId : String) (reducing : Bool) :
    World β → List ResolvedLeg → Prop
  | _, [] => True
  | w, leg :: legs =>
    w.LegKept now leg.symbol leg.direction leg.premium (legQuantity w.stack reducing leg)
        (legKey w.stack.userId batchId leg.symbol) ∧
      ∀ order opened w', w.submitLeg now leg.symbol leg.direction leg.premium
          (legQuantity w.stack reducing leg) (legKey w.stack.userId batchId leg.symbol)
          s!"options strategy batch {batchId}" = .ok (order, opened, w') →
        LegsKept now batchId reducing w' legs

theorem submitLegs_counted {now : Instant} {batchId : String} {reducing : Bool}
    {legs : List ResolvedLeg} {w w' : World β} {results : List LegExecutionResult}
    {opened : List OpenedLeg} (hkept : LegsKept now batchId reducing w legs) (h : w.Counted now)
    (hlegs : submitLegs now batchId reducing w legs = .ok (results, opened, w')) :
    w'.Counted now := by
  induction legs generalizing w results opened with
  | nil =>
    cases hlegs
    exact h
  | cons leg legs ih =>
    obtain ⟨hleg, hrest⟩ := hkept
    obtain ⟨⟨order, quantity, w₁⟩, hsubmit, hlegs⟩ := bind_ok hlegs
    obtain ⟨⟨results', opened', w₂⟩, htail, hlegs⟩ := bind_ok hlegs
    cases hlegs
    exact ih (hrest _ _ _ hsubmit) (hleg.submitLeg h hsubmit) htail

/-- Each order that unwinds a leg is kept, on the world the orders before it leave. -/
def UnwindsKept (now : Instant) (batchId : String) : World β → List OpenedLeg → Prop
  | _, [] => True
  | w, leg :: legs =>
    let closable := min leg.quantity |w.stack.holding leg.symbol|
    if closable ≤ 0 then UnwindsKept now batchId w legs
    else
      w.LegKept now leg.symbol leg.direction.opposite leg.premium closable
          (unwindKey w.stack.userId batchId leg.symbol) ∧
        ∀ order opened w', w.submitLeg now leg.symbol leg.direction.opposite leg.premium closable
            (unwindKey w.stack.userId batchId leg.symbol)
            s!"unwinding partially executed options batch {batchId}" = .ok (order, opened, w') →
          UnwindsKept now batchId w' legs

theorem unwindLegs_counted {now : Instant} {batchId : String} {legs : List OpenedLeg}
    {w w' : World β} {lines : List String} (hkept : UnwindsKept now batchId w legs)
    (h : w.Counted now) (hlegs : unwindLegs now batchId w legs = .ok (lines, w')) :
    w'.Counted now := by
  induction legs generalizing w lines with
  | nil =>
    cases hlegs
    exact h
  | cons leg legs ih =>
    unfold UnwindsKept at hkept
    unfold unwindLegs at hlegs
    dsimp only at hkept hlegs
    split at hlegs
    · rename_i hnothing
      -- Nothing of the leg is left, and no order goes out.
      rw [if_pos hnothing] at hkept
      obtain ⟨⟨lines', w₁⟩, htail, hlegs⟩ := bind_ok hlegs
      cases hlegs
      exact ih hkept h htail
    · rename_i hsome
      rw [if_neg hsome] at hkept
      obtain ⟨hleg, hrest⟩ := hkept
      obtain ⟨⟨order, quantity, w₁⟩, hsubmit, hlegs⟩ := bind_ok hlegs
      obtain ⟨⟨lines', w₂⟩, htail, hlegs⟩ := bind_ok hlegs
      cases hlegs
      exact ih (hrest _ _ _ hsubmit) (hleg.submitLeg h hsubmit) htail

/-- A batch of which some legs are established and none is unknown is unwound, unless all
are established. -/
def UnwindsBatch (results : List LegExecutionResult) : Prop :=
  let established := results.filter fun result => result.status.isEstablished
  let unknown := results.filter fun result => decide (result.status = .failed)
  unknown = [] ∧ established ≠ [] ∧ established.length ≠ results.length

theorem remediatePartialBatch_counted {w w' : World β} {now : Instant}
    {batchId strategyName : String} {results : List LegExecutionResult}
    {opened : List OpenedLeg} {intact : Bool} {lines : List String} {halted : Option String}
    (hkept : UnwindsBatch results → UnwindsKept now batchId w opened) (h : w.Counted now)
    (hok : w.remediatePartialBatch now batchId strategyName results opened =
      .ok (intact, lines, halted, w')) : w'.Counted now := by
  unfold remediatePartialBatch at hok
  dsimp only at hok
  split at hok
  · cases hok
    exact h
  · rename_i hpartial
    split at hok
    · cases hok
      exact h
    · rename_i hreached
      split at hok
      · -- A leg's fate is unknown: nothing is sent.
        obtain ⟨⟨lines', w₁⟩, hlines, hok⟩ := bind_ok hok
        cases hlines
        cases hok
        exact h
      · rename_i hknown
        rw [not_not] at hknown
        obtain ⟨⟨unwound, w₁⟩, hunwind, hok⟩ := bind_ok hok
        have hcounted := unwindLegs_counted (hkept ⟨hknown, fun hnone => hreached ⟨hnone, hknown⟩,
          fun hall => hpartial ⟨hknown, hall⟩⟩) h hunwind
        dsimp only at hok
        split at hok
        · obtain ⟨⟨lines', w₂⟩, hlines, hok⟩ := bind_ok hok
          cases hlines
          cases hok
          exact hcounted
        · obtain ⟨⟨lines', w₂⟩, hlines, hok⟩ := bind_ok hok
          cases hlines
          cases hok
          exact hcounted

/-- `POST /options/execute`: the orders of an approved batch are kept, those that unwind it
included. -/
def BatchKept (w : World β) (env : OptionsEnv) (r : ExecuteOptionsStrategyRequest) : Prop :=
  ∀ approved, (w.stack.optionsGate env r).1 = .ok approved →
    let s := w.stack.rollRiskWindow env.now
    let batchId := batchIdOf s.userId r
    LegsKept env.now batchId (s.reduces approved.legs) { w with stack := s } approved.legs ∧
      ∀ results opened w', submitLegs env.now batchId (s.reduces approved.legs)
          { w with stack := s } approved.legs = .ok (results, opened, w') →
        UnwindsBatch results → UnwindsKept env.now batchId w' opened

theorem executeOptionsStrategy_counted {w : World β} {t : Instant} (h : w.Counted t)
    {env : OptionsEnv} (hle : t ≤ env.now) {r : ExecuteOptionsStrategyRequest}
    (hkept : w.BatchKept env r) :
    ∃ t', t' ≤ env.now ∧ (w.executeOptionsStrategy env r).world.Counted t' := by
  have hrolled := Stack.Counted.roll h hle
  unfold executeOptionsStrategy
  rcases w.stack.optionsGate_cases env r with
    ⟨refusal, s', decision, hgate, hs', -⟩ | ⟨approved, decision, hgate, -⟩
  · rw [hgate]
    rcases hs' with rfl | rfl
    · exact ⟨t, hle, h⟩
    · exact ⟨env.now, le_refl _, hrolled⟩
  · obtain ⟨hlegs, hunwinds⟩ := hkept approved (by rw [hgate])
    rw [hgate]
    -- From here on the windows are those of the call.
    refine ⟨env.now, le_refl _, ?_⟩
    dsimp only
    split
    · exact hrolled
    · rename_i response halted w' hexecuted
      obtain ⟨⟨results, opened, w₁⟩, hsubmit, hexecuted⟩ := bind_ok hexecuted
      obtain ⟨⟨intact, lines, halted', w₂⟩, hremedy, hexecuted⟩ := bind_ok hexecuted
      cases hexecuted
      exact remediatePartialBatch_counted (hunwinds results opened w₁ hsubmit)
        (submitLegs_counted hlegs hrolled hsubmit) hremedy

end World

/-! ## Layer D: Runs -/

/-- A completed handler some time after the last one, or a stack built anew. -/
inductive CounterEvent
  | order (elapsed : ℕ) (env : CallEnv) (request : PlaceOrderRequest)
  | options (elapsed : ℕ) (env : OptionsEnv) (request : ExecuteOptionsStrategyRequest)
  | rebuild (elapsed : ℕ)

/-- A world and the time. -/
structure TimedWorld (β : Type) where
  world : World β
  now : Instant

def counterStep (w : TimedWorld β) : CounterEvent → TimedWorld β
  | .order elapsed env r =>
    let now := w.now + elapsed
    ⟨(w.world.placeOrder { env with now := now } r).world, now⟩
  | .options elapsed env r =>
    let now := w.now + elapsed
    ⟨(w.world.executeOptionsStrategy { env with now := now } r).world, now⟩
  | .rebuild elapsed => ⟨w.world.rebuild (w.now + elapsed), w.now + elapsed⟩

/-- Whenever the stack is built anew, it has the counters that the process would then have
after rolling its windows. -/
def CountersSurvive (w : TimedWorld β) : Prop :=
  ∀ elapsed,
    let rebuilt := (w.world.rebuild (w.now + elapsed)).stack
    let rolled := w.world.stack.rollRiskWindow (w.now + elapsed)
    rebuilt.tradesToday = rolled.tradesToday ∧ rebuilt.dailyPnl = rolled.dailyPnl ∧
      rebuilt.weeklyPnl = rolled.weeklyPnl

/-- The orders of the handler are kept. -/
def CountersKept (w : TimedWorld β) : CounterEvent → Prop
  | .order elapsed env r => w.world.OrderKept { env with now := w.now + elapsed } r
  | .options elapsed env r => w.world.BatchKept { env with now := w.now + elapsed } r
  | .rebuild _ => True

/-- True counters survive a rebuild. -/
theorem World.Counted.survive {w : TimedWorld β} {t : Instant} (h : w.world.Counted t)
    (hle : t ≤ w.now) : CountersSurvive w := by
  intro elapsed
  have hrolled := Stack.Counted.roll h (hle.trans (Nat.le_add_right w.now elapsed))
  exact ⟨hrolled.trades.symm, hrolled.daily.symm, hrolled.weekly.symm⟩

/-- **The counters survive.** In every run of the two handlers and of rebuilds, from a stack
built of rows that are not from the future, whose steps use no key anew that has a row
memory does not know, and realize only what the column keeps, the rebuilt counters are
those of the process, in every state and at every time from then on. -/
theorem counters_survive (userId : AccountId) (broker : β) {db : Db} {now : Instant}
    (hpast : db.Until now) {es : List CounterEvent}
    (hkept : Each counterStep CountersKept ⟨⟨Stack.build userId broker db now, db⟩, now⟩ es) :
    Throughout counterStep CountersSurvive ⟨⟨Stack.build userId broker db now, db⟩, now⟩ es := by
  have hstart : (⟨Stack.build userId broker db now, db⟩ : World β).Counted now :=
    Stack.Counted.build userId broker hpast
  refine Throughout.mono (fun w ⟨t, hle, h⟩ => h.survive hle) (throughout_of_each
    (I := fun w : TimedWorld β => ∃ t, t ≤ w.now ∧ w.world.Counted t) ?_
    ⟨now, le_refl now, hstart⟩ hkept)
  rintro w event ⟨t, hle, h⟩ hkept
  cases event with
  | order elapsed env r =>
    exact World.placeOrder_counted h (hle.trans (Nat.le_add_right w.now elapsed)) hkept
  | options elapsed env r =>
    exact World.executeOptionsStrategy_counted h (hle.trans (Nat.le_add_right w.now elapsed)) hkept
  | rebuild elapsed =>
    have hlater := hle.trans (Nat.le_add_right w.now elapsed)
    exact ⟨w.now + elapsed, le_refl _, Stack.Counted.build _ _ (h.past.mono hlater)⟩

/-- A stack at a venue that fills in full, without a row. -/
def freshCounters : TimedWorld ScriptedVenue := ⟨⟨Stack.build "user" {} {} 0, {}⟩, 0⟩

/-- The same request each time: buy at 100, with a stop at 95. -/
def sameRequest : CounterEvent :=
  .order 0 { now := 0, priceAgeSeconds := some 0 } (.market "ACME" .long 100 95)

/-- The request is sent again two days later, to a stack built in between: the process has
placed one order that day, and a rebuild counts none. -/
theorem resent_key_not_counted :
    ¬ CountersSurvive (run counterStep freshCounters
      [sameRequest, .rebuild (Instant.hours 48), sameRequest]) := by
  intro hsurvive
  have hcounted := (hsurvive 0).1
  revert hcounted
  decide +kernel

theorem counters_survive_one_order :
    Throughout counterStep CountersSurvive freshCounters
      [sameRequest, .rebuild (Instant.hours 48)] := by
  have hpast : Db.Until {} 0 := ⟨by simp, by simp⟩
  have hkept : Each counterStep CountersKept freshCounters
      [sameRequest, .rebuild (Instant.hours 48)] :=
    ⟨fun _ _ => ⟨by decide +kernel, by decide +kernel⟩, trivial, trivial⟩
  exact counters_survive "user" ({} : ScriptedVenue) hpast hkept

end SuperTrading
