import SuperTrading.Api.MockTrading
import SuperTrading.Logic.Runs

/-!
# The Two Books of an Account

The mock broker keeps positions and cash of its own, next to the position book of
the stack and the trade journal. The books part where a stop fires without the
stack being told: at the placement itself, when the request's own entry is already
past the stop. They part too where a stack is built over positions that the new
broker does not hold.

- **Layer A**: which stops a request's entry leaves resting
- **Layer B**: one call, and one rebuild
- **Layer C**: runs
-/

namespace SuperTrading

open SuperTrading.Logic

/-! ## Layer A: Stops that do not fire -/

/-- A price at which a stop that guards a position on this side does not fire. -/
def Direction.clears (d : Direction) (stop ltp : ℚ) : Prop :=
  match d with
  | long => stop < ltp
  | short => ltp < stop

theorem crossed_stopRequest_iff {p : PositionRecord} {stop : ℚ} (h : p.stop = some stop)
    (uuid : ℕ) (ltp : ℚ) :
    MockBroker.crossed (stopRequest p uuid) ltp = false ↔ p.side.clears stop ltp := by
  have htrigger : (stopRequest p uuid).triggerPrice = some stop := h
  unfold MockBroker.crossed
  rw [htrigger, stopRequest_direction]
  cases p.side with
  | long => simp [Direction.opposite, Direction.clears]
  | short => simp [Direction.opposite, Direction.clears]

namespace Stack

/-- The quantity that the budget allows the request. -/
def sizedQuantity (s : Stack MockBroker) (r : PlaceOrderRequest) : ℚ :=
  calculatePositionSize (Broker.getAccount s.broker).balance s.limits.riskPerTradePct r.fillPrice
    r.stop s.limits.maxPositionSize

/-- The request's entry leaves the stop resting that the position is to carry. An
order that opens or adds brings its own stop; one that exits in part leaves the
position its old one; one that closes leaves nothing to guard. -/
def StopClear (s : Stack MockBroker) (r : PlaceOrderRequest) : Prop :=
  if s.opposes r.symbol r.direction then
    ∀ p stop, s.position r.symbol = some p → p.stop = some stop →
      0 < s.sizedQuantity r → s.sizedQuantity r < |p.quantity| →
        r.direction.opposite.clears stop r.entry
  else r.direction.clears r.stop r.entry

theorem opposes_iff (s : Stack MockBroker) (symbol : Symbol) (d : Direction) :
    s.opposes symbol d = true ↔
      ∃ p, s.position symbol = some p ∧ p.isOpen = true ∧ p.side = d.opposite := by
  unfold opposes
  cases s.position symbol with
  | none => simp
  | some p => cases d <;> cases hlong : p.isLong <;>
      simp [PositionRecord.side, hlong, Direction.opposite]

/-- An order that opposes a position closes it, or leaves part of it. -/
theorem orderQuantity_of_opposes {s : Stack MockBroker} {r : PlaceOrderRequest}
    {p : PositionRecord} (hp : s.position r.symbol = some p) (hopen : p.isOpen = true)
    (h : s.opposes r.symbol r.direction = true) :
    s.orderQuantity r = if 0 < s.sizedQuantity r ∧ s.sizedQuantity r < |p.quantity| then
      s.sizedQuantity r else |p.quantity| := by
  have hpos : 0 < |p.quantity| := abs_pos.mpr (of_decide_eq_true hopen)
  have hclamp : s.orderQuantity r = if min (s.sizedQuantity r) |p.quantity| ≤ 0 then |p.quantity|
      else min (s.sizedQuantity r) |p.quantity| := by
    unfold orderQuantity
    dsimp only
    rw [if_pos h, holding_of_position hp]
    rfl
  rw [hclamp]
  rcases lt_or_ge (s.sizedQuantity r) |p.quantity| with hlt | hge
  · rw [min_eq_left hlt.le]
    split_ifs <;> grind
  · have hnot : ¬ (0 < s.sizedQuantity r ∧ s.sizedQuantity r < |p.quantity|) := fun hpart =>
      absurd hpart.2 (not_lt.mpr hge)
    rw [min_eq_right hge, if_neg (not_le.mpr hpos), if_neg hnot]

/-- What an order does not oppose is on its side, or flat. -/
theorem signed_holding_nonneg {s : Stack MockBroker} {symbol : Symbol} {d : Direction}
    (h : s.opposes symbol d = false) : 0 ≤ d.signed (s.holding symbol) := by
  cases hp : s.position symbol with
  | none =>
    have hflat : s.holding symbol = 0 := by
      show (s.position symbol).elim 0 _ = _
      rw [hp]
      rfl
    rw [hflat]
    cases d <;> simp
  | some p =>
    rw [holding_of_position hp]
    by_contra hneg
    have hopposite : 0 < d.opposite.signed p.quantity := by
      rw [Direction.signed_opposite]
      exact neg_pos.mpr (not_le.mp hneg)
    obtain ⟨hopen, hside⟩ := PositionRecord.side_of_signed hopposite
    rw [(s.opposes_iff symbol d).mpr ⟨p, hp, hopen, hside⟩] at h
    cases h

/-- The side of a position is that of its quantity. -/
theorem side_filledPosition {s : Stack MockBroker} {r : PlaceOrderRequest} {d : Direction}
    (h : 0 < d.signed (s.holding r.symbol + r.direction.signed (s.orderQuantity r))) :
    (s.filledPosition r).isOpen = true ∧ (s.filledPosition r).side = d := by
  obtain ⟨-, -, hquantity, -⟩ := s.filledPosition_fields r
  rw [← hquantity] at h
  exact PositionRecord.side_of_signed h

/-- The record that the fill leaves, before it is given a stop, is on that side too. -/
theorem side_fillRecord {s : Stack MockBroker} {r : PlaceOrderRequest} {d : Direction}
    (h : 0 < d.signed (s.holding r.symbol + r.direction.signed (s.orderQuantity r))) :
    let after := PositionManager.fillRecord (s.positionManager.record s.userId r.symbol)
      r.direction (s.orderQuantity r) r.fillPrice
    after.isOpen = true ∧ after.side = d := by
  obtain ⟨-, -, hquantity, -⟩ := s.filledPosition_fields r
  obtain ⟨-, -, hsame, -⟩ := withStop_fields (PositionManager.fillRecord
    (s.positionManager.record s.userId r.symbol) r.direction (s.orderQuantity r) r.fillPrice) r
  rw [← hquantity] at h
  exact PositionRecord.side_of_signed (hsame ▸ h)

/-- An order that opens or adds leaves an open position on its side, with its stop. -/
theorem filledPosition_opens {s : Stack MockBroker} {r : PlaceOrderRequest}
    (h : s.opposes r.symbol r.direction = false) (hqty : 0 < s.orderQuantity r) :
    (s.filledPosition r).isOpen = true ∧ (s.filledPosition r).side = r.direction ∧
      (s.filledPosition r).stop = some r.stop := by
  have hpos : 0 < r.direction.signed
      (s.holding r.symbol + r.direction.signed (s.orderQuantity r)) := by
    rw [Direction.signed_add, Direction.signed_signed]
    exact add_pos_of_nonneg_of_pos (signed_holding_nonneg h) hqty
  obtain ⟨hopen, hside⟩ := side_filledPosition hpos
  obtain ⟨hopen', hside'⟩ := side_fillRecord hpos
  exact ⟨hopen, hside, withStop_of_side hopen' hside'⟩

section Opposing

variable {s : Stack MockBroker} {r : PlaceOrderRequest} {p : PositionRecord}
  (hp : s.position r.symbol = some p) (hopen : p.isOpen = true)
  (hside : p.side = r.direction.opposite)
include hp hopen hside

/-- An order for all that is open closes the position. -/
theorem filledPosition_closes (hall : s.orderQuantity r = |p.quantity|) :
    (s.filledPosition r).isOpen = false := by
  obtain ⟨-, -, hquantity, -⟩ := s.filledPosition_fields r
  have habs : r.direction.opposite.signed p.quantity = |p.quantity| :=
    Direction.signed_eq_abs (hside ▸ PositionRecord.signed_side_pos hopen)
  have hzero : (s.filledPosition r).quantity = 0 := by
    rw [hquantity, holding_of_position hp, hall, ← habs, Direction.signed_opposite]
    cases r.direction <;> simp
  simp [PositionRecord.isOpen, hzero]

/-- A smaller one leaves the position open on its side, with the stop it had. -/
theorem filledPosition_reduces (hpart : s.orderQuantity r < |p.quantity|) :
    (s.filledPosition r).isOpen = true ∧ (s.filledPosition r).side = r.direction.opposite ∧
      (s.filledPosition r).stop = p.stop := by
  have habs : r.direction.opposite.signed p.quantity = |p.quantity| :=
    Direction.signed_eq_abs (hside ▸ PositionRecord.signed_side_pos hopen)
  have hpos : 0 < r.direction.opposite.signed
      (s.holding r.symbol + r.direction.signed (s.orderQuantity r)) := by
    rw [holding_of_position hp, Direction.signed_add, habs, Direction.signed_opposite,
      Direction.signed_signed]
    linarith
  obtain ⟨hopen', hside'⟩ := side_fillRecord hpos
  obtain ⟨hopen'', hside''⟩ := side_filledPosition hpos
  have hrecord : s.positionManager.record s.userId r.symbol = p := by
    unfold PositionManager.record
    rw [show s.positionManager.get s.userId r.symbol = some p from hp]
    rfl
  refine ⟨hopen'', hside'', (withStop_of_other_side hside').trans ?_⟩
  rw [PositionManager.fillRecord_stop, hrecord]

end Opposing

/-- **The stops that rest.** The stop that a new request leaves at the broker rests
exactly if the request's entry is clear of it. -/
theorem stopClear_iff {s : Stack MockBroker} {r : PlaceOrderRequest} (hqty : 0 < s.orderQuantity r)
    (uuid : ℕ) :
    s.StopClear r ↔ ((s.filledPosition r).wantsStop = true →
      MockBroker.crossed (stopRequest (s.filledPosition r) uuid) r.entry = false) := by
  unfold StopClear
  cases hopposes : s.opposes r.symbol r.direction with
  -- An entry: the new position has the request's side and stop.
  | false =>
    obtain ⟨hopen, hside, hstop⟩ := filledPosition_opens hopposes hqty
    have hwants : (s.filledPosition r).wantsStop = true := by
      simp [PositionRecord.wantsStop, hopen, hstop]
    rw [crossed_stopRequest_iff hstop, hside]
    simp [hwants]
  -- An exit takes the lesser of its own size and what is held.
  | true =>
    obtain ⟨p, hp, hopen, hside⟩ := (s.opposes_iff _ _).mp hopposes
    have hclamp := orderQuantity_of_opposes hp hopen hopposes
    rw [if_pos rfl]
    -- It leaves a part: side and stop are those of before.
    by_cases hpart : 0 < s.sizedQuantity r ∧ s.sizedQuantity r < |p.quantity|
    · rw [if_pos hpart] at hclamp
      obtain ⟨hopen', hside', hstop'⟩ :=
        filledPosition_reduces hp hopen hside (hclamp ▸ hpart.2)
      cases hstop : p.stop with
      | none =>
        -- A position without a stop is left without one.
        have hwants : (s.filledPosition r).wantsStop = false := by
          simp [PositionRecord.wantsStop, hstop', hstop]
        refine iff_of_true ?_ (by simp [hwants])
        intro p' stop hp' hcarried _ _
        cases hp.symm.trans hp'
        cases hstop.symm.trans hcarried
      | some stop =>
        have hwants : (s.filledPosition r).wantsStop = true := by
          simp [PositionRecord.wantsStop, hopen', hstop', hstop]
        rw [crossed_stopRequest_iff (hstop'.trans hstop), hside']
        constructor
        · intro hclear _
          exact hclear p stop hp hstop hpart.1 hpart.2
        · intro hclear p' stop' hp' hcarried _ _
          cases hp.symm.trans hp'
          cases hstop.symm.trans hcarried
          exact hclear hwants
    · -- It closes: what is closed wants no stop.
      rw [if_neg hpart] at hclamp
      have hclosed := filledPosition_closes hp hopen hside hclamp
      have hwants : (s.filledPosition r).wantsStop = false := by
        simp [PositionRecord.wantsStop, hclosed]
      refine iff_of_true ?_ (by simp [hwants])
      intro p' stop hp' _ hpos hlt
      cases hp.symm.trans hp'
      exact absurd ⟨hpos, hlt⟩ hpart

end Stack

/-! ## Layer B: One call, and one rebuild -/

/-- The broker's signed position in a symbol. -/
def MockBroker.quantity (b : MockBroker) (symbol : Symbol) : ℚ :=
  (b.positions.get? symbol).elim 0 BrokerPosition.quantity

theorem MockBroker.lot_qty (b : MockBroker) (symbol : Symbol) :
    (b.lot symbol).qty = b.quantity symbol := by
  unfold lot quantity
  cases b.positions.get? symbol <;> rfl

namespace Stack

/-- What the stack holds of a symbol, with its average price. -/
def lot (s : Stack MockBroker) (symbol : Symbol) : Lot ℚ := s.positionManager.lot s.userId symbol

theorem lot_qty (s : Stack MockBroker) (symbol : Symbol) : (s.lot symbol).qty = s.holding symbol :=
  PositionManager.lot_qty ..

/-- Symbol by symbol, the broker's signed position is the stack's. -/
def InSync (s : Stack MockBroker) : Prop :=
  ∀ symbol, s.broker.quantity symbol = s.holding symbol

/-- Average prices included. -/
def SameLots (s : Stack MockBroker) : Prop := ∀ symbol, s.broker.lot symbol = s.lot symbol

variable {s s' : Stack MockBroker} {env : CallEnv} {r : PlaceOrderRequest}

theorem Untouched.lot (h : s.Untouched s') (symbol : Symbol) : s'.lot symbol = s.lot symbol := by
  unfold Stack.lot
  rw [h.user, h.positions]

theorem lot_eq (s : Stack MockBroker) (symbol : Symbol) :
    s.lot symbol =
      (s.position symbol).elim Lot.empty fun p => Lot.ofPair p.quantity p.averagePrice := by
  unfold Stack.lot PositionManager.lot PositionManager.record Stack.position
  cases s.positionManager.get s.userId symbol with
  | none => exact Lot.ofPair_zero 0
  | some p => rfl

theorem StopMoved.lot (h : s.StopMoved r s') (symbol : Symbol) : s'.lot symbol = s.lot symbol := by
  rw [lot_eq, lot_eq, h.position]
  split
  · cases s.position symbol with
    | none => rfl
    | some p =>
      obtain ⟨-, -, hquantity, haverage, -⟩ := withStop_fields p r
      simp [hquantity, haverage]
  · rfl

theorem InSync.untouched (hsync : s.InSync) (h : s.Untouched s') : s'.InSync := by
  intro symbol
  rw [← lot_qty, h.lot, lot_qty, ← MockBroker.lot_qty, h.account.lots, MockBroker.lot_qty]
  exact hsync symbol

theorem InSync.stopMoved (hsync : s.InSync) (h : s.StopMoved r s') : s'.InSync := by
  intro symbol
  rw [← lot_qty, h.lot, lot_qty, h.broker]
  exact hsync symbol

theorem SameLots.untouched (hlots : s.SameLots) (h : s.Untouched s') : s'.SameLots := by
  intro symbol
  rw [h.lot, h.account.lots]
  exact hlots symbol

theorem SameLots.stopMoved (hlots : s.SameLots) (h : s.StopMoved r s') : s'.SameLots := by
  intro symbol
  rw [h.lot, h.broker]
  exact hlots symbol

/-- The stack's book takes the fill of a new request, and nothing else. -/
theorem FilledAndGuarded.lot (hqty : 0 < s.orderQuantity r) (h : s.FilledAndGuarded env r s')
    (symbol : Symbol) :
    s'.lot symbol = if r.symbol = symbol then
      (s.lot r.symbol).fill (r.direction.signed (s.orderQuantity r)) r.fillPrice
      else s.lot symbol := by
  obtain ⟨b, -, -, -, hpositions⟩ := h.guarded
  rw [lot_eq, FilledAndGuarded.position h.user hpositions symbol]
  by_cases hs : r.symbol = symbol
  · -- Guarding the position changed neither its quantity nor its price.
    obtain ⟨-, -, hquantity, haverage, -⟩ := withStop_fields (PositionManager.fillRecord
      (s.positionManager.record s.userId r.symbol) r.direction (s.orderQuantity r) r.fillPrice) r
    have hfill := (PositionManager.fillRecord_spec (s.positionManager.record s.userId r.symbol)
      r.direction hqty r.fillPrice).1
    rw [if_pos hs, if_pos hs]
    exact (Lot.ofPair_eq_ofPair hquantity fun _ => haverage).trans hfill
  · rw [if_neg hs, if_neg hs, lot_eq]

/-- The broker's book takes the same fill, if the new stop rests; if it fires, the
broker closes at once what the stack goes on holding. -/
theorem FilledAndGuarded.broker_lot (hbook : s.Book) (hqty : 0 < s.orderQuantity r)
    (h : s.FilledAndGuarded env r s') :
    (s.StopClear r → s.broker.TakesFill s'.broker r.symbol
      (r.direction.signed (s.orderQuantity r)) r.fillPrice) ∧
    (¬ s.StopClear r → s'.holding r.symbol ≠ 0 ∧ ∃ b, s.broker.TakesFill b r.symbol
        (r.direction.signed (s.orderQuantity r)) r.fillPrice ∧
      b.TakesFill s'.broker r.symbol (-s'.holding r.symbol) r.entry) := by
  obtain ⟨b, uuid, hwithdrawn, hbroker, hpositions⟩ := h.guarded
  have hrequest : 0 < (s.requestOrder env r).request.quantity := hqty
  have htakes : s.broker.TakesFill b r.symbol (r.direction.signed (s.orderQuantity r))
      r.fillPrice :=
    (hbook.wellFormed.filled hrequest r.fillPrice).2.sameAccount hwithdrawn.account
  obtain ⟨-, hsymbol, -, -⟩ := s.filledPosition_fields r
  have hposition := FilledAndGuarded.position h.user hpositions r.symbol
  rw [if_pos rfl] at hposition
  have hholding : s'.holding r.symbol = (s.filledPosition r).quantity := by
    rw [holding_of_position hposition]
    rfl
  rw [stopClear_iff hqty uuid]
  constructor
  · intro hquiet
    rw [hbroker]
    exact htakes.sameAccount (MockBroker.sameAccount_guardedFor _ uuid r.entry hquiet)
  · -- The quote at hand crosses the stop, which takes the position off again.
    intro hfires
    obtain ⟨hwants, hcross⟩ : (s.filledPosition r).wantsStop = true ∧
        MockBroker.crossed (stopRequest (s.filledPosition r) uuid) r.entry = true := by
      simpa using hfires
    have hopen : (s.filledPosition r).isOpen = true := (Bool.and_eq_true_iff.mp hwants).1
    have hfired := MockBroker.takesFill_guardedFor hwithdrawn.wellFormed (s.filledPosition r) uuid
      r.entry hwants hcross
    rw [← hbroker, hsymbol, ← hholding] at hfired
    refine ⟨?_, b, htakes, hfired⟩
    rw [hholding]
    exact of_decide_eq_true hopen

/-- Two books in step stay in step over a new request exactly if its stop rests. -/
theorem FilledAndGuarded.inSync_iff (hbook : s.Book) (hqty : 0 < s.orderQuantity r)
    (h : s.FilledAndGuarded env r s') (hsync : s.InSync) : s'.InSync ↔ s.StopClear r := by
  obtain ⟨hrests, hfires⟩ := h.broker_lot hbook hqty
  have hholding : ∀ symbol, s'.holding symbol = if r.symbol = symbol then
      s.holding r.symbol + r.direction.signed (s.orderQuantity r) else s.holding symbol := by
    intro symbol
    rw [← lot_qty, h.lot hqty]
    split
    · rw [Lot.fill_qty, lot_qty]
    · rw [lot_qty]
  constructor
  · intro hsync'
    by_contra hclear
    obtain ⟨hopen, b, htakes, hfired⟩ := hfires hclear
    -- The broker is flat where the stack is not.
    have hflat : s'.broker.quantity r.symbol = 0 := by
      rw [← MockBroker.lot_qty, hfired.lots, if_pos rfl, Lot.fill_qty, htakes.lots, if_pos rfl,
        Lot.fill_qty, MockBroker.lot_qty, hsync, hholding, if_pos rfl]
      ring
    exact hopen ((hsync' r.symbol).symm.trans hflat)
  · intro hclear symbol
    rw [hholding, ← MockBroker.lot_qty, (hrests hclear).lots]
    split
    · rw [Lot.fill_qty, MockBroker.lot_qty, hsync]
    · rw [MockBroker.lot_qty, hsync]

/-- With the average prices in step as well, so is the cash. -/
theorem FilledAndGuarded.sameLots (hbook : s.Book) (hqty : 0 < s.orderQuantity r)
    (h : s.FilledAndGuarded env r s') (hlots : s.SameLots) (hclear : s.StopClear r) :
    s'.SameLots ∧ s'.broker.balance = s.broker.balance + s.realizes r ∧
      s'.broker.startingBalance = s.broker.startingBalance := by
  have htakes := (h.broker_lot hbook hqty).1 hclear
  refine ⟨fun symbol => ?_, ?_, htakes.startingBalance⟩
  · rw [htakes.lots, h.lot hqty, hlots, hlots]
  · rw [htakes.balance, hlots]
    rfl

end Stack

/-- What the rows of the account restore of a symbol: `load_open_positions`, then
`restore`. -/
def Db.restoredQuantity (db : Db) (userId : AccountId) (symbol : Symbol) : ℚ :=
  (PositionManager.restore {} (db.loadOpenPositions userId .paper manualSourceKey)).quantity userId
    symbol

namespace World

/-- A call that enters an order leaves its stop resting. -/
def CallClear (w : World MockBroker) (call : OrderCall) : Prop :=
  w.stack.Enters call.1 call.2 → w.stack.StopClear call.2

variable {w : World MockBroker}

/-- Two books in step stay in step over a call exactly if its stop rests. -/
theorem inSync_orderStep_iff (h : w.stack.Book) (hsync : w.stack.InSync) (call : OrderCall) :
    (w.orderStep call).stack.InSync ↔ w.CallClear call := by
  have hprepared := w.stack.untouched_prepared call.1 call.2
  unfold orderStep CallClear
  cases placeOrder_effect h call.1 call.2 with
  | refused hrefused hsame _ =>
    exact iff_of_true (hsync.untouched hsame) fun henters => absurd henters.1 hrefused
  | known _ hknown hmoved _ =>
    exact iff_of_true ((hsync.untouched hprepared).stopMoved hmoved)
      fun henters => absurd henters.2 hknown
  | entered henters hqty hfilled _ =>
    rw [hfilled.inSync_iff (h.untouched hprepared) hqty (hsync.untouched hprepared)]
    exact ⟨fun hclear _ => hclear, fun hclear => hclear henters⟩

/-- Two books in step, prices and cash included, stay in step over a call whose stop
rests and whose realized P&L the journal keeps exactly. -/
theorem sameLots_orderStep (h : w.stack.Book) (hlots : w.stack.SameLots) {call : OrderCall}
    (hclear : w.CallClear call)
    (hstored : w.stack.Enters call.1 call.2 → Representable (w.stack.realizes call.2)) :
    let w' := w.orderStep call
    w'.stack.SameLots ∧
      w'.stack.broker.startingBalance = w.stack.broker.startingBalance ∧
      w'.stack.broker.balance - w'.db.loadRealizedPnlSince .paper 0 =
        w.stack.broker.balance - w.db.loadRealizedPnlSince .paper 0 := by
  have hprepared := w.stack.untouched_prepared call.1 call.2
  unfold orderStep
  cases placeOrder_effect h call.1 call.2 with
  | refused _ hsame hdb =>
    refine ⟨hlots.untouched hsame, hsame.account.startingBalance, ?_⟩
    rw [hsame.account.balance, hdb]
  | known _ _ hmoved htrades =>
    refine ⟨(hlots.untouched hprepared).stopMoved hmoved, ?_, ?_⟩
    · rw [hmoved.broker]
      exact hprepared.account.startingBalance
    · rw [hmoved.broker, hprepared.account.balance, Db.loadRealizedPnlSince_congr htrades]
  | entered henters hqty hfilled hjournal =>
    obtain ⟨hlots', hbalance, hstarting⟩ := hfilled.sameLots (h.untouched hprepared) hqty
      (hlots.untouched hprepared) (hclear henters)
    -- What the journal stores is the exact amount, by what the run stores.
    have hexact : numeric (w.stack.realizes call.2) = w.stack.realizes call.2 := hstored henters
    have hrealizes : (w.stack.prepared call.1 call.2).realizes call.2 =
        w.stack.realizes call.2 := rfl
    refine ⟨hlots', hstarting.trans hprepared.account.startingBalance, ?_⟩
    rw [hbalance, hjournal, hexact, hprepared.account.balance, hrealizes]
    ring

/-- The broker of a stack just built holds nothing, and its cash is that of the
journal. -/
theorem fresh_account (userId : AccountId) (db : Db) (nextId : ℕ) (now : Instant) :
    let w := fresh userId db nextId now
    (w.stack.InSync ↔ ∀ symbol, db.restoredQuantity userId symbol = 0) ∧
      (w.stack.InSync → w.stack.SameLots) ∧
      w.stack.broker.balance =
        w.stack.broker.startingBalance + w.db.loadRealizedPnlSince .paper 0 := by
  intro w
  have hnone : ∀ symbol, w.stack.broker.quantity symbol = 0 := fun symbol => rfl
  have hholding : ∀ symbol, w.stack.holding symbol = db.restoredQuantity userId symbol :=
    fun symbol => rfl
  refine ⟨⟨fun hsync symbol => ?_, fun hflat symbol => ?_⟩, fun hsync symbol => ?_, rfl⟩
  · rw [← hholding, ← hsync, hnone]
  · rw [hnone, hholding, hflat]
  · have hflat : (w.stack.lot symbol).qty = 0 := by rw [Stack.lot_qty, ← hsync, hnone]
    rw [Lot.eq_empty_of_qty hflat]
    rfl

/-! ## Layer C: Runs -/

/-- **When the two position books agree.** From a stack just built, the broker's
positions are the stack's after every call exactly if the rows restored no position,
and every call that enters an order leaves its stop resting. -/
theorem inSync_throughout_iff (userId : AccountId) (db : Db) (nextId : ℕ) (now : Instant)
    (calls : List OrderCall) :
    Throughout orderStep (fun w => w.stack.InSync) (fresh userId db nextId now) calls ↔
      (∀ symbol, db.restoredQuantity userId symbol = 0) ∧
        Each orderStep CallClear (fresh userId db nextId now) calls := by
  have hfresh := (fresh_account userId db nextId now).1
  have hbook : (fresh userId db nextId now).stack.Book := book_fresh userId db nextId now
  have hrun : (fresh userId db nextId now).stack.InSync →
      (Throughout orderStep (fun w => w.stack.InSync) (fresh userId db nextId now) calls ↔
        Each orderStep CallClear (fresh userId db nextId now) calls) := fun hsync =>
    throughout_iff_each (I := fun w : World MockBroker => w.stack.Book)
      (fun w call h _ _ => book_orderStep h call)
      (fun w call h hsync => inSync_orderStep_iff h hsync call) hbook hsync
  constructor
  · intro h
    have hsync := throughout_iff_states.mp h [] List.nil_prefix
    exact ⟨hfresh.mp hsync, (hrun hsync).mp h⟩
  · rintro ⟨hflat, heach⟩
    exact (hrun (hfresh.mpr hflat)).mpr heach

/-- A buy at 100 with a stop at 105, above its own entry. -/
def invertedCall : OrderCall := ({ now := 0 }, .market "ACME" .long 100 105)

/-- Its stop fires as it is placed: the broker is flat, the stack holds 100. -/
theorem inverted_stop_parts_books :
    let w := fresh "u" {} 0 0
    w.stack.Accepts invertedCall.1 invertedCall.2 ∧
      (w.orderStep invertedCall).stack.broker.quantity "ACME" = 0 ∧
      (w.orderStep invertedCall).stack.holding "ACME" = 100 ∧
      ¬ Throughout orderStep (fun w => w.stack.InSync) w [invertedCall] := by
  intro w
  have hbroker : (w.orderStep invertedCall).stack.broker.quantity "ACME" = 0 := by decide +kernel
  have hstack : (w.orderStep invertedCall).stack.holding "ACME" = 100 := by decide +kernel
  refine ⟨?_, hbroker, hstack, fun h => ?_⟩
  · unfold Stack.Accepts
    decide +kernel
  · have hsync := h.last "ACME"
    rw [run_cons, run_nil, hbroker, hstack] at hsync
    norm_num at hsync

/-- What happens to an account: a call, or a restart of the process. -/
inductive SessionEvent
  | order (call : OrderCall)
  | rebuild (now : Instant)

/-- The world after an event. -/
def sessionStep (w : World MockBroker) (event : SessionEvent) : World MockBroker :=
  match event with
  | .order call => w.orderStep call
  | .rebuild now => w.rebuild now

/-- The broker's positions are the stack's, and its cash is the starting balance with
everything the journal says was realized. -/
def Reconciled (w : World MockBroker) : Prop :=
  w.stack.InSync ∧ w.stack.broker.balance =
    w.stack.broker.startingBalance + w.db.loadRealizedPnlSince .paper 0

/-- The event leaves the stop of an entered order resting, or rebuilds a flat account. -/
def SessionClear (w : World MockBroker) (event : SessionEvent) : Prop :=
  match event with
  | .order call => w.CallClear call
  | .rebuild _ => ∀ symbol, w.db.restoredQuantity w.stack.userId symbol = 0

/-- What the event journals fits the column. -/
def StoredExactly (w : World MockBroker) (event : SessionEvent) : Prop :=
  match event with
  | .order call => w.stack.Enters call.1 call.2 → Representable (w.stack.realizes call.2)
  | .rebuild _ => True

/-- One event, on an account whose books agree to the price. -/
theorem sessionStep_spec (h : w.stack.Book) (hlots : w.stack.SameLots) (hlaw : w.Reconciled)
    {event : SessionEvent} (hstored : w.StoredExactly event) :
    (w.sessionStep event).stack.Book ∧
      ((w.sessionStep event).Reconciled ↔ w.SessionClear event) ∧
      (w.SessionClear event → (w.sessionStep event).stack.SameLots) := by
  cases event with
  | order call =>
    have hsync := inSync_orderStep_iff h hlaw.1 call
    refine ⟨book_orderStep h call, ⟨fun hlaw' => hsync.mp hlaw'.1, fun hclear => ?_⟩,
      fun hclear => (sameLots_orderStep h hlots hclear hstored).1⟩
    obtain ⟨-, hstarting, hcash⟩ := sameLots_orderStep h hlots hclear hstored
    refine ⟨hsync.mpr hclear, ?_⟩
    show (w.orderStep call).stack.broker.balance = (w.orderStep call).stack.broker.startingBalance +
      (w.orderStep call).db.loadRealizedPnlSince .paper 0
    rw [hstarting]
    linarith [hlaw.2]
  | rebuild now =>
    -- A rebuild gives the broker nothing of what it restores: they agree only on flat positions.
    have hrebuilt : w.sessionStep (.rebuild now) =
      fresh w.stack.userId w.db w.stack.broker.nextId now := rfl
    obtain ⟨hsync, hlots', hcash⟩ :=
      fresh_account w.stack.userId w.db w.stack.broker.nextId now
    rw [hrebuilt]
    exact ⟨book_fresh .., ⟨fun hlaw' => hsync.mp hlaw'.1, fun hflat => ⟨hsync.mpr hflat, hcash⟩⟩,
      fun hflat => hlots' (hsync.mpr hflat)⟩

/-- **When broker, book and journal agree.** Over calls and restarts whose realized
P&L the journal keeps exactly, the broker's positions are the stack's and its cash is
the journal's at every point exactly if every build finds a flat account, and every
call that enters an order leaves its stop resting. -/
theorem reconciled_throughout_iff (userId : AccountId) (db : Db) (nextId : ℕ) (now : Instant)
    (events : List SessionEvent)
    (hstored : Each sessionStep StoredExactly (fresh userId db nextId now) events) :
    Throughout sessionStep Reconciled (fresh userId db nextId now) events ↔
      (∀ symbol, db.restoredQuantity userId symbol = 0) ∧
        Each sessionStep SessionClear (fresh userId db nextId now) events := by
  obtain ⟨hsync, hlots, hcash⟩ := fresh_account userId db nextId now
  have hrun : (fresh userId db nextId now).Reconciled →
      (Throughout sessionStep Reconciled (fresh userId db nextId now) events ↔
        Each sessionStep SessionClear (fresh userId db nextId now) events) := fun hlaw =>
    throughout_iff_each_on (D := StoredExactly)
      (I := fun w : World MockBroker => w.stack.Book ∧ w.stack.SameLots)
      (fun w event h hlaw hevent hlaw' => by
        obtain ⟨hbook', hiff, hlots'⟩ := sessionStep_spec h.1 h.2 hlaw hevent
        exact ⟨hbook', hlots' (hiff.mp hlaw')⟩)
      (fun w event h hlaw hevent => (sessionStep_spec h.1 h.2 hlaw hevent).2.1)
      ⟨book_fresh userId db nextId now, hlots hlaw.1⟩ hlaw hstored
  -- The law at the start says that the restored positions are flat.
  constructor
  · intro h
    have hlaw := throughout_iff_states.mp h [] List.nil_prefix
    exact ⟨hsync.mp hlaw.1, (hrun hlaw).mp h⟩
  · rintro ⟨hflat, heach⟩
    exact (hrun ⟨hsync.mpr hflat, hcash⟩).mpr heach

/-- A buy of ACME at 100 with a stop at 95. -/
def openingCall : OrderCall := ({ now := 0 }, .market "ACME" .long 100 95)

/-- The sale that closes it at 102. -/
def closingCall : OrderCall := ({ now := 0 }, .market "ACME" .short 102 107)

/-- Closed before the restart, a position leaves broker, book and journal in step. -/
theorem closed_before_rebuild_reconciled :
    Throughout sessionStep Reconciled (fresh "u" {} 0 0)
      [.order openingCall, .order closingCall, .rebuild 0] := by
  have hstored : Each sessionStep StoredExactly (fresh "u" {} 0 0)
      [.order openingCall, .order closingCall, .rebuild 0] :=
    ⟨fun _ => by decide +kernel, fun _ => by decide +kernel, trivial, trivial⟩
  set opened := (fresh "u" {} 0 0).orderStep openingCall with hopened
  set closed := opened.orderStep closingCall with hclosed
  -- The sale takes all that is open, and then no open row is left to restore.
  have hopposes : opened.stack.opposes "ACME" .short = true := by decide +kernel
  have hall : ¬ opened.stack.sizedQuantity closingCall.2 < |opened.stack.holding "ACME"| := by
    decide +kernel
  have huser : closed.stack.userId = "u" := by decide +kernel
  have hrows : closed.db.loadOpenPositions "u" .paper manualSourceKey = [] := by decide +kernel
  refine (reconciled_throughout_iff "u" {} 0 0 _ hstored).mpr
    ⟨fun symbol => rfl, fun _ => ?_, fun _ => ?_, ?_, trivial⟩
  · show (95 : ℚ) < 100
    norm_num
  · show opened.stack.StopClear closingCall.2
    unfold Stack.StopClear
    rw [show opened.stack.opposes closingCall.2.symbol closingCall.2.direction = true from hopposes]
    intro p stop hp _ _ hpart
    rw [← Stack.holding_of_position hp] at hpart
    exact absurd hpart hall
  · show ∀ symbol, closed.db.restoredQuantity closed.stack.userId symbol = 0
    intro symbol
    rw [huser, Db.restoredQuantity, hrows]
    rfl

/-- Open across the restart, it is gone from the new broker while the stack holds it. -/
theorem rebuild_forgets_broker_position :
    let w := run sessionStep (fresh "u" {} 0 0) [.order openingCall, .rebuild 0]
    w.stack.broker.quantity "ACME" = 0 ∧ w.stack.holding "ACME" = 100 ∧
      Each sessionStep StoredExactly (fresh "u" {} 0 0) [.order openingCall, .rebuild 0] ∧
      ¬ Throughout sessionStep Reconciled (fresh "u" {} 0 0) [.order openingCall, .rebuild 0] := by
  intro w
  have hbroker : w.stack.broker.quantity "ACME" = 0 := by decide +kernel
  have hstack : w.stack.holding "ACME" = 100 := by decide +kernel
  refine ⟨hbroker, hstack, ⟨fun _ => by decide +kernel, trivial, trivial⟩, fun h => ?_⟩
  have hsync := h.last.1 "ACME"
  rw [show (run sessionStep (fresh "u" {} 0 0) [.order openingCall, .rebuild 0]) = w from rfl,
    hbroker, hstack] at hsync
  norm_num at hsync

end World

end SuperTrading
