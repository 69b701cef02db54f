import SuperTrading.Api.MockTrading
import SuperTrading.Logic.Runs

/-!
# The Stop Follows the Position

`POST /orders` writes a position's stop at one point and the resting order that
enforces it at another. The second is skipped for a request whose key is known, the
first is not: a request sent again moves the stop that the position shows, and the
order at the broker stays where it was.

- **Layer A**: the restored book names no id that is yet to be given out
- **Layer B**: one call
- **Layer C**: runs
-/

namespace SuperTrading

open SuperTrading.Logic

/-! ## Layer A: Restored ids -/

/-- Every protective id in the rows was given out before: `uuid.uuid4()` repeats none. -/
def Db.IssuedBefore (db : Db) (nextId : ℕ) : Prop :=
  ∀ row ∈ db.positions, ∀ n, row.protectiveOrderId = some (.uuid n) → n < nextId

/-- A record of a restored book is one of the records it was restored from. -/
theorem PositionManager.mem_of_get_restore {ps : List PositionRecord} {m : PositionManager}
    {a : AccountId} {s : Symbol} {p : PositionRecord} (h : (m.restore ps).get a s = some p) :
    p ∈ ps ∨ m.get a s = some p := by
  induction ps generalizing m with
  | nil => exact Or.inr h
  | cons q ps ih =>
    rcases ih (m := m.put q) h with hmem | hget
    · exact Or.inl (List.mem_cons_of_mem _ hmem)
    · rw [get_put] at hget
      split at hget
      · cases hget
        exact Or.inl List.mem_cons_self
      · exact Or.inr hget

theorem World.issued_fresh {db : Db} {nextId : ℕ} (h : db.IssuedBefore nextId)
    (userId : AccountId) (now : Instant) : (fresh userId db nextId now).stack.Issued := by
  intro symbol p n hp hnames
  have hrestored : (PositionManager.restore {}
      (db.loadOpenPositions userId .paper manualSourceKey)).get userId symbol = some p := hp
  rcases PositionManager.mem_of_get_restore hrestored with hmem | hnone
  · obtain ⟨row, hrow, rfl⟩ := List.mem_map.mp hmem
    exact h row (List.mem_of_mem_filter hrow) n hnames
  · simp [PositionManager.get] at hnone

/-! ## Layer B: One call -/

namespace Stack

/-- Where a position's protective id names a resting order, that order has the
position's stop as its trigger and its size, and faces the other way. -/
def StopsMatch (s : Stack MockBroker) : Prop :=
  ∀ symbol p id request, s.position symbol = some p → p.isOpen = true →
    p.protectiveOrderId = some id → s.broker.resting.get? id = some request →
      request.triggerPrice = p.stop ∧ request.quantity = |p.quantity| ∧
        request.direction = p.side.opposite

variable {s s' : Stack MockBroker} {env : CallEnv} {r : PlaceOrderRequest}

theorem StopsMatch.untouched (hmatch : s.StopsMatch) (h : s.Untouched s') : s'.StopsMatch := by
  intro symbol p id request hp hopen hnames hrests
  rw [h.position] at hp
  rw [h.resting] at hrests
  exact hmatch symbol p id request hp hopen hnames hrests

/-- The order that a fill puts at the broker is the one its position asks for, and
the orders that rest on for the other symbols still are. -/
theorem StopsMatch.filledAndGuarded (hmatch : s.StopsMatch) (hissued : s.Issued)
    (h : s.FilledAndGuarded env r s') : s'.StopsMatch := by
  obtain ⟨b, uuid, hwithdrawn, hbroker, hpositions⟩ := h.guarded
  obtain ⟨hresting, -, hnext⟩ := s.broker.filled_frame (s.requestOrder env r).request r.fillPrice
  intro symbol p id request hp hopen hnames hrests
  rw [FilledAndGuarded.position h.user hpositions] at hp
  rw [hbroker, MockBroker.resting_guardedFor hwithdrawn.wellFormed] at hrests
  split at hp
  · -- The position that was filled: it names the new stop, or none.
    cases hp
    cases hwants : (s.filledPosition r).wantsStop with
    | false => simp [PositionRecord.guardedBy, hwants] at hnames
    | true =>
      have hid : BrokerOrderId.uuid b.nextId = id := by
        simpa [PositionRecord.guardedBy, hwants] using hnames
      split at hrests
      · cases hrests
        exact ⟨rfl, rfl, stopRequest_direction ..⟩
      · -- The new stop fired, and nothing else rests under its id.
        rw [← hid, hwithdrawn.wellFormed.fresh_resting] at hrests
        cases hrests
  · -- Another position: its id was given out earlier.
    split at hrests
    · rename_i hnew
      have hlt := hissued symbol p b.nextId hp (hnew.2.2 ▸ hnames)
      rw [hwithdrawn.nextId, hnext] at hlt
      omega
    · rw [hwithdrawn.resting] at hrests
      split at hrests
      · cases hrests
      · rw [hresting] at hrests
        exact hmatch symbol p id request hp hopen hnames hrests

/-- The position that a request is for shows the request's stop, if it is open on the
request's side and guarded. -/
def ShowsStop (s : Stack MockBroker) (r : PlaceOrderRequest) : Prop :=
  ∀ p id, s.position r.symbol = some p → p.isOpen = true → p.side = r.direction →
    p.protectiveOrderId = some id → s.broker.resting.get? id ≠ none → p.stop = some r.stop

/-- A known request leaves position and order matching exactly if the position shows
the stop that the request asks for. -/
theorem StopsMatch.stopMoved_iff (hmatch : s.StopsMatch) (h : s.StopMoved r s') :
    s'.StopsMatch ↔ s.ShowsStop r := by
  constructor
  · intro hmatch' p id hp hopen hside hnames hrests
    obtain ⟨request, hrequest⟩ := Option.ne_none_iff_exists'.mp hrests
    obtain ⟨-, -, hquantity, -, -, hid⟩ := withStop_fields p r
    -- The moved stop has to be the trigger too, and that is the stop of before.
    have hp' : s'.position r.symbol = some (withStop p r) := by
      rw [h.position, if_pos rfl, hp]
      rfl
    have hopen' : (withStop p r).isOpen = true := by
      unfold PositionRecord.isOpen
      rw [hquantity]
      exact hopen
    have hbefore := (hmatch _ p id request hp hopen hnames hrequest).1
    have hafter := (hmatch' _ _ id request hp' hopen' (hid.trans hnames)
      (h.broker ▸ hrequest)).1
    rw [← hbefore, hafter]
    exact withStop_of_side hopen hside
  · -- The trigger that rests is the stop of before, which the move did not change.
    intro hshows symbol p' id request hp' hopen' hnames' hrests
    rw [h.broker] at hrests
    rw [h.position] at hp'
    split at hp'
    · rename_i hsymbol
      obtain ⟨p, hp, rfl⟩ := Option.map_eq_some_iff.mp hp'
      obtain ⟨-, -, hquantity, -, -, hid⟩ := withStop_fields p r
      have hopen : p.isOpen = true := by
        unfold PositionRecord.isOpen at hopen' ⊢
        rw [← hquantity]
        exact hopen'
      have hside : (withStop p r).side = p.side := by
        unfold PositionRecord.side PositionRecord.isLong
        rw [hquantity]
      have hnames : p.protectiveOrderId = some id := hid.symm.trans hnames'
      obtain ⟨htrigger, hsize, hdirection⟩ := hmatch symbol p id request hp hopen hnames hrests
      have hstop : (withStop p r).stop = p.stop := by
        by_cases hsame : p.side = r.direction
        · rw [withStop_of_side hopen hsame]
          exact (hshows p id (hsymbol ▸ hp) hopen hsame hnames (by simp [hrests])).symm
        · -- A request of the other side moves no stop.
          have hother : p.side = r.direction.opposite := by
            cases hp : p.side <;> cases hr : r.direction <;> simp_all [Direction.opposite]
          exact withStop_of_other_side hother
      rw [hstop, hquantity, hside]
      exact ⟨htrigger, hsize, hdirection⟩
    · -- The positions of other symbols are as they were.
      exact hmatch symbol p' id request hp' hopen' hnames' hrests

end Stack

namespace World

/-- A call that repeats a known request, if it is accepted, finds its stop on the
position. -/
def RepeatsShownStop (w : World MockBroker) (call : OrderCall) : Prop :=
  w.stack.Accepts call.1 call.2 →
    w.stack.orderManager.lookup (call.2.idempotencyKey w.stack.userId) ≠ none →
      w.stack.ShowsStop call.2

/-- One call keeps orders and positions matching exactly if it is no repetition that
finds another stop on the position. -/
theorem stopsMatch_orderStep_iff {w : World MockBroker} (h : w.stack.Book)
    (hissued : w.stack.Issued) (hmatch : w.stack.StopsMatch) (call : OrderCall) :
    (w.orderStep call).stack.StopsMatch ↔ w.RepeatsShownStop call := by
  have hprepared := w.stack.untouched_prepared call.1 call.2
  unfold orderStep RepeatsShownStop
  cases placeOrder_effect h call.1 call.2 with
  | refused hrefused hsame _ =>
    exact iff_of_true (hmatch.untouched hsame) fun haccepts => absurd haccepts hrefused
  | known haccepts hknown hmoved _ =>
    rw [(hmatch.untouched hprepared).stopMoved_iff hmoved]
    exact ⟨fun hshows _ _ => hshows, fun hshows => hshows haccepts hknown⟩
  | entered henters _ hfilled _ =>
    exact iff_of_true
      ((hmatch.untouched hprepared).filledAndGuarded (hissued.untouched hprepared) hfilled)
      fun _ hknown => absurd henters.2 hknown

/-! ## Layer C: Runs -/

/-- **When the stop follows the position.** From a stack just built, every resting
protective order has its position's stop as trigger, its size, and the other side
after every call, exactly if no accepted repetition of a known request finds another
stop on the open, guarded position of its side. -/
theorem stopsMatch_throughout_iff (userId : AccountId) (db : Db) {nextId : ℕ}
    (hissued : db.IssuedBefore nextId) (now : Instant) (calls : List OrderCall) :
    Throughout orderStep (fun w => w.stack.StopsMatch) (fresh userId db nextId now) calls ↔
      Each orderStep RepeatsShownStop (fresh userId db nextId now) calls := by
  have hfresh : (fresh userId db nextId now).stack.StopsMatch := by
    intro symbol p id request _ _ _ hrests
    have hnone : (Dict.empty : Dict BrokerOrderId OrderRequest).get? id = some request := hrests
    simp at hnone
  exact throughout_iff_each (I := fun w : World MockBroker => w.stack.Book ∧ w.stack.Issued)
    (fun w call h _ _ => ⟨book_orderStep h.1 call, issued_orderStep h.1 h.2 call⟩)
    (fun w call h hmatch => stopsMatch_orderStep_iff h.1 h.2 hmatch call)
    ⟨book_fresh .., issued_fresh hissued userId now⟩ hfresh

/-- A buy of ACME at 100 with a stop at 95. -/
def buyCall : OrderCall := ({ now := 0 }, .market "ACME" .long 100 95)

/-- Another at 101, which moves the stop to 97. -/
def addCall : OrderCall := ({ now := 0 }, .market "ACME" .long 101 97)

/-- Two new requests, and the second sent again: the stop follows the position. -/
theorem repeated_add_stopsMatch :
    Throughout orderStep (fun w => w.stack.StopsMatch) (fresh "u" {} 0 0)
      [buyCall, addCall, addCall] := by
  have hissued : Db.IssuedBefore {} 0 := fun row hrow => by cases hrow
  set bought := (fresh "u" {} 0 0).orderStep buyCall with hbought
  set added := bought.orderStep addCall with hadded
  have hfirst : ((fresh "u" {} 0 0).stack.orderManager.lookup
      (buyCall.2.idempotencyKey (fresh "u" {} 0 0).stack.userId)) = none := rfl
  have hsecond : bought.stack.orderManager.lookup
      (addCall.2.idempotencyKey bought.stack.userId) = none := by decide +kernel
  have hstop : (added.stack.position "ACME").bind PositionRecord.stop = some 97 := by
    decide +kernel
  refine (stopsMatch_throughout_iff "u" {} hissued 0 _).mpr
    ⟨fun _ hknown => absurd hfirst hknown, fun _ hknown => absurd hsecond hknown,
      fun _ _ => ?_, trivial⟩
  intro p id hp _ _ _ _
  have hposition : added.stack.position "ACME" = some p := hp
  rw [hposition] at hstop
  exact hstop

/-- The first one sent again: the position shows 95, and the broker's stop is at 97. -/
theorem repeated_buy_parts_stop :
    let w := run orderStep (fresh "u" {} 0 0) [buyCall, addCall, buyCall]
    (w.stack.position "ACME").map (fun p => (p.isOpen, p.stop, p.protectiveOrderId)) =
        some (true, some 95, some (.uuid 3)) ∧
      (w.stack.broker.resting.get? (.uuid 3)).bind OrderRequest.triggerPrice = some 97 ∧
      ¬ Throughout orderStep (fun w => w.stack.StopsMatch) (fresh "u" {} 0 0)
        [buyCall, addCall, buyCall] := by
  intro w
  have hposition : (w.stack.position "ACME").map
      (fun p => (p.isOpen, p.stop, p.protectiveOrderId)) =
        some (true, some 95, some (.uuid 3)) := by decide +kernel
  have htrigger : (w.stack.broker.resting.get? (.uuid 3)).bind OrderRequest.triggerPrice =
      some 97 := by decide +kernel
  -- The position says 95 where the resting order triggers at 97.
  refine ⟨hposition, htrigger, fun h => ?_⟩
  have hmatch : w.stack.StopsMatch := h.last
  obtain ⟨p, hp, hfields⟩ := Option.map_eq_some_iff.mp hposition
  obtain ⟨request, hrequest, hat⟩ := Option.bind_eq_some_iff.mp htrigger
  simp only [Prod.mk.injEq] at hfields
  obtain ⟨hopen, hstop, hnames⟩ := hfields
  have hsame := (hmatch "ACME" p _ request hp hopen hnames hrequest).1
  rw [hat, hstop] at hsame
  norm_num at hsame

end World

end SuperTrading
