import SuperTrading.Trading.ProtectiveStops
import SuperTrading.Logic.Runs

/-!
# At Most One Live Protective Stop

How many protective stops of one position rest at a broker whose answers may be
lost, over any run of changes to the position that are each followed by
`ensure_protective_stop`.

## Strategy

- **Layer A**: the broker, as laws on the list of live stops
- **Layer B**: what a cancel and a placement do to that list
- **Layer C**: one change, then any run of changes
- **Layer D**: a venue that lands a stop and loses the answer
-/

namespace SuperTrading

open SuperTrading.Logic

variable {β : Type} [Broker β]

/-! ## Layer A: The broker -/

/-- A broker whose acknowledgements can be lost. `live` lists the protective stops
of the position that rest at it. -/
structure LosesAnswers (live : β → List BrokerOrderId) : Prop where
  /-- A cancel that returns has removed the order. -/
  cancel_ok : ∀ b id result b', Broker.cancelOrder b id = (.ok result, b') →
    live b' = (live b).erase id
  /-- A cancel that raises has removed it or not. -/
  cancel_error : ∀ b id problem b', Broker.cancelOrder b id = (.error problem, b') →
    live b' = live b ∨ live b' = (live b).erase id
  /-- A stop that is acknowledged rests under the id returned. -/
  place_ok : ∀ b request result b', Broker.placeOrder b request = (result, b') →
    request.orderType = .slM → result.status ≠ .rejected → result.status ≠ .failed →
    live b' = live b ++ [result.brokerOrderId]
  /-- A stop that is rejected does not rest. -/
  place_rejected : ∀ b request result b', Broker.placeOrder b request = (result, b') →
    request.orderType = .slM → result.status = .rejected → live b' = live b
  /-- A stop that was never answered rests or not. -/
  place_failed : ∀ b request result b', Broker.placeOrder b request = (result, b') →
    request.orderType = .slM → result.status = .failed →
    live b' = live b ∨ ∃ id, live b' = live b ++ [id]
  /-- The order list names every live stop, and shows no live stop as settled. -/
  orders_truthful : ∀ b orders, Broker.getOrders b = .ok orders →
    (∀ id ∈ live b, ∃ order ∈ orders, order.brokerOrderId = id) ∧
    ∀ order ∈ orders, order.brokerOrderId ∈ live b → order.status.isSettled = false

/-- One change of a position: its new signed quantity and stop, and the
`uuid.uuid4()` in the key of the stop that may follow. -/
structure StopChange where
  quantity : ℚ
  stop : Option ℚ
  uuid : ℕ

/-- The position after the change, before its stop is replaced. -/
def StopChange.apply (c : StopChange) (p : PositionRecord) : PositionRecord :=
  { p with
    quantity := c.quantity
    stop := c.stop }

/-- One step: change the position, then `ensure_protective_stop`. -/
def changeStop (s : β × PositionRecord) (c : StopChange) : β × PositionRecord :=
  (ensureProtectiveStop s.1 (c.apply s.2) c.uuid).2

/-- At most one protective stop rests at the broker. -/
def AtMostOneStop (live : β → List BrokerOrderId) (s : β × PositionRecord) : Prop :=
  (live s.1).length ≤ 1

/-- The stop the position names, if it names one, is the only one that rests. -/
def StopTracked (live : β → List BrokerOrderId) (s : β × PositionRecord) : Prop :=
  ∀ id, s.2.protectiveOrderId = some id → ∀ x ∈ live s.1, x = id

/-- The step places a stop on top of one that rests without the position naming
it: an earlier placement landed, its answer was lost, and with it the id. -/
def DoublesUp (live : β → List BrokerOrderId) (s : β × PositionRecord) (c : StopChange) : Prop :=
  s.2.protectiveOrderId = none ∧ live s.1 ≠ [] ∧ c.quantity ≠ 0 ∧ c.stop.isSome ∧
    live (Broker.placeOrder s.1 (stopRequest (c.apply s.2) c.uuid)).2 ≠ live s.1

/-! ## Layer B: One call -/

section Calls

variable {live : β → List BrokerOrderId}

private theorem erase_eq_nil {l : List BrokerOrderId} {id : BrokerOrderId}
    (hone : l.length ≤ 1) (hid : ∀ x ∈ l, x = id) : l.erase id = [] := by
  match l with
  | [] => rfl
  | [x] =>
    have hx : x = id := hid x (List.mem_singleton.mpr rfl)
    simp [hx]
  | _ :: _ :: _ => simp at hone

/-- A broker that says an order no longer rests is right. -/
theorem LosesAnswers.not_mem_of_settled (hlive : LosesAnswers live) {b : β} {id : BrokerOrderId}
    (h : isNoLongerResting b id = true) : id ∉ live b := by
  intro hid
  unfold isNoLongerResting at h
  cases hget : Broker.getOrders b with
  | error problem => simp [hget] at h
  | ok orders =>
    obtain ⟨hlisted, hopen⟩ := hlive.orders_truthful b orders hget
    rw [hget] at h
    dsimp only at h
    cases hfind : orders.find? (fun order => order.brokerOrderId = id) with
    | none =>
      -- The order list forgot a live order: it is not truthful.
      obtain ⟨order, hmem, hoid⟩ := hlisted id hid
      have hnone := List.find?_eq_none.mp hfind order hmem
      simp [hoid] at hnone
    | some order =>
      have hoid : order.brokerOrderId = id := by simpa using List.find?_some hfind
      have hset := hopen order (List.mem_of_find?_eq_some hfind) (hoid ▸ hid)
      simp [hfind, hset] at h

/-- A cancel that reports success leaves nothing resting that the position named,
and touches nothing if it named nothing. -/
theorem LosesAnswers.cancel_spec (hlive : LosesAnswers live) {b b' : β} {p p' : PositionRecord}
    (hone : AtMostOneStop live (b, p)) (htrack : StopTracked live (b, p))
    (h : cancelProtectiveStop b p = (true, b', p')) :
    (p.protectiveOrderId = none ∧ b' = b ∧ p' = p) ∨
    (p.protectiveOrderId ≠ none ∧ live b' = [] ∧ p' = { p with protectiveOrderId := none }) := by
  unfold cancelProtectiveStop at h
  cases hp : p.protectiveOrderId with
  | none =>
    simp only [hp, Prod.mk.injEq, true_and] at h
    exact Or.inl ⟨rfl, h.1.symm, h.2.symm⟩
  | some id =>
    have hgone : (live b).erase id = [] := erase_eq_nil hone (htrack id hp)
    rw [hp] at h
    dsimp only at h
    rcases hc : Broker.cancelOrder b id with ⟨answer, b₁⟩
    cases answer with
    | ok result =>
      simp only [hc, Prod.mk.injEq, true_and] at h
      obtain ⟨rfl, rfl⟩ := h
      exact Or.inr ⟨by simp, (hlive.cancel_ok _ _ _ _ hc).trans hgone, rfl⟩
    | error problem =>
      -- The cancel raised: the order list decides.
      simp only [hc] at h
      split at h
      · rename_i hrest
        simp only [Prod.mk.injEq, true_and] at h
        obtain ⟨rfl, rfl⟩ := h
        refine Or.inr ⟨by simp, ?_, rfl⟩
        rcases hlive.cancel_error _ _ _ _ hc with hsame | herase
        · have hnot := hlive.not_mem_of_settled hrest
          rw [hsame] at hnot ⊢
          rw [← hgone, List.erase_of_not_mem hnot]
        · exact herase.trans hgone
      · simp at h

/-- A cancel whose outcome is not known adds nothing, and keeps the id. -/
theorem LosesAnswers.cancel_unknown (hlive : LosesAnswers live) {b b' : β} {p p' : PositionRecord}
    (h : cancelProtectiveStop b p = (false, b', p')) :
    p' = p ∧ ∃ id, p.protectiveOrderId = some id ∧
      (live b' = live b ∨ live b' = (live b).erase id) := by
  unfold cancelProtectiveStop at h
  cases hp : p.protectiveOrderId with
  | none => simp [hp] at h
  | some id =>
    rw [hp] at h
    dsimp only at h
    rcases hc : Broker.cancelOrder b id with ⟨answer, b₁⟩
    cases answer with
    | ok result => simp [hc] at h
    | error problem =>
      simp only [hc] at h
      split at h
      · simp at h
      · simp only [Prod.mk.injEq, true_and] at h
        -- No answer: the stop is gone or it is not, and the record still names it.
        obtain ⟨rfl, rfl⟩ := h
        exact ⟨rfl, id, rfl, hlive.cancel_error _ _ _ _ hc⟩

/-- A placement adds at most one stop, and the position names the one it adds
unless the broker never answered. -/
theorem LosesAnswers.place_spec (hlive : LosesAnswers live) (b : β) (p : PositionRecord)
    (uuid : ℕ) :
    let placed := placeProtectiveStop b p uuid
    placed.2.1 = (Broker.placeOrder b (stopRequest p uuid)).2 ∧
    ((live placed.2.1 = live b ∧ placed.2.2 = p) ∨
      ∃ id, live placed.2.1 = live b ++ [id] ∧
        (placed.2.2 = p ∨ placed.2.2 = { p with protectiveOrderId := some id })) := by
  unfold placeProtectiveStop
  rcases hplace : Broker.placeOrder b (stopRequest p uuid) with ⟨result, b'⟩
  dsimp only
  split
  · rename_i hfailed
    refine ⟨rfl, ?_⟩
    -- No answer: the stop may rest all the same.
    rcases hlive.place_failed _ _ _ _ hplace rfl hfailed with hsame | ⟨id, hadd⟩
    · exact Or.inl ⟨hsame, rfl⟩
    · exact Or.inr ⟨id, hadd, Or.inl rfl⟩
  · rename_i hfailed
    split
    · rename_i hrejected
      exact ⟨rfl, Or.inl ⟨hlive.place_rejected _ _ _ _ hplace rfl hrejected, rfl⟩⟩
    · rename_i hrejected
      exact ⟨rfl, Or.inr ⟨_, hlive.place_ok _ _ _ _ hplace rfl hrejected hfailed, Or.inr rfl⟩⟩

/-- What follows a cancel that succeeded: a position that wants no stop, or gets
none, leaves the broker's stops alone; otherwise one stop is added. -/
theorem LosesAnswers.guard_spec (hlive : LosesAnswers live) (b : β) (p : PositionRecord)
    (uuid : ℕ) :
    let wants := p.isOpen = true ∧ p.stop.isSome = true
    let s := (if wants then placeProtectiveStop b p uuid else ({}, b, p)).2
    let placed := (Broker.placeOrder b (stopRequest p uuid)).2
    (live s.1 = live b ∧ s.2.protectiveOrderId = p.protectiveOrderId ∧
      (wants → live placed = live b)) ∨
    (wants ∧ ∃ id, live s.1 = live b ++ [id] ∧ live placed = live b ++ [id] ∧
      (s.2.protectiveOrderId = p.protectiveOrderId ∨ s.2.protectiveOrderId = some id)) := by
  intro wants s placed
  obtain ⟨hplaced, hspec⟩ := hlive.place_spec b p uuid
  -- Only an open position with a stop has one placed.
  by_cases hwants : wants
  · have hs : s = (placeProtectiveStop b p uuid).2 := by simp only [s, if_pos hwants]
    have hb : s.1 = placed := by rw [hs]; exact hplaced
    rcases hspec with ⟨hsame, hp⟩ | ⟨id, hadd, hp⟩
    · refine Or.inl ⟨hs ▸ hsame, ?_, fun _ => ?_⟩
      · rw [hs, hp]
      · rw [← hb, hs, hsame]
    · refine Or.inr ⟨hwants, id, hs ▸ hadd, ?_, ?_⟩
      · rw [← hb, hs, hadd]
      · rcases hp with hp | hp
        · exact Or.inl (by rw [hs, hp])
        · exact Or.inr (by rw [hs, hp])
  · have hs : s = (b, p) := by simp only [s, if_neg hwants]
    exact Or.inl ⟨by rw [hs], by rw [hs], fun h => absurd h hwants⟩

end Calls

/-! ## Layer C: One change, any run -/

section Steps

variable {live : β → List BrokerOrderId}

/-- One change, from a state with at most one stop, which the position names: it
keeps at most one exactly if it does not double up, and then the position still
names it. -/
theorem LosesAnswers.changeStop_spec (hlive : LosesAnswers live) {s : β × PositionRecord}
    (c : StopChange) (htrack : StopTracked live s) (hone : AtMostOneStop live s) :
    (AtMostOneStop live (changeStop s c) ↔ ¬ DoublesUp live s c) ∧
    (AtMostOneStop live (changeStop s c) → StopTracked live (changeStop s c)) := by
  obtain ⟨b, p⟩ := s
  set q := c.apply p with hq
  have hid : q.protectiveOrderId = p.protectiveOrderId := rfl
  have hwants : (q.isOpen = true ∧ q.stop.isSome = true) ↔ (c.quantity ≠ 0 ∧ c.stop.isSome) := by
    simp [hq, StopChange.apply, PositionRecord.isOpen]
  have htrack' : StopTracked live (b, q) := htrack
  have hone' : AtMostOneStop live (b, q) := hone
  unfold changeStop ensureProtectiveStop
  simp only [← hq]
  -- First the cancel: unknown, or nothing named, or the named stop gone.
  rcases hcancel : cancelProtectiveStop b q with ⟨_ | _, b₁, q₁⟩
  · -- The outcome of the cancel is unknown: nothing is placed, the id is kept.
    obtain ⟨rfl, id, hsome, hleft⟩ := hlive.cancel_unknown hcancel
    have hnot : ¬ DoublesUp live (b, p) c := fun h => by
      have hnone : q.protectiveOrderId = none := h.1
      simp [hsome] at hnone
    have hsub : (live b₁).length ≤ (live b).length ∧ ∀ x ∈ live b₁, x ∈ live b := by
      rcases hleft with hsame | herase
      · simp [hsame]
      · rw [herase]
        exact ⟨List.length_erase_le, fun x hx => List.mem_of_mem_erase hx⟩
    refine ⟨⟨fun _ => hnot, fun _ => hsub.1.trans hone⟩, fun _ j hj x hx => ?_⟩
    exact htrack' j hj x (hsub.2 x hx)
  · have hguard := hlive.guard_spec b₁ q₁ c.uuid
    dsimp only at hguard ⊢
    generalize (if q₁.isOpen = true ∧ q₁.stop.isSome = true then placeProtectiveStop b₁ q₁ c.uuid
      else ({}, b₁, q₁)).2 = s' at hguard ⊢
    rcases hlive.cancel_spec hone' htrack' hcancel with ⟨hnone, rfl, rfl⟩ | ⟨hsome, hempty, hq₁⟩
    · -- The position named no stop: whatever rests, rests unnoticed.
      rcases hguard with ⟨hsame, hpid, hadds⟩ | ⟨hopen, id, hadd, hplaced, hpid⟩
      · refine ⟨⟨fun _ h => ?_, fun _ => ?_⟩, fun _ j hj => ?_⟩
        · obtain ⟨-, -, hqty, hstop, hne⟩ := h
          exact hne (hadds (hwants.mpr ⟨hqty, hstop⟩))
        · rw [AtMostOneStop, hsame]
          exact hone
        · rw [hpid, hnone] at hj
          cases hj
      · -- One stop is added: that makes one in all exactly if none rested before.
        have hlen : AtMostOneStop live s' ↔ live b₁ = [] := by
          rw [AtMostOneStop, hadd, ← List.length_eq_zero_iff]
          simp
        have hdoubles : DoublesUp live (b₁, p) c ↔ live b₁ ≠ [] := by
          refine ⟨fun h => h.2.1, fun h => ⟨hnone, h, (hwants.mp hopen).1, (hwants.mp hopen).2, ?_⟩⟩
          show live (Broker.placeOrder b₁ (stopRequest q c.uuid)).2 ≠ live b₁
          simp [hplaced]
        refine ⟨by rw [hlen, hdoubles, not_not], fun hs j hj x hx => ?_⟩
        rw [hadd, hlen.mp hs, List.nil_append, List.mem_singleton] at hx
        rcases hpid with hpid | hpid
        · simp [hpid, hnone] at hj
        · rw [hpid, Option.some.injEq] at hj
          rw [hx, hj]
    · -- The stop the position named is gone, and nothing rests.
      have hnot : ¬ DoublesUp live (b, p) c := fun h => hsome h.1
      have hnone : q₁.protectiveOrderId = none := by rw [hq₁]
      rcases hguard with ⟨hsame, hpid, -⟩ | ⟨-, id, hadd, -, hpid⟩
      · rw [hempty] at hsame
        refine ⟨⟨fun _ => hnot, fun _ => ?_⟩, fun _ _ _ x hx => ?_⟩
        · simp [AtMostOneStop, hsame]
        · simp [hsame] at hx
      · rw [hempty, List.nil_append] at hadd
        refine ⟨⟨fun _ => hnot, fun _ => ?_⟩, fun _ j hj x hx => ?_⟩
        · simp [AtMostOneStop, hadd]
        · rw [hadd, List.mem_singleton] at hx
          rcases hpid with hpid | hpid
          · simp [hpid, hnone] at hj
          · rw [hpid, Option.some.injEq] at hj
            rw [hx, hj]

/-- **At most one live protective stop.** Over any run of changes that starts with
no stop at the broker, at most one stop rests in every state exactly if no change
doubles up, i.e. opens or keeps a position with a stop while an earlier stop rests
that the position does not name. -/
theorem atMostOneStop_iff (hlive : LosesAnswers live) {s : β × PositionRecord}
    (hstart : live s.1 = []) (cs : List StopChange) :
    Throughout changeStop (AtMostOneStop live) s cs ↔
      Each changeStop (fun s c => ¬ DoublesUp live s c) s cs := by
  have htrack : StopTracked live s := fun _ _ x hx => by simp [hstart] at hx
  have hone : AtMostOneStop live s := by simp [AtMostOneStop, hstart]
  apply throughout_iff_each (I := StopTracked live) _ _ htrack hone
  · exact fun s c ht ho => (hlive.changeStop_spec c ht ho).2
  · exact fun s c ht ho => (hlive.changeStop_spec c ht ho).1

end Steps

/-! ## Layer D: A venue that loses answers -/

/-- A venue at which every order rests until it is cancelled. `lost` says which of
the coming calls take effect without their answer arriving. -/
structure LossyVenue where
  book : List (BrokerOrderId × OrderRequest) := []
  nextId : ℕ := 0
  lost : List Bool := []

namespace LossyVenue

def placeOrder (v : LossyVenue) (request : OrderRequest) : OrderResult × LossyVenue :=
  ({ brokerOrderId := .uuid v.nextId
     status := if v.lost.headD false then .failed else .acknowledged },
    { book := v.book ++ [(.uuid v.nextId, request)]
      nextId := v.nextId + 1
      lost := v.lost.tail })

def cancelOrder (v : LossyVenue) (id : BrokerOrderId) : Except Raised OrderResult × LossyVenue :=
  (if v.lost.headD false then .error (.other "no answer")
    else .ok { brokerOrderId := id, status := .cancelled },
    { v with
      book := v.book.eraseP (fun e => e.1 == id)
      lost := v.lost.tail })

/-- The entry of the venue's order list for a resting order. -/
def listed (e : BrokerOrderId × OrderRequest) : BrokerOrder :=
  { brokerOrderId := e.1
    symbol := e.2.symbol
    direction := e.2.direction
    orderType := e.2.orderType
    quantity := e.2.quantity
    price := e.2.price
    status := .acknowledged }

def live (v : LossyVenue) : List BrokerOrderId := v.book.map Prod.fst

instance : Broker LossyVenue where
  isMock := false
  placeOrder := placeOrder
  cancelOrder := cancelOrder
  getOrders v := .ok (v.book.map listed)
  getPositions _ := .ok []
  getAccount _ := { balance := 0, equity := 0 }
  getQuote _ symbol := .error s!"no quote for {symbol}"
  isHealthy _ := true
  setQuote v _ _ _ := v
  restoreRealizedPnl v _ := v
  reconnect v := v

theorem live_cancelOrder (v : LossyVenue) (id : BrokerOrderId) :
    (v.cancelOrder id).2.live = v.live.erase id := by
  show (v.book.eraseP (fun e => e.1 == id)).map Prod.fst = (v.book.map Prod.fst).erase id
  rw [List.erase_eq_eraseP', List.eraseP_map]
  rfl

theorem live_placeOrder (v : LossyVenue) (request : OrderRequest) :
    (v.placeOrder request).2.live = v.live ++ [(v.placeOrder request).1.brokerOrderId] := by
  simp [placeOrder, live]

/-- The venue is within the contract of a broker whose answers may be lost. -/
theorem losesAnswers : LosesAnswers live where
  cancel_ok v id result v' h := by
    obtain rfl : (v.cancelOrder id).2 = v' := congrArg Prod.snd h
    exact v.live_cancelOrder id
  cancel_error v id problem v' h := by
    obtain rfl : (v.cancelOrder id).2 = v' := congrArg Prod.snd h
    exact Or.inr (v.live_cancelOrder id)
  place_ok v request result v' h _ _ _ := by
    obtain ⟨rfl, rfl⟩ : (v.placeOrder request).1 = result ∧ (v.placeOrder request).2 = v' :=
      ⟨congrArg Prod.fst h, congrArg Prod.snd h⟩
    exact v.live_placeOrder request
  place_rejected v request result v' h _ hstatus := by
    obtain rfl : (v.placeOrder request).1 = result := congrArg Prod.fst h
    simp only [placeOrder] at hstatus
    split at hstatus <;> cases hstatus
  place_failed v request result v' h _ _ := by
    obtain rfl : (v.placeOrder request).2 = v' := congrArg Prod.snd h
    exact Or.inr ⟨_, v.live_placeOrder request⟩
  orders_truthful v orders h := by
    obtain rfl : v.book.map listed = orders := Except.ok.inj h
    constructor
    · intro id hid
      obtain ⟨e, he, rfl⟩ := List.mem_map.mp hid
      exact ⟨listed e, List.mem_map.mpr ⟨e, he, rfl⟩, rfl⟩
    · intro order hmem _
      obtain ⟨e, _, rfl⟩ := List.mem_map.mp hmem
      rfl

/-- The stop of a long of 100 at 100 lands at the venue and its answer is lost;
moving that stop from 95 to 96 places a second one. -/
theorem lost_answer_doubles_up :
    LosesAnswers live ∧ live { lost := [true] } = [] ∧
    ¬ Throughout changeStop (AtMostOneStop live)
      ({ lost := [true] }, { accountId := "u", symbol := "ACME" })
      [⟨100, some 95, 0⟩, ⟨100, some 96, 1⟩] := by
  refine ⟨losesAnswers, rfl, fun h => ?_⟩
  exact absurd h.last (by unfold AtMostOneStop; decide +kernel)

/-- With every answer arriving, the same two changes leave one stop. -/
theorem answered_changes_keep_one :
    LosesAnswers live ∧ live {} = [] ∧
    (Throughout changeStop (AtMostOneStop live) ({}, { accountId := "u", symbol := "ACME" })
        [⟨100, some 95, 0⟩, ⟨100, some 96, 1⟩] ↔
      Each changeStop (fun s c => ¬ DoublesUp live s c) ({}, { accountId := "u", symbol := "ACME" })
        [⟨100, some 95, 0⟩, ⟨100, some 96, 1⟩]) :=
  ⟨losesAnswers, rfl, atMostOneStop_iff losesAnswers rfl _⟩

end LossyVenue

end SuperTrading
