import SuperTrading.Api.PartialBatch
import SuperTrading.Logic.Netting
import SuperTrading.Trading.MockBook

/-!
# The Reducing Exemption

A request that only reduces is spared several checks of both evaluators. It earns
the exemption: whatever the broker fills, up to what was asked for, no position
grows or changes sides. The size of an order is clamped to what is open when it is
sent, and what was opposed before a fill is opposed, or flat, after it.

- **Layer A**: the relation between the stacks before and after
- **Layer B**: one order that faces a position
- **Layer C**: the two endpoints
- **Layer D**: two brokers that fill no more than asked
-/

namespace SuperTrading

open SuperTrading.Logic

variable {β : Type} [Broker β]

/-- What calls make of a broker. -/
inductive Broker.Becomes (broker : β) : β → Prop
  | same : Becomes broker broker
  | placed {b : β} (h : Becomes broker b) (request : OrderRequest) :
    Becomes broker (Broker.placeOrder b request).2
  | cancelled {b : β} (h : Becomes broker b) (id : BrokerOrderId) :
    Becomes broker (Broker.cancelOrder b id).2
  | quoted {b : β} (h : Becomes broker b) (symbol : Symbol) (ltp : ℚ) (isMarketPrint : Bool) :
    Becomes broker (Broker.setQuote b symbol ltp isMarketPrint)

theorem Broker.Becomes.trans {a b c : β} (h : Becomes a b) (h' : Becomes b c) : Becomes a c := by
  induction h' with
  | same => exact h
  | placed _ request ih => exact ih.placed request
  | cancelled _ id ih => exact ih.cancelled id
  | quoted _ symbol ltp isMarketPrint ih => exact ih.quoted symbol ltp isMarketPrint

/-- Whatever is called on it, the broker fills an order that is no stop for no more than was
asked. -/
def FillsAtMostRequested (broker : β) : Prop :=
  ∀ b, Broker.Becomes broker b → ∀ request : OrderRequest, request.triggerPrice = none →
    0 ≤ request.quantity → (Broker.placeOrder b request).1.filledQuantity ≤ request.quantity

theorem FillsAtMostRequested.later {broker b : β} (h : FillsAtMostRequested broker)
    (hb : Broker.Becomes broker b) : FillsAtMostRequested b := fun b' hb' => h b' (hb.trans hb')

/-- Guarding a position only calls the broker. -/
theorem becomes_ensureProtectiveStop (broker : β) (position : PositionRecord) (uuid : ℕ) :
    Broker.Becomes broker (ensureProtectiveStop broker position uuid).2.1 := by
  -- A stop of the position is cancelled first, where it has one.
  have hcancel : Broker.Becomes broker (cancelProtectiveStop broker position).2.1 := by
    unfold cancelProtectiveStop
    split
    · exact .same
    · rename_i id _
      have hcalled : Broker.Becomes broker (Broker.cancelOrder broker id).2 := .cancelled .same id
      split
      · rename_i h
        rwa [h] at hcalled
      · rename_i h
        rw [h] at hcalled
        split <;> exact hcalled
  -- Placing the new stop is one call, however it is answered.
  have hplace : ∀ (b : β) (p : PositionRecord), Broker.Becomes broker b →
      Broker.Becomes broker (placeProtectiveStop b p uuid).2.1 := by
    intro b p hb
    unfold placeProtectiveStop
    dsimp only
    split
    · exact hb.placed _
    · split <;> exact hb.placed _
  -- Where the cancel fails, no new stop is placed.
  unfold ensureProtectiveStop
  split
  · rename_i h
    rwa [h] at hcancel
  · rename_i h
    rw [h] at hcancel
    split
    · exact hplace _ _ hcancel
    · exact hcancel

namespace Stack

/-! ## Layer A: Reduced stacks -/

/-- The same user's stack, with every position still on record and none grown, and a broker that was
only called. -/
structure ReducedTo (s s' : Stack β) : Prop where
  user : s'.userId = s.userId
  broker : Broker.Becomes s.broker s'.broker
  recorded : ∀ symbol, (s.position symbol).isSome → (s'.position symbol).isSome
  shrinks : ∀ account symbol, Shrinks (s.positionManager.quantity account symbol)
    (s'.positionManager.quantity account symbol)

/-- There is a position, and an order on this side would reduce it, if it is not flat. -/
def Faces (s : Stack β) (symbol : Symbol) (direction : Direction) : Prop :=
  (s.position symbol).isSome ∧ s.holding symbol * direction.signed 1 ≤ 0

theorem ReducedTo.refl (s : Stack β) : s.ReducedTo s :=
  ⟨rfl, .same, fun _ h => h, fun _ _ => .refl _⟩

theorem ReducedTo.trans {s s' s'' : Stack β} (h : s.ReducedTo s') (h' : s'.ReducedTo s'') :
    s.ReducedTo s'' where
  user := h'.user.trans h.user
  broker := h.broker.trans h'.broker
  recorded symbol hs := h'.recorded symbol (h.recorded symbol hs)
  shrinks account symbol := (h.shrinks account symbol).trans (h'.shrinks account symbol)

/-- A change of anything but the positions reduces nothing. -/
theorem ReducedTo.of_positions {s s' : Stack β} (huser : s'.userId = s.userId)
    (hbroker : Broker.Becomes s.broker s'.broker)
    (hpositions : s'.positionManager = s.positionManager) : s.ReducedTo s' where
  user := huser
  broker := hbroker
  recorded symbol h := by
    unfold position at h ⊢
    rwa [huser, hpositions]
  shrinks account symbol := by
    rw [hpositions]
    exact .refl _

/-- What faced a position still faces what is left of it. -/
theorem Faces.mono {s s' : Stack β} {symbol : Symbol} {direction : Direction}
    (h : s.Faces symbol direction) (hs : s.ReducedTo s') : s'.Faces symbol direction := by
  refine ⟨hs.recorded symbol h.1, ?_⟩
  have hshrinks := hs.shrinks s.userId symbol
  unfold holding
  rw [hs.user]
  exact hshrinks.opposed h.2

omit [Broker β] in
theorem faces_of_opposes {s : Stack β} {symbol : Symbol} {direction : Direction}
    (h : s.opposes symbol direction = true) : s.Faces symbol direction := by
  unfold opposes at h
  cases hp : s.position symbol with
  | none => simp [hp] at h
  | some p =>
    refine ⟨by simp [hp], ?_⟩
    rw [holding_of_position hp]
    simp only [hp, PositionRecord.isOpen, PositionRecord.isLong, Bool.and_eq_true, bne_iff_ne,
      decide_eq_true_eq] at h
    obtain ⟨hopen, hside⟩ := h
    cases direction with
    | long =>
      have hle : p.quantity ≤ 0 := by simpa using hside
      simpa using hle
    | short =>
      have hshort : (Direction.short == Direction.long) = false := rfl
      have hlt : 0 < p.quantity := by simpa [hshort] using hside
      simpa using hlt.le

/-! ## Layer B: One order -/

/-- The book after the answer to an order of no more than is held against it. -/
theorem shrinks_answered (m : PositionManager) {order : OrderRecord} {result : OrderResult}
    (hside : m.quantity order.accountId order.symbol * order.direction.signed 1 ≤ 0)
    (hfill : result.filledQuantity ≤ |m.quantity order.accountId order.symbol|)
    (account : AccountId) (symbol : Symbol) :
    Shrinks (m.quantity account symbol) ((m.answered order result).quantity account symbol) := by
  unfold PositionManager.answered
  split
  · rename_i hfills
    have hpos : 0 < result.filledQuantity := (of_decide_eq_true hfills).2.2
    by_cases hkey : (order.accountId, order.symbol) = (account, symbol)
    · obtain ⟨rfl, rfl⟩ := Prod.mk.inj hkey
      rw [PositionManager.quantity_applyFill, if_pos rfl]
      apply shrinks_add
      · -- The fill is a positive multiple of one unit on its side.
        have hunit : order.direction.signed result.filledQuantity =
            order.direction.signed 1 * result.filledQuantity := by
          cases order.direction <;> simp
        rw [hunit, ← mul_assoc]
        exact mul_nonpos_of_nonpos_of_nonneg hside hpos.le
      · rw [Direction.abs_signed, abs_of_pos hpos]
        exact hfill
    · unfold PositionManager.quantity
      rw [PositionManager.get_applyFill, if_neg hkey]
      exact .refl _
  · exact .refl _

/-- Fills keep records. -/
theorem isSome_answered {m : PositionManager} {account : AccountId} {symbol : Symbol}
    (h : (m.get account symbol).isSome) (order : OrderRecord) (result : OrderResult) :
    ((m.answered order result).get account symbol).isSome := by
  unfold PositionManager.answered
  split
  · rw [PositionManager.get_applyFill]
    split
    · rfl
    · exact h
  · exact h

/-- **One order.** An order that faces its position, for no more than is held, leaves
a reduced stack. -/
theorem reducedTo_enterOrder {s s' : Stack β} (hbroker : FillsAtMostRequested s.broker)
    {now : Instant} {key : String} {symbol : Symbol} {direction : Direction}
    {orderType : OrderType} {quantity : ℚ} {price : Option ℚ} {detail : String}
    {order : OrderRecord} {created : Bool}
    (hfaces : s.Faces symbol direction) (hnonneg : 0 ≤ quantity)
    (hsize : quantity ≤ |s.holding symbol|)
    (h : s.enterOrder now key symbol direction orderType quantity price detail =
      .ok (order, created, s')) : s.ReducedTo s' := by
  -- A known key fills nothing; a new one fills at most what was asked.
  cases hkey : s.orderManager.lookup key with
  | some known =>
    rw [enterOrder_known hkey] at h
    cases h
    exact .refl s
  | none =>
    rw [enterOrder_new hkey] at h
    cases h
    set new := s.newOrder now key symbol direction orderType quantity price with hnew
    have hfilled : (Broker.placeOrder s.broker new.request).1.filledQuantity ≤
        |s.holding symbol| := (hbroker s.broker .same new.request rfl hnonneg).trans hsize
    exact
      { user := rfl
        broker := .placed .same _
        recorded := fun _ hs => isSome_answered hs _ _
        shrinks := shrinks_answered _ hfaces.2 hfilled }

/-! ## Layer C: The endpoints -/

theorem reducedTo_rollRiskWindow (s : Stack β) (now : Instant) :
    s.ReducedTo (s.rollRiskWindow now) := .of_positions rfl .same rfl

theorem reducedTo_seedQuote (s : Stack β) (symbol : Symbol) (ltp : ℚ) (print : Bool) :
    s.ReducedTo (s.seedQuote symbol ltp print) := by
  apply ReducedTo.of_positions
  · unfold seedQuote
    split <;> rfl
  · unfold seedQuote
    split
    · exact .quoted .same ..
    · exact .same
  · unfold seedQuote
    split <;> rfl

theorem reducedTo_journal (s : Stack β) (db : Db) (now : Instant) (before : Option PositionRecord)
    (after : PositionRecord) (order : OrderRecord) (stop target : Option ℚ) :
    s.ReducedTo (s.journal db now before after order stop target).1 := by
  unfold journal
  dsimp only
  split
  · exact .refl s
  · split
    · exact .of_positions rfl .same rfl
    · exact .refl s

/-- Storing a position back with the quantity it had. -/
theorem reducedTo_guarded {s : Stack β} {symbol : Symbol} {p p' : PositionRecord}
    (h : s.position symbol = some p) (hkey : p'.accountId = p.accountId)
    (hsymbol : p'.symbol = p.symbol) (hquantity : p'.quantity = p.quantity) {broker : β}
    (hbroker : Broker.Becomes s.broker broker) : s.ReducedTo (s.guarded broker p') where
  user := rfl
  broker := hbroker
  recorded j hj := by
    show ((s.positionManager.put p').get _ _).isSome
    rw [PositionManager.get_put]
    split
    · rfl
    · exact hj
  shrinks account j := by
    show Shrinks _ ((s.positionManager.put p').quantity account j)
    rw [PositionManager.quantity_put_of_get h hkey hsymbol hquantity]
    exact .refl _

theorem reducedTo_guardPosition {s : Stack β} {r : PlaceOrderRequest} {after : PositionRecord}
    (h : s.position r.symbol = some after) (created : Bool) (order : OrderRecord) :
    s.ReducedTo (s.guardPosition r created order after).1 := by
  have hstop : (withStop after r).accountId = after.accountId ∧
      (withStop after r).symbol = after.symbol ∧ (withStop after r).quantity = after.quantity := by
    unfold withStop
    split <;> exact ⟨rfl, rfl, rfl⟩
  unfold guardPosition
  dsimp only
  split
  · have hsame := ensureProtectiveStop_sameButStop s.broker (withStop after r)
      s.orderManager.nextId
    exact reducedTo_guarded h (hsame.accountId_eq.trans hstop.1) (hsame.symbol_eq.trans hstop.2.1)
      (hsame.quantity_eq.trans hstop.2.2) (becomes_ensureProtectiveStop ..)
  · exact reducedTo_guarded h hstop.1 hstop.2.1 hstop.2.2 .same

theorem holding_seedQuote (s : Stack β) (symbol j : Symbol) (ltp : ℚ) (print : Bool) :
    (s.seedQuote symbol ltp print).holding j = s.holding j := by
  unfold seedQuote
  split <;> rfl

/-- A reducing order is sized for no more than is held. -/
theorem orderQuantity_le {s : Stack β} {r : PlaceOrderRequest}
    (h : s.opposes r.symbol r.direction = true) :
    0 ≤ s.orderQuantity r ∧ s.orderQuantity r ≤ |s.holding r.symbol| := by
  unfold orderQuantity
  dsimp only
  rw [if_pos h]
  split
  · exact ⟨abs_nonneg _, le_refl _⟩
  · rename_i hpos
    exact ⟨(not_le.mp hpos).le, min_le_right _ _⟩

end Stack

namespace World

/-- The order of a reducing request, and everything done about it. -/
theorem reducedTo_settle {s : Stack β} (hbroker : FillsAtMostRequested s.broker)
    {r : PlaceOrderRequest}
    (h : s.opposes r.symbol r.direction = true) (db : Db) (env : CallEnv) :
    s.ReducedTo (settle s db env r).2.1.stack := by
  obtain ⟨hnonneg, hsize⟩ := Stack.orderQuantity_le h
  unfold settle
  dsimp only
  split
  · exact .refl s
  · rename_i order created s' henter
    have hentered : s.ReducedTo s' :=
      Stack.reducedTo_enterOrder hbroker (Stack.faces_of_opposes h) hnonneg hsize henter
    split
    · exact hentered
    · rename_i after hafter
      exact (hentered.trans (Stack.reducedTo_guardPosition hafter created order)).trans
        (Stack.reducedTo_journal ..)

/-- `POST /orders` evaluates the request with `is_reducing`. -/
def OrderReduces (w : World β) (env : CallEnv) (r : PlaceOrderRequest) : Prop :=
  ∀ ltp, ((w.stack.prepared env r).tradeProposal env r ltp).isReducing = true

/-- `POST /options/execute` evaluates the strategy with `is_reducing`. -/
def StrategyReduces (w : World β) (env : OptionsEnv) (r : ExecuteOptionsStrategyRequest) : Prop :=
  ∀ legs payoff, r.legs.mapM (resolveLeg env) = .ok legs →
    ((w.stack.rollRiskWindow env.now).optionsProposal env legs payoff).isReducing = true

theorem reducedTo_placeOrder {w : World β} (hbroker : FillsAtMostRequested w.stack.broker)
    {env : CallEnv} {r : PlaceOrderRequest} (h : w.OrderReduces env r) :
    w.stack.ReducedTo (w.placeOrder env r).world.stack := by
  have hprepared : w.stack.ReducedTo (w.stack.prepared env r) :=
    (Stack.reducedTo_rollRiskWindow ..).trans (Stack.reducedTo_seedQuote ..)
  rcases w.stack.gate_cases env r with ⟨refusal, s', decision, hgate, hs', -⟩ |
    ⟨quote, decision, hgate, -, -, -⟩
  · simp only [placeOrder, hgate]
    rcases hs' with rfl | rfl | rfl
    · exact .refl _
    · exact Stack.reducedTo_rollRiskWindow ..
    · exact hprepared
  · simp only [placeOrder, hgate]
    exact hprepared.trans (reducedTo_settle (hbroker.later hprepared.broker) (h 0) ..)

/-- What shrank opened no exposure. -/
theorem openedQuantity_of_shrinks {before after : ℚ} (h : Shrinks before after) :
    openedQuantity before after = 0 := by
  unfold openedQuantity
  split
  · rfl
  rename_i hafter
  have hbefore : before ≠ 0 := by
    rintro rfl
    exact hafter (abs_nonpos_iff.mp (by simpa using h.1))
  have hside : decide (0 < before) = decide (0 < after) := by
    rw [decide_eq_decide]
    exact (Lot.sameSide_iff hbefore hafter).mpr h.2
  rw [if_neg (not_or.mpr ⟨hbefore, not_not.mpr hside⟩)]
  exact max_eq_left (by linarith [h.1])

omit [Broker β] in
/-- A leg of a reducing batch is clamped to what is held. -/
theorem legQuantity_le {s : Stack β} {leg : ResolvedLeg} (h : s.Faces leg.symbol leg.direction) :
    0 ≤ legQuantity s true leg ∧ legQuantity s true leg ≤ |s.holding leg.symbol| := by
  obtain ⟨p, hp⟩ := Option.isSome_iff_exists.mp h.1
  have hquantity : legQuantity s true leg = min leg.units |p.quantity| := by
    simp [legQuantity, hp]
  rw [hquantity, Stack.holding_of_position hp]
  exact ⟨le_min leg.units_pos.le (abs_nonneg _), min_le_right _ _⟩

/-- One leg of a reducing batch: a reduced stack, and nothing opened. -/
theorem reducedTo_submitLeg {w w' : World β} (hbroker : FillsAtMostRequested w.stack.broker)
    {now : Instant} {symbol : Symbol} {direction : Direction} {premium quantity : ℚ}
    {key reason : String} {order : OrderRecord} {opened : ℚ}
    (hfaces : w.stack.Faces symbol direction)
    (hnonneg : 0 ≤ quantity) (hsize : quantity ≤ |w.stack.holding symbol|)
    (h : w.submitLeg now symbol direction premium quantity key reason = .ok (order, opened, w')) :
    w.stack.ReducedTo w'.stack ∧ opened = 0 := by
  have hseed : w.stack.ReducedTo (w.stack.seedPremium symbol premium) :=
    Stack.reducedTo_seedQuote ..
  have hbefore : (w.stack.seedPremium symbol premium).holding symbol = w.stack.holding symbol :=
    Stack.holding_seedQuote ..
  unfold submitLeg at h
  dsimp only at h
  split at h
  · cases h
  · rename_i entered created s' henter
    have hentered : (w.stack.seedPremium symbol premium).ReducedTo s' :=
      Stack.reducedTo_enterOrder (hbroker.later hseed.broker) (hfaces.mono hseed) hnonneg
        (by rwa [hbefore]) henter
    split at h
    · cases h
      exact ⟨hseed.trans hentered, rfl⟩
    · rename_i after hafter
      cases h
      -- The opened exposure is read off the leg's own before and after.
      refine ⟨(hseed.trans hentered).trans (Stack.reducedTo_journal ..), ?_⟩
      split
      · -- What shrank opened nothing.
        have hshrinks : Shrinks ((w.stack.seedPremium symbol premium).holding symbol)
            (s'.holding symbol) := by
          unfold Stack.holding
          rw [hentered.user]
          exact hentered.shrinks _ symbol
        rw [Stack.holding_of_position hafter] at hshrinks
        exact openedQuantity_of_shrinks hshrinks
      · rfl

/-- The legs of a reducing batch, each against the book as the legs before left it. -/
theorem reducedTo_submitLegs {now : Instant} {batchId : String} (legs : List ResolvedLeg)
    {w w' : World β} {results : List LegExecutionResult} {opened : List OpenedLeg}
    (hbroker : FillsAtMostRequested w.stack.broker)
    (hfaces : ∀ leg ∈ legs, w.stack.Faces leg.symbol leg.direction)
    (h : submitLegs now batchId true w legs = .ok (results, opened, w')) :
    w.stack.ReducedTo w'.stack ∧ opened = [] := by
  induction legs generalizing w results opened with
  | nil =>
    cases h
    exact ⟨.refl _, rfl⟩
  | cons leg legs ih =>
    have hleg := hfaces leg List.mem_cons_self
    obtain ⟨hnonneg, hsize⟩ := legQuantity_le hleg
    simp only [submitLegs, bind, Except.bind] at h
    split at h
    · cases h
    rename_i answer hanswer
    obtain ⟨order, openedHere, w₁⟩ := answer
    obtain ⟨hreduced, hnone⟩ := reducedTo_submitLeg hbroker hleg hnonneg hsize hanswer
    dsimp only at h
    split at h
    · cases h
    rename_i rest hrest
    obtain ⟨laterResults, openedLater, w₂⟩ := rest
    cases h
    -- The later legs still face their positions, whatever this one filled.
    obtain ⟨hlater, hnoneLater⟩ := ih (hbroker.later hreduced.broker)
      (fun leg' hmem => (hfaces leg' (List.mem_cons_of_mem _ hmem)).mono hreduced) hrest
    refine ⟨hreduced.trans hlater, ?_⟩
    rw [hnone, hnoneLater, if_neg (lt_irrefl 0)]
    rfl

/-- The remediation has nothing to unwind, and leaves the book alone. -/
theorem remediatePartialBatch_of_nothing_opened {w w' : World β} {now : Instant}
    {batchId strategyName : String} {results : List LegExecutionResult} {intact : Bool}
    {lines : List String} {halted : Option String}
    (h : w.remediatePartialBatch now batchId strategyName results [] =
      .ok (intact, lines, halted, w')) : w' = w := by
  unfold remediatePartialBatch at h
  dsimp only at h
  -- Every branch that would trade needs an opened leg.
  split at h
  · cases h
    rfl
  split at h
  · cases h
    rfl
  split at h
  · cases h
    rfl
  · simp only [unwindLegs, bind, Except.bind, pure, Except.pure] at h
    cases h
    rfl

theorem reducedTo_executeOptionsStrategy {w : World β}
    (hbroker : FillsAtMostRequested w.stack.broker) {env : OptionsEnv}
    {r : ExecuteOptionsStrategyRequest} (h : w.StrategyReduces env r) :
    w.stack.ReducedTo (w.executeOptionsStrategy env r).world.stack := by
  have hrolled := Stack.reducedTo_rollRiskWindow w.stack env.now
  rcases w.stack.optionsGate_cases env r with ⟨refusal, s', decision, hgate, hs', -⟩ |
    ⟨approved, decision, hgate, hlegs, -, -⟩
  · simp only [executeOptionsStrategy, hgate]
    rcases hs' with rfl | rfl
    · exact .refl _
    · exact hrolled
  · -- The flag was set once, for all legs, on the book before the first of them.
    have hreduces : (w.stack.rollRiskWindow env.now).reduces approved.legs = true :=
      h approved.legs approved.payoff hlegs
    have hall : ∀ leg ∈ approved.legs,
        (w.stack.rollRiskWindow env.now).Faces leg.symbol leg.direction := by
      intro leg hmem
      have hopposes := (Bool.and_eq_true_iff.mp hreduces).2
      exact Stack.faces_of_opposes (List.all_eq_true.mp hopposes leg hmem)
    simp only [executeOptionsStrategy, hgate]
    split
    · exact hrolled
    · rename_i response halted w' hexecute
      simp only [executeLegs, hreduces, bind, Except.bind, pure, Except.pure] at hexecute
      split at hexecute
      · cases hexecute
      rename_i submitted hsubmitted
      obtain ⟨results, opened, w₁⟩ := submitted
      obtain ⟨hreduced, rfl⟩ := reducedTo_submitLegs
        (w := { w with stack := w.stack.rollRiskWindow env.now }) approved.legs
        (hbroker.later hrolled.broker) hall hsubmitted
      dsimp only at hexecute
      split at hexecute
      · cases hexecute
      rename_i remediated hremediated
      obtain ⟨intact, lines, halted', w₂⟩ := remediated
      cases hexecute
      rw [remediatePartialBatch_of_nothing_opened hremediated]
      exact hrolled.trans hreduced

end World

/-- **The reducing exemption is safe.** A request of either endpoint that is
evaluated as reducing leaves no position larger or on the other side. -/
theorem reducing_requests_shrink (w : World β) (hbroker : FillsAtMostRequested w.stack.broker) :
    (∀ env r, w.OrderReduces env r → ∀ account symbol,
      Shrinks (w.stack.positionManager.quantity account symbol)
        ((w.placeOrder env r).world.stack.positionManager.quantity account symbol)) ∧
    (∀ env r, w.StrategyReduces env r → ∀ account symbol,
      Shrinks (w.stack.positionManager.quantity account symbol)
        ((w.executeOptionsStrategy env r).world.stack.positionManager.quantity account symbol)) :=
  ⟨fun _ _ h => (World.reducedTo_placeOrder hbroker h).shrinks,
    fun _ _ h => (World.reducedTo_executeOptionsStrategy hbroker h).shrinks⟩

/-! ## Layer D: Two brokers -/

theorem ScriptedVenue.fillsAtMostRequested (venue : ScriptedVenue) :
    FillsAtMostRequested venue := by
  intro b _ request _ hnonneg
  show (b.answer request.quantity _).filledQuantity ≤ request.quantity
  cases b.script.headD .filled with
  | filled => exact le_refl _
  | partlyFilled quantity => exact min_le_right _ _
  | pending => exact hnonneg
  | rejected reason => exact hnonneg
  | unanswered => exact hnonneg

namespace MockBroker

/-- A fill leaves the odds of the next ones. -/
theorem partialFillProbability_applyFillToPosition (b : MockBroker) (symbol : Symbol)
    (direction : Direction) (quantity price : ℚ) :
    (b.applyFillToPosition symbol direction quantity price).partialFillProbability =
      b.partialFillProbability := by
  obtain ⟨positions, balance, heq⟩ :=
    applyFillToPosition_frame b symbol direction quantity price
  rw [heq]

theorem partialFillProbability_triggerRestingOrders (b : MockBroker) (symbol : Symbol) (ltp : ℚ) :
    (b.triggerRestingOrders symbol ltp).partialFillProbability = b.partialFillProbability := by
  unfold triggerRestingOrders
  generalize b.resting.entries = entries
  induction entries generalizing b with
  | nil => rfl
  | cons entry entries ih =>
    rw [List.foldl_cons, ih]
    split
    · exact partialFillProbability_applyFillToPosition ..
    · rfl

/-- Without simulated part fills an order fills in full. -/
theorem fillOrder_of_full {b : MockBroker} (hfull : b.partialFillProbability = 0)
    (id : BrokerOrderId) (request : OrderRequest) (price : ℚ) :
    (b.fillOrder id request price).1.filledQuantity = request.quantity ∧
      (b.fillOrder id request price).2.partialFillProbability = 0 := by
  have hnever : ¬ 0 < b.partialFillProbability := by simp [hfull]
  unfold fillOrder
  simp only [if_neg hnever, partialFillProbability_applyFillToPosition]
  exact ⟨trivial, hfull⟩

/-- Without simulated part fills, an order that is no stop fills in full or not at all. -/
theorem placeOrder_of_full {b : MockBroker} (hfull : b.partialFillProbability = 0)
    (request : OrderRequest) :
    (b.placeOrder request).2.partialFillProbability = 0 ∧
      (request.triggerPrice = none → 0 ≤ request.quantity →
        (b.placeOrder request).1.filledQuantity ≤ request.quantity) := by
  unfold placeOrder
  dsimp only [uuid4]
  -- The draw for a rejection moves the draws alone.
  generalize hdrawn : (if 0 < b.rejectProbability then _ else _ : Bool × MockBroker) = drawn
  have hdrawnFull : drawn.2.partialFillProbability = 0 := by
    rw [← hdrawn]
    split <;> exact hfull
  split
  · exact ⟨hdrawnFull, fun _ hnonneg => hnonneg⟩
  split
  · rename_i hstop
    refine ⟨?_, fun hplain => by simp [hplain] at hstop⟩
    unfold placeStop
    dsimp only
    split
    · exact (partialFillProbability_triggerRestingOrders ..).trans hdrawnFull
    · exact hdrawnFull
  split
  · exact ⟨hdrawnFull, fun _ hnonneg => hnonneg⟩
  · obtain ⟨hfilled, hkept⟩ := fillOrder_of_full hdrawnFull (.uuid b.nextId) request ‹ℚ›
    exact ⟨hkept, fun _ _ => hfilled.le⟩

/-- No call makes the fills partial. -/
theorem full_of_becomes {b b' : MockBroker} (hfull : b.partialFillProbability = 0)
    (h : Broker.Becomes b b') : b'.partialFillProbability = 0 := by
  induction h with
  | same => exact hfull
  | placed _ request ih => exact (placeOrder_of_full ih request).1
  | @cancelled c _ id ih =>
    show (c.cancelOrder id).2.partialFillProbability = 0
    unfold cancelOrder
    split
    · exact ih
    · split <;> exact ih
  | @quoted c _ symbol ltp isMarketPrint ih =>
    show (c.setQuote symbol ltp isMarketPrint).partialFillProbability = 0
    unfold setQuote
    dsimp only
    split
    · exact (partialFillProbability_triggerRestingOrders ..).trans ih
    · exact ih

/-- The broker of an account without a connection, as `resolve_broker` builds it, is one. -/
theorem fillsAtMostRequested {b : MockBroker} (hfull : b.partialFillProbability = 0) :
    FillsAtMostRequested b := by
  intro b' hb' request hplain hnonneg
  exact (placeOrder_of_full (full_of_becomes hfull hb') request).2 hplain hnonneg

end MockBroker

/-- The holder of a spread on paper. -/
def World.paperSpreadHolder : World MockBroker :=
  let db : Db :=
    { positions := [World.heldLot "ACME-100-CE" 50, World.heldLot "ACME-110-CE" (-50)].map
        fun row => { row with executionMode := .paper } }
  { stack := Stack.build "u" (MockBroker.new 100000) db 0, db := db }

/-- The holder of a spread sells its long leg through the one endpoint, and closes
the spread through the other, at a venue and on paper. -/
theorem spreadHolder_shrinks :
    (∀ symbol, Shrinks (World.spreadHolder.stack.positionManager.quantity "u" symbol)
      ((World.spreadHolder.placeOrder { now := 0, priceAgeSeconds := some 0 }
        (.market "ACME-100-CE" .short 6 7)).world.stack.positionManager.quantity "u" symbol)) ∧
    (∀ symbol, Shrinks (World.spreadHolder.stack.positionManager.quantity "u" symbol)
      ((World.spreadHolder.executeOptionsStrategy { now := 0, instrument := World.callChain }
        World.closeSpread).world.stack.positionManager.quantity "u" symbol)) ∧
    (∀ symbol, Shrinks (World.paperSpreadHolder.stack.positionManager.quantity "u" symbol)
      ((World.paperSpreadHolder.placeOrder { now := 0, priceAgeSeconds := some 0 }
        (.market "ACME-100-CE" .short 6 7)).world.stack.positionManager.quantity "u" symbol)) ∧
    (∀ symbol, Shrinks (World.paperSpreadHolder.stack.positionManager.quantity "u" symbol)
      ((World.paperSpreadHolder.executeOptionsStrategy { now := 0, instrument := World.callChain }
        World.closeSpread).world.stack.positionManager.quantity "u" symbol)) := by
  have hvenue := reducing_requests_shrink World.spreadHolder
    (ScriptedVenue.fillsAtMostRequested World.spreadHolder.stack.broker)
  have hpaper := reducing_requests_shrink World.paperSpreadHolder
    (MockBroker.fillsAtMostRequested (b := World.paperSpreadHolder.stack.broker) rfl)
  -- Both requests oppose what is held, whatever the price and the broker.
  refine ⟨hvenue.1 _ _ ?_ "u", hvenue.2 _ _ ?_ "u", hpaper.1 _ _ ?_ "u", hpaper.2 _ _ ?_ "u"⟩
  · intro ltp
    show World.spreadHolder.stack.opposes "ACME-100-CE" .short = true
    decide +kernel
  · intro legs payoff hlegs
    show (World.spreadHolder.stack.rollRiskWindow 0).reduces legs = true
    cases hlegs
    decide +kernel
  · intro ltp
    show World.paperSpreadHolder.stack.opposes "ACME-100-CE" .short = true
    decide +kernel
  · intro legs payoff hlegs
    show (World.paperSpreadHolder.stack.rollRiskWindow 0).reduces legs = true
    cases hlegs
    decide +kernel

end SuperTrading
