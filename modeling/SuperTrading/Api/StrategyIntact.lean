import SuperTrading.Api.Unwind
import SuperTrading.Api.RejectionBreaker

/-!
# What strategy_intact Says

The order index of a stack answers a known key with the order that has it. A leg's key
is made of its batch's id and its symbol, so a response may call a strategy intact
because of orders that other legs placed. Where no two legs share a key but the same leg
of an identical request, every leg of an intact strategy was executed.

- **Learning**: the keys that a call adds to the index
- **Legs**: the ends of a batch, and its submissions
- **Histories**: requests in any order, and where the known keys come from
- **Intact strategies**: the run theorem, and a batch that names a contract twice
-/

namespace SuperTrading

open SuperTrading.Logic

variable {β : Type} [Broker β]

/-! ## Section 1: Learning -/

namespace Stack

/-- Every key that the later index knows was known before, or is new in the given way. -/
structure Learns (s s' : Stack β) (new : String → OrderRecord → Prop) : Prop where
  user : s'.userId = s.userId
  orders : ∀ key order, s'.orderManager.lookup key = some order →
    s.orderManager.lookup key = some order ∨ new key order

variable {new : String → OrderRecord → Prop}

omit [Broker β] in
theorem Learns.refl (s : Stack β) : s.Learns s new := ⟨rfl, fun _ _ h => Or.inl h⟩

omit [Broker β] in
theorem Learns.trans {a b c : Stack β} (h : a.Learns b new) (h' : b.Learns c new) :
    a.Learns c new where
  user := h'.user.trans h.user
  orders key order hlookup := by
    rcases h'.orders key order hlookup with hold | hnew
    · exact h.orders key order hold
    · exact Or.inr hnew

omit [Broker β] in
theorem Learns.mono {s s' : Stack β} {new' : String → OrderRecord → Prop} (h : s.Learns s' new)
    (hnew : ∀ key order, new key order → new' key order) : s.Learns s' new' where
  user := h.user
  orders key order hlookup := (h.orders key order hlookup).imp_right (hnew key order)

omit [Broker β] in
theorem Learns.of_same {s s' : Stack β} (huser : s'.userId = s.userId)
    (horders : s'.orderManager = s.orderManager) : s.Learns s' new where
  user := huser
  orders key order hlookup := Or.inl (by rwa [horders] at hlookup)

omit [Broker β] in
theorem Learns.of_still {s s' : Stack β} (h : s.Still s') : s.Learns s' new :=
  .of_same h.user h.orders

omit [Broker β] in
theorem Learns.of_fills {s s' : Stack β} {key : String} {symbol : Symbol} {direction : Direction}
    {order : OrderRecord} {filled : ℚ} (h : s.Fills s' key symbol direction order filled)
    (hnew : new key order) : s.Learns s' new where
  user := h.user
  orders key' order' hlookup := by
    rw [h.orders] at hlookup
    split at hlookup
    · rename_i heq
      cases hlookup
      rw [← heq]
      exact Or.inr hnew
    · exact Or.inl hlookup

theorem still_prepared (s : Stack β) (env : CallEnv) (r : PlaceOrderRequest) :
    s.Still (s.prepared env r) := by
  have hrolled : s.Still (s.rollRiskWindow env.now) := ⟨rfl, rfl, rfl⟩
  exact hrolled.trans (still_seedQuote ..)

theorem learns_guardPosition (s : Stack β) (r : PlaceOrderRequest) (created : Bool)
    (order : OrderRecord) (after : PositionRecord) :
    s.Learns (s.guardPosition r created order after).1 new := by
  unfold guardPosition
  dsimp only
  split <;> exact .of_same rfl rfl

end Stack

namespace World

/-- A leg teaches the index at most its own key, with the order that its answer settles. -/
theorem learns_submitLeg (w : World β) (now : Instant) (symbol : Symbol) (direction : Direction)
    (premium quantity : ℚ) (key reason : String) :
    ∃ order opened w', w.submitLeg now symbol direction premium quantity key reason =
        .ok (order, opened, w') ∧
      w.stack.Learns w'.stack fun key' order => key' = key ∧
        w.stack.orderManager.lookup key = none ∧
        order.status = settledStatus quantity
          (w.stack.legAnswer now key symbol direction premium quantity) := by
  cases h : w.stack.orderManager.lookup key with
  | some known =>
    obtain ⟨w', hleg, hstill⟩ := submitLeg_known h now symbol direction premium quantity reason
    exact ⟨_, _, _, hleg, .of_still hstill⟩
  | none =>
    obtain ⟨order, w', hleg, hstatus, hfills⟩ := submitLeg_new h now symbol direction premium
      quantity reason
    exact ⟨_, _, _, hleg, .of_fills hfills ⟨rfl, rfl, hstatus⟩⟩

/-- So the other keys of the index stay as they are. -/
theorem learns_afterLeg (w : World β) (now : Instant) (batchId : String) (reducing : Bool)
    (leg : ResolvedLeg) :
    w.stack.Learns (w.afterLeg now batchId reducing leg).stack fun key order =>
      key = legKey w.stack.userId batchId leg.symbol ∧
      w.stack.orderManager.lookup key = none ∧
      order.status = settledStatus (legQuantity w.stack reducing leg)
        (w.stack.legAnswer now key leg.symbol leg.direction leg.premium
          (legQuantity w.stack reducing leg)) := by
  obtain ⟨order, opened, w', hleg, hlearns⟩ := w.learns_submitLeg now leg.symbol leg.direction
    leg.premium (legQuantity w.stack reducing leg) (legKey w.stack.userId batchId leg.symbol)
    s!"options strategy batch {batchId}"
  simp only [afterLeg, hleg]
  apply hlearns.mono
  rintro key order ⟨rfl, hnone, hstatus⟩
  exact ⟨rfl, hnone, hstatus⟩

/-- Any order of a key that the submitted legs do not use is as it was. -/
theorem lookup_afterLeg (w : World β) (now : Instant) (batchId : String) (reducing : Bool)
    (leg : ResolvedLeg) {key : String} (h : key ≠ legKey w.stack.userId batchId leg.symbol) :
    (w.afterLeg now batchId reducing leg).stack.orderManager.lookup key =
      w.stack.orderManager.lookup key := by
  unfold afterLeg
  cases hkey : w.stack.orderManager.lookup (legKey w.stack.userId batchId leg.symbol) with
  | some known =>
    obtain ⟨w', hleg, hstill⟩ := submitLeg_known hkey now leg.symbol leg.direction leg.premium
      (legQuantity w.stack reducing leg) s!"options strategy batch {batchId}"
    simp only [hleg, hstill.orders]
  | none =>
    obtain ⟨order, w', hleg, -, hfills⟩ := submitLeg_new hkey now leg.symbol leg.direction
      leg.premium (legQuantity w.stack reducing leg) s!"options strategy batch {batchId}"
    simp only [hleg, hfills.orders, if_neg h.symm]

/-! ## Section 2: Legs -/

/-- The leg is filled completely by this submission of it. -/
def LegSubmission.Complete (x : LegSubmission) : Prop :=
  ∃ result, x.answer = some result ∧ x.quantity ≤ result.filled

/-- An established end says that the broker filled all of it. -/
theorem le_filled_of_established {quantity : ℚ} {result : OrderResult}
    (h : (settledStatus quantity result).isEstablished = true) : quantity ≤ result.filled := by
  unfold settledStatus at h
  unfold OrderResult.filled OrderResult.fills
  split_ifs at h ⊢ <;> grind [OrderStatus.isEstablished]

/-- The order of a key that a batch has just taught the index: a leg of it had that key,
and the order ended as the broker's answer to the leg settles. -/
def PlacedBy (userId : AccountId) (batchId : String) (xs : List LegSubmission) (key : String)
    (order : OrderRecord) : Prop :=
  ∃ x ∈ xs, key = legKey userId batchId x.leg.symbol ∧
    ∃ result, x.answer = some result ∧ order.status = settledStatus x.quantity result

theorem PlacedBy.complete {userId : AccountId} {batchId key : String} {xs : List LegSubmission}
    {order : OrderRecord} (h : PlacedBy userId batchId xs key order)
    (hestablished : order.status.isEstablished = true) :
    ∃ x ∈ xs, key = legKey userId batchId x.leg.symbol ∧ x.Complete := by
  obtain ⟨x, hx, hkey, result, hanswer, hstatus⟩ := h
  rw [hstatus] at hestablished
  exact ⟨x, hx, hkey, result, hanswer, le_filled_of_established hestablished⟩

/-- What the legs of a batch teach the index. -/
theorem learns_submitLegs (now : Instant) (batchId : String) (reducing : Bool)
    (legs : List ResolvedLeg) (w : World β) :
    ∃ results opened w', submitLegs now batchId reducing w legs = .ok (results, opened, w') ∧
      w.stack.Learns w'.stack
        (PlacedBy w.stack.userId batchId (submissions now batchId reducing w legs)) := by
  induction legs generalizing w with
  | nil => exact ⟨_, _, _, rfl, .refl _⟩
  | cons leg legs ih =>
    have hlearns := w.learns_afterLeg now batchId reducing leg
    obtain ⟨order, opened, w₁, hleg, -⟩ := w.submitLeg_ok now leg.symbol leg.direction leg.premium
      (legQuantity w.stack reducing leg) (legKey w.stack.userId batchId leg.symbol)
      s!"options strategy batch {batchId}"
    have hafter : w.afterLeg now batchId reducing leg = w₁ := by simp only [afterLeg, hleg]
    rw [hafter] at hlearns
    obtain ⟨results, openedLegs, w₂, hlegs, hlater⟩ := ih w₁
    refine ⟨⟨leg.symbol, order.id, order.status, order.rejectionReason⟩ :: results,
      (if 0 < opened then [⟨leg.symbol, leg.direction, opened, leg.premium⟩] else []) ++ openedLegs,
      w₂, ?_, ?_⟩
    · simp only [submitLegs, hleg, hlegs, bind, Except.bind, pure, Except.pure]
    · rw [hlearns.user] at hlater
      simp only [submissions, hafter]
      -- What the first leg taught, then what the others did.
      apply Stack.Learns.trans (b := w₁.stack)
      · apply hlearns.mono
        rintro key order ⟨rfl, hnone, hstatus⟩
        exact ⟨_, List.mem_cons_self, rfl, _, by simp [hnone], hstatus⟩
      · apply hlater.mono
        rintro key order ⟨x, hx, hplaced⟩
        exact ⟨x, List.mem_cons_of_mem _ hx, hplaced⟩

/-- How the legs of a batch over pairwise distinct symbols end: as the answer to a new
key settles, or as the order that already had the key stands. -/
theorem legEnds_submissions (now : Instant) (batchId : String) (reducing : Bool)
    (legs : List ResolvedLeg) (w : World β) (hsymbols : (legs.map fun leg => leg.symbol).Nodup) :
    List.Forall₂ (fun status x => x.leg ∈ legs ∧
      ((∃ result, x.answer = some result ∧ status = settledStatus x.quantity result) ∨
      ∃ order, w.stack.orderManager.lookup (legKey w.stack.userId batchId x.leg.symbol) =
        some order ∧ order.status = status))
      (legEnds now batchId reducing w legs) (submissions now batchId reducing w legs) := by
  induction legs generalizing w with
  | nil => exact .nil
  | cons leg legs ih =>
    obtain ⟨hhead, htail⟩ := List.nodup_cons.mp hsymbols
    refine .cons ⟨List.mem_cons_self, ?_⟩ ?_
    · have hseed := w.stack.still_seedQuote leg.symbol leg.premium true
      rw [Stack.orderEnd, Stack.seedPremium, hseed.orders]
      dsimp only
      cases hkey : w.stack.orderManager.lookup (legKey w.stack.userId batchId leg.symbol) with
      | some order => exact Or.inr ⟨order, rfl, rfl⟩
      | none => exact Or.inl ⟨_, rfl, rfl⟩
    · -- The keys of the legs that follow are other keys.
      have huser := (w.learns_afterLeg now batchId reducing leg).user
      have hrest := ih (w.afterLeg now batchId reducing leg) htail
      rw [huser] at hrest
      apply hrest.imp
      rintro status x ⟨hmem, hend⟩
      refine ⟨List.mem_cons_of_mem _ hmem, ?_⟩
      have hne : legKey w.stack.userId batchId x.leg.symbol ≠
          legKey w.stack.userId batchId leg.symbol := by
        intro heq
        exact hhead (List.mem_map.mpr ⟨x.leg, hmem, legKey_injective _ _ heq⟩)
      rwa [lookup_afterLeg w now batchId reducing leg hne] at hend

/-- The unwind orders teach the index keys of unwind orders. -/
theorem learns_unwindLegs (now : Instant) (batchId : String) (legs : List OpenedLeg)
    (w : World β) :
    ∃ lines w', unwindLegs now batchId w legs = .ok (lines, w') ∧
      w.stack.Learns w'.stack fun key _ =>
        ∃ symbol, key = unwindKey w.stack.userId batchId symbol := by
  induction legs generalizing w with
  | nil => exact ⟨_, _, rfl, .refl _⟩
  | cons leg legs ih =>
    unfold unwindLegs
    dsimp only
    split
    · obtain ⟨lines, w', hlegs, hlearns⟩ := ih w
      simp only [hlegs, bind, Except.bind, pure, Except.pure]
      exact ⟨_, _, rfl, hlearns⟩
    · obtain ⟨order, opened, w₁, hleg, hfirst⟩ := w.learns_submitLeg now leg.symbol
        leg.direction.opposite leg.premium (min leg.quantity |w.stack.holding leg.symbol|)
        (unwindKey w.stack.userId batchId leg.symbol)
        s!"unwinding partially executed options batch {batchId}"
      obtain ⟨lines, w', hlegs, hlater⟩ := ih w₁
      -- The user is the same for the legs behind, and so are the keys.
      rw [hfirst.user] at hlater
      simp only [hleg, hlegs, bind, Except.bind, pure, Except.pure]
      refine ⟨_, _, rfl, .trans ?_ hlater⟩
      apply hfirst.mono
      rintro key order ⟨rfl, -⟩
      exact ⟨leg.symbol, rfl⟩

/-- The remediation calls only a batch of established legs intact, and teaches the index
at most keys of unwind orders. -/
theorem learns_remediatePartialBatch (w : World β) (now : Instant) (batchId strategyName : String)
    (results : List LegExecutionResult) (opened : List OpenedLeg) :
    ∃ intact lines halted w',
      w.remediatePartialBatch now batchId strategyName results opened =
        .ok (intact, lines, halted, w') ∧
      (intact = true → Intact (results.map LegExecutionResult.status)) ∧
      w.stack.Learns w'.stack fun key _ =>
        ∃ symbol, key = unwindKey w.stack.userId batchId symbol := by
  unfold remediatePartialBatch
  dsimp only
  split
  · rename_i hall
    refine ⟨_, _, _, _, rfl, fun _ => ?_, .refl _⟩
    -- As many established as there are: each one is.
    have hevery := List.length_filter_eq_length_iff.mp hall.2
    intro e he
    obtain ⟨result, hmem, rfl⟩ := List.mem_map.mp he
    exact hevery result hmem
  split
  · exact ⟨_, _, _, _, rfl, fun h => absurd h Bool.false_ne_true, .refl _⟩
  obtain ⟨lines, w', hunwind, hlearns⟩ := learns_unwindLegs now batchId opened w
  split
  · exact ⟨_, _, _, _, rfl, fun h => absurd h Bool.false_ne_true, .refl _⟩
  · simp only [hunwind, bind, Except.bind, pure, Except.pure]
    split
    · exact ⟨_, _, _, _, rfl, fun h => absurd h Bool.false_ne_true, hlearns⟩
    · exact ⟨_, _, _, _, rfl, fun h => absurd h Bool.false_ne_true, hlearns⟩

/-! ## Section 3: Requests -/

/-- The key is one that the request enters orders under: a leg's key if the gate approved
the batch, with the leg filled completely if the order is established. -/
def Enters (w : World β) (env : OptionsEnv) (r : ExecuteOptionsStrategyRequest) (key : String)
    (order : OrderRecord) : Prop :=
  (∃ approved, (w.stack.optionsGate env r).1 = .ok approved ∧
    PlacedBy w.stack.userId (batchIdOf w.stack.userId r) (w.batchSubmissions env r approved) key
      order) ∨
  ∃ symbol, key = unwindKey w.stack.userId (batchIdOf w.stack.userId r) symbol

/-- What a batch teaches the index. -/
theorem learns_executeOptionsStrategy (w : World β) (env : OptionsEnv)
    (r : ExecuteOptionsStrategyRequest) :
    w.stack.Learns (w.executeOptionsStrategy env r).world.stack (w.Enters env r) := by
  rcases w.stack.optionsGate_cases env r with ⟨refusal, s', decision, hgate, hs', -⟩ |
    ⟨approved, decision, hgate, -, -, -⟩
  · have hsame : w.stack.Still s' := by
      rcases hs' with rfl | rfl
      · exact .refl _
      · exact ⟨rfl, rfl, rfl⟩
    simp only [executeOptionsStrategy, hgate]
    exact .of_still hsame
  · have hrolled : w.stack.Still (w.stack.rollRiskWindow env.now) := ⟨rfl, rfl, rfl⟩
    obtain ⟨results, opened, w₁, hlegs, hbatch⟩ := learns_submitLegs env.now
      (batchIdOf (w.stack.rollRiskWindow env.now).userId r)
      ((w.stack.rollRiskWindow env.now).reduces approved.legs) approved.legs
      { w with stack := w.stack.rollRiskWindow env.now }
    obtain ⟨intact, lines, halted, w₂, hrem, -, hunwind⟩ := w₁.learns_remediatePartialBatch env.now
      (batchIdOf (w.stack.rollRiskWindow env.now).userId r) r.strategyName results opened
    -- The batch teaches its legs, the remediation its unwind orders.
    rw [hbatch.user] at hunwind
    rw [executeOptionsStrategy_eq hgate hlegs hrem]
    apply Stack.Learns.trans (b := w.stack.rollRiskWindow env.now) (.of_still hrolled)
    apply Stack.Learns.trans (b := w₁.stack)
    · apply hbatch.mono
      intro key order hplaced
      exact Or.inl ⟨approved, by rw [hgate], hplaced⟩
    · apply hunwind.mono
      intro key order hkey
      exact Or.inr hkey

/-- A strategy called intact is one whose legs all ended established. -/
theorem intact_of_strategyIntact {w : World β} {env : OptionsEnv}
    {r : ExecuteOptionsStrategyRequest} {response : ExecuteOptionsStrategyResponse}
    (hanswer : (w.executeOptionsStrategy env r).answer = .ok response)
    (hintact : response.strategyIntact = true) :
    ∃ approved, (w.stack.optionsGate env r).1 = .ok approved ∧
      r.legs.mapM (resolveLeg env) = .ok approved.legs ∧ Intact (w.batchEnds env r approved) := by
  rcases w.stack.optionsGate_cases env r with ⟨refusal, s', decision, hgate, -, -⟩ |
    ⟨approved, decision, hgate, hresolved, -, -⟩
  · simp [executeOptionsStrategy, hgate] at hanswer
  refine ⟨approved, by rw [hgate], hresolved, ?_⟩
  obtain ⟨results, opened, w₁, hlegs, hends⟩ := submitLegs_ok env.now
    (batchIdOf (w.stack.rollRiskWindow env.now).userId r)
    ((w.stack.rollRiskWindow env.now).reduces approved.legs) approved.legs
    { w with stack := w.stack.rollRiskWindow env.now }
  obtain ⟨intact, lines, halted, w₂, hrem, hestablished, -⟩ := w₁.learns_remediatePartialBatch
    env.now (batchIdOf (w.stack.rollRiskWindow env.now).userId r) r.strategyName results opened
  rw [executeOptionsStrategy_eq hgate hlegs hrem] at hanswer
  cases hanswer
  -- The statuses of the answer are those that the legs ended with.
  have hall := hestablished hintact
  rw [hends] at hall
  exact hall

/-- So does the settlement of a single order: its own key. -/
theorem learns_settle (s : Stack β) (db : Db) (env : CallEnv) (r : PlaceOrderRequest) :
    s.Learns (settle s db env r).2.1.stack fun key _ => key = r.idempotencyKey s.userId := by
  unfold settle
  dsimp only
  split
  · exact .refl _
  rename_i order created s₁ hentered
  have hlearns : s.Learns s₁ fun key _ => key = r.idempotencyKey s.userId := by
    unfold orderEntered at hentered
    cases h : s.orderManager.lookup (r.idempotencyKey s.userId) with
    | some known =>
      rw [Stack.enterOrder_known h] at hentered
      cases hentered
      exact .refl _
    | none =>
      rw [Stack.enterOrder_new h] at hentered
      cases hentered
      exact .of_fills (s.fills_entered ..) rfl
  split
  · exact hlearns
  · rename_i after _
    -- The order, then the stop that guards it; the journal teaches nothing.
    apply (hlearns.trans (s₁.learns_guardPosition r created order after)).trans
    exact .of_still (Stack.still_journal ..)

/-- `POST /orders` teaches the index at most the key of its request. -/
theorem learns_placeOrder (w : World β) (env : CallEnv) (r : PlaceOrderRequest) :
    w.stack.Learns (w.placeOrder env r).world.stack fun key _ =>
      key = r.idempotencyKey w.stack.userId := by
  rcases w.stack.gate_cases env r with ⟨refusal, s', decision, hgate, hs', -⟩ |
    ⟨quote, decision, hgate, -, -, -⟩
  · have hsame : w.stack.Still s' := by
      rcases hs' with rfl | rfl | rfl
      · exact .refl _
      · exact ⟨rfl, rfl, rfl⟩
      · exact w.stack.still_prepared env r
    simp only [placeOrder, hgate]
    exact .of_still hsame
  · have hprepared := w.stack.still_prepared env r
    simp only [placeOrder, hgate]
    apply Stack.Learns.trans (b := w.stack.prepared env r) (.of_still hprepared)
    rw [← hprepared.user]
    exact learns_settle (w.stack.prepared env r) w.db env r

/-- Cancelling teaches the index nothing but that an order is cancelled. -/
theorem learns_cancelOrder (w : World β) (now : Instant) (orderId : OrderId) :
    w.stack.Learns (w.cancelOrder now orderId).world.stack fun _ order =>
      order.status = .cancelled := by
  unfold cancelOrder
  split
  · exact .refl _
  rename_i order hget
  split
  · exact .refl _
  dsimp only
  split
  · exact .of_still ⟨rfl, rfl, rfl⟩
  · exact .of_still ⟨rfl, rfl, rfl⟩
  split
  · exact .of_still ⟨rfl, rfl, rfl⟩
  rename_i orders htransition
  -- The venue has confirmed, and the order is marked cancelled here.
  refine ⟨rfl, fun key order' hlookup => ?_⟩
  unfold OrderManager.transition at htransition
  split at htransition
  · cases htransition
  split at htransition
  · cases htransition
    rw [OrderManager.lookup_update] at hlookup
    obtain ⟨old, hold, rfl⟩ := Option.map_eq_some_iff.mp hlookup
    split
    · exact Or.inr rfl
    · exact Or.inl hold
  · cases htransition

end World

/-! ## Section 4: Histories -/

/-- What happens on one stack: trading requests, and requests to cancel an order. -/
inductive StackEvent (β : Type)
  | trade (e : TradingEvent β)
  | cancel (now : Instant) (orderId : OrderId)

def stackStep (w : World β) : StackEvent β → World β
  | .trade e => tradingStep w e
  | .cancel now orderId => (w.cancelOrder now orderId).world

/-- The order that a key names, as an event of this world may have entered it. -/
def World.Entered (w : World β) : StackEvent β → String → OrderRecord → Prop
  | .trade (.order _ r), key, _ => key = r.idempotencyKey w.stack.userId
  | .trade (.options env r), key, order => w.Enters env r key order
  | .trade (.broker _), _, _ => False
  | .cancel _ _, _, order => order.status = .cancelled

theorem World.learns_stackStep (w : World β) (e : StackEvent β) :
    w.stack.Learns (stackStep w e).stack (w.Entered e) := by
  cases e with
  | trade e =>
    cases e with
    | order env r => exact w.learns_placeOrder env r
    | options env r => exact w.learns_executeOptionsStrategy env r
    | broker state => exact .of_same rfl rfl
  | cancel now orderId => exact w.learns_cancelOrder now orderId

/-- A stack with the events it has seen, the latest first, each with the stack it met. -/
structure History (β : Type) where
  world : World β
  past : List (World β × StackEvent β) := []

def historyStep (h : History β) (e : StackEvent β) : History β :=
  { world := stackStep h.world e
    past := (h.world, e) :: h.past }

/-- Every known key was entered by an event of the past, of the same user. -/
structure Sourced (h : History β) : Prop where
  users : ∀ p ∈ h.past, p.1.stack.userId = h.world.stack.userId
  known : ∀ key order, h.world.stack.orderManager.lookup key = some order →
    ∃ p ∈ h.past, p.1.Entered p.2 key order

/-- Each event accounts for the keys it teaches. -/
theorem Sourced.step {h : History β} (hs : Sourced h) (e : StackEvent β) :
    Sourced (historyStep h e) := by
  have hlearns := h.world.learns_stackStep e
  constructor
  · intro p hp
    show p.1.stack.userId = (stackStep h.world e).stack.userId
    rw [hlearns.user]
    rcases List.mem_cons.mp hp with rfl | hp
    · rfl
    · exact hs.users p hp
  · intro key order hlookup
    rcases hlearns.orders key order hlookup with hold | hnew
    · obtain ⟨p, hp, hentered⟩ := hs.known key order hold
      exact ⟨p, List.mem_cons_of_mem _ hp, hentered⟩
    · exact ⟨(h.world, e), List.mem_cons_self, hnew⟩

/-! ## Section 5: Intact strategies -/

namespace World

/-- The leg in this place of the request was filled completely by this submission. -/
def LegExecuted (w : World β) (env : OptionsEnv) (r : ExecuteOptionsStrategyRequest) (i : ℕ) :
    Prop :=
  ∃ approved, (w.stack.optionsGate env r).1 = .ok approved ∧
    ∃ x, (w.batchSubmissions env r approved)[i]? = some x ∧ x.Complete

/-- The same of an approved batch, on the stack that the request met. -/
theorem batchEnds_submissions (w : World β) (env : OptionsEnv) (r : ExecuteOptionsStrategyRequest)
    {approved : Stack.ApprovedStrategy}
    (h : (approved.legs.map fun leg => leg.symbol).Nodup) :
    List.Forall₂ (fun status x => x.leg ∈ approved.legs ∧
      ((∃ result, x.answer = some result ∧ status = settledStatus x.quantity result) ∨
      ∃ order, w.stack.orderManager.lookup
          (legKey w.stack.userId (batchIdOf w.stack.userId r) x.leg.symbol) = some order ∧
        order.status = status))
      (w.batchEnds env r approved) (w.batchSubmissions env r approved) :=
  legEnds_submissions env.now (batchIdOf w.stack.userId r)
    ((w.stack.rollRiskWindow env.now).reduces approved.legs) approved.legs
    { w with stack := w.stack.rollRiskWindow env.now } h

/-- The submissions of an approved batch are those of the requested legs, in order. -/
theorem batchSubmissions_legs {w : World β} {env : OptionsEnv} {r : ExecuteOptionsStrategyRequest}
    {approved : Stack.ApprovedStrategy} (h : (w.stack.optionsGate env r).1 = .ok approved) :
    (w.batchSubmissions env r approved).map (fun x => x.leg.toExecuteOptionLeg) = r.legs := by
  rcases w.stack.optionsGate_cases env r with ⟨refusal, s', decision, hgate, -, -⟩ |
    ⟨approved', decision, hgate, hresolved, -, -⟩
  · rw [hgate] at h
    cases h
  · obtain rfl : approved' = approved := by simpa [hgate] using h
    have hxs : (w.batchSubmissions env r approved').map LegSubmission.leg = approved'.legs :=
      submissions_legs ..
    rw [← resolveLegs_eq hresolved, ← hxs, List.map_map]
    rfl

end World

/-- If the latest response calls a strategy intact, every leg of it, place by place, was
executed by this submission or by an earlier one of the identical request. -/
def IntactIsExecuted (h : History β) : Prop :=
  ∀ w env r past, h.past = (w, .trade (.options env r)) :: past →
    ∀ response, (w.executeOptionsStrategy env r).answer = .ok response →
      response.strategyIntact = true →
      ∀ i < r.legs.length, ∃ w' env', (w', .trade (.options env' r)) ∈ h.past ∧
        w'.LegExecuted env' r i

/-- The event asks for an order under this key. -/
def StackEvent.UsesKey (userId : AccountId) (key : String) : StackEvent β → Prop
  | .trade (.order _ r) => key = r.idempotencyKey userId
  | .trade (.options _ r) =>
    ∃ leg ∈ r.legs, key = legKey userId (batchIdOf userId r) leg.symbol
  | _ => False

/-- A batch over pairwise distinct symbols, whose legs' keys no earlier event asked for
but an identical request. -/
def Unclashed (h : History β) (e : StackEvent β) : Prop :=
  ∀ env r, e = .trade (.options env r) → (r.legs.map ExecuteOptionLeg.symbol).Nodup ∧
    ∀ leg ∈ r.legs, ∀ p ∈ h.past,
      p.2.UsesKey h.world.stack.userId
        (legKey h.world.stack.userId (batchIdOf h.world.stack.userId r) leg.symbol) →
      ∃ env', p.2 = .trade (.options env' r)

/-- A leg whose key was known was executed by an earlier submission of the request. -/
theorem executed_of_known {h : History β} {r : ExecuteOptionsStrategyRequest} {i : ℕ}
    {leg : ExecuteOptionLeg} {order : OrderRecord} (hs : Sourced h)
    (hsymbols : (r.legs.map ExecuteOptionLeg.symbol).Nodup) (hleg : r.legs[i]? = some leg)
    (hclash : ∀ p ∈ h.past, p.2.UsesKey h.world.stack.userId
      (legKey h.world.stack.userId (batchIdOf h.world.stack.userId r) leg.symbol) →
      ∃ env', p.2 = .trade (.options env' r))
    (hlookup : h.world.stack.orderManager.lookup
      (legKey h.world.stack.userId (batchIdOf h.world.stack.userId r) leg.symbol) = some order)
    (hestablished : order.status.isEstablished = true) :
    ∃ w' env', (w', .trade (.options env' r)) ∈ h.past ∧ w'.LegExecuted env' r i := by
  obtain ⟨⟨w', e⟩, hp, hentered⟩ := hs.known _ _ hlookup
  have huser : w'.stack.userId = h.world.stack.userId := hs.users _ hp
  have hclash' := hclash _ hp
  cases e with
  | cancel now orderId =>
    -- A cancelled order is not established.
    rw [show order.status = .cancelled from hentered] at hestablished
    cases hestablished
  | trade e =>
    cases e with
    | broker state => exact hentered.elim
    | order env' r' =>
      have huses : legKey h.world.stack.userId (batchIdOf h.world.stack.userId r) leg.symbol =
          r'.idempotencyKey h.world.stack.userId := huser ▸ hentered
      obtain ⟨env'', heq⟩ := hclash' huses
      cases heq
    | options env' r' =>
      rcases hentered with ⟨approved, hgate, hplaced⟩ | ⟨symbol, hunwind⟩
      · obtain ⟨x, hx, hkey, hcomplete⟩ := hplaced.complete hestablished
        have hlegs := World.batchSubmissions_legs hgate
        rw [huser] at hkey
        have hmem : x.leg.toExecuteOptionLeg ∈ r'.legs := by
          rw [← hlegs]
          exact List.mem_map_of_mem hx
        -- The request that asked for this key is the same one, and the leg the same leg.
        obtain ⟨env'', heq⟩ := hclash' ⟨_, hmem, hkey⟩
        cases heq
        refine ⟨w', env', hp, approved, hgate, x, ?_, hcomplete⟩
        have hsymbol : leg.symbol = x.leg.symbol := legKey_injective _ _ hkey
        obtain ⟨j, hj⟩ := List.mem_iff_getElem?.mp hx
        have hleg' : r.legs[j]? = some x.leg.toExecuteOptionLeg := by
          rw [← hlegs, List.getElem?_map, hj]
          rfl
        have hij : (r.legs.map ExecuteOptionLeg.symbol)[i]? =
            (r.legs.map ExecuteOptionLeg.symbol)[j]? := by
          rw [List.getElem?_map, List.getElem?_map, hleg, hleg', Option.map_some, Option.map_some,
            hsymbol]
        have hlt : i < (r.legs.map ExecuteOptionLeg.symbol).length := by
          rw [List.length_map]
          exact (List.getElem?_eq_some_iff.mp hleg).1
        rw [(List.getElem?_inj hlt hsymbols).mp hij]
        exact hj
      · rw [huser] at hunwind
        exact absurd hunwind.symm (unwindKey_ne_legKey _ _ _ _ _)

/-- One event from a history whose keys are sourced. -/
theorem intactIsExecuted_step {h : History β} (hs : Sourced h) {e : StackEvent β}
    (hclash : Unclashed h e) : IntactIsExecuted (historyStep h e) := by
  intro w env r past hpast response hanswer hintact i hi
  obtain ⟨heq, rfl⟩ := List.cons.inj hpast
  obtain ⟨rfl, rfl⟩ := Prod.mk.inj heq
  obtain ⟨hsymbols, hkeys⟩ := hclash env r rfl
  obtain ⟨approved, hgate, hresolved, hends⟩ := World.intact_of_strategyIntact hanswer hintact
  have hlegs := World.batchSubmissions_legs hgate
  have hnodup : (approved.legs.map fun leg => leg.symbol).Nodup := by
    have hmap := hsymbols
    rw [← resolveLegs_eq hresolved, List.map_map] at hmap
    exact hmap
  have hpairs := h.world.batchEnds_submissions env r hnodup
  -- The submission of this leg, and how it ended.
  have hlength : i < (h.world.batchSubmissions env r approved).length := by
    rw [← List.length_map (fun x => x.leg.toExecuteOptionLeg), hlegs]
    exact hi
  obtain ⟨-, hend⟩ := hpairs.get (hpairs.length_eq ▸ hlength) hlength
  have hestablished := hends _ (List.get_mem _ ⟨i, hpairs.length_eq ▸ hlength⟩)
  have hx : (h.world.batchSubmissions env r approved)[i]? =
      some ((h.world.batchSubmissions env r approved).get ⟨i, hlength⟩) :=
    List.getElem?_eq_getElem hlength
  have hleg : r.legs[i]? =
      some ((h.world.batchSubmissions env r approved).get ⟨i, hlength⟩).leg.toExecuteOptionLeg := by
    rw [← hlegs, List.getElem?_map, hx]
    rfl
  rcases hend with ⟨result, hresult, hstatus⟩ | ⟨order, hlookup, hstatus⟩
  · -- A new key: this submission executed the leg.
    rw [hstatus] at hestablished
    exact ⟨h.world, env, List.mem_cons_self, approved, hgate, _, hx, result, hresult,
      World.le_filled_of_established hestablished⟩
  · rw [← hstatus] at hestablished
    obtain ⟨w', env', hmem, hexecuted⟩ := executed_of_known hs hsymbols hleg
      (hkeys _ (List.mem_of_getElem? hleg)) hlookup hestablished
    exact ⟨w', env', List.mem_cons_of_mem _ hmem, hexecuted⟩

/-- **Intact strategies.** In every run of requests on a stack without orders, in any
order, in which no batch names a symbol twice and no two different requests ask for one
key of a leg: whenever a response calls its strategy intact, each leg of it was
executed completely, by this submission or by an earlier one of the identical request. -/
theorem intact_strategies_executed {w : World β} {es : List (StackEvent β)}
    (hnew : ∀ key, w.stack.orderManager.lookup key = none)
    (hes : Each historyStep Unclashed ⟨w, []⟩ es) :
    Throughout historyStep IntactIsExecuted ⟨w, []⟩ es := by
  have hstart : Sourced (⟨w, []⟩ : History β) ∧ IntactIsExecuted (⟨w, []⟩ : History β) := by
    refine ⟨⟨?_, ?_⟩, ?_⟩
    · intro p hp
      cases hp
    · intro key order hlookup
      rw [hnew] at hlookup
      cases hlookup
    · intro w env r past hpast
      cases hpast
  apply Throughout.mono (P := fun h => Sourced h ∧ IntactIsExecuted h) fun _ h => h.2
  exact throughout_of_each
    (fun h e hh he => ⟨hh.1.step e, intactIsExecuted_step hh.1 he⟩) hstart hes

/-! ## Section 6: A contract named twice -/

/-- The account that holds a bull call spread, at a venue that fills every order. -/
def spreadCloser : World ScriptedVenue :=
  { World.spreadHolder with stack := { World.spreadHolder.stack with broker := {} } }

/-- A response to a retry is covered by the first submission. -/
theorem retried_close_executed :
    Throughout historyStep IntactIsExecuted (⟨spreadCloser, []⟩ : History ScriptedVenue)
      [.trade (.options { now := 0, instrument := World.callChain } World.closeSpread),
        .trade (.options { now := 5, instrument := World.callChain } World.closeSpread)] := by
  apply intact_strategies_executed (fun key => rfl)
  refine ⟨?_, ?_, trivial⟩
  · rintro env r heq
    cases heq
    refine ⟨by decide +kernel, fun leg hleg p hp => ?_⟩
    cases hp
  · rintro env r heq
    cases heq
    refine ⟨by decide +kernel, fun leg hleg p hp huses => ?_⟩
    cases List.mem_singleton.mp hp
    exact ⟨_, rfl⟩

/-- An account that holds two lots of one call, at a venue that fills every order. -/
def twoLotHolder : World ScriptedVenue :=
  let db : Db := { positions := [World.heldLot "ACME-100-CE" 100] }
  { stack := Stack.build "u" {} db 0, db := db }

/-- The batch that sells the two lots as two legs. -/
def sellTwice : ExecuteOptionsStrategyRequest :=
  let leg : ExecuteOptionLeg :=
    { symbol := "ACME-100-CE"
      direction := .short
      quantity := 1
      premium := 6
      quantity_range := ExecuteOptionLeg.quantity_range_one
      premium_range := ExecuteOptionLeg.premium_range_six }
  { strategyName := "long_call_exit"
    legs := [leg, leg] }

/-- The second leg is answered with the order of the first: one lot is sold, and the
strategy is called intact. -/
theorem repeated_leg_not_executed :
    ¬ Throughout historyStep IntactIsExecuted (⟨twoLotHolder, []⟩ : History ScriptedVenue)
      [.trade (.options { now := 0, instrument := World.callChain } sellTwice)] := by
  intro h
  have hintact : ((twoLotHolder.executeOptionsStrategy { now := 0, instrument := World.callChain }
      sellTwice).answer.toOption.map fun response => response.strategyIntact) = some true := by
    decide +kernel
  -- The second leg has the key of the first, and no order of it reaches the broker.
  have hanswers : (match (twoLotHolder.stack.optionsGate { now := 0, instrument := World.callChain }
      sellTwice).1 with
      | .ok approved => ((twoLotHolder.batchSubmissions { now := 0, instrument := World.callChain }
          sellTwice approved)[1]?.bind fun x => x.answer).isSome
      | .error _ => false) = false := by
    decide +kernel
  cases hanswer : (twoLotHolder.executeOptionsStrategy { now := 0, instrument := World.callChain }
      sellTwice).answer with
  | error refusal =>
    rw [hanswer] at hintact
    cases hintact
  | ok response =>
    rw [hanswer] at hintact
    obtain ⟨w', env', hmem, approved, hgate, x, hx, result, hresult, -⟩ := h.2 _ _ _ _ rfl response
      hanswer (Option.some.inj hintact) 1 (by decide)
    cases List.mem_singleton.mp hmem
    rw [hgate] at hanswers
    simp [hx, hresult] at hanswers

end SuperTrading
