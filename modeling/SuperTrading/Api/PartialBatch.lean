import SuperTrading.Api.Options
import SuperTrading.Brokers.Scripted

/-!
# Batches That Execute in Part

When `_remediate_partial_batch` halts the account, for every batch and every tuple of
broker answers to its legs. It sorts the legs into established and unanswered ones,
and reads a batch without either as one that never reached the exchange. An order the
broker accepted and did not fill, or filled in part, is neither.

- **Ends**: the status each leg ends in, from the broker's answers
- **Progress**: neither the legs nor the remediation raise
- **Halts**: the exact condition
-/

namespace SuperTrading

variable {β : Type} [Broker β]

namespace World

/-! ## Section 1: How the legs end -/

/-- The world after one leg. -/
def afterLeg (w : World β) (now : Instant) (batchId : String) (reducing : Bool)
    (leg : ResolvedLeg) : World β :=
  match w.submitLeg now leg.symbol leg.direction leg.premium (legQuantity w.stack reducing leg)
    (legKey w.stack.userId batchId leg.symbol) s!"options strategy batch {batchId}" with
  | .ok (_, _, w) => w
  | .error _ => w

/-- The statuses that the broker's answers to the legs amount to, in order. -/
def legEnds (now : Instant) (batchId : String) (reducing : Bool) :
    World β → List ResolvedLeg → List OrderStatus
  | _, [] => []
  | w, leg :: legs =>
    (w.stack.seedPremium leg.symbol leg.premium).orderEnd now
        (legKey w.stack.userId batchId leg.symbol) leg.symbol leg.direction .market
        (legQuantity w.stack reducing leg) none ::
      legEnds now batchId reducing (w.afterLeg now batchId reducing leg) legs

/-! ## Section 2: Progress -/

/-- A leg is always submitted to the end, and its order ends as `orderEnd` says. -/
theorem submitLeg_ok (w : World β) (now : Instant) (symbol : Symbol) (direction : Direction)
    (premium quantity : ℚ) (key reason : String) :
    ∃ order opened w', w.submitLeg now symbol direction premium quantity key reason =
        .ok (order, opened, w') ∧
      order.status = (w.stack.seedPremium symbol premium).orderEnd now key symbol direction .market
        quantity none := by
  obtain ⟨order, created, s', henter, hstatus⟩ := (w.stack.seedPremium symbol premium).enterOrder_ok
    now key symbol direction .market quantity none reason
  unfold submitLeg
  simp only [henter]
  split
  · exact ⟨_, _, _, rfl, hstatus⟩
  · exact ⟨_, _, _, rfl, hstatus⟩

/-- All legs are submitted, and end as `legEnds` says. -/
theorem submitLegs_ok (now : Instant) (batchId : String) (reducing : Bool)
    (legs : List ResolvedLeg) (w : World β) :
    ∃ results opened w', submitLegs now batchId reducing w legs = .ok (results, opened, w') ∧
      results.map LegExecutionResult.status = legEnds now batchId reducing w legs := by
  induction legs generalizing w with
  | nil => exact ⟨_, _, _, rfl, rfl⟩
  | cons leg legs ih =>
    obtain ⟨order, opened, w₁, hleg, hstatus⟩ := w.submitLeg_ok now leg.symbol leg.direction
      leg.premium (legQuantity w.stack reducing leg) (legKey w.stack.userId batchId leg.symbol)
      s!"options strategy batch {batchId}"
    have hafter : w.afterLeg now batchId reducing leg = w₁ := by simp only [afterLeg, hleg]
    obtain ⟨results, openedLegs, w₂, hlegs, hmap⟩ := ih w₁
    refine ⟨⟨leg.symbol, order.id, order.status, order.rejectionReason⟩ :: results,
      (if 0 < opened then [⟨leg.symbol, leg.direction, opened, leg.premium⟩] else []) ++ openedLegs,
      w₂, ?_, ?_⟩
    · simp only [submitLegs, hleg, hlegs, bind, Except.bind, pure, Except.pure]
    · rw [List.map_cons, legEnds, hafter, hmap, hstatus]

/-- The unwind runs to the end. -/
theorem unwindLegs_ok (now : Instant) (batchId : String) (legs : List OpenedLeg) (w : World β) :
    ∃ lines w', unwindLegs now batchId w legs = .ok (lines, w') := by
  induction legs generalizing w with
  | nil => exact ⟨_, _, rfl⟩
  | cons leg legs ih =>
    unfold unwindLegs
    dsimp only
    split
    · obtain ⟨lines, w', hlegs⟩ := ih w
      simp only [hlegs, bind, Except.bind, pure, Except.pure]
      exact ⟨_, _, rfl⟩
    · obtain ⟨order, opened, w₁, hleg, -⟩ := w.submitLeg_ok now leg.symbol leg.direction.opposite
        leg.premium (min leg.quantity |w.stack.holding leg.symbol|)
        (unwindKey w.stack.userId batchId leg.symbol)
        s!"unwinding partially executed options batch {batchId}"
      obtain ⟨lines, w', hlegs⟩ := ih w₁
      simp only [hleg, hlegs, bind, Except.bind, pure, Except.pure]
      exact ⟨_, _, rfl⟩

/-! ## Section 3: The halt -/

/-- A batch whose legs all ended established. -/
def Intact (ends : List OrderStatus) : Prop := ∀ e ∈ ends, e.isEstablished = true

/-- Some leg was filled completely, or was never answered. -/
def Noticed (ends : List OrderStatus) : Prop := ∃ e ∈ ends, e.isEstablished = true ∨ e = .failed

/-- The remediation runs to the end, and halts exactly a batch that is not intact
but has a leg it notices. -/
theorem remediatePartialBatch_ok (w : World β) (now : Instant) (batchId strategyName : String)
    (results : List LegExecutionResult) (opened : List OpenedLeg) :
    ∃ intact lines halted w',
      w.remediatePartialBatch now batchId strategyName results opened =
        .ok (intact, lines, halted, w') ∧
      (halted.isSome = true ↔ ¬ Intact (results.map LegExecutionResult.status) ∧
        Noticed (results.map LegExecutionResult.status)) := by
  set established := results.filter fun result => result.status.isEstablished with hest
  set unknown := results.filter fun result => decide (result.status = .failed) with hunk
  have hintact : Intact (results.map LegExecutionResult.status) ↔
      established.length = results.length := by
    rw [hest, List.length_filter_eq_length_iff]
    simp [Intact]
  have hnoticed : Noticed (results.map LegExecutionResult.status) ↔
      ¬ (established = [] ∧ unknown = []) := by
    rw [hest, hunk, List.filter_eq_nil_iff, List.filter_eq_nil_iff]
    simp only [Noticed, List.mem_map, exists_exists_and_eq_and, decide_eq_true_eq]
    constructor
    · rintro ⟨result, hmem, he | hf⟩ ⟨hne, hnf⟩
      · exact hne result hmem he
      · exact hnf result hmem hf
    · intro h
      by_contra hcon
      apply h
      constructor
      · exact fun result hmem he => hcon ⟨result, hmem, Or.inl he⟩
      · exact fun result hmem hf => hcon ⟨result, hmem, Or.inr hf⟩
  -- A batch of established legs has no unanswered one.
  have hnone : Intact (results.map LegExecutionResult.status) → unknown = [] := by
    intro hall
    rw [hunk, List.filter_eq_nil_iff]
    intro result hmem hf
    have he := hall result.status (List.mem_map_of_mem hmem)
    rw [of_decide_eq_true hf] at he
    cases he
  unfold remediatePartialBatch
  simp only [← hest, ← hunk]
  -- The branches in order: intact, silent, unanswered, unwound.
  split
  · rename_i hall
    exact ⟨_, _, _, _, rfl, by simp [hintact.mpr hall.2]⟩
  rename_i hall
  split
  · rename_i hsilent
    exact ⟨_, _, _, _, rfl, by simp [hnoticed, hsilent]⟩
  rename_i hsome
  have hhalt : ¬ Intact (results.map LegExecutionResult.status) ∧
      Noticed (results.map LegExecutionResult.status) :=
    ⟨fun h => hall ⟨hnone h, hintact.mp h⟩, hnoticed.mpr hsome⟩
  obtain ⟨lines, w', hunwind⟩ := unwindLegs_ok now batchId opened w
  split
  · exact ⟨_, _, _, _, rfl, by simp [hhalt]⟩
  · simp only [hunwind, bind, Except.bind, pure, Except.pure]
    split
    · exact ⟨_, _, _, _, rfl, by simp [hhalt]⟩
    · exact ⟨_, _, _, _, rfl, by simp [hhalt]⟩

/-! ## Section 4: The condition -/

/-- The account is halted before the response of an incomplete batch of which some
leg was not rejected. -/
def HaltsIncomplete (w : World β) (env : OptionsEnv) (r : ExecuteOptionsStrategyRequest) : Prop :=
  ∀ response, (w.executeOptionsStrategy env r).answer = .ok response →
    ¬ Intact (response.legs.map LegExecutionResult.status) →
    (∃ leg ∈ response.legs, leg.status ≠ .rejected) →
    env.haltReason.isSome = true ∨ (w.executeOptionsStrategy env r).halted.isSome = true

/-- How the legs of the batch end, should the gate approve it. -/
def batchEnds (w : World β) (env : OptionsEnv) (r : ExecuteOptionsStrategyRequest)
    (approved : Stack.ApprovedStrategy) : List OrderStatus :=
  let s := w.stack.rollRiskWindow env.now
  legEnds env.now (batchIdOf s.userId r) (s.reduces approved.legs) { w with stack := s }
    approved.legs

/-- The account was halted already, or the broker filled some leg completely, or it
left some leg unanswered, or it rejected every leg. -/
def EndsNoticed (w : World β) (env : OptionsEnv) (r : ExecuteOptionsStrategyRequest) : Prop :=
  ∀ approved, (w.stack.optionsGate env r).1 = .ok approved →
    env.haltReason.isSome = true ∨ Noticed (w.batchEnds env r approved) ∨
      ∀ e ∈ w.batchEnds env r approved, e = .rejected

/-- The reply of a batch that passes the gate: its legs, then its remediation. -/
theorem executeOptionsStrategy_eq {w w₁ w₂ : World β} {env : OptionsEnv}
    {r : ExecuteOptionsStrategyRequest} {approved : Stack.ApprovedStrategy}
    {decision : Option RiskDecisionResult} {results : List LegExecutionResult}
    {opened : List OpenedLeg} {intact : Bool} {lines : List String} {halted : Option String}
    (hgate : w.stack.optionsGate env r = (.ok approved, w.stack.rollRiskWindow env.now, decision))
    (hlegs : submitLegs env.now (batchIdOf w.stack.userId r)
      ((w.stack.rollRiskWindow env.now).reduces approved.legs)
      { w with stack := w.stack.rollRiskWindow env.now } approved.legs = .ok (results, opened, w₁))
    (hrem : w₁.remediatePartialBatch env.now (batchIdOf w.stack.userId r) r.strategyName results
      opened = .ok (intact, lines, halted, w₂)) :
    w.executeOptionsStrategy env r =
      { answer := .ok ⟨batchIdOf w.stack.userId r, approved.payoff, results, intact, lines⟩
        world := w₂
        decision := decision
        halted := halted } := by
  have huser : (w.stack.rollRiskWindow env.now).userId = w.stack.userId := rfl
  simp only [executeOptionsStrategy, hgate, executeLegs, huser, hlegs, hrem, bind, Except.bind,
    pure, Except.pure]

/-- An approved batch is answered, with the ends of its legs, and halts as the
remediation does. -/
theorem executeOptionsStrategy_ok {w : World β} {env : OptionsEnv}
    {r : ExecuteOptionsStrategyRequest} {approved : Stack.ApprovedStrategy}
    {decision : Option RiskDecisionResult}
    (h : w.stack.optionsGate env r = (.ok approved, w.stack.rollRiskWindow env.now, decision)) :
    ∃ response, (w.executeOptionsStrategy env r).answer = .ok response ∧
      response.legs.map LegExecutionResult.status = w.batchEnds env r approved ∧
      ((w.executeOptionsStrategy env r).halted.isSome = true ↔
        ¬ Intact (w.batchEnds env r approved) ∧ Noticed (w.batchEnds env r approved)) := by
  obtain ⟨results, opened, w₁, hlegs, hmap⟩ := submitLegs_ok env.now
    (batchIdOf (w.stack.rollRiskWindow env.now).userId r)
    ((w.stack.rollRiskWindow env.now).reduces approved.legs) approved.legs
    { w with stack := w.stack.rollRiskWindow env.now }
  obtain ⟨intact, lines, halted, w₂, hrem, hhalt⟩ := w₁.remediatePartialBatch_ok env.now
    (batchIdOf (w.stack.rollRiskWindow env.now).userId r) r.strategyName results opened
  rw [executeOptionsStrategy_eq h hlegs hrem]
  refine ⟨_, rfl, hmap, ?_⟩
  rw [hmap] at hhalt
  exact hhalt

/-- **When an incomplete batch halts the account.** A batch that is not established
as a whole, and of which some leg was not rejected, leaves the account halted exactly
if the account was halted before, or some leg was filled completely, or some leg went
unanswered. -/
theorem haltsIncomplete_iff (w : World β) (env : OptionsEnv) (r : ExecuteOptionsStrategyRequest) :
    w.HaltsIncomplete env r ↔ w.EndsNoticed env r := by
  rcases w.stack.optionsGate_cases env r with ⟨refusal, s', decision, hgate, -, -⟩ |
    ⟨approved, decision, hgate, -, -, -⟩
  · -- A refused batch is not answered.
    have hleft : w.HaltsIncomplete env r := by
      intro response hanswer
      simp [executeOptionsStrategy, hgate] at hanswer
    have hright : w.EndsNoticed env r := by
      intro approved happroved
      simp [hgate] at happroved
    exact iff_of_true hleft hright
  · obtain ⟨response, hanswer, hends, hhalt⟩ := executeOptionsStrategy_ok hgate
    have hlive : (∃ leg ∈ response.legs, leg.status ≠ .rejected) ↔
        ¬ ∀ e ∈ w.batchEnds env r approved, e = .rejected := by
      rw [← hends]
      simp
    constructor
    · intro h approved' happroved
      obtain rfl : approved = approved' := by simpa [hgate] using happroved
      -- A batch that nothing is noticed of is incomplete, and live in part, so it must halt.
      by_contra hcon
      obtain ⟨hfree, hunnoticed, hall⟩ := by simpa only [not_or] using hcon
      have hintact : ¬ Intact (w.batchEnds env r approved) := by
        intro hintact
        obtain ⟨e, hmem, -⟩ := not_forall₂.mp hall
        exact hunnoticed ⟨e, hmem, Or.inl (hintact e hmem)⟩
      rcases h response hanswer (by rwa [hends]) (hlive.mpr hall) with h | h
      · exact hfree h
      · exact hunnoticed (hhalt.mp h).2
    · -- The last of the three alternatives contradicts the leg that was not rejected.
      intro h response' hanswer' hintact hsome
      obtain rfl : response = response' := by simpa [hanswer] using hanswer'
      rcases h approved (by rw [hgate]) with h | h | h
      · exact Or.inl h
      · exact Or.inr (hhalt.mpr ⟨by rwa [← hends], h⟩)
      · exact absurd h (hlive.mp hsome)

/-! ## Section 5: Two pending orders -/

/-- Two call options on one underlying, of lot size 50. -/
def callChain (symbol : Symbol) : Option InstrumentRow :=
  if symbol = "ACME-100-CE" then some ⟨true, some .call, some 100, 50⟩
  else if symbol = "ACME-110-CE" then some ⟨true, some .call, some 110, 50⟩
  else none

/-- The stored position of one lot of a contract. -/
def heldLot (symbol : Symbol) (quantity : ℚ) : PositionRow :=
  { symbol := symbol
    executionMode := .live
    sourceKey := manualSourceKey
    quantity := quantity
    averagePrice := 4
    stop := none
    target := none
    protectiveOrderId := none
    unrealizedPnl := 0
    realizedPnl := 0
    isOpen := true }

/-- An account that holds a bull call spread of one lot, at a venue that accepts the
coming two orders and fills neither. -/
def spreadHolder : World ScriptedVenue :=
  let db : Db := { positions := [heldLot "ACME-100-CE" 50, heldLot "ACME-110-CE" (-50)] }
  { stack := Stack.build "u" { script := [.pending, .pending] } db 0, db := db }

/-- The batch that closes the spread. -/
def closeSpread : ExecuteOptionsStrategyRequest :=
  { strategyName := "bull_call_spread"
    legs :=
      [ { symbol := "ACME-100-CE"
          direction := .short
          quantity := 1
          premium := 6
          quantity_range := ExecuteOptionLeg.quantity_range_one
          premium_range := ExecuteOptionLeg.premium_range_six },
        { symbol := "ACME-110-CE"
          direction := .long
          quantity := 1
          premium := 2
          quantity_range := ExecuteOptionLeg.quantity_range_one
          premium_range := ExecuteOptionLeg.premium_range_two } ] }

/-- Both closing orders rest at the venue, accepted and unfilled, and the account is
not halted. -/
theorem pending_batch_not_halted :
    ¬ spreadHolder.HaltsIncomplete { now := 0, instrument := callChain } closeSpread := by
  intro h
  -- Both legs stay pending: the batch is incomplete without a rejection, and nothing halts.
  have hstatuses : ((spreadHolder.executeOptionsStrategy { now := 0, instrument := callChain }
      closeSpread).answer.toOption.map fun response =>
        response.legs.map LegExecutionResult.status) = some [.acknowledged, .acknowledged] := by
    decide +kernel
  have hhalted : (spreadHolder.executeOptionsStrategy { now := 0, instrument := callChain }
      closeSpread).halted = none := by
    decide +kernel
  cases hanswer : (spreadHolder.executeOptionsStrategy { now := 0, instrument := callChain }
      closeSpread).answer with
  | error refusal =>
    rw [hanswer] at hstatuses
    cases hstatuses
  | ok response =>
    rw [hanswer] at hstatuses
    have hlegs : response.legs.map LegExecutionResult.status = [.acknowledged, .acknowledged] :=
      Option.some.inj hstatuses
    have hsome : ∃ leg ∈ response.legs, leg.status ≠ .rejected := by
      have hmem : OrderStatus.acknowledged ∈ response.legs.map LegExecutionResult.status := by
        simp [hlegs]
      obtain ⟨leg, hleg, hstatus⟩ := List.mem_map.mp hmem
      exact ⟨leg, hleg, by simp [hstatus]⟩
    have hintact : ¬ Intact (response.legs.map LegExecutionResult.status) := by
      rw [hlegs]
      exact fun hall => absurd (hall .acknowledged (by simp)) (by decide)
    rcases h response hanswer hintact hsome with h | h
    · cases h
    · rw [hhalted] at h
      cases h

end World

end SuperTrading
