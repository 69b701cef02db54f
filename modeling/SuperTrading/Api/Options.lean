import SuperTrading.Api.Orders
import SuperTrading.Risk.OptionsRisk

/-!
# POST /options/execute

`execute_options_strategy` of `app/api/options.py`: every leg of a strategy is its
own order on the stack of `POST /orders`, gated once by the combined payoff, and a
batch that executes only in part is remediated.

- **Request**: legs, and the contracts they name
- **Gate**: the payoff, the quotes, the risk decision
- **Legs**: submit one, submit all
- **Remediation**: what `_remediate_partial_batch` does about an incomplete batch
-/

namespace SuperTrading

/-! ## Section 1: The request -/

structure ExecuteOptionLeg where
  symbol : Symbol
  direction : Direction
  quantity : ℕ
  premium : ℚ
  quantity_range : 0 < quantity ∧ (quantity : ℚ) < maxPrice
  premium_range : 0 < premium ∧ premium < maxPrice

namespace ExecuteOptionLeg

theorem quantity_range_one : 0 < 1 ∧ ((1 : ℕ) : ℚ) < maxPrice := by decide +kernel

theorem premium_range_six : 0 < (6 : ℚ) ∧ 6 < maxPrice := by decide +kernel

theorem premium_range_two : 0 < (2 : ℚ) ∧ 2 < maxPrice := by decide +kernel

end ExecuteOptionLeg

structure ExecuteOptionsStrategyRequest where
  strategyName : String
  legs : List ExecuteOptionLeg

/-- The `instruments` row of a symbol, as far as the endpoint reads it. -/
structure InstrumentRow where
  isOptions : Bool
  optionType : Option OptionType
  strike : Option ℚ
  lotSize : ℤ
  deriving DecidableEq, Repr

/-- The latest `option_snapshots` row of a contract. `acceptable` is the verdict of
`evaluate_liquidity` on it. -/
structure OptionSnapshot where
  acceptable : Bool
  bid : Option ℚ
  ask : Option ℚ
  ageSeconds : ℚ
  deriving DecidableEq, Repr

/-- What one call reads from outside the stack. -/
structure OptionsEnv where
  now : Instant
  instrument : Symbol → Option InstrumentRow
  snapshot : Symbol → Option OptionSnapshot := fun _ => none
  haltReason : Option String := none
  elsewhere : List (Symbol × ℚ) := []
  killSwitch : KillSwitchState := {}

def OptionsEnv.haltText (env : OptionsEnv) : String := env.haltReason.getD ""

/-- A leg with the contract it names. -/
structure ResolvedLeg extends ExecuteOptionLeg where
  optionType : OptionType
  strike : ℚ
  lotSize : ℕ
  lotSize_pos : 0 < lotSize

theorem ResolvedLeg.lotSize_pos_fifty : 0 < 50 := by decide

/-- Look up the contract of a leg: 404 for an unknown symbol, 422 for one that is
not an options contract or cannot be traded. -/
def resolveLeg (env : OptionsEnv) (leg : ExecuteOptionLeg) : Except HttpError ResolvedLeg :=
  match env.instrument leg.symbol with
  | none => .error ⟨404, s!"Unknown instrument symbol: {leg.symbol}"⟩
  | some row =>
    match row.isOptions, row.optionType, row.strike with
    | true, some optionType, some strike =>
      -- A contract without a usable lot size would make every number zero or inverted.
      if h : 0 < row.lotSize.toNat then
        .ok { leg with
          optionType := optionType
          strike := strike
          lotSize := row.lotSize.toNat
          lotSize_pos := h }
      else
        .error ⟨422, s!"{leg.symbol} is registered with lot_size={row.lotSize}, which cannot be "
          ++ "traded: every quantity and payoff number for this contract would be zero or "
          ++ "inverted. Re-register the symbol with its real lot size."⟩
    | _, _, _ => .error ⟨422, s!"{leg.symbol} is not an options contract"⟩

namespace ResolvedLeg

/-- The leg as the payoff engine sees it. -/
def optionLeg (leg : ResolvedLeg) : OptionLeg :=
  { optionType := leg.optionType
    strike := leg.strike
    premium := leg.premium
    quantity := leg.quantity
    direction := leg.direction
    lotSize := leg.lotSize }

/-- The leg's size in units. -/
def units (leg : ResolvedLeg) : ℚ := leg.quantity * leg.lotSize

theorem units_pos (leg : ResolvedLeg) : 0 < leg.units := by
  unfold units
  have hq : (0 : ℚ) < leg.quantity := by exact_mod_cast leg.quantity_range.1
  have hl : (0 : ℚ) < leg.lotSize := by exact_mod_cast leg.lotSize_pos
  positivity

end ResolvedLeg

/-- The `uuid.uuid5` of a text, written as the text. -/
def uuid5 (text : String) : String := s!"uuid5({text})"

/-- `batch_id`: derived from the request, so that a retry gets the same one. -/
def batchIdOf (userId : AccountId) (r : ExecuteOptionsStrategyRequest) : String :=
  uuid5 (":".intercalate ([userId, r.strategyName] ++ r.legs.map fun leg =>
    s!"{leg.symbol}|{leg.direction.value}|{leg.quantity}|{formatFloat leg.premium}"))

/-- The idempotency key of a leg. -/
def legKey (userId : AccountId) (batchId : String) (symbol : Symbol) : String :=
  s!"{userId}:{batchId}:{symbol}"

/-- The idempotency key of the order that unwinds a leg. -/
def unwindKey (userId : AccountId) (batchId : String) (symbol : Symbol) : String :=
  s!"unwind:{userId}:{batchId}:{symbol}"

/-! ## Section 2: The gate -/

/-- What the legs' snapshots say: liquidity, the worst premium deviation and the
worst age, each `none` where no leg had anything to judge by. -/
structure LegQuotes where
  liquidityAcceptable : Option Bool := none
  premiumDeviationPct : Option ℚ := none
  marketDataAgeSeconds : Option ℚ := none

/-- Take one leg's snapshot into account. -/
def LegQuotes.add (q : LegQuotes) (leg : ResolvedLeg) (snapshot : OptionSnapshot) : LegQuotes :=
  -- A snapshot without both sides of the book has no mid to deviate from.
  let deviation :=
    match snapshot.bid, snapshot.ask with
    | some bid, some ask =>
      let mid := (bid + ask) / 2
      if mid ≠ 0 then
        some (max (q.premiumDeviationPct.getD 0) (|leg.premium - mid| / mid * 100))
      else q.premiumDeviationPct
    | _, _ => q.premiumDeviationPct
  { liquidityAcceptable :=
      some (decide (q.liquidityAcceptable ≠ some false) && snapshot.acceptable)
    premiumDeviationPct := deviation
    marketDataAgeSeconds := some (max (q.marketDataAgeSeconds.getD 0) snapshot.ageSeconds) }

def legQuotes (env : OptionsEnv) (legs : List ResolvedLeg) : LegQuotes :=
  legs.foldl (fun q leg =>
    match env.snapshot leg.symbol with
    | none => q
    | some snapshot => q.add leg snapshot) {}

namespace Stack

variable {β : Type} [Broker β]

/-- Does every leg oppose an open position in its own instrument? -/
def reduces (s : Stack β) (legs : List ResolvedLeg) : Bool :=
  decide (legs ≠ []) && legs.all fun leg => s.opposes leg.symbol leg.direction

/-- The proposal the options evaluator judges. -/
def optionsProposal (s : Stack β) (env : OptionsEnv) (legs : List ResolvedLeg)
    (payoff : PayoffResult) : OptionsRiskProposal :=
  let openPositions := s.positionManager.openPositions s.userId
  let quotes := legQuotes env legs
  { accountId := s.userId
    accountBalance := (Broker.getAccount s.broker).balance
    currentExposure := grossExposure openPositions env.elsewhere
    payoff := payoff
    brokerHealthy := Broker.isHealthy s.broker
    openPositions := openPositions.length
    tradesToday := s.tradesToday
    dailyPnl := s.dailyPnl
    weeklyPnl := s.weeklyPnl
    repeatedRejections := s.repeatedRejections
    marketDataAgeSeconds := quotes.marketDataAgeSeconds
    liquidityAcceptable := quotes.liquidityAcceptable
    premiumDeviationPct := quotes.premiumDeviationPct
    isReducing := s.reduces legs }

/-- A strategy that passed the gate: its legs and its payoff. -/
structure ApprovedStrategy where
  legs : List ResolvedLeg
  payoff : PayoffResult

/-- The gate of `execute_options_strategy`: the refusal, or the strategy to submit;
the stack; and the risk decision, if one was taken. -/
def optionsGate (s : Stack β) (env : OptionsEnv) (r : ExecuteOptionsStrategyRequest) :
    Except HttpError ApprovedStrategy × Stack β × Option RiskDecisionResult :=
  if r.legs = [] then (.error ⟨422, "At least one leg is required"⟩, s, none)
  else
    match r.legs.mapM (resolveLeg env) with
    | .error problem => (.error problem, s, none)
    | .ok legs =>
      match computePayoffSummary (legs.map ResolvedLeg.optionLeg) with
      | .error problem => (.error ⟨422, problem⟩, s, none)
      | .ok payoff =>
        -- A batch that only reduces passes a halt, as a single order does.
        if env.haltReason.isSome ∧ s.reduces legs = false then
          (.error ⟨423, s!"New entries are halted for this account: {env.haltText}"⟩, s,
            none)
        else
          let s := s.rollRiskWindow env.now
          let decision := OptionsRisk.evaluateOptionsRisk s.limits env.killSwitch
            (s.optionsProposal env legs payoff)
          if decision.approved then (.ok ⟨legs, payoff⟩, s, some decision)
          else
            (.error ⟨403, s!"Risk engine rejected this strategy: {decision.reasonText}"⟩,
              s, some decision)

/-- The gate refuses, and any decision it took was no approval; or it approves the
legs it resolved, on the rolled stack. -/
theorem optionsGate_cases (s : Stack β) (env : OptionsEnv) (r : ExecuteOptionsStrategyRequest) :
    (∃ refusal s' decision, s.optionsGate env r = (.error refusal, s', decision) ∧
      (s' = s ∨ s' = s.rollRiskWindow env.now) ∧ ∀ d, decision = some d → d.approved = false) ∨
    (∃ approved decision,
      s.optionsGate env r = (.ok approved, s.rollRiskWindow env.now, some decision) ∧
      r.legs.mapM (resolveLeg env) = .ok approved.legs ∧
      decision = OptionsRisk.evaluateOptionsRisk (s.rollRiskWindow env.now).limits env.killSwitch
        ((s.rollRiskWindow env.now).optionsProposal env approved.legs approved.payoff) ∧
      decision.approved = true) := by
  unfold optionsGate
  split
  · -- No legs at all.
    exact Or.inl ⟨_, _, _, rfl, Or.inl rfl, fun _ h => by cases h⟩
  split
  · -- A leg whose instrument does not resolve.
    exact Or.inl ⟨_, _, _, rfl, Or.inl rfl, fun _ h => by cases h⟩
  rename_i legs hlegs
  split
  · -- Legs without a payoff.
    exact Or.inl ⟨_, _, _, rfl, Or.inl rfl, fun _ h => by cases h⟩
  -- The account is halted, and the batch does not only reduce.
  split
  · exact Or.inl ⟨_, _, _, rfl, Or.inl rfl, fun _ h => by cases h⟩
  -- Past the halt the windows are rolled, and the decision is of the rolled stack.
  dsimp only
  split
  · rename_i happroved
    exact Or.inr ⟨_, _, rfl, hlegs, rfl, happroved⟩
  · rename_i hrefused
    refine Or.inl ⟨_, _, _, rfl, Or.inr rfl, fun d h => ?_⟩
    cases h
    exact Bool.eq_false_iff.mpr hrefused

/-- The gate of an account that is not halted approves legs whose risk is approved. -/
theorem optionsGate_ok {s : Stack β} {env : OptionsEnv} {r : ExecuteOptionsStrategyRequest}
    {legs : List ResolvedLeg} (hlegs : r.legs.mapM (resolveLeg env) = .ok legs) (hsome : legs ≠ [])
    (hlive : env.haltReason = none)
    (happroved : ∀ payoff, computePayoffSummary (legs.map ResolvedLeg.optionLeg) = .ok payoff →
      (OptionsRisk.evaluateOptionsRisk (s.rollRiskWindow env.now).limits env.killSwitch
        ((s.rollRiskWindow env.now).optionsProposal env legs payoff)).approved = true) :
    ∃ payoff decision,
      s.optionsGate env r = (.ok ⟨legs, payoff⟩, s.rollRiskWindow env.now, some decision) := by
  -- The payoff fails on no legs only.
  have hpayoff : ∃ payoff, computePayoffSummary (legs.map ResolvedLeg.optionLeg) = .ok payoff := by
    unfold computePayoffSummary
    rw [if_neg (by simpa using hsome)]
    exact ⟨_, rfl⟩
  obtain ⟨payoff, hpayoff⟩ := hpayoff
  have hne : r.legs ≠ [] := by
    intro hnil
    rw [hnil] at hlegs
    cases hlegs
    exact hsome rfl
  refine ⟨payoff, OptionsRisk.evaluateOptionsRisk (s.rollRiskWindow env.now).limits env.killSwitch
    ((s.rollRiskWindow env.now).optionsProposal env legs payoff), ?_⟩
  unfold optionsGate
  rw [if_neg hne, hlegs]
  dsimp only
  rw [hpayoff]
  dsimp only
  rw [if_neg (by simp [hlive]), if_pos (happroved payoff hpayoff)]

end Stack

/-! ## Section 3: The legs -/

structure LegExecutionResult where
  symbol : Symbol
  orderId : OrderId
  status : OrderStatus
  rejectionReason : Option String
  deriving DecidableEq, Repr

/-- Exposure that a leg newly opened, and what it takes to give it back. -/
structure OpenedLeg where
  symbol : Symbol
  direction : Direction
  quantity : ℚ
  premium : ℚ
  deriving DecidableEq, Repr

/-- The brand-new exposure between two quantities of one position. -/
def openedQuantity (before after : ℚ) : ℚ :=
  -- A position opened or flipped is new as a whole, one that grew by what it grew.
  if after = 0 then 0
  else if before = 0 ∨ decide (0 < before) ≠ decide (0 < after) then |after|
  else max 0 (|after| - |before|)

/-- `_ESTABLISHED_LEG_STATUSES`. -/
def OrderStatus.isEstablished (status : OrderStatus) : Bool :=
  status = .filled ∨ status = .monitoring

/-- The quote a leg is priced from: `set_quote(symbol, ltp=premium)`, which the mock
broker takes for a market print. -/
def Stack.seedPremium {β : Type} [Broker β] (s : Stack β) (symbol : Symbol) (premium : ℚ) :
    Stack β :=
  s.seedQuote symbol premium true

namespace World

variable {β : Type} [Broker β]

/-- `_submit_leg`: the leg's final order and the new exposure it opened. -/
def submitLeg (w : World β) (now : Instant) (symbol : Symbol) (direction : Direction)
    (premium totalQuantity : ℚ) (idempotencyKey transitionReason : String) :
    Except String (OrderRecord × ℚ × World β) :=
  -- The leg's own premium is the quote its market order fills at.
  let s := w.stack.seedPremium symbol premium
  let before := s.position symbol
  match s.enterOrder now idempotencyKey symbol direction .market totalQuantity none
    transitionReason with
  | .error problem => .error problem
  | .ok (order, created, s) =>
    let db := w.db.persistOrder now order (executionModeFor β)
    match s.position symbol with
    | none => .ok (order, 0, ⟨s, db⟩)
    | some after =>
      let opened :=
        if Stack.justFilled created order then
          openedQuantity (before.elim 0 PositionRecord.quantity) after.quantity
        else 0
      let db := db.persistPosition after (executionModeFor β) manualSourceKey
      let (s, db) := s.journal db now before after order none none
      .ok (order, opened, ⟨s, db⟩)

/-- The quantity of a leg: clamped to what is open, if the batch only reduces. -/
def legQuantity (s : Stack β) (reducing : Bool) (leg : ResolvedLeg) : ℚ :=
  match s.position leg.symbol with
  | none => leg.units
  | some p => if reducing then min leg.units |p.quantity| else leg.units

/-- Submit the legs in order, each against the book as the legs before it left it. -/
def submitLegs (now : Instant) (batchId : String) (reducing : Bool) :
    World β → List ResolvedLeg →
      Except String (List LegExecutionResult × List OpenedLeg × World β)
  | w, [] => .ok ([], [], w)
  | w, leg :: legs => do
    -- Each leg is clamped and filled against the book that the legs before it left.
    let (order, opened, w) ← w.submitLeg now leg.symbol leg.direction leg.premium
      (legQuantity w.stack reducing leg) (legKey w.stack.userId batchId leg.symbol)
      s!"options strategy batch {batchId}"
    let (results, openedLegs, w) ← submitLegs now batchId reducing w legs
    return (⟨leg.symbol, order.id, order.status, order.rejectionReason⟩ :: results,
      (if 0 < opened then [⟨leg.symbol, leg.direction, opened, leg.premium⟩] else []) ++ openedLegs,
      w)

/-! ## Section 4: Remediation -/

/-- Give back the exposure the legs opened, with opposing market orders. -/
def unwindLegs (now : Instant) (batchId : String) :
    World β → List OpenedLeg → Except String (List String × World β)
  | w, [] => .ok ([], w)
  | w, leg :: legs =>
    let closable := min leg.quantity |w.stack.holding leg.symbol|
    -- Something else took the exposure back already.
    if closable ≤ 0 then do
      let (lines, w) ← unwindLegs now batchId w legs
      return (s!"{leg.symbol}: nothing left to unwind." :: lines, w)
    else do
      let (order, _, w) ← w.submitLeg now leg.symbol leg.direction.opposite leg.premium closable
        (unwindKey w.stack.userId batchId leg.symbol)
        s!"unwinding partially executed options batch {batchId}"
      let line :=
        if order.status.isEstablished then
          s!"{leg.symbol}: unwound {formatFloat closable} of newly opened exposure."
        else
          s!"{leg.symbol}: unwind order came back {order.status.value} "
            ++ s!"({textOr order.rejectionReason noReason}) -- exposure is still open."
      let (lines, w) ← unwindLegs now batchId w legs
      return (line :: lines, w)

/-- `_remediate_partial_batch`: is the strategy intact, what was done about it if
not, and the reason for which the account was halted, if it was. -/
def remediatePartialBatch (w : World β) (now : Instant) (batchId strategyName : String)
    (results : List LegExecutionResult) (opened : List OpenedLeg) :
    Except String (Bool × List String × Option String × World β) :=
  -- Three overlapping sets: the branches below read only these two.
  let established := results.filter fun result => result.status.isEstablished
  let unknown := results.filter fun result => decide (result.status = .failed)
  if unknown = [] ∧ established.length = results.length then .ok (true, [], none, w)
  -- Read as: every leg was rejected outright.
  else if established = [] ∧ unknown = [] then
    .ok (false, ["No leg reached the exchange -- nothing was opened, so nothing needed unwinding."],
      none, w)
  else do
    let (lines, w) ←
      if unknown ≠ [] then
        pure ([s!"{unknown.length} leg(s) went unanswered by the broker; their fate is unknown. "
          ++ "Filled legs were deliberately NOT unwound -- an opposing order for a leg that may "
          ++ "already exist at the exchange would open a position of its own. Reconcile against "
          ++ "the broker."], w)
      else do
        let (lines, w) ← unwindLegs now batchId w opened
        if opened = [] then
          pure (lines ++ ["No leg opened new exposure, so there was nothing to unwind -- the "
            ++ "incomplete legs left an existing position only partly closed."], w)
        else pure (lines, w)
    let reason :=
      s!"Multi-leg options strategy '{strategyName}' (batch {batchId}) only partly executed"
    return (false, lines ++ [s!"New entries are halted for this account: {reason}"], some reason, w)

end World

/-- `ExecuteOptionsStrategyResponse`. -/
structure ExecuteOptionsStrategyResponse where
  batchId : String
  payoff : PayoffResult
  legs : List LegExecutionResult
  strategyIntact : Bool
  remediation : List String
  deriving DecidableEq, Repr

namespace World

variable {β : Type} [Broker β]

/-- Everything after the gate: submit the legs, then remediate. -/
def executeLegs (w : World β) (env : OptionsEnv) (r : ExecuteOptionsStrategyRequest)
    (approved : Stack.ApprovedStrategy) :
    Except String (ExecuteOptionsStrategyResponse × Option String × World β) := do
  let batchId := batchIdOf w.stack.userId r
  let reducing := w.stack.reduces approved.legs
  let (results, opened, w) ← submitLegs env.now batchId reducing w approved.legs
  let (intact, remediation, halted, w) ←
    w.remediatePartialBatch env.now batchId r.strategyName results opened
  return (⟨batchId, approved.payoff, results, intact, remediation⟩, halted, w)

/-- `POST /options/execute`. -/
def executeOptionsStrategy (w : World β) (env : OptionsEnv) (r : ExecuteOptionsStrategyRequest) :
    Reply β ExecuteOptionsStrategyResponse :=
  match w.stack.optionsGate env r with
  | (.error refusal, s, decision) =>
    { answer := .error refusal
      world := { w with stack := s }
      decision := decision }
  | (.ok approved, s, decision) =>
    match executeLegs { w with stack := s } env r approved with
    | .error problem =>
      { answer := .error ⟨500, problem⟩
        world := { w with stack := s }
        decision := decision }
    | .ok (response, halted, w) =>
      { answer := .ok response
        world := w
        decision := decision
        halted := halted }

end World

end SuperTrading
