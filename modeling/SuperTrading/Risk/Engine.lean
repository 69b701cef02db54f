import SuperTrading.Risk.Limits
import SuperTrading.Trading.PositionManager

/-!
# Risk Engine

`app/risk/engine.py` and the exposure figures it is fed: the gate every single
order passes.

- **Sizing**: `calculate_position_size`
- **Exposure**: what the account holds, gross, and net of correlated hedges
- **evaluate**: the checks, in the source's order
- **What an approval says**: the facts that the order path relies on
-/

namespace SuperTrading

/-! ## Section 1: Sizing -/

/-- `calculate_position_size`: the quantity that risks the given percentage of
the balance between entry and stop. -/
def calculatePositionSize (accountBalance riskPercent entry stop : ℚ)
    (maxPositionSize : Option ℚ) : ℚ :=
  let riskPerUnit := |entry - stop|
  if riskPerUnit ≤ 0 then 0
  else
    let riskAmount := accountBalance * (riskPercent / 100)
    let quantity := riskAmount / riskPerUnit
    let quantity :=
      match maxPositionSize with
      | none => quantity
      | some cap => min quantity cap
    max quantity 0

/-! ## Section 2: Exposure -/

/-- `signed_notionals_excluding`. -/
def signedNotionalsExcluding (positions : List PositionRecord) (excludeSymbol : Symbol) :
    List (Symbol × ℚ) :=
  (positions.filter fun p => p.symbol ≠ excludeSymbol).map
    (fun p => (p.symbol, p.quantity * p.averagePrice))

/-- `correlated_exposure`: the signed notional of the positions that move with the
target, those that move against it counted the other way. `correlation` is the
matrix entry of a pair with the target, where there is one. -/
def correlatedExposure (targetSymbol : Symbol) (targetNotional : ℚ)
    (openPositionNotionals : List (Symbol × ℚ)) (correlation : Symbol → Option ℚ)
    (threshold : ℚ) : ℚ :=
  openPositionNotionals.foldl (fun total e =>
    if e.1 = targetSymbol then total
    else
      match correlation e.1 with
      | none => total
      | some corr =>
        -- Weakly correlated pairs do not count; a negative correlation hedges.
        if threshold ≤ |corr| then total + (if 0 < corr then e.2 else -e.2) else total)
    targetNotional

/-- The gross notional of the account: this book's positions and the other
engines'. -/
def grossExposure (openPositions : List PositionRecord) (elsewhere : List (Symbol × ℚ)) : ℚ :=
  (openPositions.map fun p => |p.quantity| * p.averagePrice).sum +
    (elsewhere.map fun e => |e.2|).sum

/-! ## Section 3: The gate -/

structure TradeRiskProposal where
  accountId : AccountId
  strategyId : Option String
  entry : ℚ
  stop : ℚ
  accountBalance : ℚ
  openPositions : ℕ
  tradesToday : ℕ
  dailyPnl : ℚ
  weeklyPnl : ℚ
  currentExposure : ℚ
  strategyAllocation : ℚ
  marketDataAgeSeconds : Option ℚ
  brokerHealthy : Bool
  repeatedRejections : ℕ := 0
  recentPriceJumpPct : ℚ := 0
  entryDeviationPct : ℚ := 0
  correlatedExposure : ℚ := 0
  liquidityAcceptable : Option Bool := none
  proposedQuantity : Option ℚ := none
  isReducing : Bool := false

namespace RiskEngine

/-- A percentage of the account balance, with the value a balance of 0 stands for. -/
def percentOfBalance (accountBalance amount fallback : ℚ) : ℚ :=
  if accountBalance = 0 then fallback else amount / accountBalance * 100

/-- The daily and the weekly loss check: the loss so far, as a share of the balance. -/
def lossCheck (name label : String) (pnl limit accountBalance : ℚ) : RiskCheck :=
  let lossPct := percentOfBalance accountBalance (max (-pnl) 0) 0
  { name := name
    passed := lossPct < limit
    detail := s!"{label} {fixed2 lossPct}% vs limit {formatFloat limit}%" }

/-- The checks that cap a share of the account: exposure, strategy, correlation. -/
def shareCheck (name label : String) (amount limit accountBalance : ℚ) : RiskCheck :=
  let sharePct := percentOfBalance accountBalance amount 100
  { name := name
    passed := sharePct ≤ limit
    detail := s!"{label} {fixed2 sharePct}% vs limit {formatFloat limit}%" }

/-- An account without money has no percentages: one check names the cause. -/
def fundedCheck (accountBalance : ℚ) : RiskCheck :=
  { name := "account_funded"
    passed := false
    detail := s!"Account balance {fixed2 accountBalance} cannot support a new position" }

/-- The two checks that count. -/
def countChecks (limits : RiskLimits) (openPositions tradesToday : ℕ) : List RiskCheck :=
  [ { name := "max_open_positions"
      passed := openPositions < limits.maxOpenPositions
      detail := s!"{openPositions} open vs limit {limits.maxOpenPositions}" },
    { name := "max_trades_per_day"
      passed := tradesToday < limits.maxTradesPerDay
      detail := s!"{tradesToday} trades today vs limit {limits.maxTradesPerDay}" } ]

/-- The consecutive broker rejections, against their limit. Both evaluators run
it on every order, a reducing one included. -/
def rejectionsCheck (limits : RiskLimits) (repeatedRejections : ℕ) : RiskCheck :=
  { name := "no_repeated_rejections"
    passed := repeatedRejections < limits.maxRepeatedRejections }

/-- The limits that cap how much risk an account takes on: skipped for an order
that only reduces. -/
def entryChecks (limits : RiskLimits) (p : TradeRiskProposal) (positionNotional : ℚ) :
    List RiskCheck :=
  let shares :=
    if p.accountBalance ≤ 0 then [fundedCheck p.accountBalance]
    else
      -- A stop below the entry marks a long.
      let signedTargetNotional := if p.stop < p.entry then positionNotional else -positionNotional
      [ lossCheck "daily_loss_limit" "Daily loss" p.dailyPnl limits.maxDailyLossPct
          p.accountBalance,
        lossCheck "weekly_loss_limit" "Weekly loss" p.weeklyPnl limits.maxWeeklyLossPct
          p.accountBalance,
        shareCheck "exposure_limit" "Projected exposure" (p.currentExposure + positionNotional)
          limits.maxExposurePct p.accountBalance,
        shareCheck "strategy_allocation_limit" "Strategy allocation"
          (p.strategyAllocation + positionNotional) limits.maxStrategyAllocationPct
          p.accountBalance,
        shareCheck "correlated_exposure_limit" "Correlated exposure"
          |p.correlatedExposure + signedTargetNotional| limits.maxCorrelatedExposurePct
          p.accountBalance ]
  shares ++ countChecks limits p.openPositions p.tradesToday

/-- The checks on whether this order can be executed sanely now. -/
def executionChecks (limits : RiskLimits) (p : TradeRiskProposal) : List RiskCheck :=
  (match p.liquidityAcceptable with
    | none => []
    | some ok => [{ name := "liquidity_acceptable", passed := ok }]) ++
  [ (match p.marketDataAgeSeconds with
      | none =>
        { name := "market_data_fresh"
          passed := false
          detail := "No market data for this instrument" }
      | some age =>
        { name := "market_data_fresh"
          passed := age ≤ limits.marketDataMaxStalenessSeconds
          detail := s!"Data age {formatFloat age}s vs max "
            ++ s!"{formatFloat limits.marketDataMaxStalenessSeconds}s" }),
    { name := "broker_healthy", passed := p.brokerHealthy },
    rejectionsCheck limits p.repeatedRejections,
    { name := "no_abnormal_price_jump"
      passed := p.recentPriceJumpPct ≤ limits.maxPriceJumpPct } ]

/-- `RiskEngine.evaluate`. -/
def evaluate (limits : RiskLimits) (killSwitch : KillSwitchState) (p : TradeRiskProposal) :
    RiskDecisionResult :=
  match killSwitch.isBlocked p.accountId p.strategyId with
  | some killReason =>
    ⟨.reject, [{ name := "kill_switch", passed := false, detail := killReason }], some killReason⟩
  | none =>
    let riskPerUnit := |p.entry - p.stop|
    let checks : List RiskCheck :=
      [ { name := "kill_switch", passed := true },
        { name := "valid_stop_distance"
          passed := 0 < riskPerUnit
          detail := "Entry and stop must differ" } ]
    -- A stop at the entry ends the evaluation early, with the checks made so far.
    if riskPerUnit ≤ 0 then ⟨.reject, checks, some "Entry and stop must differ"⟩
    else
      let matchesMarket : RiskCheck :=
        { name := "entry_matches_market"
          passed := p.entryDeviationPct ≤ limits.maxEntryDeviationPct
          detail := s!"Entry deviates {fixed2 p.entryDeviationPct}% from the real quote vs limit "
            ++ s!"{formatFloat limits.maxEntryDeviationPct}%" }
      -- The size that is checked is the size that will be sent, where the caller knows it.
      let quantity := p.proposedQuantity.getD
        (calculatePositionSize p.accountBalance limits.riskPerTradePct p.entry p.stop
          limits.maxPositionSize)
      let positionNotional := quantity * p.entry
      .ofChecks (checks ++ [matchesMarket] ++
        (if p.isReducing then [] else entryChecks limits p positionNotional) ++
        executionChecks limits p)

/-! ## Section 4: What an approval says -/

section Approval

variable {limits : RiskLimits} {killSwitch : KillSwitchState} {p : TradeRiskProposal}

/-- An approved order has a stop that differs from its entry. -/
theorem entry_ne_stop_of_approved (h : (evaluate limits killSwitch p).approved = true) :
    p.entry ≠ p.stop := by
  unfold evaluate at h
  split at h
  · simp [RiskDecisionResult.approved] at h
  · dsimp only at h
    split at h
    · simp [RiskDecisionResult.approved] at h
    · rename_i hdist
      intro heq
      apply hdist
      simp [heq]

/-- Every check the gate runs on an order it approves has passed. -/
theorem checks_pass_of_approved (h : (evaluate limits killSwitch p).approved = true) :
    (∀ c ∈ executionChecks limits p, c.passed = true) ∧
    (p.isReducing = false → ∃ notional, ∀ c ∈ entryChecks limits p notional, c.passed = true) := by
  unfold evaluate at h
  split at h
  · simp [RiskDecisionResult.approved] at h
  · dsimp only at h
    split at h
    · simp [RiskDecisionResult.approved] at h
    · rw [RiskDecisionResult.approved_ofChecks] at h
      refine ⟨fun c hc => h c (List.mem_append_right _ hc), fun hred => ?_⟩
      simp only [hred, Bool.false_eq_true, if_false] at h
      exact ⟨_, fun c hc => h c (List.mem_append_left _ (List.mem_append_right _ hc))⟩

/-- An approved entry is made on a funded account. -/
theorem funded_of_approved (h : (evaluate limits killSwitch p).approved = true)
    (hred : p.isReducing = false) : 0 < p.accountBalance := by
  obtain ⟨notional, hall⟩ := (checks_pass_of_approved h).2 hred
  by_contra hbal
  have hmem : fundedCheck p.accountBalance ∈ entryChecks limits p notional := by
    simp [entryChecks, not_lt.mp hbal]
  exact Bool.false_ne_true (hall _ hmem)

/-- An approved order, reducing or not, is below the rejection limit. -/
theorem rejections_lt_of_approved (h : (evaluate limits killSwitch p).approved = true) :
    p.repeatedRejections < limits.maxRepeatedRejections := by
  have hpass := (checks_pass_of_approved h).1 (rejectionsCheck limits p.repeatedRejections)
    (by simp [executionChecks])
  simpa [rejectionsCheck] using hpass

/-- A refused order is told why. -/
theorem reason_isSome_of_refused (h : (evaluate limits killSwitch p).approved = false) :
    (evaluate limits killSwitch p).reason.isSome := by
  unfold evaluate at h ⊢
  split
  · rfl
  · dsimp only at h ⊢
    split
    · rfl
    · rename_i hkill hdist
      simp only [hkill, if_neg hdist] at h
      exact RiskDecisionResult.reason_isSome_of_refused h

end Approval

/-- A funded account risks something on a stop away from the entry. -/
theorem calculatePositionSize_pos {balance pct entry stop : ℚ} {cap : Option ℚ} (hb : 0 < balance)
    (hp : 0 < pct) (hne : entry ≠ stop) (hcap : ∀ c ∈ cap, 0 < c) :
    0 < calculatePositionSize balance pct entry stop cap := by
  have hdist : 0 < |entry - stop| := abs_pos.mpr (sub_ne_zero.mpr hne)
  have hquantity : 0 < balance * (pct / 100) / |entry - stop| := by positivity
  unfold calculatePositionSize
  simp only [not_le.mpr hdist, if_false]
  apply lt_max_of_lt_left
  cases cap with
  | none => exact hquantity
  | some c => exact lt_min hquantity (hcap c rfl)

/-- The size that risks a share of the balance, or less under a cap. -/
theorem calculatePositionSize_risk {balance riskPercent entry stop : ℚ} {cap : Option ℚ}
    (h : 0 < calculatePositionSize balance riskPercent entry stop cap) :
    |entry - stop| * calculatePositionSize balance riskPercent entry stop cap ≤
      riskPercent / 100 * balance := by
  unfold calculatePositionSize at h ⊢
  dsimp only at h ⊢
  split_ifs at h ⊢ with hunit
  · exact absurd h (lt_irrefl 0)
  have hunit' : 0 < |entry - stop| := not_le.mp hunit
  have hshare : |entry - stop| * (balance * (riskPercent / 100) / |entry - stop|) =
      riskPercent / 100 * balance := by
    rw [mul_div_cancel₀ _ hunit'.ne', mul_comm]
  rw [← hshare]
  apply mul_le_mul_of_nonneg_left _ hunit'.le
  -- A positive size is the quotient, or the cap below it.
  cases cap with
  | none =>
    rw [max_eq_left_of_lt ((lt_max_iff.mp h).resolve_right (lt_irrefl 0))]
  | some cap =>
    rw [max_eq_left_of_lt ((lt_max_iff.mp h).resolve_right (lt_irrefl 0))]
    exact min_le_left ..

/-- A cap that is not positive leaves nothing. -/
theorem calculatePositionSize_of_cap {balance pct entry stop cap : ℚ} (hcap : cap ≤ 0) :
    calculatePositionSize balance pct entry stop (some cap) = 0 := by
  unfold calculatePositionSize
  dsimp only
  split
  · rfl
  · exact max_eq_right ((min_le_right _ _).trans hcap)

end RiskEngine

end SuperTrading
