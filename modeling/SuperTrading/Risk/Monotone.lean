import SuperTrading.Risk.OptionsRisk

/-!
# The Gates Are Monotone

Both evaluators, told by what they admit, and the order of their proposals: one that asks
for no more, on an account that is no worse off, is approved wherever the other is.

- **The account's shares**: a figure against a percentage of the balance
- **What the gates admit**: every check passes
- **Monotonicity**: the proposals that ease another, and what follows for both gates
-/

namespace SuperTrading

/-! ## Section 1: The account's shares -/

namespace RiskEngine

/-- A figure that does not grow keeps its limit on a balance that does not shrink. Only a
negative figure comes closer to the limit as the balance grows, which a limit that is not
negative leaves room for. -/
theorem percentOfBalance_le {balance balance' amount amount' fallback limit : ℚ}
    (hpos : 0 < balance) (hbalance : balance ≤ balance') (hamount : amount' ≤ amount)
    (hroom : balance = balance' ∨ 0 ≤ limit ∨ 0 ≤ amount')
    (h : percentOfBalance balance amount fallback ≤ limit) :
    percentOfBalance balance' amount' fallback ≤ limit := by
  have hpos' : 0 < balance' := hpos.trans_le hbalance
  unfold percentOfBalance at *
  rw [if_neg hpos.ne'] at h
  rw [if_neg hpos'.ne']
  -- On one balance the share moves with the figure.
  have hsame : amount' / balance * 100 ≤ limit := by
    refine le_trans ?_ h
    gcongr
  by_cases hsign : 0 ≤ amount'
  · refine le_trans ?_ hsame
    gcongr
  · rcases hroom with rfl | hlimit | hamount'
    · exact hsame
    · have hneg : amount' / balance' < 0 := div_neg_of_neg_of_pos (not_le.mp hsign) hpos'
      linarith
    · exact absurd hamount' hsign

/-- A loss that does not grow stays below its limit on a balance that does not shrink. -/
theorem percentOfLoss_lt {balance balance' pnl pnl' fallback limit : ℚ} (hpos : 0 < balance)
    (hbalance : balance ≤ balance') (hpnl : pnl ≤ pnl')
    (h : percentOfBalance balance (max (-pnl) 0) fallback < limit) :
    percentOfBalance balance' (max (-pnl') 0) fallback < limit := by
  have hloss : max (-pnl') 0 ≤ max (-pnl) 0 := max_le_max (neg_le_neg hpnl) le_rfl
  refine lt_of_le_of_lt ?_ h
  exact percentOfBalance_le hpos hbalance hloss (.inr (.inr (le_max_right _ _))) le_rfl

end RiskEngine

/-! ## Section 2: What the gates admit -/

namespace RiskEngine

/-- The notional the gate judges. -/
def judgedNotional (limits : RiskLimits) (p : TradeRiskProposal) : ℚ :=
  p.proposedQuantity.getD (calculatePositionSize p.accountBalance limits.riskPerTradePct p.entry
    p.stop limits.maxPositionSize) * p.entry

/-- The limits on taking on risk, as the entry checks read them. -/
structure EntryAdmits (limits : RiskLimits) (p : TradeRiskProposal) (notional : ℚ) : Prop where
  funded : 0 < p.accountBalance
  daily : percentOfBalance p.accountBalance (max (-p.dailyPnl) 0) 0 < limits.maxDailyLossPct
  weekly : percentOfBalance p.accountBalance (max (-p.weeklyPnl) 0) 0 < limits.maxWeeklyLossPct
  exposure : percentOfBalance p.accountBalance (p.currentExposure + notional) 100 ≤
    limits.maxExposurePct
  strategy : percentOfBalance p.accountBalance (p.strategyAllocation + notional) 100 ≤
    limits.maxStrategyAllocationPct
  correlated : percentOfBalance p.accountBalance
    |p.correlatedExposure + if p.stop < p.entry then notional else -notional| 100 ≤
      limits.maxCorrelatedExposurePct
  positions : p.openPositions < limits.maxOpenPositions
  trades : p.tradesToday < limits.maxTradesPerDay

/-- The conditions for executing an order now. -/
structure ExecutionAdmits (limits : RiskLimits) (p : TradeRiskProposal) : Prop where
  liquidity : p.liquidityAcceptable ≠ some false
  fresh : ∃ age ∈ p.marketDataAgeSeconds, age ≤ limits.marketDataMaxStalenessSeconds
  healthy : p.brokerHealthy = true
  rejections : p.repeatedRejections < limits.maxRepeatedRejections
  jump : p.recentPriceJumpPct ≤ limits.maxPriceJumpPct

theorem entryChecks_pass_iff {limits : RiskLimits} {p : TradeRiskProposal} {notional : ℚ} :
    (∀ c ∈ entryChecks limits p notional, c.passed = true) ↔ EntryAdmits limits p notional := by
  unfold entryChecks
  by_cases hfunded : p.accountBalance ≤ 0
  · -- The one check of an account without money fails.
    constructor
    · intro h
      have hcheck := h (fundedCheck p.accountBalance) (by simp [hfunded])
      exact absurd hcheck Bool.false_ne_true
    · exact fun h => absurd h.funded (not_lt.mpr hfunded)
  · simp only [if_neg hfunded, countChecks, List.forall_mem_append, List.forall_mem_cons,
      lossCheck, shareCheck, decide_eq_true_eq, List.not_mem_nil, false_implies, implies_true,
      and_true]
    constructor
    · rintro ⟨⟨hdaily, hweekly, hexposure, hstrategy, hcorrelated⟩, hpositions, htrades⟩
      exact ⟨not_le.mp hfunded, hdaily, hweekly, hexposure, hstrategy, hcorrelated, hpositions,
        htrades⟩
    · intro h
      exact ⟨⟨h.daily, h.weekly, h.exposure, h.strategy, h.correlated⟩, h.positions, h.trades⟩

theorem executionChecks_pass_iff {limits : RiskLimits} {p : TradeRiskProposal} :
    (∀ c ∈ executionChecks limits p, c.passed = true) ↔ ExecutionAdmits limits p := by
  unfold executionChecks
  simp only [List.forall_mem_append, List.forall_mem_cons, rejectionsCheck, decide_eq_true_eq,
    List.not_mem_nil, false_implies, implies_true, and_true]
  -- An unknown liquidity passes, an unknown age of the market data does not.
  constructor
  · rintro ⟨hliquidity, hfresh, hhealthy, hrejections, hjump⟩
    refine ⟨?_, ?_, hhealthy, hrejections, hjump⟩
    · intro hnone
      simp [hnone] at hliquidity
    · cases hage : p.marketDataAgeSeconds with
      | none => simp [hage] at hfresh
      | some age => exact ⟨age, rfl, by simpa [hage] using hfresh⟩
  · intro h
    obtain ⟨age, hage, hle⟩ := h.fresh
    refine ⟨?_, ?_, h.healthy, h.rejections, h.jump⟩
    · cases hliquidity : p.liquidityAcceptable with
      | none => simp
      | some ok =>
        cases ok with
        | false => exact absurd hliquidity h.liquidity
        | true => simp
    · rw [Option.mem_def] at hage
      simpa [hage] using hle

/-- **What the gate of a single order admits.** -/
theorem approved_iff {limits : RiskLimits} {killSwitch : KillSwitchState} {p : TradeRiskProposal} :
    (evaluate limits killSwitch p).approved = true ↔
      killSwitch.isBlocked p.accountId p.strategyId = none ∧ p.entry ≠ p.stop ∧
        p.entryDeviationPct ≤ limits.maxEntryDeviationPct ∧
        (p.isReducing = false → EntryAdmits limits p (judgedNotional limits p)) ∧
        ExecutionAdmits limits p := by
  unfold evaluate
  cases hkill : killSwitch.isBlocked p.accountId p.strategyId with
  | some reason => simp [RiskDecisionResult.approved]
  | none =>
    by_cases hstop : p.entry = p.stop
    · simp [hstop, RiskDecisionResult.approved]
    · have hdist : 0 < |p.entry - p.stop| := abs_pos.mpr (sub_ne_zero.mpr hstop)
      simp only [if_neg (not_le.mpr hdist), RiskDecisionResult.approved_ofChecks,
        List.forall_mem_append, List.forall_mem_cons, decide_eq_true_eq, hdist, List.not_mem_nil,
        false_implies, implies_true, and_true, true_and, executionChecks_pass_iff, ne_eq, hstop,
        not_false_eq_true, and_assoc]
      -- The entry checks stand in the list unless the order only reduces.
      cases hreducing : p.isReducing with
      | true => simp
      | false =>
        simp only [Bool.false_eq_true, if_false, forall_const, entryChecks_pass_iff]
        rfl

end RiskEngine

namespace OptionsRisk

/-- The limits on taking on risk, as the entry checks of a strategy read them. -/
structure EntryAdmits (limits : RiskLimits) (p : OptionsRiskProposal) : Prop where
  funded : 0 < p.accountBalance
  exposure : RiskEngine.percentOfBalance p.accountBalance
    (p.currentExposure + riskAmount p.payoff) 100 ≤ limits.maxExposurePct
  daily : RiskEngine.percentOfBalance p.accountBalance (max (-p.dailyPnl) 0) 0 <
    limits.maxDailyLossPct
  weekly : RiskEngine.percentOfBalance p.accountBalance (max (-p.weeklyPnl) 0) 0 <
    limits.maxWeeklyLossPct
  positions : p.openPositions < limits.maxOpenPositions
  trades : p.tradesToday < limits.maxTradesPerDay

/-- The conditions for executing these legs now, where they were measured. -/
structure ExecutionAdmits (limits : RiskLimits) (p : OptionsRiskProposal) : Prop where
  rejections : p.repeatedRejections < limits.maxRepeatedRejections
  liquidity : p.liquidityAcceptable ≠ some false
  premium : ∀ deviation ∈ p.premiumDeviationPct, deviation ≤ limits.maxPremiumDeviationPct
  fresh : ∀ age ∈ p.marketDataAgeSeconds, age ≤ limits.marketDataMaxStalenessSeconds
  healthy : p.brokerHealthy = true

theorem entryChecks_pass_iff {limits : RiskLimits} {p : OptionsRiskProposal} :
    (∀ c ∈ entryChecks limits p, c.passed = true) ↔ EntryAdmits limits p := by
  unfold entryChecks
  by_cases hfunded : p.accountBalance ≤ 0
  · constructor
    · intro h
      have hcheck := h (RiskEngine.fundedCheck p.accountBalance) (by simp [hfunded])
      exact absurd hcheck Bool.false_ne_true
    · exact fun h => absurd h.funded (not_lt.mpr hfunded)
  · simp only [if_neg hfunded, RiskEngine.countChecks, List.forall_mem_append,
      List.forall_mem_cons, RiskEngine.lossCheck, RiskEngine.shareCheck, decide_eq_true_eq,
      List.not_mem_nil, false_implies, implies_true, and_true]
    constructor
    · rintro ⟨⟨hexposure, hdaily, hweekly⟩, hpositions, htrades⟩
      exact ⟨not_le.mp hfunded, hexposure, hdaily, hweekly, hpositions, htrades⟩
    · intro h
      exact ⟨⟨h.exposure, h.daily, h.weekly⟩, h.positions, h.trades⟩

theorem executionChecks_pass_iff {limits : RiskLimits} {p : OptionsRiskProposal} :
    (∀ c ∈ executionChecks limits p, c.passed = true) ↔ ExecutionAdmits limits p := by
  unfold executionChecks
  simp only [List.forall_mem_append, List.forall_mem_cons, RiskEngine.rejectionsCheck,
    decide_eq_true_eq, List.not_mem_nil, false_implies, implies_true, and_true]
  constructor
  · -- A check that was not asked for passes, so each one is read for a measured figure.
    rintro ⟨⟨⟨⟨hrejections, hliquidity⟩, hpremium⟩, hfresh⟩, hhealthy⟩
    refine ⟨hrejections, ?_, ?_, ?_, hhealthy⟩
    · intro hnot
      simp [hnot] at hliquidity
    · intro deviation hdeviation
      rw [Option.mem_def] at hdeviation
      simpa [hdeviation] using hpremium
    · intro age hage
      rw [Option.mem_def] at hage
      simpa [hage] using hfresh
  · -- Back, a figure that is missing passes.
    intro h
    refine ⟨⟨⟨⟨h.rejections, ?_⟩, ?_⟩, ?_⟩, h.healthy⟩
    · cases hliquidity : p.liquidityAcceptable with
      | none => simp
      | some ok =>
        cases ok with
        | false => exact absurd hliquidity h.liquidity
        | true => simp
    · cases hdeviation : p.premiumDeviationPct with
      | none => simp
      | some deviation => simpa using h.premium deviation hdeviation
    · cases hage : p.marketDataAgeSeconds with
      | none => simp
      | some age => simpa using h.fresh age hage

/-- **What the gate of a strategy admits.** -/
theorem approved_iff {limits : RiskLimits} {killSwitch : KillSwitchState}
    {p : OptionsRiskProposal} :
    (evaluateOptionsRisk limits killSwitch p).approved = true ↔
      killSwitch.isBlocked p.accountId none = none ∧
        (p.isReducing = false → EntryAdmits limits p) ∧ ExecutionAdmits limits p := by
  unfold evaluateOptionsRisk
  cases hkill : killSwitch.isBlocked p.accountId none with
  | some reason => simp [RiskDecisionResult.approved]
  | none =>
    simp only [RiskDecisionResult.approved_ofChecks, List.forall_mem_append, List.forall_mem_cons,
      List.not_mem_nil, false_implies, implies_true, and_true, true_and, executionChecks_pass_iff]
    cases hreducing : p.isReducing with
    | true => simp
    | false => simp only [Bool.false_eq_true, if_false, forall_const, entryChecks_pass_iff]

end OptionsRisk

/-! ## Section 3: Monotonicity -/

/-- No older, with an unknown age as the oldest there is. -/
def NoOlder (age old : Option ℚ) : Prop := ∀ b ∈ old, ∃ a ∈ age, a ≤ b

/-- No larger, with an unmeasured figure as the least: it is not checked. -/
def NoLargerMeasured (figure old : Option ℚ) : Prop := ∀ a ∈ figure, ∃ b ∈ old, a ≤ b

/-- `q` is the order `p` in circumstances that are no worse. -/
structure TradeRiskProposal.Eases (q p : TradeRiskProposal) : Prop where
  accountId : q.accountId = p.accountId
  strategyId : q.strategyId = p.strategyId
  entry : q.entry = p.entry
  stop : q.stop = p.stop
  quantity : q.proposedQuantity = p.proposedQuantity
  correlated : q.correlatedExposure = p.correlatedExposure
  reducing : q.isReducing = p.isReducing
  openPositions : q.openPositions ≤ p.openPositions
  tradesToday : q.tradesToday ≤ p.tradesToday
  exposure : q.currentExposure ≤ p.currentExposure
  allocation : q.strategyAllocation ≤ p.strategyAllocation
  age : NoOlder q.marketDataAgeSeconds p.marketDataAgeSeconds
  rejections : q.repeatedRejections ≤ p.repeatedRejections
  jump : q.recentPriceJumpPct ≤ p.recentPriceJumpPct
  deviation : q.entryDeviationPct ≤ p.entryDeviationPct
  daily : p.dailyPnl ≤ q.dailyPnl
  weekly : p.weeklyPnl ≤ q.weeklyPnl
  balance : p.accountBalance ≤ q.accountBalance
  healthy : p.brokerHealthy = true → q.brokerHealthy = true
  liquidity : q.liquidityAcceptable = some false → p.liquidityAcceptable = some false

/-- `q` is the strategy `p` in circumstances that are no worse; `noOlder` compares the ages. -/
structure OptionsRiskProposal.Eases (noOlder : Option ℚ → Option ℚ → Prop)
    (q p : OptionsRiskProposal) : Prop where
  accountId : q.accountId = p.accountId
  payoff : q.payoff = p.payoff
  reducing : q.isReducing = p.isReducing
  openPositions : q.openPositions ≤ p.openPositions
  tradesToday : q.tradesToday ≤ p.tradesToday
  exposure : q.currentExposure ≤ p.currentExposure
  age : noOlder q.marketDataAgeSeconds p.marketDataAgeSeconds
  rejections : q.repeatedRejections ≤ p.repeatedRejections
  deviation : NoLargerMeasured q.premiumDeviationPct p.premiumDeviationPct
  daily : p.dailyPnl ≤ q.dailyPnl
  weekly : p.weeklyPnl ≤ q.weeklyPnl
  balance : p.accountBalance ≤ q.accountBalance
  healthy : p.brokerHealthy = true → q.brokerHealthy = true
  liquidity : q.liquidityAcceptable = some false → p.liquidityAcceptable = some false

theorem NoLargerMeasured.le {figure old : Option ℚ} {limit : ℚ} (h : NoLargerMeasured figure old)
    (hold : ∀ b ∈ old, b ≤ limit) : ∀ a ∈ figure, a ≤ limit := by
  intro a ha
  obtain ⟨b, hb, hab⟩ := h a ha
  exact hab.trans (hold b hb)

namespace RiskEngine

variable {limits : RiskLimits} {killSwitch : KillSwitchState} {p q : TradeRiskProposal}

theorem ExecutionAdmits.eased (h : ExecutionAdmits limits p) (hease : q.Eases p) :
    ExecutionAdmits limits q := by
  obtain ⟨b, hb, hfresh⟩ := h.fresh
  obtain ⟨a, ha, hab⟩ := hease.age b hb
  exact
    { liquidity := fun hnot => h.liquidity (hease.liquidity hnot)
      fresh := ⟨a, ha, hab.trans hfresh⟩
      healthy := hease.healthy h.healthy
      rejections := hease.rejections.trans_lt h.rejections
      jump := hease.jump.trans h.jump }

theorem EntryAdmits.eased {notional : ℚ} (h : EntryAdmits limits p notional) (hease : q.Eases p)
    (hroom : p.accountBalance = q.accountBalance ∨
      0 ≤ limits.maxExposurePct ∧ 0 ≤ limits.maxStrategyAllocationPct) :
    EntryAdmits limits q notional where
  funded := h.funded.trans_le hease.balance
  daily := percentOfLoss_lt h.funded hease.balance hease.daily h.daily
  weekly := percentOfLoss_lt h.funded hease.balance hease.weekly h.weekly
  exposure := percentOfBalance_le h.funded hease.balance (by linarith [hease.exposure])
    (hroom.imp_right fun hlimits => .inl hlimits.1) h.exposure
  strategy := percentOfBalance_le h.funded hease.balance (by linarith [hease.allocation])
    (hroom.imp_right fun hlimits => .inl hlimits.2) h.strategy
  -- The net figure is the same one, and a magnitude.
  correlated := by
    rw [hease.correlated, hease.stop, hease.entry]
    exact percentOfBalance_le h.funded hease.balance le_rfl (.inr (.inr (abs_nonneg _)))
      h.correlated
  positions := hease.openPositions.trans_lt h.positions
  trades := hease.tradesToday.trans_lt h.trades

theorem approved_eased (hease : q.Eases p) (hquantity : p.proposedQuantity.isSome)
    (hroom : p.isReducing = false → p.accountBalance = q.accountBalance ∨
      0 ≤ limits.maxExposurePct ∧ 0 ≤ limits.maxStrategyAllocationPct)
    (h : (evaluate limits killSwitch p).approved = true) :
    (evaluate limits killSwitch q).approved = true := by
  rw [approved_iff] at h ⊢
  obtain ⟨hkill, hstop, hdeviation, hentry, hexecution⟩ := h
  rw [hease.accountId, hease.strategyId, hease.entry, hease.stop, hease.reducing]
  refine ⟨hkill, hstop, hease.deviation.trans hdeviation, ?_, hexecution.eased hease⟩
  intro hreducing
  -- A size that the caller gives is judged as it is, whatever the balance.
  have hnotional : judgedNotional limits q = judgedNotional limits p := by
    obtain ⟨n, hn⟩ := Option.isSome_iff_exists.mp hquantity
    simp [judgedNotional, hease.quantity, hease.entry, hn]
  rw [hnotional]
  exact (hentry hreducing).eased hease (hroom hreducing)

/-- The checks of a reducing order are among those of an entry. -/
theorem approved_reducing
    (h : (evaluate limits killSwitch { p with isReducing := false }).approved = true) :
    (evaluate limits killSwitch { p with isReducing := true }).approved = true := by
  rw [approved_iff] at h ⊢
  obtain ⟨hkill, hstop, hdeviation, -, hexecution⟩ := h
  exact ⟨hkill, hstop, hdeviation, fun h => absurd h.symm Bool.false_ne_true,
    ⟨hexecution.liquidity, hexecution.fresh, hexecution.healthy, hexecution.rejections,
      hexecution.jump⟩⟩

end RiskEngine

namespace OptionsRisk

variable {limits : RiskLimits} {killSwitch : KillSwitchState} {p q : OptionsRiskProposal}

theorem ExecutionAdmits.eased (h : ExecutionAdmits limits p) (hease : q.Eases NoLargerMeasured p) :
    ExecutionAdmits limits q where
  rejections := hease.rejections.trans_lt h.rejections
  liquidity := fun hnot => h.liquidity (hease.liquidity hnot)
  premium := hease.deviation.le h.premium
  fresh := hease.age.le h.fresh
  healthy := hease.healthy h.healthy

theorem EntryAdmits.eased {noOlder : Option ℚ → Option ℚ → Prop} (h : EntryAdmits limits p)
    (hease : q.Eases noOlder p)
    (hroom : p.accountBalance = q.accountBalance ∨ 0 ≤ limits.maxExposurePct) :
    EntryAdmits limits q where
  funded := h.funded.trans_le hease.balance
  exposure := RiskEngine.percentOfBalance_le h.funded hease.balance
    (by rw [hease.payoff]; linarith [hease.exposure]) (hroom.imp_right .inl) h.exposure
  daily := RiskEngine.percentOfLoss_lt h.funded hease.balance hease.daily h.daily
  weekly := RiskEngine.percentOfLoss_lt h.funded hease.balance hease.weekly h.weekly
  positions := hease.openPositions.trans_lt h.positions
  trades := hease.tradesToday.trans_lt h.trades

theorem approved_eased (hease : q.Eases NoLargerMeasured p)
    (hroom : p.isReducing = false →
      p.accountBalance = q.accountBalance ∨ 0 ≤ limits.maxExposurePct)
    (h : (evaluateOptionsRisk limits killSwitch p).approved = true) :
    (evaluateOptionsRisk limits killSwitch q).approved = true := by
  rw [approved_iff] at h ⊢
  obtain ⟨hkill, hentry, hexecution⟩ := h
  rw [hease.accountId, hease.reducing]
  exact ⟨hkill, fun hreducing => (hentry hreducing).eased hease (hroom hreducing),
    hexecution.eased hease⟩

theorem approved_reducing
    (h : (evaluateOptionsRisk limits killSwitch { p with isReducing := false }).approved = true) :
    (evaluateOptionsRisk limits killSwitch { p with isReducing := true }).approved = true := by
  rw [approved_iff] at h ⊢
  obtain ⟨hkill, -, hexecution⟩ := h
  exact ⟨hkill, fun h => absurd h.symm Bool.false_ne_true,
    ⟨hexecution.rejections, hexecution.liquidity, hexecution.premium, hexecution.fresh,
      hexecution.healthy⟩⟩

end OptionsRisk

/-- **Both gates are monotone.** An approved order is approved in circumstances that are no
worse, and an approved entry is approved as a reduction. The size is the caller's; a share
limit is not negative where the balance differs; and a strategy's figure that was not measured
counts as the least, since it is not checked. -/
theorem gates_monotone (limits : RiskLimits) (killSwitch : KillSwitchState) :
    (∀ p q : TradeRiskProposal, q.Eases p → p.proposedQuantity.isSome →
        (p.isReducing = false → p.accountBalance = q.accountBalance ∨
          0 ≤ limits.maxExposurePct ∧ 0 ≤ limits.maxStrategyAllocationPct) →
        (RiskEngine.evaluate limits killSwitch p).approved = true →
        (RiskEngine.evaluate limits killSwitch q).approved = true) ∧
      (∀ p : TradeRiskProposal,
        (RiskEngine.evaluate limits killSwitch { p with isReducing := false }).approved = true →
        (RiskEngine.evaluate limits killSwitch { p with isReducing := true }).approved = true) ∧
      (∀ p q : OptionsRiskProposal, q.Eases NoLargerMeasured p →
        (p.isReducing = false →
          p.accountBalance = q.accountBalance ∨ 0 ≤ limits.maxExposurePct) →
        (OptionsRisk.evaluateOptionsRisk limits killSwitch p).approved = true →
        (OptionsRisk.evaluateOptionsRisk limits killSwitch q).approved = true) ∧
      ∀ p : OptionsRiskProposal,
        (OptionsRisk.evaluateOptionsRisk limits killSwitch
          { p with isReducing := false }).approved = true →
        (OptionsRisk.evaluateOptionsRisk limits killSwitch
          { p with isReducing := true }).approved = true :=
  ⟨fun _ _ hease hquantity hroom => RiskEngine.approved_eased hease hquantity hroom,
    fun _ => RiskEngine.approved_reducing,
    fun _ _ hease hroom => OptionsRisk.approved_eased hease hroom,
    fun _ => OptionsRisk.approved_reducing⟩

/-- An order, on a book that is short in the figures it is judged by. -/
def shortBookOrder : TradeRiskProposal :=
  { accountId := "acct"
    strategyId := none
    entry := 100
    stop := 95
    accountBalance := 1000
    openPositions := 0
    tradesToday := 0
    dailyPnl := 0
    weeklyPnl := 0
    currentExposure := -200
    strategyAllocation := 0
    marketDataAgeSeconds := some 1
    brokerHealthy := true
    proposedQuantity := some 1 }

/-- A bounded strategy whose legs have no quote. -/
def unquotedStrategy : OptionsRiskProposal :=
  { accountId := "acct"
    accountBalance := 1000
    currentExposure := 0
    payoff := ⟨some 10, some (-10), [], 10, 10, -10⟩
    brokerHealthy := true }

/-- An unknown age is not the oldest to the gate of strategies, and a balance that grows eats
into a negative limit. -/
theorem gates_not_monotone :
    ({ unquotedStrategy with marketDataAgeSeconds := some 60 }.Eases NoOlder unquotedStrategy ∧
      (OptionsRisk.evaluateOptionsRisk {} {} unquotedStrategy).approved = true ∧
      (OptionsRisk.evaluateOptionsRisk {} {}
        { unquotedStrategy with marketDataAgeSeconds := some 60 }).approved = false) ∧
    ({ shortBookOrder with accountBalance := 100000 }.Eases shortBookOrder ∧
      (RiskEngine.evaluate { maxExposurePct := -1 } {} shortBookOrder).approved = true ∧
      (RiskEngine.evaluate { maxExposurePct := -1 } {}
        { shortBookOrder with accountBalance := 100000 }).approved = false) := by
  refine ⟨⟨?_, by decide +kernel, by decide +kernel⟩, ?_, by decide +kernel, by decide +kernel⟩
  · constructor <;> simp [unquotedStrategy, NoOlder, NoLargerMeasured]
  · constructor
    case balance => norm_num [shortBookOrder]
    all_goals simp [shortBookOrder, NoOlder]

/-- A second's delay less, on the same order. -/
theorem gates_monotone_fresher :
    (RiskEngine.evaluate {} {} { shortBookOrder with marketDataAgeSeconds := some 0 }).approved =
      true := by
  apply (gates_monotone {} {}).1 shortBookOrder
  · constructor <;> simp [shortBookOrder, NoOlder]
  · rfl
  · exact fun _ => .inl rfl
  · decide +kernel

end SuperTrading
