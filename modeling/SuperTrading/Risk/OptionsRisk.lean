import SuperTrading.Risk.Engine
import SuperTrading.Options.Payoff

/-!
# Risk Gate for Option Strategies

`app/risk/options_risk.py`: the second evaluator, for a combination of legs whose
risk is its payoff rather than a distance from entry to stop.
-/

namespace SuperTrading

structure OptionsRiskProposal where
  accountId : AccountId
  accountBalance : ℚ
  currentExposure : ℚ
  payoff : PayoffResult
  brokerHealthy : Bool
  openPositions : ℕ := 0
  tradesToday : ℕ := 0
  dailyPnl : ℚ := 0
  weeklyPnl : ℚ := 0
  repeatedRejections : ℕ := 0
  marketDataAgeSeconds : Option ℚ := none
  liquidityAcceptable : Option Bool := none
  premiumDeviationPct : Option ℚ := none
  isReducing : Bool := false

namespace OptionsRisk

/-- The worst case of a strategy: its bounded loss, or else the worst loss that
was sampled, at least the capital committed. -/
def riskAmount (payoff : PayoffResult) : ℚ :=
  match payoff.maxLoss with
  | some loss => |loss|
  | none => max (-payoff.worstSampledLoss) payoff.capitalRequirement

/-- A strategy that loses no more than `m` at any price, and costs no more, risks no more. -/
theorem riskAmount_le {legs : List OptionLeg} {payoff : PayoffResult} {m : ℚ} (hm : 0 ≤ m)
    (h : ∀ price, -m ≤ totalPayoff legs price) (hzero : totalPayoff legs 0 ≤ m)
    (hpremium : netPremium legs ≤ m) (hok : computePayoffSummary legs = .ok payoff) :
    riskAmount payoff ≤ m := by
  obtain ⟨hlow, hhigh⟩ := worstSampledLoss_bounds h hok
  obtain ⟨hloss, hcapital⟩ := computePayoffSummary_risk hok
  have habs : |payoff.worstSampledLoss| ≤ m := abs_le.mpr ⟨hlow, hhigh.trans hzero⟩
  unfold riskAmount
  rcases hloss with hloss | hloss
  · rw [hloss]
    apply max_le
    · linarith
    · rw [hcapital]
      split
      · exact max_le hpremium hm
      · exact habs
  · rw [hloss]
    exact habs

/-- The entry-only limits of a strategy. -/
def entryChecks (limits : RiskLimits) (p : OptionsRiskProposal) : List RiskCheck :=
  -- Without money there are no percentages: one check names the cause.
  (if p.accountBalance ≤ 0 then [RiskEngine.fundedCheck p.accountBalance]
    else
      [ RiskEngine.shareCheck "exposure_limit" "Projected exposure"
          (p.currentExposure + riskAmount p.payoff) limits.maxExposurePct p.accountBalance,
        RiskEngine.lossCheck "daily_loss_limit" "Daily loss" p.dailyPnl limits.maxDailyLossPct
          p.accountBalance,
        RiskEngine.lossCheck "weekly_loss_limit" "Weekly loss" p.weeklyPnl limits.maxWeeklyLossPct
          p.accountBalance ]) ++
  RiskEngine.countChecks limits p.openPositions p.tradesToday

/-- The checks on whether these legs can be executed sanely now. A figure that was
never measured is not checked, and not recorded as passed. -/
def executionChecks (limits : RiskLimits) (p : OptionsRiskProposal) : List RiskCheck :=
  [RiskEngine.rejectionsCheck limits p.repeatedRejections] ++
  (match p.liquidityAcceptable with
    | none => []
    | some ok => [{ name := "liquidity_acceptable", passed := ok }]) ++
  (match p.premiumDeviationPct with
    | none => []
    | some deviation =>
      [{ name := "premium_matches_market"
         passed := deviation ≤ limits.maxPremiumDeviationPct
         detail := s!"Premium deviates {fixed2 deviation}% from the real quote vs limit "
           ++ s!"{formatFloat limits.maxPremiumDeviationPct}%" }]) ++
  (match p.marketDataAgeSeconds with
    | none => []
    | some age =>
      [{ name := "market_data_fresh"
         passed := age ≤ limits.marketDataMaxStalenessSeconds
         detail := s!"Data age {formatFloat age}s vs max "
           ++ s!"{formatFloat limits.marketDataMaxStalenessSeconds}s" }]) ++
  [{ name := "broker_healthy", passed := p.brokerHealthy }]

/-- `evaluate_options_risk`. -/
def evaluateOptionsRisk (limits : RiskLimits) (killSwitch : KillSwitchState)
    (p : OptionsRiskProposal) : RiskDecisionResult :=
  match killSwitch.isBlocked p.accountId none with
  | some killReason =>
    ⟨.reject, [{ name := "kill_switch", passed := false, detail := killReason }], some killReason⟩
  | none =>
    .ofChecks ([{ name := "kill_switch", passed := true }] ++
      (if p.isReducing then [] else entryChecks limits p) ++ executionChecks limits p)

/-- An approved strategy, reducing or not, is below the rejection limit. -/
theorem rejections_lt_of_approved {limits : RiskLimits} {killSwitch : KillSwitchState}
    {p : OptionsRiskProposal} (h : (evaluateOptionsRisk limits killSwitch p).approved = true) :
    p.repeatedRejections < limits.maxRepeatedRejections := by
  unfold evaluateOptionsRisk at h
  split at h
  · simp [RiskDecisionResult.approved] at h
  · rw [RiskDecisionResult.approved_ofChecks] at h
    have hpass := h (RiskEngine.rejectionsCheck limits p.repeatedRejections)
      (List.mem_append_right _ (by simp [executionChecks]))
    simpa [RiskEngine.rejectionsCheck] using hpass

end OptionsRisk

end SuperTrading
