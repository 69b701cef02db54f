import SuperTrading.Core.Types

/-!
# Risk Limits and Decisions

`app/risk/limits.py` and `app/risk/kill_switch.py`: the limits of an account, the
shape of a risk decision, and the three-level kill switch.

A decision is approved exactly when every check it lists has passed; the checks
themselves are those of the two evaluators.
-/

namespace SuperTrading

/-! ## Section 1: Limits -/

/-- `RiskLimits`, with the defaults every trading stack uses. -/
structure RiskLimits where
  riskPerTradePct : ℚ := 1 / 2
  maxDailyLossPct : ℚ := 2
  maxWeeklyLossPct : ℚ := 5
  maxOpenPositions : ℕ := 5
  maxTradesPerDay : ℕ := 10
  maxExposurePct : ℚ := 100
  maxPositionSize : Option ℚ := none
  maxStrategyAllocationPct : ℚ := 100
  maxCorrelatedExposurePct : ℚ := 100
  correlationThreshold : ℚ := 7 / 10
  maxParticipationPct : ℚ := 10
  marketDataMaxStalenessSeconds : ℚ := 10
  maxRepeatedRejections : ℕ := 3
  maxPriceJumpPct : ℚ := 5
  maxEntryDeviationPct : ℚ := 1
  maxPremiumDeviationPct : ℚ := 5
  deriving DecidableEq, Repr

/-! ## Section 2: Decisions -/

inductive RiskDecision
  | approve
  | reject
  deriving DecidableEq, Repr

structure RiskCheck where
  name : String
  passed : Bool
  detail : String := ""
  deriving DecidableEq, Repr

structure RiskDecisionResult where
  decision : RiskDecision
  checks : List RiskCheck
  reason : Option String := none
  deriving DecidableEq, Repr

namespace RiskDecisionResult

def approved (r : RiskDecisionResult) : Bool := r.decision = .approve

/-- The reason as an f-string shows it. -/
def reasonText (r : RiskDecisionResult) : String := r.reason.getD "None"

def failedChecks (r : RiskDecisionResult) : List RiskCheck := r.checks.filter (fun c => !c.passed)

/-- How both evaluators end: the first failed check gives the reason. -/
def ofChecks (checks : List RiskCheck) : RiskDecisionResult :=
  match checks.filter (fun c => !c.passed) with
  | [] => ⟨.approve, checks, none⟩
  | c :: _ => ⟨.reject, checks, some (if c.detail = "" then c.name else c.detail)⟩

@[simp] theorem checks_ofChecks (checks : List RiskCheck) : (ofChecks checks).checks = checks := by
  unfold ofChecks
  split <;> rfl

theorem approved_ofChecks {checks : List RiskCheck} :
    (ofChecks checks).approved = true ↔ ∀ c ∈ checks, c.passed = true := by
  have hnil : checks.filter (fun c => !c.passed) = [] ↔ ∀ c ∈ checks, c.passed = true := by
    simp [List.filter_eq_nil_iff]
  -- Approval is the absence of a failed check.
  rw [← hnil]
  unfold ofChecks
  cases checks.filter (fun c => !c.passed) with
  | nil => simp [approved]
  | cons c cs => simp [approved]

theorem reason_isSome_of_refused {checks : List RiskCheck}
    (h : (ofChecks checks).approved = false) : (ofChecks checks).reason.isSome := by
  unfold ofChecks at h ⊢
  split
  · rename_i hnil
    rw [hnil] at h
    simp [approved] at h
  · rfl

end RiskDecisionResult

/-! ## Section 3: The kill switch -/

structure KillSwitchState where
  globalKill : Bool := false
  killedAccounts : List AccountId := []
  killedStrategies : List String := []
  deriving DecidableEq, Repr

/-- `is_blocked`: why trading is stopped, if it is. -/
def KillSwitchState.isBlocked (k : KillSwitchState) (accountId : AccountId)
    (strategyId : Option String) : Option String :=
  if k.globalKill then some "Global kill switch is active"
  -- An empty id is no account, and an empty strategy no strategy.
  else if accountId ≠ "" ∧ accountId ∈ k.killedAccounts then
    some s!"Account {accountId} trading is stopped"
  else
    match strategyId with
    | none => none
    | some s =>
      if s ≠ "" ∧ s ∈ k.killedStrategies then some s!"Strategy {s} is stopped" else none

end SuperTrading
