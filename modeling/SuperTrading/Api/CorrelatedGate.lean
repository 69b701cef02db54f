import SuperTrading.Api.Orders
import SuperTrading.Risk.Monotone
import SuperTrading.Trading.PositionRoundTrip

/-!
# The Gross Gate and the Correlated Gate

The correlated exposure of `POST /orders` is a signed part of what the gross exposure sums in
full. So an order within the gross limit is within a correlated limit that is no tighter.

- **The netted sum**: every position counts for it, against it, or not at all
- **The merge**: the dictionary `place_order` builds, and the list that stands for it
- **The two gates**: what passing the one says about the other
-/

namespace SuperTrading

open SuperTrading.Logic

/-! ## Section 1: The netted sum -/

/-- How the notional of a symbol counts towards the target: for it, against it, or not. -/
def correlationWeight (targetSymbol : Symbol) (correlation : Symbol → Option ℚ) (threshold : ℚ)
    (symbol : Symbol) : ℚ :=
  if symbol = targetSymbol then 0
  else
    match correlation symbol with
    | none => 0
    | some corr => if threshold ≤ |corr| then if 0 < corr then 1 else -1 else 0

section Netted

variable (targetSymbol : Symbol) (correlation : Symbol → Option ℚ) (threshold : ℚ)

theorem abs_correlationWeight_le (symbol : Symbol) :
    |correlationWeight targetSymbol correlation threshold symbol| ≤ 1 := by
  unfold correlationWeight
  split
  · simp
  · split
    · simp
    · split_ifs <;> simp

/-- The loop of `correlated_exposure` as a weighted sum. -/
theorem correlatedExposure_eq (targetNotional : ℚ) (notionals : List (Symbol × ℚ)) :
    correlatedExposure targetSymbol targetNotional notionals correlation threshold =
      targetNotional + (notionals.map fun e =>
        correlationWeight targetSymbol correlation threshold e.1 * e.2).sum := by
  unfold correlatedExposure
  induction notionals generalizing targetNotional with
  | nil => simp
  | cons e notionals ih =>
    rw [List.foldl_cons, ih, List.map_cons, List.sum_cons, ← add_assoc]
    congr 1
    unfold correlationWeight
    by_cases htarget : e.1 = targetSymbol
    · simp [htarget]
    · simp only [if_neg htarget]
      cases correlation e.1 with
      | none => simp
      | some corr =>
        dsimp only
        split_ifs <;> ring

/-- Netting never exceeds the gross sum. -/
theorem abs_correlatedExposure_le (notionals : List (Symbol × ℚ)) :
    |correlatedExposure targetSymbol 0 notionals correlation threshold| ≤
      (notionals.map fun e => |e.2|).sum := by
  rw [correlatedExposure_eq, zero_add]
  induction notionals with
  | nil => simp
  | cons e notionals ih =>
    rw [List.map_cons, List.sum_cons, List.map_cons, List.sum_cons]
    have hhead : |correlationWeight targetSymbol correlation threshold e.1 * e.2| ≤ |e.2| := by
      rw [abs_mul]
      exact mul_le_of_le_one_left (abs_nonneg _) (abs_correlationWeight_le ..)
    exact (abs_add_le _ _).trans (add_le_add hhead ih)

end Netted

/-! ## Section 2: The merge -/

/-- `signed_notionals_excluding`, as the dictionary it returns. -/
def signedNotionalsDict (positions : List PositionRecord) (excludeSymbol : Symbol) :
    Dict Symbol ℚ :=
  (signedNotionalsExcluding positions excludeSymbol).foldl (fun d e => d.set e.1 e.2) Dict.empty

/-- The loop of `place_order` that adds the other engines' positions to this one's. -/
def mergeNotionals (own : Dict Symbol ℚ) (elsewhere : List (Symbol × ℚ)) (targetSymbol : Symbol) :
    Dict Symbol ℚ :=
  elsewhere.foldl (fun d e =>
    if e.1 ≠ targetSymbol then d.set e.1 ((d.get? e.1).getD 0 + e.2) else d) own

section Merge

/-- A weighted sum over a dictionary. -/
def weightedSum (weight : Symbol → ℚ) (notionals : List (Symbol × ℚ)) : ℚ :=
  (notionals.map fun e => weight e.1 * e.2).sum

variable (weight : Symbol → ℚ)

@[simp] theorem weightedSum_cons (e : Symbol × ℚ) (notionals : List (Symbol × ℚ)) :
    weightedSum weight (e :: notionals) = weight e.1 * e.2 + weightedSum weight notionals := by
  simp [weightedSum]

@[simp] theorem weightedSum_append (xs ys : List (Symbol × ℚ)) :
    weightedSum weight (xs ++ ys) = weightedSum weight xs + weightedSum weight ys := by
  simp [weightedSum]

theorem weightedSum_set (d : Dict Symbol ℚ) (symbol : Symbol) (notional : ℚ) :
    weightedSum weight (d.set symbol notional).entries =
      weightedSum weight d.entries + weight symbol * (notional - (d.get? symbol).getD 0) := by
  have hset := d.sum_entries_set symbol notional fun s v => weight s * v
  unfold weightedSum
  rw [hset]
  cases d.get? symbol with
  | none => simp
  | some old =>
    simp only [Option.elim_some, Option.getD_some]
    ring

/-- Distinct symbols are stored side by side. -/
theorem weightedSum_store {notionals : List (Symbol × ℚ)} (hnodup : (notionals.map Prod.fst).Nodup)
    {d : Dict Symbol ℚ} (hfresh : ∀ e ∈ notionals, d.get? e.1 = none) :
    weightedSum weight (notionals.foldl (fun d e => d.set e.1 e.2) d).entries =
      weightedSum weight d.entries + weightedSum weight notionals := by
  induction notionals generalizing d with
  | nil => simp [weightedSum]
  | cons e notionals ih =>
    obtain ⟨hne, hrest⟩ := List.nodup_cons.mp hnodup
    rw [List.foldl_cons, ih hrest, weightedSum_set, hfresh e List.mem_cons_self, weightedSum_cons]
    · simp only [Option.getD_none, sub_zero]
      ring
    · intro e' he'
      have hother : e.1 ≠ e'.1 := by
        intro heq
        exact hne (List.mem_map.mpr ⟨e', he', heq.symm⟩)
      rw [Dict.get?_set_of_ne d hother]
      exact hfresh e' (List.mem_cons_of_mem _ he')

/-- Merging by addition adds the weighted sums. -/
theorem weightedSum_merge (targetSymbol : Symbol) (elsewhere : List (Symbol × ℚ))
    (d : Dict Symbol ℚ) :
    weightedSum weight (mergeNotionals d elsewhere targetSymbol).entries =
      weightedSum weight d.entries +
        weightedSum weight (elsewhere.filter fun e => e.1 ≠ targetSymbol) := by
  unfold mergeNotionals
  induction elsewhere generalizing d with
  | nil => simp [weightedSum]
  | cons e elsewhere ih =>
    rw [List.foldl_cons, ih]
    by_cases htarget : e.1 = targetSymbol
    · simp [htarget]
    · rw [if_pos htarget, weightedSum_set, List.filter_cons_of_pos (by simpa using htarget),
        weightedSum_cons]
      ring

end Merge

/-- The list stands for the dictionary: positions in symbols of their own, merged with the
other engines' by addition, net to the same exposure. -/
theorem correlatedExposure_merge {positions : List PositionRecord}
    (hnodup : (positions.map PositionRecord.symbol).Nodup) (elsewhere : List (Symbol × ℚ))
    (targetSymbol : Symbol) (targetNotional : ℚ) (correlation : Symbol → Option ℚ)
    (threshold : ℚ) :
    correlatedExposure targetSymbol targetNotional
        (mergeNotionals (signedNotionalsDict positions targetSymbol) elsewhere
          targetSymbol).entries correlation threshold =
      correlatedExposure targetSymbol targetNotional
        (signedNotionalsExcluding positions targetSymbol ++
          elsewhere.filter (fun e => e.1 ≠ targetSymbol)) correlation threshold := by
  -- Own positions have distinct symbols, so that none overwrites another in the dictionary.
  have hsymbols : ((signedNotionalsExcluding positions targetSymbol).map Prod.fst).Nodup := by
    unfold signedNotionalsExcluding
    rw [List.map_map]
    exact hnodup.sublist (List.filter_sublist.map _)
  have hown := weightedSum_store (correlationWeight targetSymbol correlation threshold) hsymbols
    (d := Dict.empty) fun e _ => Dict.get?_empty _
  rw [correlatedExposure_eq, correlatedExposure_eq]
  refine congrArg (targetNotional + ·) ?_
  change weightedSum _ _ = weightedSum _ _
  rw [weightedSum_merge, weightedSum_append, signedNotionalsDict, hown]
  simp [weightedSum, Dict.empty]

/-- The exposure `POST /orders` judges is that of the merged dictionary. -/
theorem Stack.tradeProposal_correlatedExposure {β : Type} [Broker β] (s : Stack β) (env : CallEnv)
    (r : PlaceOrderRequest) (ltp : ℚ) :
    (s.tradeProposal env r ltp).correlatedExposure =
      correlatedExposure r.symbol 0
        (mergeNotionals (signedNotionalsDict (s.positionManager.openPositions s.userId) r.symbol)
          env.elsewhere r.symbol).entries env.correlation s.limits.correlationThreshold :=
  (correlatedExposure_merge (PositionManager.nodup_openPositions ..) _ _ _ _ _).symm

/-! ## Section 3: The two gates -/

/-- Fewer magnitudes sum to less. -/
theorem sum_abs_le_of_sublist {α : Type*} {xs ys : List α} (h : xs.Sublist ys) (f : α → ℚ) :
    (xs.map fun x => |f x|).sum ≤ (ys.map fun y => |f y|).sum := by
  apply List.Sublist.sum_le_sum (h.map _)
  intro v hv
  obtain ⟨y, -, rfl⟩ := List.mem_map.mp hv
  exact abs_nonneg _

/-- The net of what is held in other symbols is within the gross of what is held. -/
theorem abs_correlatedExposure_le_gross {positions : List PositionRecord}
    (hpriced : ∀ p ∈ positions, 0 ≤ p.averagePrice) (elsewhere : List (Symbol × ℚ))
    (targetSymbol : Symbol) (correlation : Symbol → Option ℚ) (threshold : ℚ) :
    |correlatedExposure targetSymbol 0 (signedNotionalsExcluding positions targetSymbol ++
      elsewhere.filter (fun e => e.1 ≠ targetSymbol)) correlation threshold| ≤
        grossExposure positions elsewhere := by
  refine (abs_correlatedExposure_le ..).trans ?_
  rw [List.map_append, List.sum_append]
  unfold grossExposure
  apply add_le_add
  · -- The target's own position counts gross and not net.
    have hvalue : (positions.map fun p => |p.quantity| * p.averagePrice) =
        positions.map fun p => |p.quantity * p.averagePrice| := by
      apply List.map_congr_left
      intro p hp
      rw [abs_mul, abs_of_nonneg (hpriced p hp)]
    rw [hvalue, signedNotionalsExcluding, List.map_map]
    exact sum_abs_le_of_sublist List.filter_sublist _
  · exact sum_abs_le_of_sublist List.filter_sublist _

namespace RiskEngine

variable {limits : RiskLimits} {killSwitch : KillSwitchState} {p : TradeRiskProposal}

/-- The checks on executing an order judge no share of the account. -/
theorem name_executionChecks {c : RiskCheck} (hc : c ∈ executionChecks limits p) :
    c.name ≠ "correlated_exposure_limit" := by
  unfold executionChecks at hc
  rcases List.mem_append.mp hc with hc | hc
  · cases hliquidity : p.liquidityAcceptable with
    | none => simp [hliquidity] at hc
    | some ok =>
      simp only [hliquidity, List.mem_singleton] at hc
      simp [hc]
  · simp only [List.mem_cons, List.not_mem_nil, or_false, rejectionsCheck] at hc
    rcases hc with rfl | rfl | rfl | rfl
    · cases p.marketDataAgeSeconds <;> simp
    all_goals simp

/-- On a funded account the correlated check stands beside the gross one. -/
theorem entryChecks_correlated (hfunded : 0 < p.accountBalance) {notional : ℚ} {c : RiskCheck}
    (hc : c ∈ entryChecks limits p notional) (hname : c.name = "correlated_exposure_limit") :
    c = shareCheck "correlated_exposure_limit" "Correlated exposure"
        |p.correlatedExposure + if p.stop < p.entry then notional else -notional|
        limits.maxCorrelatedExposurePct p.accountBalance ∧
      shareCheck "exposure_limit" "Projected exposure" (p.currentExposure + notional)
        limits.maxExposurePct p.accountBalance ∈ entryChecks limits p notional := by
  unfold entryChecks at hc ⊢
  rw [if_neg (not_le.mpr hfunded)] at hc ⊢
  simp only [countChecks, List.mem_append, List.mem_cons, List.not_mem_nil, or_false] at hc ⊢
  rcases hc with (rfl | rfl | rfl | rfl | rfl) | rfl | rfl
  all_goals simp [lossCheck, shareCheck] at hname
  exact ⟨rfl, .inl (.inr (.inr (.inl trivial)))⟩

/-- A decision that has judged the correlated exposure of a funded account has judged its
gross exposure too. -/
theorem mem_checks_of_correlated (hfunded : 0 < p.accountBalance) {c : RiskCheck}
    (hc : c ∈ (evaluate limits killSwitch p).checks)
    (hname : c.name = "correlated_exposure_limit") :
    c = shareCheck "correlated_exposure_limit" "Correlated exposure"
        |p.correlatedExposure + if p.stop < p.entry then judgedNotional limits p
          else -judgedNotional limits p|
        limits.maxCorrelatedExposurePct p.accountBalance ∧
      shareCheck "exposure_limit" "Projected exposure" (p.currentExposure + judgedNotional limits p)
        limits.maxExposurePct p.accountBalance ∈ (evaluate limits killSwitch p).checks := by
  unfold evaluate at hc ⊢
  cases hkill : killSwitch.isBlocked p.accountId p.strategyId with
  | some reason =>
    simp only [hkill, List.mem_singleton] at hc
    simp [hc] at hname
  | none =>
    simp only [hkill] at hc ⊢
    split at hc
    next =>
      -- A stop at the entry ends the evaluation before any share is judged.
      simp only [List.mem_cons, List.not_mem_nil, or_false] at hc
      rcases hc with rfl | rfl <;> simp at hname
    next hdist =>
      rw [if_neg hdist, RiskDecisionResult.checks_ofChecks]
      rw [RiskDecisionResult.checks_ofChecks] at hc
      rcases List.mem_append.mp hc with hc | hc
      · rcases List.mem_append.mp hc with hc | hc
        · simp only [List.cons_append, List.nil_append, List.mem_cons, List.not_mem_nil,
            or_false] at hc
          rcases hc with rfl | rfl | rfl <;> simp at hname
        · split at hc
          next => cases hc
          next hreducing =>
            rw [if_neg hreducing]
            obtain ⟨heq, hmem⟩ := entryChecks_correlated hfunded hc hname
            exact ⟨heq, List.mem_append_left _ (List.mem_append_right _ hmem)⟩
      · exact absurd hname (name_executionChecks hc)

/-- **A gross gate that is passed is a correlated gate passed**, if the net figure is within
the gross one and its limit no tighter. -/
theorem correlated_passes (hfunded : 0 < p.accountBalance)
    (hnotional : 0 ≤ judgedNotional limits p)
    (hnet : |p.correlatedExposure| ≤ p.currentExposure)
    (hlimits : limits.maxExposurePct ≤ limits.maxCorrelatedExposurePct)
    (hgross : ∀ c ∈ (evaluate limits killSwitch p).checks,
      c.name = "exposure_limit" → c.passed = true) :
    ∀ c ∈ (evaluate limits killSwitch p).checks,
      c.name = "correlated_exposure_limit" → c.passed = true := by
  intro c hc hname
  obtain ⟨rfl, hmem⟩ := mem_checks_of_correlated hfunded hc hname
  have hpassed := hgross _ hmem rfl
  simp only [shareCheck, percentOfBalance, if_neg hfunded.ne', decide_eq_true_eq] at hpassed ⊢
  -- The order's own notional has one magnitude, whatever its side.
  have hsigned : |if p.stop < p.entry then judgedNotional limits p else -judgedNotional limits p| =
      judgedNotional limits p := by
    split
    · exact abs_of_nonneg hnotional
    · rw [abs_neg, abs_of_nonneg hnotional]
  calc _ ≤ (p.currentExposure + judgedNotional limits p) / p.accountBalance * 100 := by
        gcongr
        exact (abs_add_le _ _).trans (add_le_add hnet hsigned.le)
    _ ≤ limits.maxExposurePct := hpassed
    _ ≤ limits.maxCorrelatedExposurePct := hlimits

end RiskEngine

/-- **The gross gate of `POST /orders` subsumes its correlated gate**, whatever the quantity
and the balance, on a book whose average prices are not negative. -/
theorem gross_subsumes_correlated {β : Type} [Broker β] (s : Stack β) (env : CallEnv)
    (r : PlaceOrderRequest) (ltp : ℚ) {quantity accountBalance : ℚ} (hquantity : 0 ≤ quantity)
    (hbalance : 0 < accountBalance)
    (hpriced : ∀ p ∈ s.positionManager.openPositions s.userId, 0 ≤ p.averagePrice)
    (hlimits : s.limits.maxExposurePct ≤ s.limits.maxCorrelatedExposurePct) :
    let decision := RiskEngine.evaluate s.limits env.killSwitch
      { s.tradeProposal env r ltp with
        proposedQuantity := some quantity
        accountBalance := accountBalance }
    (∀ c ∈ decision.checks, c.name = "exposure_limit" → c.passed = true) →
      ∀ c ∈ decision.checks, c.name = "correlated_exposure_limit" → c.passed = true := by
  intro decision
  apply RiskEngine.correlated_passes hbalance
  · exact mul_nonneg hquantity r.fillPrice_pos.le
  · exact abs_correlatedExposure_le_gross hpriced ..
  · exact hlimits

/-- A user who holds ten units of one symbol, at an average price of `averagePrice`. -/
def hedgeHolder (averagePrice : ℚ) : Stack MockBroker :=
  { broker := { balance := 1000, startingBalance := 1000 }
    positionManager := PositionManager.put {}
      { accountId := "user", symbol := "HEDGE", quantity := 10, averagePrice := averagePrice }
    userId := "user" }

/-- Everything moves together. -/
def inLockstep : CallEnv := { now := 0, correlation := fun _ => some 1 }

/-- At a negative average price the gross sum nets what the correlated one counts in full. -/
theorem gross_misses_negative_price :
    let decision := RiskEngine.evaluate {} {}
      { (hedgeHolder (-200)).tradeProposal inLockstep (.market "ACME" .long 100 95) 100 with
        proposedQuantity := some 1
        accountBalance := 1000 }
    (∀ c ∈ decision.checks, c.name = "exposure_limit" → c.passed = true) ∧
      ¬ ∀ c ∈ decision.checks, c.name = "correlated_exposure_limit" → c.passed = true := by
  decide +kernel

theorem gross_subsumes_correlated_priced :
    let decision := RiskEngine.evaluate {} {}
      { (hedgeHolder 20).tradeProposal inLockstep (.market "ACME" .long 100 95) 100 with
        proposedQuantity := some 1
        accountBalance := 1000 }
    ∀ c ∈ decision.checks, c.name = "correlated_exposure_limit" → c.passed = true :=
  gross_subsumes_correlated (hedgeHolder 20) inLockstep (.market "ACME" .long 100 95) 100
    zero_le_one (by norm_num) (by decide +kernel) le_rfl (by decide +kernel)

end SuperTrading
