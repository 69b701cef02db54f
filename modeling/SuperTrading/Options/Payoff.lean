import SuperTrading.Core.Types
import SuperTrading.Logic.HighWater
import Mathlib.Tactic.Linarith
import Mathlib.Tactic.NormNum

/-!
# Options Payoff

`app/options/payoff.py`: the profit and loss at expiry of a combination of option
legs, sampled at 2001 prices from 0 to one and a half times the highest strike.
-/

namespace SuperTrading

inductive OptionType
  | call
  | put
  deriving DecidableEq, Repr

structure OptionLeg where
  optionType : OptionType
  strike : ℚ
  premium : ℚ
  quantity : ℚ
  direction : Direction
  lotSize : ℕ := 1
  deriving DecidableEq, Repr

/-- `max_profit` and `max_loss` are `none` where the curve is unbounded. -/
structure PayoffResult where
  maxProfit : Option ℚ
  maxLoss : Option ℚ
  breakevens : List ℚ
  netPremium : ℚ
  capitalRequirement : ℚ
  worstSampledLoss : ℚ := 0
  deriving DecidableEq, Repr

/-- `_leg_intrinsic_value`. -/
def legIntrinsicValue (leg : OptionLeg) (underlyingPrice : ℚ) : ℚ :=
  match leg.optionType with
  | .call => max (underlyingPrice - leg.strike) 0
  | .put => max (leg.strike - underlyingPrice) 0

def legPayoff (leg : OptionLeg) (underlyingPrice : ℚ) : ℚ :=
  leg.direction.signed (legIntrinsicValue leg underlyingPrice - leg.premium) * leg.quantity
    * leg.lotSize

def totalPayoff (legs : List OptionLeg) (underlyingPrice : ℚ) : ℚ :=
  (legs.map fun leg => legPayoff leg underlyingPrice).sum

def computePayoffCurve (legs : List OptionLeg) (priceRange : List ℚ) : List (ℚ × ℚ) :=
  priceRange.map fun price => (price, totalPayoff legs price)

/-- Positive for a net debit, negative for a net credit. -/
def netPremium (legs : List OptionLeg) : ℚ :=
  (legs.map fun leg => leg.direction.signed leg.premium * leg.quantity * (leg.lotSize : ℚ)).sum

/-- The sampled prices. An underlying does not trade below 0, so the low end is
the true extreme and only the high end truncates. -/
def payoffPriceRange (legs : List OptionLeg) : List ℚ :=
  let high := (legs.map OptionLeg.strike).foldl max 0 * (3 / 2)
  (List.range 2001).map fun i => high * (i : ℚ) / 2000

/-- Where the curve crosses 0, by linear interpolation. -/
def payoffBreakevens : List (ℚ × ℚ) → List ℚ
  | (p₁, v₁) :: (p₂, v₂) :: rest =>
    let later := payoffBreakevens ((p₂, v₂) :: rest)
    -- A sample on the axis counts itself; a sign change counts the point between.
    if v₁ = 0 then p₁ :: later
    else if v₁ * v₂ < 0 then (p₁ + (p₂ - p₁) * (-v₁) / (v₂ - v₁)) :: later
    else later
  | _ => []

/-- `compute_payoff_summary`, over the default price range. -/
def computePayoffSummary (legs : List OptionLeg) : Except String PayoffResult :=
  if legs = [] then .error "At least one leg is required"
  else
    let curve := computePayoffCurve legs (payoffPriceRange legs)
    let payoffs := curve.map Prod.snd
    let maxProfitSample := payoffs.foldl max (payoffs.headD 0)
    let maxLossSample := payoffs.foldl min (payoffs.headD 0)
    -- A curve still sloping at the high end keeps sloping; at 0 it has ended.
    let rightSlope := payoffs.getD 2000 0 - payoffs.getD 1999 0
    let premium := netPremium legs
    .ok
      { maxProfit := if 0 < rightSlope then none else some maxProfitSample
        maxLoss := if rightSlope < 0 then none else some maxLossSample
        breakevens := payoffBreakevens curve
        netPremium := premium
        capitalRequirement := if max premium 0 ≠ 0 then max premium 0 else |maxLossSample|
        worstSampledLoss := maxLossSample }

/-! ## Bounded losses -/

private theorem headD_map_range (f : ℕ → ℚ) {n : ℕ} (h : 0 < n) :
    ((List.range n).map f).headD 0 = f 0 := by
  obtain ⟨m, rfl⟩ : ∃ m, n = m + 1 := ⟨n - 1, by omega⟩
  rw [List.range_succ_eq_map]
  rfl

/-- The worst sample of a strategy that loses no more than `-b` at any price. -/
theorem worstSampledLoss_bounds {legs : List OptionLeg} {payoff : PayoffResult} {b : ℚ}
    (h : ∀ price, b ≤ totalPayoff legs price) (hok : computePayoffSummary legs = .ok payoff) :
    b ≤ payoff.worstSampledLoss ∧ payoff.worstSampledLoss ≤ totalPayoff legs 0 := by
  -- The first sample is at price zero, and the fold starts with it.
  have hhead : ((computePayoffCurve legs (payoffPriceRange legs)).map Prod.snd).headD 0 =
      totalPayoff legs 0 := by
    unfold computePayoffCurve payoffPriceRange
    dsimp only
    rw [bind_pure_comp, List.map_eq_map, List.map_map, List.map_map, List.map_map,
      headD_map_range _ (by norm_num)]
    simp
  have hsamples : ∀ v ∈ (computePayoffCurve legs (payoffPriceRange legs)).map Prod.snd, b ≤ v := by
    intro v hv
    obtain ⟨point, hpoint, rfl⟩ := List.mem_map.mp hv
    obtain ⟨price, -, rfl⟩ := List.mem_map.mp hpoint
    exact h price
  have hworst : payoff.worstSampledLoss =
      ((computePayoffCurve legs (payoffPriceRange legs)).map Prod.snd).foldl min
        (((computePayoffCurve legs (payoffPriceRange legs)).map Prod.snd).headD 0) := by
    unfold computePayoffSummary at hok
    split at hok
    · cases hok
    · simp only [Except.ok.injEq] at hok
      rw [← hok]
  rw [hworst, hhead]
  obtain ⟨hmem, hle⟩ := Logic.foldl_min_spec
    ((computePayoffCurve legs (payoffPriceRange legs)).map Prod.snd) (totalPayoff legs 0)
  refine ⟨?_, hle _ List.mem_cons_self⟩
  rcases List.mem_cons.mp hmem with hfirst | hsample
  · rw [hfirst]
    exact h 0
  · exact hsamples _ hsample

/-- What the summary says of the loss and of the capital is the worst sample, or the
premium paid. -/
theorem computePayoffSummary_risk {legs : List OptionLeg} {payoff : PayoffResult}
    (hok : computePayoffSummary legs = .ok payoff) :
    (payoff.maxLoss = none ∨ payoff.maxLoss = some payoff.worstSampledLoss) ∧
    payoff.capitalRequirement =
      if max (netPremium legs) 0 ≠ 0 then max (netPremium legs) 0
      else |payoff.worstSampledLoss| := by
  unfold computePayoffSummary at hok
  split at hok
  · cases hok
  · simp only [Except.ok.injEq] at hok
    generalize (computePayoffCurve legs (payoffPriceRange legs)).map Prod.snd = payoffs at hok
    rw [← hok]
    refine ⟨?_, rfl⟩
    dsimp only
    split
    · exact Or.inl rfl
    · exact Or.inr rfl

end SuperTrading
