import SuperTrading.Risk.OptionsRisk
import SuperTrading.Logic.Piecewise

/-!
# The Shape of a Payoff

The payoff of a combination bends at its strikes and nowhere else, and beyond the highest of
them it rises by what calls it holds. From that, what the samples of
`compute_payoff_summary` say about the whole curve.

- **The curve**: where it bends, and how it goes on beyond the strikes
- **The samples**: the prices of the default range, and the extremes found at them
- **Boundedness**: the two slopes decide it
- **The worst case**: when the sampled extreme is the extreme
-/

namespace SuperTrading

open SuperTrading.Logic

/-! ## Section 1: The curve -/

/-- What a leg moves with its underlying, where it moves: its contracts, signed. -/
def OptionLeg.weight (leg : OptionLeg) : ℚ := leg.direction.signed (leg.quantity * leg.lotSize)

/-- The calls held less the calls written: the slope beyond the strikes. -/
def netCalls (legs : List OptionLeg) : ℚ :=
  (legs.map fun leg => match leg.optionType with | .call => leg.weight | .put => 0).sum

/-- The prices where the curve may bend. -/
def strikes (legs : List OptionLeg) : List ℚ := legs.map OptionLeg.strike

theorem strike_mem {legs : List OptionLeg} {leg : OptionLeg} (h : leg ∈ legs) :
    leg.strike ∈ strikes legs :=
  List.mem_map_of_mem h

theorem legPayoff_eq (leg : OptionLeg) (price : ℚ) :
    legPayoff leg price = leg.weight * (legIntrinsicValue leg price - leg.premium) := by
  unfold legPayoff OptionLeg.weight
  cases leg.direction <;> simp only [Direction.signed] <;> ring

/-- A leg bends at its strike. -/
theorem piecewiseAffine_legPayoff {legs : List OptionLeg} {leg : OptionLeg} (h : leg ∈ legs) :
    PiecewiseAffine (strikes legs) (legPayoff leg) := by
  have hintrinsic : PiecewiseAffine (strikes legs) (legIntrinsicValue leg) := by
    unfold legIntrinsicValue
    cases leg.optionType with
    | call => exact .hinge leg.strike (strike_mem h)
    | put => exact .fallingHinge leg.strike (strike_mem h)
  rw [funext (legPayoff_eq leg)]
  simpa only [sub_eq_add_neg] using (hintrinsic.add (.const (-leg.premium))).const_mul leg.weight

/-- **The payoff bends at the strikes only.** -/
theorem piecewiseAffine_totalPayoff (legs : List OptionLeg) :
    PiecewiseAffine (strikes legs) (totalPayoff legs) :=
  PiecewiseAffine.sum fun _ hleg => piecewiseAffine_legPayoff hleg

/-- Beyond the strikes the payoff changes by the net calls. -/
theorem totalPayoff_beyond {legs : List OptionLeg} {x y : ℚ}
    (hx : ∀ k ∈ strikes legs, k ≤ x) (hy : ∀ k ∈ strikes legs, k ≤ y) :
    totalPayoff legs y = totalPayoff legs x + netCalls legs * (y - x) := by
  unfold totalPayoff netCalls
  induction legs with
  | nil => simp
  | cons leg legs ih =>
    have hrest := ih (fun k hk => hx k (List.mem_cons_of_mem _ hk))
      fun k hk => hy k (List.mem_cons_of_mem _ hk)
    -- Beyond its strike a call pays one for one, and a put nothing.
    have hleg : legPayoff leg y = legPayoff leg x +
        (match leg.optionType with | .call => leg.weight | .put => 0) * (y - x) := by
      have hkx : leg.strike ≤ x := hx _ List.mem_cons_self
      have hky : leg.strike ≤ y := hy _ List.mem_cons_self
      rw [legPayoff_eq, legPayoff_eq]
      unfold legIntrinsicValue
      cases leg.optionType with
      | call =>
        dsimp only
        rw [max_eq_left (by linarith), max_eq_left (by linarith)]
        ring
      | put =>
        dsimp only
        rw [max_eq_right (by linarith), max_eq_right (by linarith)]
        ring
    simp only [List.map_cons, List.sum_cons]
    rw [hleg, hrest]
    ring

/-! ## Section 2: The samples -/

/-- `max(strikes)`, of strikes that are positive. -/
def highestStrike (legs : List OptionLeg) : ℚ := (legs.map OptionLeg.strike).foldl max 0

/-- The `i`-th sampled price. -/
def samplePrice (legs : List OptionLeg) (i : ℕ) : ℚ := highestStrike legs * (3 / 2) * i / 2000

section Samples

variable {legs : List OptionLeg}

theorem le_highestStrike {k : ℚ} (hk : k ∈ strikes legs) : k ≤ highestStrike legs :=
  (foldl_max_spec (legs.map OptionLeg.strike) 0).2 k (List.mem_cons_of_mem _ hk)

theorem highestStrike_pos (hne : legs ≠ []) (hstrikes : ∀ leg ∈ legs, 0 < leg.strike) :
    0 < highestStrike legs := by
  obtain ⟨leg, hleg⟩ := List.exists_mem_of_ne_nil legs hne
  exact (hstrikes leg hleg).trans_le (le_highestStrike (strike_mem hleg))

theorem payoffPriceRange_eq (legs : List OptionLeg) :
    payoffPriceRange legs = (List.range 2001).map (samplePrice legs) := by
  unfold payoffPriceRange
  dsimp only
  rw [bind_pure_comp, List.map_eq_map, List.map_map]
  rfl

theorem mem_payoffPriceRange {price : ℚ} :
    price ∈ payoffPriceRange legs ↔ ∃ i ≤ 2000, samplePrice legs i = price := by
  rw [payoffPriceRange_eq, List.mem_map]
  simp [Nat.lt_succ_iff]

theorem samplePrice_zero (legs : List OptionLeg) : samplePrice legs 0 = 0 := by
  simp [samplePrice]

theorem samplePrice_last (legs : List OptionLeg) :
    samplePrice legs 2000 = highestStrike legs * (3 / 2) := by
  unfold samplePrice
  push_cast
  ring

/-- The last two samples lie beyond every strike. -/
theorem strikes_le_samplePrice (hpos : 0 < highestStrike legs) {i : ℕ} (hi : 1999 ≤ i) :
    ∀ k ∈ strikes legs, k ≤ samplePrice legs i := by
  intro k hk
  have hcast : (1999 : ℚ) ≤ i := by exact_mod_cast hi
  have hle : highestStrike legs * (3 / 2) * 1999 / 2000 ≤ samplePrice legs i := by
    unfold samplePrice
    gcongr
  have hstrike := le_highestStrike hk
  linarith

theorem map_snd_curve (legs : List OptionLeg) (prices : List ℚ) :
    (computePayoffCurve legs prices).map Prod.snd = prices.map (totalPayoff legs) := by
  unfold computePayoffCurve
  rw [List.map_map]
  rfl

theorem getD_map_range {f : ℕ → ℚ} {n i : ℕ} (hi : i < n) :
    ((List.range n).map f).getD i 0 = f i := by
  rw [List.getD_eq_getElem?_getD, List.getElem?_map, List.getElem?_range hi]
  rfl

/-- `min(payoffs)` is one of them, and the least. -/
theorem sampledMin_spec {samples : List ℚ} (hne : samples ≠ []) :
    samples.foldl min (samples.headD 0) ∈ samples ∧
      ∀ v ∈ samples, samples.foldl min (samples.headD 0) ≤ v := by
  obtain ⟨first, rest, rfl⟩ := List.exists_cons_of_ne_nil hne
  obtain ⟨hmem, hle⟩ := foldl_min_spec (first :: rest) first
  refine ⟨?_, fun v hv => hle v (List.mem_cons_of_mem _ hv)⟩
  rcases List.mem_cons.mp hmem with heq | hmem
  · rw [List.headD_cons, heq]
    exact List.mem_cons_self
  · exact hmem

theorem sampledMax_spec {samples : List ℚ} (hne : samples ≠ []) :
    samples.foldl max (samples.headD 0) ∈ samples ∧
      ∀ v ∈ samples, v ≤ samples.foldl max (samples.headD 0) := by
  obtain ⟨first, rest, rfl⟩ := List.exists_cons_of_ne_nil hne
  obtain ⟨hmem, hle⟩ := foldl_max_spec (first :: rest) first
  refine ⟨?_, fun v hv => hle v (List.mem_cons_of_mem _ hv)⟩
  rcases List.mem_cons.mp hmem with heq | hmem
  · rw [List.headD_cons, heq]
    exact List.mem_cons_self
  · exact hmem

/-- The slope at the high end has the sign of the net calls. -/
theorem rightSlope_eq (hpos : 0 < highestStrike legs) :
    totalPayoff legs (samplePrice legs 2000) - totalPayoff legs (samplePrice legs 1999) =
      netCalls legs * (highestStrike legs * (3 / 2) / 2000) := by
  rw [totalPayoff_beyond (strikes_le_samplePrice hpos le_rfl)
    (strikes_le_samplePrice hpos (by norm_num : 1999 ≤ 2000))]
  unfold samplePrice
  push_cast
  ring

/-- **What the summary says**, by the net calls and the samples. -/
theorem summary_spec (hne : legs ≠ []) (hstrikes : ∀ leg ∈ legs, 0 < leg.strike) :
    ∃ payoff best, computePayoffSummary legs = .ok payoff ∧
      payoff.breakevens = payoffBreakevens (computePayoffCurve legs (payoffPriceRange legs)) ∧
      payoff.maxLoss = (if netCalls legs < 0 then none else some payoff.worstSampledLoss) ∧
      payoff.maxProfit = (if 0 < netCalls legs then none else some best) ∧
      (∃ price ∈ payoffPriceRange legs, totalPayoff legs price = payoff.worstSampledLoss) ∧
      (∀ price ∈ payoffPriceRange legs, payoff.worstSampledLoss ≤ totalPayoff legs price) ∧
      (∃ price ∈ payoffPriceRange legs, totalPayoff legs price = best) ∧
      ∀ price ∈ payoffPriceRange legs, totalPayoff legs price ≤ best := by
  have hpos := highestStrike_pos hne hstrikes
  -- The curve is a list of 2001 samples: it stays folded.
  obtain ⟨curve, hcurve⟩ : ∃ curve, curve = computePayoffCurve legs (payoffPriceRange legs) :=
    ⟨_, rfl⟩
  obtain ⟨samples, hsamples⟩ : ∃ samples, samples = curve.map Prod.snd := ⟨_, rfl⟩
  have hmapped : samples = (payoffPriceRange legs).map (totalPayoff legs) := by
    rw [hsamples, hcurve, map_snd_curve]
  have hmem : ∀ v, v ∈ samples ↔ ∃ price ∈ payoffPriceRange legs, totalPayoff legs price = v := by
    intro v
    rw [hmapped, List.mem_map]
  have hnonempty : samples ≠ [] :=
    List.ne_nil_of_mem ((hmem _).mpr ⟨_, mem_payoffPriceRange.mpr ⟨0, by norm_num, rfl⟩, rfl⟩)
  have hslope : samples.getD 2000 0 - samples.getD 1999 0 =
      netCalls legs * (highestStrike legs * (3 / 2) / 2000) := by
    rw [hmapped, payoffPriceRange_eq, List.map_map, getD_map_range (by norm_num),
      getD_map_range (by norm_num)]
    exact rightSlope_eq hpos
  have hstep : 0 < highestStrike legs * (3 / 2) / 2000 := by positivity
  have hfalling :
      netCalls legs * (highestStrike legs * (3 / 2) / 2000) < 0 ↔ netCalls legs < 0 := by
    rw [← not_le, ← not_le, mul_nonneg_iff_of_pos_right hstep]
  obtain ⟨hmin, hminle⟩ := sampledMin_spec hnonempty
  obtain ⟨hmax, hmaxle⟩ := sampledMax_spec hnonempty
  unfold computePayoffSummary
  rw [if_neg hne]
  simp only [← hcurve, ← hsamples, hslope, hfalling, mul_pos_iff_of_pos_right hstep]
  exact ⟨_, _, rfl, rfl, rfl, rfl, (hmem _).mp hmin, fun price hprice => hminle _ ((hmem _).mpr
    ⟨price, hprice, rfl⟩), (hmem _).mp hmax, fun price hprice => hmaxle _ ((hmem _).mpr
    ⟨price, hprice, rfl⟩)⟩

end Samples

/-! ## Section 3: Boundedness -/

section Extremes

variable {legs : List OptionLeg}

/-- Beyond the range the payoff goes on by the net calls. -/
theorem totalPayoff_tail (hpos : 0 < highestStrike legs) {x : ℚ}
    (hx : samplePrice legs 2000 ≤ x) :
    totalPayoff legs x = totalPayoff legs (samplePrice legs 2000) +
      netCalls legs * (x - samplePrice legs 2000) := by
  have hlast := strikes_le_samplePrice hpos (by norm_num : 1999 ≤ 2000)
  exact totalPayoff_beyond hlast fun k hk => (hlast k hk).trans hx

/-- What bounds the payoff from below at both ends of the range and at the strikes bounds it at
every price, unless more calls are written than held. -/
theorem payoff_ge (hpos : 0 < highestStrike legs) (hcalls : 0 ≤ netCalls legs) {m : ℚ}
    (hlow : m ≤ totalPayoff legs 0) (hhigh : m ≤ totalPayoff legs (samplePrice legs 2000))
    (hat : ∀ k ∈ strikes legs, m ≤ totalPayoff legs k) {x : ℚ} (hx : 0 ≤ x) :
    m ≤ totalPayoff legs x := by
  rcases le_total x (samplePrice legs 2000) with hle | hle
  · exact (piecewiseAffine_totalPayoff legs).le_of_knots hlow hhigh
      (fun k hk _ _ => hat k hk) hx hle
  · have hrise := mul_nonneg hcalls (sub_nonneg.mpr hle)
    rw [totalPayoff_tail hpos hle]
    linarith

/-- What bounds it from above there bounds it everywhere, unless more calls are held. -/
theorem payoff_le (hpos : 0 < highestStrike legs) (hcalls : netCalls legs ≤ 0) {m : ℚ}
    (hlow : totalPayoff legs 0 ≤ m) (hhigh : totalPayoff legs (samplePrice legs 2000) ≤ m)
    (hat : ∀ k ∈ strikes legs, totalPayoff legs k ≤ m) {x : ℚ} (hx : 0 ≤ x) :
    totalPayoff legs x ≤ m := by
  rcases le_total x (samplePrice legs 2000) with hle | hle
  · exact (piecewiseAffine_totalPayoff legs).ge_of_knots hlow hhigh
      (fun k hk _ _ => hat k hk) hx hle
  · have hfall := mul_nonpos_of_nonpos_of_nonneg hcalls (sub_nonneg.mpr hle)
    rw [totalPayoff_tail hpos hle]
    linarith

/-- **The loss is unbounded exactly if more calls are written than held.** -/
theorem unbounded_below_iff (hpos : 0 < highestStrike legs) :
    (∀ b, ∃ x, 0 ≤ x ∧ totalPayoff legs x < b) ↔ netCalls legs < 0 := by
  constructor
  · intro h
    by_contra hcalls
    -- The least of the values at the ends and at the strikes is a bound.
    have hleast := (foldl_min_spec ((strikes legs).map (totalPayoff legs))
      (min (totalPayoff legs 0) (totalPayoff legs (samplePrice legs 2000)))).2
    obtain ⟨x, hx, hlt⟩ := h (((strikes legs).map (totalPayoff legs)).foldl min
      (min (totalPayoff legs 0) (totalPayoff legs (samplePrice legs 2000))))
    refine absurd hlt (not_lt.mpr (payoff_ge hpos (not_lt.mp hcalls) ?_ ?_ ?_ hx))
    · exact (hleast _ List.mem_cons_self).trans (min_le_left _ _)
    · exact (hleast _ List.mem_cons_self).trans (min_le_right _ _)
    · exact fun k hk => hleast _ (List.mem_cons_of_mem _ (List.mem_map_of_mem hk))
  · intro hcalls b
    have hgap : 0 ≤ (|totalPayoff legs (samplePrice legs 2000) - b| + 1) / -netCalls legs := by
      have hneg : 0 < -netCalls legs := neg_pos.mpr hcalls
      positivity
    have hhigh : 0 ≤ samplePrice legs 2000 := by
      rw [samplePrice_last]
      positivity
    refine ⟨samplePrice legs 2000 +
      (|totalPayoff legs (samplePrice legs 2000) - b| + 1) / -netCalls legs, by linarith, ?_⟩
    rw [totalPayoff_tail hpos (by linarith), add_sub_cancel_left]
    have hfall : netCalls legs *
        ((|totalPayoff legs (samplePrice legs 2000) - b| + 1) / -netCalls legs) =
          -(|totalPayoff legs (samplePrice legs 2000) - b| + 1) := by
      rw [div_neg, mul_neg, mul_div_cancel₀ _ hcalls.ne]
    rw [hfall]
    linarith [le_abs_self (totalPayoff legs (samplePrice legs 2000) - b)]

/-- **The profit is unbounded exactly if more calls are held than written.** -/
theorem unbounded_above_iff (hpos : 0 < highestStrike legs) :
    (∀ b, ∃ x, 0 ≤ x ∧ b < totalPayoff legs x) ↔ 0 < netCalls legs := by
  constructor
  · intro h
    by_contra hcalls
    -- Otherwise the greatest value at a strike or an end bounds the payoff.
    have hgreatest := (foldl_max_spec ((strikes legs).map (totalPayoff legs))
      (max (totalPayoff legs 0) (totalPayoff legs (samplePrice legs 2000)))).2
    obtain ⟨x, hx, hlt⟩ := h (((strikes legs).map (totalPayoff legs)).foldl max
      (max (totalPayoff legs 0) (totalPayoff legs (samplePrice legs 2000))))
    refine absurd hlt (not_lt.mpr (payoff_le hpos (not_lt.mp hcalls) ?_ ?_ ?_ hx))
    · exact (le_max_left _ _).trans (hgreatest _ List.mem_cons_self)
    · exact (le_max_right _ _).trans (hgreatest _ List.mem_cons_self)
    · exact fun k hk => hgreatest _ (List.mem_cons_of_mem _ (List.mem_map_of_mem hk))
  · intro hcalls b
    have hgap : 0 ≤ (|b - totalPayoff legs (samplePrice legs 2000)| + 1) / netCalls legs := by
      positivity
    have hhigh : 0 ≤ samplePrice legs 2000 := by
      rw [samplePrice_last]
      positivity
    refine ⟨samplePrice legs 2000 +
      (|b - totalPayoff legs (samplePrice legs 2000)| + 1) / netCalls legs, by linarith, ?_⟩
    rw [totalPayoff_tail hpos (by linarith), add_sub_cancel_left, mul_div_cancel₀ _ hcalls.ne']
    linarith [le_abs_self (b - totalPayoff legs (samplePrice legs 2000))]

end Extremes

/-- **Boundedness is classified exactly.** -/
theorem boundedness_exact (legs : List OptionLeg) (hne : legs ≠ [])
    (hstrikes : ∀ leg ∈ legs, 0 < leg.strike) :
    ∃ payoff, computePayoffSummary legs = .ok payoff ∧
      (payoff.maxLoss = none ↔ ∀ b, ∃ x, 0 ≤ x ∧ totalPayoff legs x < b) ∧
      (payoff.maxProfit = none ↔ ∀ b, ∃ x, 0 ≤ x ∧ b < totalPayoff legs x) := by
  have hpos := highestStrike_pos hne hstrikes
  obtain ⟨payoff, best, hok, -, hloss, hprofit, -⟩ := summary_spec hne hstrikes
  refine ⟨payoff, hok, ?_, ?_⟩
  · rw [unbounded_below_iff hpos, hloss]
    simp
  · rw [unbounded_above_iff hpos, hprofit]
    simp

/-- A bought call. -/
def longCall : List OptionLeg := [⟨.call, 100, 1 / 100, 1, .long, 1⟩]

theorem boundedness_exact_longCall :
    ∃ payoff, computePayoffSummary longCall = .ok payoff ∧
      (payoff.maxLoss = none ↔ ∀ b, ∃ x, 0 ≤ x ∧ totalPayoff longCall x < b) ∧
      (payoff.maxProfit = none ↔ ∀ b, ∃ x, 0 ≤ x ∧ b < totalPayoff longCall x) :=
  boundedness_exact longCall (by simp [longCall]) (by simp [longCall])

/-! ## Section 4: The worst case -/

/-- The extremes the summary reports are the extremes over all prices, and the risk that is
derived from a bounded strategy covers what it can lose. -/
structure WorstCaseExact (legs : List OptionLeg) (payoff : PayoffResult) : Prop where
  loss : ∀ v, payoff.maxLoss = some v → IsLeast {y | ∃ x, 0 ≤ x ∧ totalPayoff legs x = y} v
  profit : ∀ v, payoff.maxProfit = some v →
    IsGreatest {y | ∃ x, 0 ≤ x ∧ totalPayoff legs x = y} v
  risk : payoff.maxLoss.isSome → ∀ x, 0 ≤ x →
    -totalPayoff legs x ≤ OptionsRisk.riskAmount payoff

/-- No strike is worse than every sampled price, nor better, on the side where the summary
reports an extreme. -/
structure StrikesCovered (legs : List OptionLeg) : Prop where
  loss : 0 ≤ netCalls legs → ∀ leg ∈ legs, ∃ price ∈ payoffPriceRange legs,
    totalPayoff legs price ≤ totalPayoff legs leg.strike
  profit : netCalls legs ≤ 0 → ∀ leg ∈ legs, ∃ price ∈ payoffPriceRange legs,
    totalPayoff legs leg.strike ≤ totalPayoff legs price

/-- **The worst case is exact exactly if the samples cover the strikes.** -/
theorem worstCaseExact_iff (legs : List OptionLeg) (hne : legs ≠ [])
    (hstrikes : ∀ leg ∈ legs, 0 < leg.strike) :
    ∃ payoff, computePayoffSummary legs = .ok payoff ∧
      (WorstCaseExact legs payoff ↔ StrikesCovered legs) := by
  have hpos := highestStrike_pos hne hstrikes
  obtain ⟨payoff, best, hok, -, hloss, hprofit, ⟨low, hlow, hworst⟩, hleast, ⟨high, hhigh, hbest⟩,
    hgreatest⟩ := summary_spec hne hstrikes
  -- A sampled price is a price.
  have hnonneg : ∀ price ∈ payoffPriceRange legs, 0 ≤ price := by
    intro price hprice
    obtain ⟨i, -, rfl⟩ := mem_payoffPriceRange.mp hprice
    unfold samplePrice
    positivity
  have hzero : 0 ∈ payoffPriceRange legs :=
    mem_payoffPriceRange.mpr ⟨0, by norm_num, samplePrice_zero legs⟩
  have hlast : samplePrice legs 2000 ∈ payoffPriceRange legs :=
    mem_payoffPriceRange.mpr ⟨2000, le_rfl, rfl⟩
  refine ⟨payoff, hok, ?_, ?_⟩
  · -- An exact worst is the payoff of a sample, and every strike is a price.
    intro hexact
    constructor
    · intro hcalls leg hleg
      have hsome : payoff.maxLoss = some payoff.worstSampledLoss := by
        rw [hloss, if_neg (not_lt.mpr hcalls)]
      refine ⟨low, hlow, ?_⟩
      rw [hworst]
      exact (hexact.loss _ hsome).2 ⟨leg.strike, (hstrikes leg hleg).le, rfl⟩
    · intro hcalls leg hleg
      have hsome : payoff.maxProfit = some best := by
        rw [hprofit, if_neg (not_lt.mpr hcalls)]
      refine ⟨high, hhigh, ?_⟩
      rw [hbest]
      exact (hexact.profit _ hsome).2 ⟨leg.strike, (hstrikes leg hleg).le, rfl⟩
  · intro hcovered
    -- Between the samples and the strikes the payoff lies above the least of them.
    have hlosses : 0 ≤ netCalls legs →
        ∀ x, 0 ≤ x → payoff.worstSampledLoss ≤ totalPayoff legs x := by
      intro hcalls x hx
      refine payoff_ge hpos hcalls (hleast 0 hzero) (hleast _ hlast) ?_ hx
      intro k hk
      obtain ⟨leg, hleg, rfl⟩ := List.mem_map.mp hk
      obtain ⟨price, hprice, hle⟩ := hcovered.loss hcalls leg hleg
      exact (hleast price hprice).trans hle
    have hprofits : netCalls legs ≤ 0 → ∀ x, 0 ≤ x → totalPayoff legs x ≤ best := by
      intro hcalls x hx
      refine payoff_le hpos hcalls (hgreatest 0 hzero) (hgreatest _ hlast) ?_ hx
      intro k hk
      obtain ⟨leg, hleg, rfl⟩ := List.mem_map.mp hk
      obtain ⟨price, hprice, hle⟩ := hcovered.profit hcalls leg hleg
      exact hle.trans (hgreatest price hprice)
    -- A loss is reported only where the calls do not run off.
    have hreported : ∀ v, payoff.maxLoss = some v →
        v = payoff.worstSampledLoss ∧ 0 ≤ netCalls legs := by
      intro v hv
      rw [hloss] at hv
      split at hv
      next => cases hv
      next hcalls => exact ⟨(Option.some.inj hv).symm, not_lt.mp hcalls⟩
    -- The loss, the profit, and the risk amount that is read off them.
    constructor
    · intro v hv
      obtain ⟨rfl, hcalls⟩ := hreported v hv
      refine ⟨⟨low, hnonneg low hlow, hworst⟩, ?_⟩
      rintro _ ⟨x, hx, rfl⟩
      exact hlosses hcalls x hx
    · intro v hv
      rw [hprofit] at hv
      split at hv
      next => cases hv
      next hcalls =>
        cases hv
        refine ⟨⟨high, hnonneg high hhigh, hbest⟩, ?_⟩
        rintro _ ⟨x, hx, rfl⟩
        exact hprofits (not_lt.mp hcalls) x hx
    · intro hsome x hx
      obtain ⟨v, hv⟩ := Option.isSome_iff_exists.mp hsome
      obtain ⟨rfl, hcalls⟩ := hreported v hv
      have hbound := hlosses hcalls x hx
      unfold OptionsRisk.riskAmount
      rw [hv]
      exact (neg_le_neg hbound).trans (neg_le_abs _)

theorem worstCaseExact_iff_longCall :
    ∃ payoff, computePayoffSummary longCall = .ok payoff ∧
      (WorstCaseExact longCall payoff ↔ StrikesCovered longCall) :=
  worstCaseExact_iff longCall (by simp [longCall]) (by simp [longCall])

/-- A call and a put bought at one strike, which lose most exactly there. -/
def straddle : List OptionLeg := [⟨.call, 100, 5, 1, .long, 1⟩, ⟨.put, 100, 5, 1, .long, 1⟩]

theorem totalPayoff_straddle (x : ℚ) : totalPayoff straddle x = |x - 100| - 10 := by
  have hcall : max (x - 100) 0 + max (100 - x) 0 = |x - 100| := by
    rcases le_total x 100 with hle | hle
    · rw [max_eq_right (by linarith), max_eq_left (by linarith), abs_of_nonpos (by linarith)]
      ring
    · rw [max_eq_left (by linarith), max_eq_right (by linarith), abs_of_nonneg (by linarith)]
      ring
  rw [← hcall]
  simp only [totalPayoff, straddle, legPayoff, legIntrinsicValue, Direction.signed, List.map_cons,
    List.map_nil, List.sum_cons, List.sum_nil, Nat.cast_one, mul_one, add_zero]
  ring

/-- The strike is no sampled price: the loss that is reported is smaller than the 10 that can
be lost. -/
theorem straddle_loses_more :
    ∃ payoff v, computePayoffSummary straddle = .ok payoff ∧ payoff.maxLoss = some v ∧
      totalPayoff straddle 100 < v ∧ OptionsRisk.riskAmount payoff < -totalPayoff straddle 100 ∧
      ¬ WorstCaseExact straddle payoff := by
  obtain ⟨payoff, -, hok, -, hloss, -, ⟨low, hlow, hworst⟩, hleast, -⟩ :=
    @summary_spec straddle (by simp [straddle]) (by simp [straddle])
  have hstrike : totalPayoff straddle 100 = -10 := by simp [totalPayoff_straddle]
  have hcalls : ¬ netCalls straddle < 0 := by
    simp [netCalls, straddle, OptionLeg.weight, Direction.signed]
  have hreported : payoff.maxLoss = some payoff.worstSampledLoss := by rw [hloss, if_neg hcalls]
  have hless : -10 < payoff.worstSampledLoss := by
    -- The samples lie at multiples of 3/40, and 100 does not.
    obtain ⟨i, -, rfl⟩ := mem_payoffPriceRange.mp hlow
    have hoff : samplePrice straddle i - 100 ≠ 0 := by
      intro heq
      have hmultiple : (3 * i : ℚ) = 4000 := by
        simp only [samplePrice, highestStrike, straddle, List.map_cons, List.map_nil,
          List.foldl_cons, List.foldl_nil] at heq
        norm_num at heq
        linarith
      have hnat : 3 * i = 4000 := by exact_mod_cast hmultiple
      omega
    rw [← hworst, totalPayoff_straddle]
    linarith [abs_pos.mpr hoff]
  have hsampled : payoff.worstSampledLoss ≤ 0 := by
    have hnear : samplePrice straddle 1333 ∈ payoffPriceRange straddle :=
      mem_payoffPriceRange.mpr ⟨1333, by norm_num, rfl⟩
    refine (hleast _ hnear).trans ?_
    rw [totalPayoff_straddle]
    simp only [samplePrice, highestStrike, straddle, List.map_cons, List.map_nil, List.foldl_cons,
      List.foldl_nil]
    norm_num
  refine ⟨payoff, _, hok, hreported, by rwa [hstrike], ?_, fun hexact => ?_⟩
  · rw [hstrike, OptionsRisk.riskAmount, hreported]
    dsimp only
    rw [abs_of_nonpos hsampled]
    linarith
  · have hle := (hexact.loss _ hreported).2 ⟨100, by norm_num, hstrike⟩
    linarith

end SuperTrading
