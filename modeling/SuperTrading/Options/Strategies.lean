import SuperTrading.Logic.Dict
import SuperTrading.Logic.Runs
import SuperTrading.Options.PayoffShape

/-!
# Named Options Strategies

`app/options/strategies.py`: ten combinations of legs, each put together from the strikes that a
client names and the premiums of a chain.

- **Section 1**: the builders, and what is refused
- **Section 2**: a combination is a sum of hinges
- **Section 3**: the worst case lies at an end of the price range
- **Section 4**: what the summary of a built strategy says
-/

namespace SuperTrading

open SuperTrading.Logic

/-! ## Section 1: Builders -/

/-- The premiums of a strike. -/
structure StrikeQuotes where
  call : Option ℚ := none
  put : Option ℚ := none
  deriving DecidableEq, Repr

/-- `quotes[option_type.value]`. -/
def StrikeQuotes.premium (q : StrikeQuotes) : OptionType → Option ℚ
  | .call => q.call
  | .put => q.put

abbrev OptionChain := Dict ℚ StrikeQuotes

/-- The `ValueError`s and `KeyError`s of `build_strategy`. -/
inductive BuildError
  | unknownStrategy (name : String)
  | missing (arguments : List String)
  | notAccepted (arguments : List String)
  | order (message : String)
  | noStrike (strike : ℚ)
  | noPremium (optionType : OptionType)
  deriving DecidableEq, Repr

/-- What every builder takes beside its strikes. -/
structure BuildTerms where
  chain : OptionChain
  quantity : ℚ := 1
  lotSize : ℕ := 1

/-- A leg before its premium is looked up. -/
structure LegPlan where
  strike : ℚ
  optionType : OptionType
  direction : Direction
  deriving DecidableEq, Repr

namespace BuildTerms

/-- `_leg`. -/
def leg (t : BuildTerms) (plan : LegPlan) : Except BuildError OptionLeg :=
  match t.chain.get? plan.strike with
  | none => .error (.noStrike plan.strike)
  | some quotes =>
    match quotes.premium plan.optionType with
    | none => .error (.noPremium plan.optionType)
    | some premium =>
      .ok
        { optionType := plan.optionType
          strike := plan.strike
          premium := premium
          quantity := t.quantity
          direction := plan.direction
          lotSize := t.lotSize }

/-- The list a builder returns, leg by leg. -/
def legs (t : BuildTerms) : List LegPlan → Except BuildError (List OptionLeg)
  | [] => .ok []
  | plan :: plans => do
    let leg ← t.leg plan
    let rest ← t.legs plans
    return leg :: rest

/-- A builder that checks the order of its strikes first. -/
def ordered (t : BuildTerms) (inOrder : Prop) [Decidable inOrder] (message : String)
    (plans : List LegPlan) : Except BuildError (List OptionLeg) :=
  if inOrder then t.legs plans else .error (.order message)

end BuildTerms

namespace OptionsStrategies

def longCall (t : BuildTerms) (strike : ℚ) := t.legs [⟨strike, .call, .long⟩]

def longPut (t : BuildTerms) (strike : ℚ) := t.legs [⟨strike, .put, .long⟩]

def bullCallSpread (t : BuildTerms) (longStrike shortStrike : ℚ) :=
  t.ordered (longStrike < shortStrike) "bull_call_spread requires long_strike < short_strike"
    [⟨longStrike, .call, .long⟩, ⟨shortStrike, .call, .short⟩]

def bearPutSpread (t : BuildTerms) (longStrike shortStrike : ℚ) :=
  t.ordered (longStrike > shortStrike) "bear_put_spread requires long_strike > short_strike"
    [⟨longStrike, .put, .long⟩, ⟨shortStrike, .put, .short⟩]

/-- A credit spread: sells the higher put, buys the lower one. -/
def bullPutSpread (t : BuildTerms) (shortStrike longStrike : ℚ) :=
  t.ordered (shortStrike > longStrike) "bull_put_spread requires short_strike > long_strike"
    [⟨shortStrike, .put, .short⟩, ⟨longStrike, .put, .long⟩]

/-- A credit spread: sells the lower call, buys the higher one. -/
def bearCallSpread (t : BuildTerms) (shortStrike longStrike : ℚ) :=
  t.ordered (shortStrike < longStrike) "bear_call_spread requires short_strike < long_strike"
    [⟨shortStrike, .call, .short⟩, ⟨longStrike, .call, .long⟩]

def shortStraddle (t : BuildTerms) (atmStrike : ℚ) :=
  t.legs [⟨atmStrike, .call, .short⟩, ⟨atmStrike, .put, .short⟩]

def shortStrangle (t : BuildTerms) (putStrike callStrike : ℚ) :=
  t.ordered (putStrike < callStrike) "short_strangle requires put_strike < call_strike"
    [⟨putStrike, .put, .short⟩, ⟨callStrike, .call, .short⟩]

def ironCondor (t : BuildTerms)
    (putLongStrike putShortStrike callShortStrike callLongStrike : ℚ) :=
  t.ordered (putLongStrike < putShortStrike ∧ putShortStrike < callShortStrike ∧
      callShortStrike < callLongStrike)
    "iron_condor requires put_long < put_short < call_short < call_long"
    [⟨putLongStrike, .put, .long⟩, ⟨putShortStrike, .put, .short⟩, ⟨callShortStrike, .call, .short⟩,
      ⟨callLongStrike, .call, .long⟩]

def ironButterfly (t : BuildTerms) (putLongStrike atmStrike callLongStrike : ℚ) :=
  t.ordered (putLongStrike < atmStrike ∧ atmStrike < callLongStrike)
    "iron_butterfly requires put_long < atm < call_long"
    [⟨putLongStrike, .put, .long⟩, ⟨atmStrike, .put, .short⟩, ⟨atmStrike, .call, .short⟩,
      ⟨callLongStrike, .call, .long⟩]

end OptionsStrategies

/-- The keys of `_STRATEGY_BUILDERS`. -/
inductive OptionsStrategy
  | longCall
  | longPut
  | bullCallSpread
  | bearPutSpread
  | bullPutSpread
  | bearCallSpread
  | shortStraddle
  | shortStrangle
  | ironCondor
  | ironButterfly
  deriving DecidableEq, Repr

namespace OptionsStrategy

def name : OptionsStrategy → String
  | longCall => "long_call"
  | longPut => "long_put"
  | bullCallSpread => "bull_call_spread"
  | bearPutSpread => "bear_put_spread"
  | bullPutSpread => "bull_put_spread"
  | bearCallSpread => "bear_call_spread"
  | shortStraddle => "short_straddle"
  | shortStrangle => "short_strangle"
  | ironCondor => "iron_condor"
  | ironButterfly => "iron_butterfly"

def all : List OptionsStrategy :=
  [longCall, longPut, bullCallSpread, bearPutSpread, bullPutSpread, bearCallSpread, shortStraddle,
    shortStrangle, ironCondor, ironButterfly]

/-- `_STRATEGY_BUILDERS.get(name)`. -/
def ofName (text : String) : Option OptionsStrategy := all.find? fun s => s.name = text

/-- `required_arguments`: the strikes of the builder's signature. -/
def requiredArguments : OptionsStrategy → List String
  | longCall | longPut => ["strike"]
  | bullCallSpread | bearPutSpread => ["long_strike", "short_strike"]
  | bullPutSpread | bearCallSpread => ["short_strike", "long_strike"]
  | shortStraddle => ["atm_strike"]
  | shortStrangle => ["put_strike", "call_strike"]
  | ironCondor => ["put_long_strike", "put_short_strike", "call_short_strike", "call_long_strike"]
  | ironButterfly => ["put_long_strike", "atm_strike", "call_long_strike"]

/-- `builder(chain, **kwargs)`. -/
def builder (s : OptionsStrategy) (t : BuildTerms) (strike : String → ℚ) :
    Except BuildError (List OptionLeg) :=
  match s with
  | longCall => OptionsStrategies.longCall t (strike "strike")
  | longPut => OptionsStrategies.longPut t (strike "strike")
  | bullCallSpread =>
    OptionsStrategies.bullCallSpread t (strike "long_strike") (strike "short_strike")
  | bearPutSpread =>
    OptionsStrategies.bearPutSpread t (strike "long_strike") (strike "short_strike")
  | bullPutSpread =>
    OptionsStrategies.bullPutSpread t (strike "short_strike") (strike "long_strike")
  | bearCallSpread =>
    OptionsStrategies.bearCallSpread t (strike "short_strike") (strike "long_strike")
  | shortStraddle => OptionsStrategies.shortStraddle t (strike "atm_strike")
  | shortStrangle => OptionsStrategies.shortStrangle t (strike "put_strike") (strike "call_strike")
  | ironCondor =>
    OptionsStrategies.ironCondor t (strike "put_long_strike") (strike "put_short_strike")
      (strike "call_short_strike") (strike "call_long_strike")
  | ironButterfly =>
    OptionsStrategies.ironButterfly t (strike "put_long_strike") (strike "atm_strike")
      (strike "call_long_strike")

end OptionsStrategy

/-- `build_strategy`, whose own caller passes the quantity and the lot size: `kwargs` are the
strikes of the request. -/
def buildStrategy (name : String) (t : BuildTerms) (kwargs : Dict String ℚ) :
    Except BuildError (List OptionLeg) :=
  match OptionsStrategy.ofName name with
  | none => .error (.unknownStrategy name)
  | some s =>
    let missing := s.requiredArguments.filter fun argument => (kwargs.get? argument).isNone
    let unknown := ((kwargs.entries.map Prod.fst).filter fun argument =>
      argument ∉ s.requiredArguments).mergeSort
    if missing ≠ [] then .error (.missing missing)
    else if unknown ≠ [] then .error (.notAccepted unknown)
    else s.builder t fun argument => (kwargs.get? argument).getD 0

/-- `BIAS_STRATEGIES`. -/
def biasStrategies : List (String × List OptionsStrategy) :=
  [("bullish", [.longCall, .bullCallSpread, .bullPutSpread]),
    ("bearish", [.longPut, .bearPutSpread, .bearCallSpread]),
    ("neutral", [.ironCondor, .ironButterfly, .shortStraddle, .shortStrangle])]

/-! ## Section 2: Sums of hinges -/

namespace LegPlan

/-- What a contract of the leg is worth at expiry. -/
def intrinsic (plan : LegPlan) (price : ℚ) : ℚ :=
  match plan.optionType with
  | .call => max (price - plan.strike) 0
  | .put => max (plan.strike - price) 0

/-- What the leg adds to the slope beyond its strike. -/
def callSign (plan : LegPlan) : ℚ :=
  match plan.optionType with
  | .call => plan.direction.signed 1
  | .put => 0

end LegPlan

/-- What the contracts of a combination are worth at expiry, the written ones counted against it. -/
def swing (plans : List LegPlan) (price : ℚ) : ℚ :=
  (plans.map fun plan => plan.direction.signed (plan.intrinsic price)).sum

/-- The calls bought less the calls written. -/
def netCallSign (plans : List LegPlan) : ℚ := (plans.map LegPlan.callSign).sum

namespace BuildTerms

/-- The units of a leg. -/
def units (t : BuildTerms) : ℚ := t.quantity * t.lotSize

variable {t : BuildTerms} {plans : List LegPlan} {legs : List OptionLeg}

theorem leg_eq_ok {plan : LegPlan} {leg : OptionLeg} (h : t.leg plan = .ok leg) :
    leg = { optionType := plan.optionType
            strike := plan.strike
            premium := leg.premium
            quantity := t.quantity
            direction := plan.direction
            lotSize := t.lotSize } := by
  unfold BuildTerms.leg at h
  split at h
  · cases h
  · split at h
    · cases h
    · cases h
      rfl

theorem legs_cons_eq_ok {plan : LegPlan} (h : t.legs (plan :: plans) = .ok legs) :
    ∃ leg rest, t.leg plan = .ok leg ∧ t.legs plans = .ok rest ∧ legs = leg :: rest := by
  rw [BuildTerms.legs] at h
  obtain ⟨leg, hleg, h⟩ := bind_eq_ok.mp h
  obtain ⟨rest, hrest, h⟩ := bind_eq_ok.mp h
  cases h
  exact ⟨leg, rest, hleg, hrest, rfl⟩

theorem map_strike_legs (h : t.legs plans = .ok legs) :
    strikes legs = plans.map LegPlan.strike := by
  induction plans generalizing legs with
  | nil =>
    cases h
    rfl
  | cons plan plans ih =>
    obtain ⟨leg, rest, hleg, hrest, rfl⟩ := legs_cons_eq_ok h
    rw [strikes, List.map_cons, List.map_cons, leg_eq_ok hleg]
    exact congrArg _ (ih hrest)

/-- The payoff of what was built: the premium paid, and the contracts. -/
theorem totalPayoff_legs (h : t.legs plans = .ok legs) (price : ℚ) :
    totalPayoff legs price = t.units * swing plans price - netPremium legs := by
  induction plans generalizing legs with
  | nil =>
    cases h
    simp [totalPayoff, swing, netPremium]
  | cons plan plans ih =>
    -- The induction is on the plans: each leg adds its contracts and pays its premium.
    obtain ⟨leg, rest, hleg, hrest, rfl⟩ := legs_cons_eq_ok h
    have hrest := ih hrest
    simp only [totalPayoff, swing, netPremium, List.map_cons, List.sum_cons] at hrest ⊢
    rw [hrest, leg_eq_ok hleg, legPayoff]
    -- The intrinsic value does not read the premium.
    have hintrinsic : ∀ premium, legIntrinsicValue
        { optionType := plan.optionType
          strike := plan.strike
          premium := premium
          quantity := t.quantity
          direction := plan.direction
          lotSize := t.lotSize } price = plan.intrinsic price := fun _ => rfl
    rw [hintrinsic, BuildTerms.units]
    cases plan.direction <;> simp only [Direction.signed] <;> ring

theorem netCalls_legs (h : t.legs plans = .ok legs) :
    netCalls legs = t.units * netCallSign plans := by
  induction plans generalizing legs with
  | nil =>
    cases h
    simp [netCalls, netCallSign]
  | cons plan plans ih =>
    obtain ⟨leg, rest, hleg, hrest, rfl⟩ := legs_cons_eq_ok h
    have hrest := ih hrest
    simp only [netCalls, netCallSign, List.map_cons, List.sum_cons] at hrest ⊢
    rw [hrest, leg_eq_ok hleg, mul_add, LegPlan.callSign, BuildTerms.units]
    cases plan.optionType with
    | call => cases plan.direction <;> simp [OptionLeg.weight, Direction.signed]
    | put => simp

end BuildTerms

/-! ## Section 3: The worst case -/

namespace OptionsStrategy

/-- The legs of a strategy, at its strikes. -/
def plans (s : OptionsStrategy) (strike : String → ℚ) : List LegPlan :=
  match s with
  | longCall => [⟨strike "strike", .call, .long⟩]
  | longPut => [⟨strike "strike", .put, .long⟩]
  | bullCallSpread => [⟨strike "long_strike", .call, .long⟩, ⟨strike "short_strike", .call, .short⟩]
  | bearPutSpread => [⟨strike "long_strike", .put, .long⟩, ⟨strike "short_strike", .put, .short⟩]
  | bullPutSpread => [⟨strike "short_strike", .put, .short⟩, ⟨strike "long_strike", .put, .long⟩]
  | bearCallSpread => [⟨strike "short_strike", .call, .short⟩, ⟨strike "long_strike", .call, .long⟩]
  | shortStraddle => [⟨strike "atm_strike", .call, .short⟩, ⟨strike "atm_strike", .put, .short⟩]
  | shortStrangle => [⟨strike "put_strike", .put, .short⟩, ⟨strike "call_strike", .call, .short⟩]
  | ironCondor =>
    [⟨strike "put_long_strike", .put, .long⟩, ⟨strike "put_short_strike", .put, .short⟩,
      ⟨strike "call_short_strike", .call, .short⟩, ⟨strike "call_long_strike", .call, .long⟩]
  | ironButterfly =>
    [⟨strike "put_long_strike", .put, .long⟩, ⟨strike "atm_strike", .put, .short⟩,
      ⟨strike "atm_strike", .call, .short⟩, ⟨strike "call_long_strike", .call, .long⟩]

/-- The order that a strategy asks of its strikes. -/
def InOrder (s : OptionsStrategy) (strike : String → ℚ) : Prop :=
  match s with
  | longCall | longPut | shortStraddle => True
  | bullCallSpread => strike "long_strike" < strike "short_strike"
  | bearPutSpread => strike "short_strike" < strike "long_strike"
  | bullPutSpread => strike "long_strike" < strike "short_strike"
  | bearCallSpread => strike "short_strike" < strike "long_strike"
  | shortStrangle => strike "put_strike" < strike "call_strike"
  | ironCondor => strike "put_long_strike" < strike "put_short_strike" ∧
      strike "put_short_strike" < strike "call_short_strike" ∧
      strike "call_short_strike" < strike "call_long_strike"
  | ironButterfly => strike "put_long_strike" < strike "atm_strike" ∧
      strike "atm_strike" < strike "call_long_strike"

variable {s : OptionsStrategy} {t : BuildTerms} {strike : String → ℚ} {legs : List OptionLeg}

theorem ordered_eq_ok {inOrder : Prop} [Decidable inOrder] {message : String}
    {plans : List LegPlan} :
    t.ordered inOrder message plans = .ok legs ↔ inOrder ∧ t.legs plans = .ok legs := by
  unfold BuildTerms.ordered
  split_ifs with h <;> simp [h]

/-- A builder puts its legs together once their strikes are in order. -/
theorem builder_eq_ok :
    s.builder t strike = .ok legs ↔ s.InOrder strike ∧ t.legs (s.plans strike) = .ok legs := by
  cases s with
  | longCall | longPut | shortStraddle => exact (and_iff_right trivial).symm
  | bullCallSpread | bearPutSpread | bullPutSpread | bearCallSpread | shortStrangle | ironCondor
  | ironButterfly => exact ordered_eq_ok

/-- More calls are written than bought by two strategies only, and more bought by one. -/
theorem netCallSign_plans (s : OptionsStrategy) (strike : String → ℚ) :
    (netCallSign (s.plans strike) < 0 ↔ s = .shortStraddle ∨ s = .shortStrangle) ∧
      (0 < netCallSign (s.plans strike) ↔ s = .longCall) := by
  cases s <;> norm_num [netCallSign, plans, LegPlan.callSign, Direction.signed] <;> decide

end OptionsStrategy

section Hinges

variable {a b c d x y : ℚ}

/-! What a hinge is worth at the two ends of the range. -/

theorem callHinge_zero (h : 0 < a) : max (0 - a) 0 = 0 := max_eq_right (by linarith)

theorem putHinge_zero (h : 0 < a) : max (a - 0) 0 = a := by rw [sub_zero, max_eq_left h.le]

theorem callHinge_high (h : a ≤ x) : max (x - a) 0 = x - a := max_eq_left (by linarith)

theorem putHinge_high (h : a ≤ x) : max (a - x) 0 = 0 := max_eq_right (by linarith)

/-- A spread of puts is worth no less than nothing, and no more than its width. -/
theorem putSpread_bounds (h : a ≤ b) :
    0 ≤ max (b - x) 0 - max (a - x) 0 ∧ max (b - x) 0 - max (a - x) 0 ≤ b - a := by
  rcases max_cases (b - x) 0 with ⟨hb, hb'⟩ | ⟨hb, hb'⟩ <;>
    rcases max_cases (a - x) 0 with ⟨ha, ha'⟩ | ⟨ha, ha'⟩ <;> rw [ha, hb] <;>
    constructor <;> linarith

theorem callSpread_bounds (h : a ≤ b) :
    0 ≤ max (x - a) 0 - max (x - b) 0 ∧ max (x - a) 0 - max (x - b) 0 ≤ b - a := by
  rcases max_cases (x - b) 0 with ⟨hb, hb'⟩ | ⟨hb, hb'⟩ <;>
    rcases max_cases (x - a) 0 with ⟨ha, ha'⟩ | ⟨ha, ha'⟩ <;> rw [ha, hb] <;>
    constructor <;> linarith

/-- A spread of calls rises, and so one of puts falls. -/
theorem callSpread_mono (h : a ≤ b) (hxy : x ≤ y) :
    max (x - a) 0 - max (x - b) 0 ≤ max (y - a) 0 - max (y - b) 0 := by
  rcases max_cases (x - b) 0 with ⟨hxb, hxb'⟩ | ⟨hxb, hxb'⟩ <;>
    rcases max_cases (x - a) 0 with ⟨hxa, hxa'⟩ | ⟨hxa, hxa'⟩ <;>
    rcases max_cases (y - b) 0 with ⟨hyb, hyb'⟩ | ⟨hyb, hyb'⟩ <;>
    rcases max_cases (y - a) 0 with ⟨hya, hya'⟩ | ⟨hya, hya'⟩ <;> linarith

theorem putSpread_anti (h : a ≤ b) (hxy : x ≤ y) :
    max (b - y) 0 - max (a - y) 0 ≤ max (b - x) 0 - max (a - x) 0 := by
  rcases max_cases (b - x) 0 with ⟨hxb, hxb'⟩ | ⟨hxb, hxb'⟩ <;>
    rcases max_cases (a - x) 0 with ⟨hxa, hxa'⟩ | ⟨hxa, hxa'⟩ <;>
    rcases max_cases (b - y) 0 with ⟨hyb, hyb'⟩ | ⟨hyb, hyb'⟩ <;>
    rcases max_cases (a - y) 0 with ⟨hya, hya'⟩ | ⟨hya, hya'⟩ <;> linarith

/-- A spread of puts below one of calls: at any price one of the two is worth nothing. -/
theorem wings_bounds (hab : a ≤ b) (hbc : b ≤ c) (hcd : c ≤ d) (x : ℚ) :
    max (b - x) 0 - max (a - x) 0 + (max (x - c) 0 - max (x - d) 0) ≤ b - a ∨
      max (b - x) 0 - max (a - x) 0 + (max (x - c) 0 - max (x - d) 0) ≤ d - c := by
  rcases le_total x c with hx | hx
  · left
    rw [putHinge_high hx, putHinge_high (hx.trans hcd)]
    linarith [(putSpread_bounds (x := x) hab).2]
  · right
    rw [putHinge_high (hbc.trans hx), putHinge_high (hab.trans (hbc.trans hx))]
    linarith [(callSpread_bounds (x := x) hcd).2]

end Hinges

namespace OptionsStrategy

variable {s : OptionsStrategy} {strike : String → ℚ} {high x y : ℚ}

/-- A strategy on a rise is worth least at a price of nothing. -/
theorem least_at_zero (hs : s = longCall ∨ s = bullCallSpread ∨ s = bullPutSpread)
    (horder : s.InOrder strike) (hpos : ∀ argument ∈ s.requiredArguments, 0 < strike argument)
    (x : ℚ) : swing (s.plans strike) 0 ≤ swing (s.plans strike) x := by
  rcases hs with rfl | rfl | rfl <;>
    simp only [requiredArguments, List.mem_cons, List.not_mem_nil, or_false, forall_eq_or_imp,
      forall_eq] at hpos <;>
    simp only [swing, plans, LegPlan.intrinsic, Direction.signed, List.map_cons, List.map_nil,
      List.sum_cons, List.sum_nil]
  · rw [callHinge_zero hpos]
    have hcall : 0 ≤ max (x - strike "strike") 0 := le_max_right _ _
    linarith
  · rw [callHinge_zero hpos.1, callHinge_zero hpos.2]
    have hspread := (callSpread_bounds (x := x) (le_of_lt horder)).1
    linarith
  · rw [putHinge_zero hpos.1, putHinge_zero hpos.2]
    have hspread := (putSpread_bounds (x := x) (le_of_lt horder)).2
    linarith

/-- A strategy on a fall is worth least at the high end. -/
theorem least_at_high (hs : s = longPut ∨ s = bearPutSpread ∨ s = bearCallSpread)
    (horder : s.InOrder strike) (hhigh : ∀ argument ∈ s.requiredArguments, strike argument ≤ high)
    (x : ℚ) : swing (s.plans strike) high ≤ swing (s.plans strike) x := by
  rcases hs with rfl | rfl | rfl <;>
    simp only [requiredArguments, List.mem_cons, List.not_mem_nil, or_false, forall_eq_or_imp,
      forall_eq] at hhigh <;>
    simp only [swing, plans, LegPlan.intrinsic, Direction.signed, List.map_cons, List.map_nil,
      List.sum_cons, List.sum_nil]
  · rw [putHinge_high hhigh]
    have hput : 0 ≤ max (strike "strike" - x) 0 := le_max_right _ _
    linarith
  · rw [putHinge_high hhigh.1, putHinge_high hhigh.2]
    have hspread := (putSpread_bounds (x := x) (le_of_lt horder)).1
    linarith
  · rw [callHinge_high hhigh.1, callHinge_high hhigh.2]
    have hspread := (callSpread_bounds (x := x) (le_of_lt horder)).2
    linarith

/-- A strategy with wings is worth least beyond one of them. -/
theorem least_winged (hs : s = ironCondor ∨ s = ironButterfly) (horder : s.InOrder strike)
    (hpos : ∀ argument ∈ s.requiredArguments, 0 < strike argument)
    (hhigh : ∀ argument ∈ s.requiredArguments, strike argument ≤ high) (x : ℚ) :
    swing (s.plans strike) 0 ≤ swing (s.plans strike) x ∨
      swing (s.plans strike) high ≤ swing (s.plans strike) x := by
  rcases hs with rfl | rfl <;>
    simp only [requiredArguments, List.mem_cons, List.not_mem_nil, or_false, forall_eq_or_imp,
      forall_eq] at hpos hhigh <;>
    simp only [swing, plans, LegPlan.intrinsic, Direction.signed, List.map_cons, List.map_nil,
      List.sum_cons, List.sum_nil]
  · obtain ⟨hab, hbc, hcd⟩ := horder
    obtain ⟨ha, hb, hc, hd⟩ := hpos
    obtain ⟨ha', hb', hc', hd'⟩ := hhigh
    rw [putHinge_zero ha, putHinge_zero hb, callHinge_zero hc, callHinge_zero hd,
      putHinge_high ha', putHinge_high hb', callHinge_high hc', callHinge_high hd']
    rcases wings_bounds hab.le hbc.le hcd.le x with hworth | hworth
    · left
      linarith
    · right
      linarith
  · -- The two inner strikes are one.
    obtain ⟨hab, hbc⟩ := horder
    obtain ⟨ha, hb, hc⟩ := hpos
    obtain ⟨ha', hb', hc'⟩ := hhigh
    rw [putHinge_zero ha, putHinge_zero hb, callHinge_zero hb, callHinge_zero hc,
      putHinge_high ha', putHinge_high hb', callHinge_high hb', callHinge_high hc']
    rcases wings_bounds hab.le le_rfl hbc.le x with hworth | hworth
    · left
      linarith
    · right
      linarith

/-- **A strategy of limited risk is worth least at an end of the range**, whatever happens between
its strikes. -/
theorem least_at_ends (hlimited : ¬ netCallSign (s.plans strike) < 0) (horder : s.InOrder strike)
    (hpos : ∀ argument ∈ s.requiredArguments, 0 < strike argument)
    (hhigh : ∀ argument ∈ s.requiredArguments, strike argument ≤ high) (x : ℚ) :
    swing (s.plans strike) 0 ≤ swing (s.plans strike) x ∨
      swing (s.plans strike) high ≤ swing (s.plans strike) x := by
  rw [(netCallSign_plans s strike).1] at hlimited
  cases s with
  | longCall | bullCallSpread | bullPutSpread =>
    exact Or.inl (least_at_zero (by simp) horder hpos x)
  | longPut | bearPutSpread | bearCallSpread =>
    exact Or.inr (least_at_high (by simp) horder hhigh x)
  | shortStraddle => exact absurd (Or.inl rfl) hlimited
  | shortStrangle => exact absurd (Or.inr rfl) hlimited
  | ironCondor | ironButterfly => exact least_winged (by simp) horder hpos hhigh x

/-- What `BIAS_STRATEGIES` promises of a payoff: it rises with the price, it falls, or it is best
somewhere in the middle. -/
def SuitsBias (bias : String) (payoff : ℚ → ℚ) : Prop :=
  (bias = "bullish" → Monotone payoff) ∧ (bias = "bearish" → Antitone payoff) ∧
    (bias = "neutral" →
      ∃ middle, MonotoneOn payoff (Set.Iic middle) ∧ AntitoneOn payoff (Set.Ici middle))

theorem swing_longCall (strike : String → ℚ) : Monotone (swing (longCall.plans strike)) := by
  intro x y hxy
  have hcall : max (x - strike "strike") 0 ≤ max (y - strike "strike") 0 :=
    max_le_max_right 0 (sub_le_sub_right hxy _)
  simp only [swing, plans, LegPlan.intrinsic, Direction.signed, List.map_cons, List.map_nil,
    List.sum_cons, List.sum_nil]
  linarith

theorem swing_longPut (strike : String → ℚ) : Antitone (swing (longPut.plans strike)) := by
  intro x y hxy
  have hput : max (strike "strike" - y) 0 ≤ max (strike "strike" - x) 0 :=
    max_le_max_right 0 (sub_le_sub_left hxy _)
  simp only [swing, plans, LegPlan.intrinsic, Direction.signed, List.map_cons, List.map_nil,
    List.sum_cons, List.sum_nil]
  linarith

/-- A spread gains in the direction of its name. -/
theorem swing_spread (horder : s.InOrder strike) (hxy : x ≤ y) :
    (s = bullCallSpread ∨ s = bullPutSpread →
        swing (s.plans strike) x ≤ swing (s.plans strike) y) ∧
      (s = bearPutSpread ∨ s = bearCallSpread →
        swing (s.plans strike) y ≤ swing (s.plans strike) x) := by
  refine ⟨fun hs => ?_, fun hs => ?_⟩ <;> rcases hs with rfl | rfl <;>
    have hcalls := callSpread_mono (le_of_lt horder) hxy <;>
    have hputs := putSpread_anti (le_of_lt horder) hxy <;>
    simp only [swing, plans, LegPlan.intrinsic, Direction.signed, List.map_cons, List.map_nil,
      List.sum_cons, List.sum_nil] <;>
    linarith

/-- The strike below which a neutral strategy has only puts at work, and above which only calls. -/
def middle (s : OptionsStrategy) (strike : String → ℚ) : ℚ :=
  match s with
  | shortStrangle => strike "put_strike"
  | ironCondor => strike "put_short_strike"
  | _ => strike "atm_strike"

/-- A neutral strategy gains up to its middle, and loses from there. -/
theorem swing_neutral (hs : s ∈ [ironCondor, ironButterfly, shortStraddle, shortStrangle])
    (horder : s.InOrder strike) (hxy : x ≤ y) :
    (y ≤ s.middle strike → swing (s.plans strike) x ≤ swing (s.plans strike) y) ∧
      (s.middle strike ≤ x → swing (s.plans strike) y ≤ swing (s.plans strike) x) := by
  have hcall : ∀ k : ℚ, max (x - k) 0 ≤ max (y - k) 0 := fun k =>
    max_le_max_right 0 (sub_le_sub_right hxy k)
  have hput : ∀ k : ℚ, max (k - y) 0 ≤ max (k - x) 0 := fun k =>
    max_le_max_right 0 (sub_le_sub_left hxy k)
  -- A hinge on the far side of the price is worth nothing.
  have hcall0 : ∀ k z : ℚ, z ≤ k → max (z - k) 0 = 0 := fun k z hz => max_eq_right (by linarith)
  have hput0 : ∀ k z : ℚ, k ≤ z → max (k - z) 0 = 0 := fun k z hz => max_eq_right (by linarith)
  simp only [List.mem_cons, List.not_mem_nil, or_false] at hs
  rcases hs with rfl | rfl | rfl | rfl
  · -- The condor and the butterfly are two spreads, of which one at a time is in the money.
    obtain ⟨hab, hbc, hcd⟩ := horder
    have hputs := putSpread_anti hab.le hxy
    have hcalls := callSpread_mono hcd.le hxy
    simp only [middle, swing, plans, LegPlan.intrinsic, Direction.signed, List.map_cons,
      List.map_nil, List.sum_cons, List.sum_nil]
    refine ⟨fun hy => ?_, fun hx => ?_⟩
    · rw [hcall0 _ x (by linarith), hcall0 _ y (by linarith), hcall0 _ x (by linarith),
        hcall0 _ y (by linarith)]
      linarith
    · rw [hput0 _ x (by linarith), hput0 _ y (by linarith), hput0 _ x (by linarith),
        hput0 _ y (by linarith)]
      linarith
  · obtain ⟨hab, hbc⟩ := horder
    have hputs := putSpread_anti hab.le hxy
    have hcalls := callSpread_mono hbc.le hxy
    simp only [middle, swing, plans, LegPlan.intrinsic, Direction.signed, List.map_cons,
      List.map_nil, List.sum_cons, List.sum_nil]
    refine ⟨fun hy => ?_, fun hx => ?_⟩
    · rw [hcall0 _ x (by linarith), hcall0 _ y (by linarith), hcall0 _ x (by linarith),
        hcall0 _ y (by linarith)]
      linarith
    · rw [hput0 _ x (by linarith), hput0 _ y (by linarith), hput0 _ x (by linarith),
        hput0 _ y (by linarith)]
      linarith
  · -- The straddle and the strangle are short on either side.
    simp only [middle, swing, plans, LegPlan.intrinsic, Direction.signed, List.map_cons,
      List.map_nil, List.sum_cons, List.sum_nil]
    refine ⟨fun hy => ?_, fun hx => ?_⟩
    · rw [hcall0 _ x (by linarith), hcall0 _ y hy]
      linarith [hput (strike "atm_strike")]
    · rw [hput0 _ x hx, hput0 _ y (by linarith)]
      linarith [hcall (strike "atm_strike")]
  · have hlt : strike "put_strike" < strike "call_strike" := horder
    simp only [middle, swing, plans, LegPlan.intrinsic, Direction.signed, List.map_cons,
      List.map_nil, List.sum_cons, List.sum_nil]
    refine ⟨fun hy => ?_, fun hx => ?_⟩
    · rw [hcall0 _ x (by linarith), hcall0 _ y (by linarith)]
      linarith [hput (strike "put_strike")]
    · rw [hput0 _ x hx, hput0 _ y (by linarith)]
      linarith [hcall (strike "call_strike")]

end OptionsStrategy

/-! ## Section 4: What the summary says -/

theorem ofName_eq_some {name : String} {s : OptionsStrategy} :
    OptionsStrategy.ofName name = some s ↔ name = s.name := by
  constructor
  · intro h
    have hfound := List.find?_some (show OptionsStrategy.all.find? _ = some s from h)
    exact (of_decide_eq_true hfound).symm
  · rintro rfl
    cases s <;> decide

theorem name_inj {s s' : OptionsStrategy} : s.name = s'.name ↔ s = s' := by
  refine ⟨fun h => ?_, congrArg _⟩
  exact Option.some.inj ((ofName_eq_some.mpr rfl).symm.trans (ofName_eq_some.mpr h))

/-- The strike that `kwargs` gives an argument. -/
def strikeOf (kwargs : Dict String ℚ) (argument : String) : ℚ := (kwargs.get? argument).getD 0

section Built

variable {name : String} {t : BuildTerms} {kwargs : Dict String ℚ} {legs : List OptionLeg}

/-- **What is built**: a named strategy, given exactly the strikes that it requires, in its order,
of a chain that quotes every leg. -/
theorem buildStrategy_eq_ok :
    buildStrategy name t kwargs = .ok legs ↔
      ∃ s : OptionsStrategy, name = s.name ∧
        (∀ argument ∈ s.requiredArguments, kwargs.get? argument ≠ none) ∧
        (∀ argument ∈ kwargs.entries.map Prod.fst, argument ∈ s.requiredArguments) ∧
        s.InOrder (strikeOf kwargs) ∧ t.legs (s.plans (strikeOf kwargs)) = .ok legs := by
  unfold buildStrategy
  cases hname : OptionsStrategy.ofName name with
  | none =>
    refine ⟨nofun, ?_⟩
    rintro ⟨s, hs, -⟩
    rw [ofName_eq_some.mpr hs] at hname
    cases hname
  | some s =>
    have hs := ofName_eq_some.mp hname
    -- Both guards of the builder are empty lists.
    have hmissing :
        (s.requiredArguments.filter fun argument => (kwargs.get? argument).isNone) = [] ↔
        ∀ argument ∈ s.requiredArguments, kwargs.get? argument ≠ none := by
      simp [List.filter_eq_nil_iff]
    have hunknown : ((kwargs.entries.map Prod.fst).filter fun argument =>
        argument ∉ s.requiredArguments).mergeSort = [] ↔
        ∀ argument ∈ kwargs.entries.map Prod.fst, argument ∈ s.requiredArguments := by
      rw [← List.length_eq_zero_iff, List.length_mergeSort, List.length_eq_zero_iff,
        List.filter_eq_nil_iff]
      simp only [decide_eq_true_eq, not_not]
    dsimp only
    constructor
    · -- A name belongs to one strategy, so what was built is what its builder gives.
      intro h
      split_ifs at h with hm hu
      exact ⟨s, hs, hmissing.mp (not_not.mp hm), hunknown.mp (not_not.mp hu),
        OptionsStrategy.builder_eq_ok.mp h⟩
    · rintro ⟨s', hs', hm, hu, hbuilt⟩
      obtain rfl := name_inj.mp (hs.symm.trans hs')
      rw [if_neg (not_not.mpr (hmissing.mpr hm)), if_neg (not_not.mpr (hunknown.mpr hu))]
      exact OptionsStrategy.builder_eq_ok.mpr hbuilt

/-- A strike of a built leg is one of the chain. -/
theorem strikes_quoted {plans : List LegPlan} (h : t.legs plans = .ok legs) :
    ∀ plan ∈ plans, t.chain.get? plan.strike ≠ none := by
  induction plans generalizing legs with
  | nil => simp
  | cons plan plans ih =>
    obtain ⟨leg, rest, hleg, hrest, -⟩ := BuildTerms.legs_cons_eq_ok h
    refine List.forall_mem_cons.mpr ⟨fun hnone => ?_, ih hrest⟩
    unfold BuildTerms.leg at hleg
    rw [hnone] at hleg
    cases hleg

/-- **The summary of a built strategy is exact.** It calls the loss unbounded of the short straddle
and the short strangle alone, and the profit of the long call alone; and of the other eight the
worst of its samples is the worst at any price, although the samples need not touch a strike. -/
theorem built_summary_exact (hquantity : 0 < t.quantity) (hlot : 0 < t.lotSize)
    (hchain : ∀ strike, t.chain.get? strike ≠ none → 0 < strike)
    (h : buildStrategy name t kwargs = .ok legs) :
    ∃ payoff, computePayoffSummary legs = .ok payoff ∧
      (payoff.maxLoss = none ↔ name = "short_straddle" ∨ name = "short_strangle") ∧
      (payoff.maxProfit = none ↔ name = "long_call") ∧
      ∀ v, payoff.maxLoss = some v → IsLeast {y | ∃ x, 0 ≤ x ∧ totalPayoff legs x = y} v := by
  obtain ⟨s, rfl, -, -, horder, hlegs⟩ := buildStrategy_eq_ok.mp h
  have hunits : 0 < t.units := mul_pos hquantity (by exact_mod_cast hlot)
  have hmapped := BuildTerms.map_strike_legs hlegs
  have hcalls := BuildTerms.netCalls_legs hlegs
  obtain ⟨hbelow, habove⟩ := OptionsStrategy.netCallSign_plans s (strikeOf kwargs)
  -- The strikes of the legs are the arguments of the strategy, and positive.
  have hrequired : ∀ argument ∈ s.requiredArguments,
      strikeOf kwargs argument ∈ (s.plans (strikeOf kwargs)).map LegPlan.strike := by
    cases s <;> simp [OptionsStrategy.requiredArguments, OptionsStrategy.plans]
  have hpos : ∀ k ∈ (s.plans (strikeOf kwargs)).map LegPlan.strike, 0 < k := by
    intro k hk
    obtain ⟨plan, hplan, rfl⟩ := List.mem_map.mp hk
    exact hchain _ (strikes_quoted hlegs plan hplan)
  have hstrikes : ∀ leg ∈ legs, 0 < leg.strike := fun leg hleg =>
    hpos _ (hmapped ▸ strike_mem hleg)
  have hne : legs ≠ [] := by
    rintro rfl
    cases s <;> simp [strikes, OptionsStrategy.plans] at hmapped
  have hhighest := highestStrike_pos hne hstrikes
  obtain ⟨payoff, best, hok, -, hloss, hprofit, ⟨low, hlow, hlowest⟩, hworst, -⟩ :=
    summary_spec hne hstrikes
  have hfalling : netCalls legs < 0 ↔ s = .shortStraddle ∨ s = .shortStrangle := by
    rw [hcalls, ← not_le, mul_nonneg_iff_of_pos_left hunits, not_le, hbelow]
  have hrising : 0 < netCalls legs ↔ s = .longCall := by
    rw [hcalls, mul_pos_iff_of_pos_left hunits, habove]
  refine ⟨payoff, hok, ?_, ?_, ?_⟩
  · have hnames : s.name = "short_straddle" ∨ s.name = "short_strangle" ↔ netCalls legs < 0 :=
      (or_congr name_inj name_inj).trans hfalling.symm
    rw [hloss, hnames, ite_eq_left_iff]
    simp
  · have hname : s.name = "long_call" ↔ 0 < netCalls legs := name_inj.trans hrising.symm
    rw [hprofit, hname, ite_eq_left_iff]
    simp
  · intro v hv
    have hlimited : ¬ netCalls legs < 0 := by
      intro hneg
      rw [hloss, if_pos hneg] at hv
      cases hv
    rw [hloss, if_neg hlimited] at hv
    obtain rfl := Option.some.inj hv
    constructor
    · obtain ⟨i, -, rfl⟩ := mem_payoffPriceRange.mp hlow
      exact ⟨_, by unfold samplePrice; positivity, hlowest⟩
    · rintro y ⟨x, hx, rfl⟩
      -- The last sample lies beyond the strikes, so the two ends are sampled.
      have hlast := strikes_le_samplePrice hhighest (by norm_num : 1999 ≤ 2000)
      have hends := OptionsStrategy.least_at_ends
        (fun hneg => hlimited (hfalling.mpr (hbelow.mp hneg))) horder
        (fun argument ha => hpos _ (hrequired argument ha))
        (fun argument ha => hlast _ (hmapped ▸ hrequired argument ha)) x
      have hzero := hworst _ (mem_payoffPriceRange.mpr ⟨0, by norm_num, rfl⟩)
      have htop := hworst _ (mem_payoffPriceRange.mpr ⟨2000, le_rfl, rfl⟩)
      rw [samplePrice_zero] at hzero
      rw [BuildTerms.totalPayoff_legs hlegs] at hzero htop ⊢
      rcases hends with hend | hend <;>
        have hscaled := mul_le_mul_of_nonneg_left hend hunits.le <;>
        linarith

/-- A chain of three strikes. -/
def threeStrikes : BuildTerms where
  chain := ((Dict.empty.set 90 ⟨some 12, some 1⟩).set 100 ⟨some 5, some 4⟩).set 110
    ⟨some 1, some 11⟩
  lotSize := 50

def butterflyStrikes : Dict String ℚ :=
  ((Dict.empty.set "put_long_strike" 90).set "atm_strike" 100).set "call_long_strike" 110

def butterflyLegs : List OptionLeg :=
  [⟨.put, 90, 1, 1, .long, 50⟩, ⟨.put, 100, 4, 1, .short, 50⟩, ⟨.call, 100, 5, 1, .short, 50⟩,
    ⟨.call, 110, 1, 1, .long, 50⟩]

theorem threeStrikes_pos (strike : ℚ) (h : threeStrikes.chain.get? strike ≠ none) : 0 < strike := by
  by_contra hle
  refine h ?_
  simp only [threeStrikes, Dict.get?_set, Dict.get?_empty]
  rw [if_neg, if_neg, if_neg] <;> rintro rfl <;> norm_num at hle

theorem buildStrategy_butterfly :
    buildStrategy OptionsStrategy.ironButterfly.name threeStrikes butterflyStrikes =
      .ok butterflyLegs := by
  decide +kernel

theorem built_summary_exact_butterfly :
    ∃ payoff, computePayoffSummary butterflyLegs = .ok payoff ∧
      (payoff.maxLoss = none ↔
        "iron_butterfly" = "short_straddle" ∨ "iron_butterfly" = "short_strangle") ∧
      (payoff.maxProfit = none ↔ "iron_butterfly" = "long_call") ∧
      ∀ v, payoff.maxLoss = some v →
        IsLeast {y | ∃ x, 0 ≤ x ∧ totalPayoff butterflyLegs x = y} v :=
  built_summary_exact (by decide) (by decide) threeStrikes_pos buildStrategy_butterfly

/-- **A strategy suits the bias that it is listed under.** -/
theorem biasStrategies_suit {bias : String} {strategies : List OptionsStrategy}
    {s : OptionsStrategy}
    (hquantity : 0 ≤ t.quantity) (hbias : (bias, strategies) ∈ biasStrategies) (hs : s ∈ strategies)
    (h : buildStrategy s.name t kwargs = .ok legs) :
    OptionsStrategy.SuitsBias bias (totalPayoff legs) := by
  obtain ⟨s', hname, -, -, horder, hlegs⟩ := buildStrategy_eq_ok.mp h
  obtain rfl := name_inj.mp hname
  have hunits : 0 ≤ t.units := mul_nonneg hquantity (Nat.cast_nonneg _)
  -- The premium is paid at every price, so the payoff rises and falls with the swing.
  have hpayoff : ∀ x y, swing (s.plans (strikeOf kwargs)) x ≤ swing (s.plans (strikeOf kwargs)) y →
      totalPayoff legs x ≤ totalPayoff legs y := by
    intro x y hxy
    rw [BuildTerms.totalPayoff_legs hlegs, BuildTerms.totalPayoff_legs hlegs]
    linarith [mul_le_mul_of_nonneg_left hxy hunits]
  simp only [biasStrategies, List.mem_cons, List.not_mem_nil, or_false, Prod.mk.injEq] at hbias
  rcases hbias with ⟨rfl, rfl⟩ | ⟨rfl, rfl⟩ | ⟨rfl, rfl⟩
  · -- The bullish ones.
    refine ⟨fun _ x y hxy => hpayoff x y ?_, fun h => by simp at h, fun h => by simp at h⟩
    simp only [List.mem_cons, List.not_mem_nil, or_false] at hs
    rcases hs with rfl | rfl | rfl
    · exact OptionsStrategy.swing_longCall _ hxy
    · exact (OptionsStrategy.swing_spread horder hxy).1 (Or.inl rfl)
    · exact (OptionsStrategy.swing_spread horder hxy).1 (Or.inr rfl)
  · -- The bearish ones.
    refine ⟨fun h => by simp at h, fun _ x y hxy => hpayoff y x ?_, fun h => by simp at h⟩
    simp only [List.mem_cons, List.not_mem_nil, or_false] at hs
    rcases hs with rfl | rfl | rfl
    · exact OptionsStrategy.swing_longPut _ hxy
    · exact (OptionsStrategy.swing_spread horder hxy).2 (Or.inl rfl)
    · exact (OptionsStrategy.swing_spread horder hxy).2 (Or.inr rfl)
  · -- The neutral ones pay most between their wings.
    refine ⟨fun h => by simp at h, fun h => by simp at h,
      fun _ => ⟨s.middle (strikeOf kwargs), ?_, ?_⟩⟩
    · exact fun x _ y hy hxy => hpayoff x y ((OptionsStrategy.swing_neutral hs horder hxy).1 hy)
    · exact fun x hx y _ hxy => hpayoff y x ((OptionsStrategy.swing_neutral hs horder hxy).2 hx)

theorem biasStrategies_suit_butterfly :
    OptionsStrategy.SuitsBias "neutral" (totalPayoff butterflyLegs) :=
  have hlisted : ("neutral", [OptionsStrategy.ironCondor, .ironButterfly, .shortStraddle,
      .shortStrangle]) ∈ biasStrategies := by
    simp [biasStrategies]
  biasStrategies_suit (by decide) hlisted (by simp) buildStrategy_butterfly

end Built

end SuperTrading
