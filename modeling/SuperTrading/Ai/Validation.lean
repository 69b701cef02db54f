import SuperTrading.Logic.JsonValue
import Mathlib.Tactic.Ring

/-!
# AI Validation

`app/ai/validation.py`: what an AI proposes is cross-checked against the result that the
strategy engine computed. The proposal is whatever its JSON text parsed to.

- **Reads**: a field of the proposal as a number
- **Checks**: each of them raises, or gives its errors
- **Validation**: the checks in the source's order
-/

namespace SuperTrading.Ai

open SuperTrading.Logic

/-- `_PRICE_TOLERANCE_PCT`. -/
def priceTolerancePct : ℚ := 1 / 2

/-- `_TRADE_DECISION`. -/
def tradeDecision : Text := text "TRADE"

structure AIValidationResult where
  valid : Bool
  errors : List Text := []
  deriving DecidableEq, Repr

/-- What the validation reads of a `StrategyEvaluationResult`. -/
structure DeterministicResult where
  matched : Bool
  direction : Option Text := none
  entry : Option ℚ := none
  stop : Option ℚ := none
  riskReward : Option ℚ := none
  deriving DecidableEq, Repr

/-- The items of the proposal, once it is known to be a `dict`. -/
abbrev Proposal := List (Text × JsonValue)

/-! ## Section 1: Reads -/

/-- `_within_tolerance`. -/
def withinTolerance (a b : ℚ) (tolerancePct : ℚ) : Bool :=
  if b = 0 then a = 0 else |a - b| / |b| * 100 ≤ tolerancePct

variable (interp : Interpreter)

/-- `_as_float`. -/
def asFloat : JsonValue → Except PyError (Option ℚ)
  | .int n =>
    match PyFloat.ofInt n with
    | some x => .ok x.value?
    -- `except (TypeError, ValueError)` does not catch an `OverflowError`.
    | none => .error .overflowError
  | .float x => .ok x.value?
  | .text t => .ok ((PyFloat.ofText interp.decimal t).bind PyFloat.value?)
  -- A boolean is an `int`, and is refused before it counts as one.
  | _ => .ok none

/-- `_numeric_field`: the number, and the error where there is none. -/
def numericField (proposal : Proposal) (key : String) : Except PyError (Option ℚ × List Text) := do
  let value ← asFloat interp (JsonValue.get proposal key .null)
  match value with
  | some x => .ok (some x, [])
  | none => do
    let shown ← interp.repr (JsonValue.get proposal key .null)
    .ok (none, [text s!"Proposed {key} " ++ shown ++ text " is not a number"])

/-! ## Section 2: Checks -/

/-- The AI's own verdict, without regard to spaces and case. -/
def decisionErrors (proposal : Proposal) : Except PyError (List Text) := do
  let stated ← interp.str (JsonValue.get proposal "decision" (.text []))
  if interp.upper (trim isSpacePoint stated) = tradeDecision then .ok []
  else do
    let shown ← interp.repr (JsonValue.get proposal "decision" .null)
    .ok [text "AI decision " ++ shown ++ text " is not '" ++ tradeDecision ++
      text "' — the AI did not propose this trade"]

def directionErrors (proposal : Proposal) (direction : Option Text) :
    Except PyError (List Text) := do
  let stated ← interp.str (JsonValue.get proposal "direction" (.text []))
  let proposed := interp.lower stated
  if proposed = interp.lower (direction.getD []) then .ok []
  else
    .ok [text "Proposed direction '" ++ proposed ++
      text "' does not match the detected setup '" ++ direction.getD (text "None") ++ text "'"]

/-- A number that the strategy computed as well. `None` takes part in no comparison. -/
def comparedErrors (proposal : Proposal) (key : String) (computed : Option ℚ)
    (fails : ℚ → ℚ → Bool) (message : ℚ → ℚ → Text) : Except PyError (List Text) := do
  let (value, errors) ← numericField interp proposal key
  match value, computed with
  | none, _ => .ok errors
  | some _, none => .error .typeError
  | some x, some computed => .ok (if fails x computed then [message x computed] else [])

/-- The check of the entry, and of the stop. -/
def priceErrors (proposal : Proposal) (key : String) (computed : Option ℚ) :
    Except PyError (List Text) :=
  comparedErrors interp proposal key computed
    (fun x computed => !withinTolerance x computed priceTolerancePct)
    fun x computed => text s!"Proposed {key} " ++ interp.floatRepr (.finite x) ++
      text s!" does not match the computed {key} " ++ interp.floatRepr (.finite computed)

def riskRewardErrors (proposal : Proposal) (computed : Option ℚ) : Except PyError (List Text) :=
  comparedErrors interp proposal "risk_reward" computed
    (fun x computed => x < computed - 1 / 10 ^ 6)
    fun x computed => text "Proposed risk/reward " ++ interp.floatRepr (.finite x) ++
      text " is below the computed " ++ interp.floatRepr (.finite computed)

def riskPercentErrors (proposal : Proposal) (maxRiskPercent : ℚ) : Except PyError (List Text) :=
  comparedErrors interp proposal "risk_percent" (some maxRiskPercent)
    (fun x ceiling => x ≤ 0 ∨ ceiling < x)
    fun x ceiling => text "Proposed risk_percent " ++ interp.floatRepr (.finite x) ++
      text " exceeds the maximum allowed " ++ interp.floatRepr (.finite ceiling) ++ text "%"

def tradableErrors (instrumentTradable : Bool) : List Text :=
  if instrumentTradable then [] else [text "Instrument is not currently tradable"]

/-! ## Section 3: Validation -/

/-- A ceiling that can be compared against. -/
def usableCeiling (maxRiskPercent : PyFloat) : Option ℚ :=
  maxRiskPercent.value?.filter fun ceiling => 0 < ceiling

/-- The checks of an object against a matched result. -/
def validateMatched (proposal : Proposal) (result : DeterministicResult) (instrumentTradable : Bool)
    (maxRiskPercent : PyFloat) : Except PyError AIValidationResult := do
  let errors ← gather
    [decisionErrors interp proposal,
      directionErrors interp proposal result.direction,
      priceErrors interp proposal "entry" result.entry,
      priceErrors interp proposal "stop" result.stop,
      riskRewardErrors interp proposal result.riskReward]
  match usableCeiling maxRiskPercent with
  | none =>
    .ok
      { valid := false
        errors :=
          [text "Unusable max_risk_percent " ++ interp.floatRepr maxRiskPercent ++
            text ": cannot validate the proposed risk"] }
  | some ceiling => do
    let riskErrors ← riskPercentErrors interp proposal ceiling
    let errors := errors ++ riskErrors ++ tradableErrors instrumentTradable
    .ok
      { valid := errors.isEmpty
        errors := errors }

/-- `validate_ai_trade_proposal`. -/
def validateAiTradeProposal (proposal : JsonValue) (result : DeterministicResult)
    (instrumentTradable : Bool) (maxRiskPercent : PyFloat) : Except PyError AIValidationResult :=
  match proposal with
  | .object fields =>
    if result.matched then validateMatched interp fields result instrumentTradable maxRiskPercent
    else
      .ok
        { valid := false
          errors :=
            [text "No signal exists: the strategy conditions are not currently satisfied"] }
  | other =>
    .ok
      { valid := false
        errors := [text "AI response was not a JSON object: " ++ other.typeName] }

end SuperTrading.Ai
