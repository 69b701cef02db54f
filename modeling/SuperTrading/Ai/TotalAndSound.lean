import SuperTrading.Ai.Validation
import Mathlib.Tactic.Linarith

/-!
# Which Proposals Are Validated, and Which Are Valid

`validate_ai_trade_proposal` returns as long as no number of the proposal is an integer beyond
the floats, and everything it prints can be printed. A proposal that it returns valid is the
computed one, within the tolerances.

- **Layer A**: what each check says where it gives no error, and where it raises
- **Layer B**: the validation
-/

namespace SuperTrading.Ai

open SuperTrading.Logic

variable {interp : Interpreter} {proposal : Proposal} {key : String}

/-! ## Layer A: The checks -/

/-- The number that a value stands for: its own, or the one its text reads as. A boolean stands
for none. -/
inductive Denotes (interp : Interpreter) : JsonValue → ℚ → Prop
  | int (n : ℤ) : Denotes interp (.int n) n
  | float (x : ℚ) : Denotes interp (.float (.finite x)) x
  | text {t : Text} {x : ℚ} (reads : PyFloat.ofText interp.decimal t = some (.finite x)) :
    Denotes interp (.text t) x

theorem asFloat_int (n : ℤ) : asFloat interp (.int n) =
    if n.natAbs < PyFloat.overflowBound then .ok (some n) else .error .overflowError := by
  unfold asFloat PyFloat.ofInt
  by_cases hbound : n.natAbs < PyFloat.overflowBound
  · simp only [if_pos hbound]
    rfl
  · simp only [if_neg hbound]

theorem denotes_of_asFloat {value : JsonValue} {x : ℚ} (h : asFloat interp value = .ok (some x)) :
    Denotes interp value x := by
  cases value with
  | int n =>
    rw [asFloat_int] at h
    split_ifs at h
    obtain rfl := Option.some.inj (Except.ok.inj h)
    exact .int n
  | float y =>
    obtain rfl := PyFloat.value?_eq_some.mp (Except.ok.inj h)
    exact .float x
  | text t =>
    obtain ⟨y, hreads, hvalue⟩ := Option.bind_eq_some_iff.mp (Except.ok.inj h)
    obtain rfl := PyFloat.value?_eq_some.mp hvalue
    exact .text hreads
  | _ => cases h

/-- Is the value none of the integers that are beyond the floats, and can it be printed if it is
no number? -/
def ReadsNumber (interp : Interpreter) : JsonValue → Prop
  | .int n => n.natAbs < PyFloat.overflowBound
  | value => interp.prints value = true

instance (value : JsonValue) : Decidable (ReadsNumber interp value) :=
  match value with
  | .int _ => inferInstanceAs (Decidable (_ < _))
  | .null => inferInstanceAs (Decidable (_ = true))
  | .bool _ => inferInstanceAs (Decidable (_ = true))
  | .float _ => inferInstanceAs (Decidable (_ = true))
  | .text _ => inferInstanceAs (Decidable (_ = true))
  | .array _ => inferInstanceAs (Decidable (_ = true))
  | .object _ => inferInstanceAs (Decidable (_ = true))

section Field

variable {value : JsonValue} (hvalue : JsonValue.get proposal key .null = value)

include hvalue

/-- What is no number is printed. -/
theorem returns_numericField_none (h : asFloat interp value = .ok none) :
    Returns (numericField interp proposal key) ↔ interp.prints value = true := by
  unfold numericField
  rw [hvalue, h]
  exact (returns_bind_ok _).trans Interpreter.returns_repr

theorem numericField_some {x : ℚ} (h : asFloat interp value = .ok (some x)) :
    numericField interp proposal key = .ok (some x, []) := by
  unfold numericField
  rw [hvalue, h]
  rfl

/-- **A field is read exactly if it is no integer beyond the floats**, and can be printed if it is
no number. -/
theorem returns_numericField :
    Returns (numericField interp proposal key) ↔ ReadsNumber interp value := by
  cases value with
  | int n =>
    -- An integer is read unless it overflows, and the overflow is not caught.
    by_cases hbound : n.natAbs < PyFloat.overflowBound
    · have hread : numericField interp proposal key = .ok (some (n : ℚ), []) :=
        numericField_some hvalue ((asFloat_int n).trans (if_pos hbound))
      exact iff_of_true ⟨_, hread⟩ hbound
    · refine iff_of_false ?_ hbound
      unfold numericField
      rw [hvalue, asFloat_int, if_neg hbound]
      exact not_returns_error _
  | float y =>
    cases hy : y.value? with
    | none => exact returns_numericField_none hvalue (congrArg Except.ok hy)
    | some x =>
      have hread : numericField interp proposal key = .ok (some x, []) :=
        numericField_some hvalue (congrArg Except.ok hy)
      exact iff_of_true ⟨_, hread⟩ (Interpreter.prints_float y)
  | text t =>
    cases ht : (PyFloat.ofText interp.decimal t).bind PyFloat.value? with
    | none => exact returns_numericField_none hvalue (congrArg Except.ok ht)
    | some x =>
      have hread : numericField interp proposal key = .ok (some x, []) :=
        numericField_some hvalue (congrArg Except.ok ht)
      exact iff_of_true ⟨_, hread⟩ (Interpreter.prints_text t)
  | _ => exact returns_numericField_none hvalue rfl

end Field

/-- A field that is read is a number, or gives an error. -/
theorem numericField_cases {value : Option ℚ} {errors : List Text}
    (h : numericField interp proposal key = .ok (value, errors)) :
    (∃ x, value = some x ∧ Denotes interp (JsonValue.get proposal key .null) x) ∨
      value = none ∧ errors ≠ [] := by
  obtain ⟨read, hread, hrest⟩ := bind_eq_ok.mp h
  cases read with
  | some x =>
    obtain ⟨rfl, -⟩ := Prod.mk.inj (Except.ok.inj hrest)
    exact Or.inl ⟨x, rfl, denotes_of_asFloat hread⟩
  | none =>
    obtain ⟨shown, -, hshown⟩ := bind_eq_ok.mp hrest
    obtain ⟨rfl, rfl⟩ := Prod.mk.inj (Except.ok.inj hshown)
    exact Or.inr ⟨rfl, List.cons_ne_nil _ _⟩

section Compared

variable {computed : ℚ} {fails : ℚ → ℚ → Bool} {message : ℚ → ℚ → Text}

theorem returns_comparedErrors :
    Returns (comparedErrors interp proposal key (some computed) fails message) ↔
      ReadsNumber interp (JsonValue.get proposal key .null) := by
  rw [← returns_numericField rfl, comparedErrors, returns_bind]
  constructor
  · rintro ⟨read, hread, -⟩
    exact ⟨read, hread⟩
  · rintro ⟨⟨value, errors⟩, hread⟩
    refine ⟨(value, errors), hread, ?_⟩
    cases value with
    | none => exact returns_ok errors
    | some x => exact returns_ok _

/-- A comparison that gives no error is of a number that passes it. -/
theorem comparedErrors_nil
    (h : comparedErrors interp proposal key (some computed) fails message = .ok []) :
    ∃ x, Denotes interp (JsonValue.get proposal key .null) x ∧ fails x computed = false := by
  obtain ⟨⟨value, errors⟩, hread, hrest⟩ := bind_eq_ok.mp h
  rcases numericField_cases hread with ⟨x, rfl, hdenotes⟩ | ⟨rfl, hne⟩
  · refine ⟨x, hdenotes, ?_⟩
    cases hfails : fails x computed with
    | false => rfl
    | true =>
      have hnil : [message x computed] = [] := by
        simpa [hfails] using Except.ok.inj hrest
      cases hnil
  · exact absurd (Except.ok.inj hrest) hne

end Compared

/-- Within the tolerance is within a two-hundredth of the computed price. -/
theorem le_of_withinTolerance {a b : ℚ} (h : withinTolerance a b priceTolerancePct = true) :
    |a - b| ≤ 5 / 1000 * |b| := by
  unfold withinTolerance at h
  split_ifs at h with hzero
  · obtain rfl := of_decide_eq_true h
    simp [hzero]
  · have hpos : 0 < |b| := abs_pos.mpr hzero
    have hratio : |a - b| / |b| * 100 ≤ 1 / 2 := of_decide_eq_true h
    have hbound : |a - b| / |b| ≤ 5 / 1000 := by linarith
    exact (div_le_iff₀ hpos).mp hbound

/-! ## Layer B: The validation -/

/-- Can everything be read that the validation of a matched result reads? The risk is read behind
a ceiling that can be compared against. -/
structure Readable (interp : Interpreter) (proposal : Proposal) (maxRiskPercent : PyFloat) :
    Prop where
  decision : interp.prints (JsonValue.get proposal "decision" .null) = true
  direction : interp.prints (JsonValue.get proposal "direction" .null) = true
  entry : ReadsNumber interp (JsonValue.get proposal "entry" .null)
  stop : ReadsNumber interp (JsonValue.get proposal "stop" .null)
  riskReward : ReadsNumber interp (JsonValue.get proposal "risk_reward" .null)
  riskPercent : (usableCeiling maxRiskPercent).isSome = true →
    ReadsNumber interp (JsonValue.get proposal "risk_percent" .null)

/-- The proposal is the computed trade. -/
structure Supported (interp : Interpreter) (proposal : Proposal) (direction : Option Text)
    (entry stop riskReward : ℚ) (instrumentTradable : Bool) (maxRiskPercent : PyFloat) : Prop where
  decision : ∃ stated, interp.str (JsonValue.get proposal "decision" (.text [])) = .ok stated ∧
    interp.upper (trim isSpacePoint stated) = tradeDecision
  direction : ∃ stated, interp.str (JsonValue.get proposal "direction" (.text [])) = .ok stated ∧
    interp.lower stated = interp.lower (direction.getD [])
  entry : ∃ x, Denotes interp (JsonValue.get proposal "entry" .null) x ∧
    |x - entry| ≤ 5 / 1000 * |entry|
  stop : ∃ x, Denotes interp (JsonValue.get proposal "stop" .null) x ∧
    |x - stop| ≤ 5 / 1000 * |stop|
  riskReward : ∃ x, Denotes interp (JsonValue.get proposal "risk_reward" .null) x ∧
    riskReward - 1 / 10 ^ 6 ≤ x
  riskPercent : ∃ x ceiling, Denotes interp (JsonValue.get proposal "risk_percent" .null) x ∧
    maxRiskPercent = .finite ceiling ∧ 0 < x ∧ x ≤ ceiling
  tradable : instrumentTradable = true

theorem returns_decisionErrors : Returns (decisionErrors interp proposal) ↔
    interp.prints (JsonValue.get proposal "decision" .null) = true := by
  rw [decisionErrors, returns_bind, ← Interpreter.prints_get, ← Interpreter.returns_str]
  constructor
  · rintro ⟨stated, hstated, -⟩
    exact ⟨stated, hstated⟩
  · rintro ⟨stated, hstated⟩
    refine ⟨stated, hstated, ?_⟩
    split_ifs
    · exact returns_ok []
    · rw [returns_bind_ok, Interpreter.returns_repr, ← Interpreter.prints_get,
        ← Interpreter.returns_str]
      exact ⟨stated, hstated⟩

theorem decisionErrors_nil (h : decisionErrors interp proposal = .ok []) :
    ∃ stated, interp.str (JsonValue.get proposal "decision" (.text [])) = .ok stated ∧
      interp.upper (trim isSpacePoint stated) = tradeDecision := by
  obtain ⟨stated, hstated, hrest⟩ := bind_eq_ok.mp h
  split_ifs at hrest with htrade
  · exact ⟨stated, hstated, htrade⟩
  · obtain ⟨shown, -, hshown⟩ := bind_eq_ok.mp hrest
    cases hshown

theorem returns_directionErrors {direction : Option Text} :
    Returns (directionErrors interp proposal direction) ↔
      interp.prints (JsonValue.get proposal "direction" .null) = true := by
  rw [directionErrors, returns_bind, ← Interpreter.prints_get, ← Interpreter.returns_str]
  constructor
  · rintro ⟨stated, hstated, -⟩
    exact ⟨stated, hstated⟩
  · rintro ⟨stated, hstated⟩
    refine ⟨stated, hstated, ?_⟩
    dsimp only
    split_ifs <;> exact returns_ok _

theorem directionErrors_nil {direction : Option Text}
    (h : directionErrors interp proposal direction = .ok []) :
    ∃ stated, interp.str (JsonValue.get proposal "direction" (.text [])) = .ok stated ∧
      interp.lower stated = interp.lower (direction.getD []) := by
  obtain ⟨stated, hstated, hrest⟩ := bind_eq_ok.mp h
  dsimp only at hrest
  split_ifs at hrest with hsame
  · exact ⟨stated, hstated, hsame⟩
  · cases hrest

section Matched

variable {direction : Option Text} {entry stop riskReward : ℚ} {instrumentTradable : Bool}
  {maxRiskPercent : PyFloat}

/-- **The validation of a matched result returns exactly if all it reads can be read.** -/
theorem returns_validateMatched :
    Returns (validateMatched interp proposal
      ⟨true, direction, some entry, some stop, some riskReward⟩ instrumentTradable
        maxRiskPercent) ↔ Readable interp proposal maxRiskPercent := by
  -- The errors are gathered, so each of them has to return.
  have hchecks : Returns (gather
      [decisionErrors interp proposal,
        directionErrors interp proposal direction,
        priceErrors interp proposal "entry" (some entry),
        priceErrors interp proposal "stop" (some stop),
        riskRewardErrors interp proposal (some riskReward)]) ↔
      interp.prints (JsonValue.get proposal "decision" .null) = true ∧
        interp.prints (JsonValue.get proposal "direction" .null) = true ∧
        ReadsNumber interp (JsonValue.get proposal "entry" .null) ∧
        ReadsNumber interp (JsonValue.get proposal "stop" .null) ∧
        ReadsNumber interp (JsonValue.get proposal "risk_reward" .null) := by
    rw [returns_gather]
    simp only [List.forall_mem_cons, List.not_mem_nil, false_implies, implies_true, and_true,
      returns_decisionErrors, returns_directionErrors, priceErrors, riskRewardErrors,
      returns_comparedErrors]
  -- What is read behind the ceiling does not depend on the errors before it.
  have hbehind : Returns (validateMatched interp proposal
      ⟨true, direction, some entry, some stop, some riskReward⟩ instrumentTradable
        maxRiskPercent) ↔
      Returns (gather
        [decisionErrors interp proposal,
          directionErrors interp proposal direction,
          priceErrors interp proposal "entry" (some entry),
          priceErrors interp proposal "stop" (some stop),
          riskRewardErrors interp proposal (some riskReward)]) ∧
        ((usableCeiling maxRiskPercent).isSome = true →
          ReadsNumber interp (JsonValue.get proposal "risk_percent" .null)) := by
    rw [validateMatched, returns_bind, Returns, ← exists_and_right]
    refine exists_congr fun errors => and_congr_right fun _ => ?_
    cases usableCeiling maxRiskPercent with
    | none => exact iff_of_true (returns_ok _) fun h => absurd h Bool.false_ne_true
    | some ceiling =>
      dsimp only
      rw [returns_bind_ok, riskPercentErrors, returns_comparedErrors]
      exact ⟨fun h _ => h, fun h => h rfl⟩
  rw [hbehind, hchecks]
  constructor
  · rintro ⟨⟨hdecision, hdirection, hentry, hstop, hreward⟩, hrisk⟩
    exact ⟨hdecision, hdirection, hentry, hstop, hreward, hrisk⟩
  · intro h
    exact ⟨⟨h.decision, h.direction, h.entry, h.stop, h.riskReward⟩, h.riskPercent⟩

/-- **A result that is valid is that of a supported proposal.** -/
theorem supported_of_valid {result : AIValidationResult}
    (h : validateMatched interp proposal
      ⟨true, direction, some entry, some stop, some riskReward⟩ instrumentTradable
        maxRiskPercent = .ok result) (hvalid : result.valid = true) :
    Supported interp proposal direction entry stop riskReward instrumentTradable
      maxRiskPercent := by
  obtain ⟨errors, herrors, hrest⟩ := bind_eq_ok.mp h
  cases hceiling : usableCeiling maxRiskPercent with
  | none =>
    -- Without a ceiling the result is not valid, whatever the checks have found.
    rw [hceiling] at hrest
    cases hrest
    cases hvalid
  | some ceiling =>
    rw [hceiling] at hrest
    obtain ⟨riskErrors, hrisk, hresult⟩ := bind_eq_ok.mp hrest
    obtain rfl := Except.ok.inj hresult
    -- Valid means no error, so each check has given none.
    obtain ⟨hboth, htradable⟩ := List.append_eq_nil_iff.mp (List.isEmpty_iff.mp hvalid)
    obtain ⟨rfl, rfl⟩ := List.append_eq_nil_iff.mp hboth
    have hchecks := gather_eq_nil.mp herrors
    simp only [List.forall_mem_cons] at hchecks
    obtain ⟨hdecision, hdirection, hentry, hstop, hreward, -⟩ := hchecks
    obtain ⟨x, hx, hentry⟩ := comparedErrors_nil hentry
    obtain ⟨y, hy, hstop⟩ := comparedErrors_nil hstop
    obtain ⟨z, hz, hreward⟩ := comparedErrors_nil hreward
    obtain ⟨percent, hpercent, hrisk⟩ := comparedErrors_nil hrisk
    obtain ⟨hmax, hpositive⟩ := Option.filter_eq_some_iff.mp hceiling
    have hrange : 0 < percent ∧ percent ≤ ceiling := by
      have hnot := of_decide_eq_false hrisk
      push Not at hnot
      exact hnot
    refine ⟨decisionErrors_nil hdecision, directionErrors_nil hdirection,
      ⟨x, hx, le_of_withinTolerance (by simpa using hentry)⟩,
      ⟨y, hy, le_of_withinTolerance (by simpa using hstop)⟩,
      ⟨z, hz, not_lt.mp (of_decide_eq_false hreward)⟩,
      ⟨percent, ceiling, hpercent, PyFloat.value?_eq_some.mp hmax, hrange.1, hrange.2⟩, ?_⟩
    unfold tradableErrors at htradable
    split_ifs at htradable with h
    · exact h

end Matched

/-- **The validation returns, and a result that is valid is that of a supported proposal, exactly
if all that it reads can be read**: a proposal that is no object is always refused. -/
theorem validation_total_sound (interp : Interpreter) (proposal : JsonValue)
    (direction : Option Text) (entry stop riskReward : ℚ) (instrumentTradable : Bool)
    (maxRiskPercent : PyFloat) :
    (∃ result, validateAiTradeProposal interp proposal
        ⟨true, direction, some entry, some stop, some riskReward⟩ instrumentTradable
          maxRiskPercent = .ok result ∧
      (result.valid = true → ∃ fields, proposal = .object fields ∧
        Supported interp fields direction entry stop riskReward instrumentTradable
          maxRiskPercent)) ↔
      ∀ fields, proposal = .object fields → Readable interp fields maxRiskPercent := by
  cases proposal with
  | object fields =>
    -- What is no object is refused before any field of it is read.
    have hobject : ∀ result, validateAiTradeProposal interp (.object fields)
        ⟨true, direction, some entry, some stop, some riskReward⟩ instrumentTradable
          maxRiskPercent = .ok result ↔ validateMatched interp fields
            ⟨true, direction, some entry, some stop, some riskReward⟩ instrumentTradable
              maxRiskPercent = .ok result := fun _ => Iff.rfl
    constructor
    · rintro ⟨result, hresult, -⟩ fields' hfields
      cases hfields
      exact returns_validateMatched.mp ⟨result, (hobject result).mp hresult⟩
    · intro hreadable
      obtain ⟨result, hresult⟩ := returns_validateMatched.mpr (hreadable fields rfl)
      exact ⟨result, (hobject result).mpr hresult, fun hvalid =>
        ⟨fields, rfl, supported_of_valid hresult hvalid⟩⟩
  | _ => exact iff_of_true ⟨_, rfl, fun hvalid => nomatch hvalid⟩ fun _ h => nomatch h

/-- A float of a few decimals, written out. -/
def decimalRepr (q : ℚ) : Text :=
  let shortest := ((List.range 17).find? fun k => (q * 10 ^ k).den = 1).getD 16
  let decimals := max 1 shortest
  let digits := (toString (|q| * 10 ^ decimals).floor.toNat).toList.map Char.toNat
  let padded := List.replicate (decimals + 1 - digits.length) 48 ++ digits
  let whole := padded.length - decimals
  text (if q < 0 then "-" else "") ++ padded.take whole ++ text "." ++ padded.drop whole

/-- CPython with its default limits, on ASCII texts and on floats of a few decimals. -/
def asciiInterpreter : Interpreter :=
  { maxStrDigits := 4300
    maxDepth := 900
    upper := List.map fun c => if 97 ≤ c ∧ c ≤ 122 then c - 32 else c
    lower := List.map PyFloat.lowerPoint
    decimal := fun _ => none
    printable := fun _ => false
    floatRepr := fun
      | .finite value => decimalRepr value
      | .infinity negative => text (if negative then "-inf" else "inf")
      | .nan => text "nan" }

/-- A proposal of the computed trade, with an entry of its own. -/
def proposalOf (entry : JsonValue) : JsonValue :=
  .object
    [(text "decision", .text (text " Trade ")), (text "direction", .text (text "bullish")),
      (text "entry", entry), (text "stop", .int 98), (text "risk_reward", .float (.finite 2)),
      (text "risk_percent", .text (text "0.5"))]

example : validateAiTradeProposal asciiInterpreter (proposalOf (.text (text "N/A")))
    ⟨true, some (text "bullish"), some 100, some 98, some 2⟩ true (.finite 1) =
      .ok ⟨false, [text "Proposed entry 'N/A' is not a number"]⟩ := by
  decide +kernel

/-- An entry beyond the floats is no error of the proposal: it raises. -/
theorem entry_beyond_floats_raises :
    validateAiTradeProposal asciiInterpreter (proposalOf (.int (10 ^ 400)))
      ⟨true, some (text "bullish"), some 100, some 98, some 2⟩ true (.finite 1) =
        .error .overflowError := by
  decide +kernel

end SuperTrading.Ai
