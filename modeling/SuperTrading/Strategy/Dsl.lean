import SuperTrading.Logic.Dict
import SuperTrading.Logic.PyCase
import SuperTrading.Logic.PyText
import SuperTrading.Strategy.Engine

/-!
# Strategy DSL

`app/strategy/dsl.py`: the documents a client states a strategy in, and their validation. What
validation accepts carries its checks.

- **Conditions**: the leaves, and why one is refused
- **Strategies**: entry, risk, names
- **Storage**: what is accepted is accepted again, unchanged, when it is read back
-/

namespace SuperTrading

open SuperTrading.Logic

/-! ## Section 1: Conditions -/

inductive ConditionType
  | trend
  | bos
  | mss
  | choch
  | liquiditySweep
  | fvg
  | orderBlock
  | premiumDiscount
  | volume
  | volatility
  | session
  | indicator
  | optionsIv
  | optionsOi
  | optionsGreeks
  deriving DecidableEq, Repr

namespace ConditionType

def value : ConditionType → String
  | trend => "trend"
  | bos => "bos"
  | mss => "mss"
  | choch => "choch"
  | liquiditySweep => "liquidity_sweep"
  | fvg => "fvg"
  | orderBlock => "order_block"
  | premiumDiscount => "premium_discount"
  | volume => "volume"
  | volatility => "volatility"
  | session => "session"
  | indicator => "indicator"
  | optionsIv => "options_iv"
  | optionsOi => "options_oi"
  | optionsGreeks => "options_greeks"

/-- `_UNFED_CONDITION_TYPES`: their evaluator reads the indicators, which nothing writes. -/
def unfed : ConditionType → Bool
  | volume | volatility | indicator | optionsIv | optionsOi | optionsGreeks => true
  | _ => false

/-- `_DEFAULT_LOOKBACK_BY_TYPE`, and `_DEFAULT_LOOKBACK` for the others. -/
def defaultLookback : ConditionType → ℤ
  | mss | choch | bos | liquiditySweep => 30
  | orderBlock => 20
  | _ => 5

end ConditionType

inductive ConditionOperator
  | and
  | or
  | not
  | greaterThan
  | lessThan
  | crosses
  | touches
  | within
  deriving DecidableEq, Repr

/-- Declared in the schema, and read by no evaluator. -/
def ConditionOperator.boolean : ConditionOperator → Bool
  | and | or | not => true
  | _ => false

/-- The fields of a `Condition` that validation takes as they are or leaves out. -/
structure ConditionFields where
  type : ConditionType
  direction : Option String := none
  side : Option String := none
  zone : Option String := none
  name : Option String := none
  operator : Option ConditionOperator := none
  value : Option ℚ := none
  minValue : Option ℚ := none
  maxValue : Option ℚ := none
  deriving DecidableEq, Repr

/-- A condition as a client states it. -/
structure ConditionInput extends ConditionFields where
  lookback : Option ℤ := none
  deriving DecidableEq, Repr

/-- A `Condition` with its lookback filled in. -/
structure Condition extends ConditionFields where
  lookback : ℤ
  deriving DecidableEq, Repr

/-- `_BIAS_VALUES`. -/
def biasValues : List String := ["bullish", "bearish"]

/-- `value.strip().lower()`. -/
def normalized (value : String) : String := lower (strip value)

/-- `not (self.zone or "").strip()`. -/
def blank (zone : Option String) : Bool := strip (zone.getD "") = ""

/-- What the validators of `Condition` leave through. -/
structure Condition.Accepted (c : Condition) : Prop where
  fed : c.type.unfed = false
  bias : ∀ direction ∈ c.direction, direction ∈ biasValues
  compares : ∀ operator ∈ c.operator, operator.boolean = false
  recent : 1 ≤ c.lookback
  zoned : c.type = .premiumDiscount → blank c.zone = false

/-- A `Condition` that passed validation. -/
structure ValidCondition where
  condition : Condition
  accepted : condition.Accepted

/-- What is wrong with a field. -/
inductive Refusal
  | unfedType (type : ConditionType)
  | notABias (direction : String)
  | operator (operator : ConditionOperator)
  | lookback (lookback : ℤ)
  | noZone
  | entryType (type : String)
  | tooShort
  | tooLong
  | notPositive
  | tooLarge
  deriving DecidableEq, Repr

/-- One of `exc.errors()`: its `loc`, and the cause. -/
structure DslError where
  loc : List String
  refusal : Refusal
  deriving DecidableEq, Repr

/-- `_validate_bias`. -/
def validateBias (loc : String) : Option String → List DslError
  | none => []
  | some value => if normalized value ∈ biasValues then [] else [⟨[loc], .notABias value⟩]

namespace ConditionInput

/-- The field validators of `Condition`, each of which raises on its own. -/
def fieldErrors (input : ConditionInput) : List DslError :=
  (if input.type.unfed then [⟨["type"], .unfedType input.type⟩] else []) ++
    validateBias "direction" input.direction ++
      match input.operator with
      | none => []
      | some operator => if operator.boolean then [⟨["operator"], .operator operator⟩] else []

/-- The condition that the validators make of it, before they check it as a whole. -/
def filled (input : ConditionInput) : Condition where
  toConditionFields := { input.toConditionFields with direction := input.direction.map normalized }
  lookback := input.lookback.getD input.type.defaultLookback

/-- The first of the `mode="after"` validators to raise. -/
def modelError (input : ConditionInput) : Option Refusal :=
  if input.filled.lookback < 1 then some (.lookback input.filled.lookback)
  else if input.type = .premiumDiscount ∧ blank input.zone then some .noZone
  else none

theorem validateBias_eq_nil {loc : String} {value : Option String} :
    validateBias loc value = [] ↔ ∀ bias ∈ value.map normalized, bias ∈ biasValues := by
  cases value with
  | none => simp [validateBias]
  | some value => by_cases h : normalized value ∈ biasValues <;> simp [validateBias, h]

theorem accepted_filled {input : ConditionInput} (hfields : input.fieldErrors = [])
    (hmodel : input.modelError = none) : input.filled.Accepted := by
  obtain ⟨htype, hbias, hoperator⟩ : _ ∧ _ ∧ _ := by
    simpa only [fieldErrors, List.append_assoc, List.append_eq_nil_iff] using hfields
  have hrecent : ¬ input.filled.lookback < 1 := fun h => by simp [modelError, h] at hmodel
  have hzoned : ¬ (input.type = .premiumDiscount ∧ blank input.zone) := fun h => by
    simp [modelError, hrecent, h] at hmodel
  exact {
    fed := by
      rw [ite_eq_right_iff] at htype
      exact Bool.eq_false_iff.mpr fun h => by simpa using htype h
    bias := validateBias_eq_nil.mp hbias
    compares := by
      intro operator hmem
      have hmem : input.operator = some operator := hmem
      rw [hmem] at hoperator
      exact Bool.eq_false_iff.mpr fun h => by simp [h] at hoperator
    recent := not_lt.mp hrecent
    zoned := fun h => Bool.eq_false_iff.mpr fun hblank => hzoned ⟨h, hblank⟩ }

/-- `exc.errors()`: the condition is checked as a whole once each of its fields has passed. -/
def errors (input : ConditionInput) : List DslError :=
  if input.fieldErrors = [] then (input.modelError.map fun refusal => ⟨[], refusal⟩).toList
  else input.fieldErrors

theorem errors_eq_nil {input : ConditionInput} :
    input.errors = [] ↔ input.fieldErrors = [] ∧ input.modelError = none := by
  by_cases h : input.fieldErrors = []
  · cases hmodel : input.modelError <;> simp [errors, h, hmodel]
  · simp [errors, h]

theorem accepted_of_errors {input : ConditionInput} (h : input.errors = []) :
    input.filled.Accepted :=
  accepted_filled (errors_eq_nil.mp h).1 (errors_eq_nil.mp h).2

/-- `Condition.model_validate`. -/
def validate (input : ConditionInput) : Except (List DslError) ValidCondition :=
  if h : input.errors = [] then .ok ⟨input.filled, accepted_of_errors h⟩ else .error input.errors

end ConditionInput

/-! ## Section 2: Strategies -/

inductive EntryType
  | market
  | fvgRetest
  | orderBlockRetest
  deriving DecidableEq, Repr

namespace EntryType

def value : EntryType → String
  | market => "market"
  | fvgRetest => "fvg_retest"
  | orderBlockRetest => "order_block_retest"

/-- The entry type of a normalized text, one of `_ENTRY_TYPES`. -/
def ofText (text : String) : Option EntryType :=
  [market, fvgRetest, orderBlockRetest].find? fun type => type.value = text

end EntryType

/-- The bias of a normalized text. -/
def biasOf (text : String) : Option Smc.Direction :=
  if text = "bullish" then some .bullish else if text = "bearish" then some .bearish else none

/-- The text of a bias that passed validation. -/
def biasText : Smc.Direction → String
  | .bullish => "bullish"
  | .bearish => "bearish"

/-- `_MAX_NAME`. -/
def maxName : ℕ := 255

/-- `_MAX_TIMEFRAME`. -/
def maxTimeframe : ℕ := 8

/-- A `StrategyDefinition` as a client states it, or as a column stores it. -/
structure StrategyInput where
  name : String
  timeframe : String
  direction : Option String := none
  conditions : List ConditionInput := []
  entryType : String := "market"
  riskPercent : ℚ := 1 / 2
  minimumRr : ℚ := 2
  scoreWeights : Option (Dict String ℚ) := none

/-- A `StrategyDefinition` that passed validation. -/
@[ext]
structure Strategy extends StrategyDefinition where
  conditions : List ValidCondition
  entryType : EntryType
  scoreWeights : Option (Dict String ℚ)
  name_length : 1 ≤ name.length ∧ name.length ≤ maxName
  timeframe_length : 1 ≤ timeframe.length ∧ timeframe.length ≤ maxTimeframe

namespace StrategyInput

/-- `Field(min_length=1, max_length=...)`. -/
def lengthErrors (loc : String) (max : ℕ) (text : String) : List DslError :=
  if text.length < 1 then [⟨[loc], .tooShort⟩]
  else if max < text.length then [⟨[loc], .tooLong⟩] else []

/-- `Field(gt=0, le=...)`. -/
def rangeErrors (loc : String) (max x : ℚ) : List DslError :=
  if x ≤ 0 then [⟨["risk", loc], .notPositive⟩]
  else if max < x then [⟨["risk", loc], .tooLarge⟩] else []

def conditionErrors (conditions : List ConditionInput) : List DslError :=
  conditions.zipIdx.flatMap fun (condition, i) =>
    condition.errors.map fun e => { e with loc := "conditions" :: toString i :: e.loc }

/-- `_reject_unknown_entry_types`. -/
def entryErrors (type : String) : List DslError :=
  if (EntryType.ofText (normalized type)).isSome then [] else [⟨["entry", "type"], .entryType type⟩]

/-- `exc.errors()`, in the order of the fields. -/
def errors (input : StrategyInput) : List DslError :=
  lengthErrors "name" maxName input.name ++ lengthErrors "timeframe" maxTimeframe input.timeframe ++
    validateBias "direction" input.direction ++ conditionErrors input.conditions ++
    entryErrors input.entryType ++ rangeErrors "risk_percent" 100 input.riskPercent ++
    rangeErrors "minimum_rr" maxJournalledTarget input.minimumRr

theorem lengthErrors_eq_nil {loc text : String} {max : ℕ} :
    lengthErrors loc max text = [] ↔ 1 ≤ text.length ∧ text.length ≤ max := by
  by_cases hshort : text.length < 1
  · exact iff_of_false (by simp [lengthErrors, hshort]) (by omega)
  · by_cases hlong : max < text.length
    · exact iff_of_false (by simp [lengthErrors, hshort, hlong]) (by omega)
    · exact iff_of_true (by simp [lengthErrors, hshort, hlong]) (by omega)

theorem rangeErrors_eq_nil {loc : String} {max x : ℚ} :
    rangeErrors loc max x = [] ↔ 0 < x ∧ x ≤ max := by
  simp only [rangeErrors]
  split_ifs <;> simp_all

theorem conditionErrors_eq_nil {conditions : List ConditionInput} :
    conditionErrors conditions = [] ↔ ∀ condition ∈ conditions, condition.errors = [] := by
  simp only [conditionErrors, List.flatMap_eq_nil_iff, List.map_eq_nil_iff]
  constructor
  · intro h condition hmem
    obtain ⟨i, hi, rfl⟩ := List.getElem_of_mem hmem
    exact h (conditions[i], i) (List.mk_mem_zipIdx_iff_getElem?.mpr (List.getElem?_eq_getElem hi))
  · exact fun h entry hentry => h _ (List.fst_mem_of_mem_zipIdx hentry)

theorem entryErrors_eq_nil {type : String} :
    entryErrors type = [] ↔ (EntryType.ofText (normalized type)).isSome := by
  by_cases h : (EntryType.ofText (normalized type)).isSome <;> simp [entryErrors, h]

/-- What no error leaves through. -/
theorem of_errors {input : StrategyInput} (h : input.errors = []) :
    (1 ≤ input.name.length ∧ input.name.length ≤ maxName) ∧
      (1 ≤ input.timeframe.length ∧ input.timeframe.length ≤ maxTimeframe) ∧
      validateBias "direction" input.direction = [] ∧
      (∀ condition ∈ input.conditions, condition.errors = []) ∧
      (EntryType.ofText (normalized input.entryType)).isSome ∧
      (0 < input.riskPercent ∧ input.riskPercent ≤ 100) ∧
      0 < input.minimumRr ∧ input.minimumRr ≤ maxJournalledTarget := by
  simpa only [errors, List.append_assoc, List.append_eq_nil_iff, lengthErrors_eq_nil,
    conditionErrors_eq_nil, entryErrors_eq_nil, rangeErrors_eq_nil] using h

/-- The strategy that the validators make of an input without errors. -/
def filled (input : StrategyInput) (h : input.errors = []) : Strategy where
  name := input.name
  timeframe := input.timeframe
  direction := input.direction.bind fun direction => biasOf (normalized direction)
  risk := {
    riskPercent := input.riskPercent
    minimumRr := input.minimumRr
    risk_range := (of_errors h).2.2.2.2.2.1
    rr_range := (of_errors h).2.2.2.2.2.2 }
  conditions := input.conditions.attach.map fun ⟨condition, hmem⟩ =>
    ⟨condition.filled, ConditionInput.accepted_of_errors ((of_errors h).2.2.2.1 condition hmem)⟩
  entryType := (EntryType.ofText (normalized input.entryType)).get (of_errors h).2.2.2.2.1
  scoreWeights := input.scoreWeights
  name_length := (of_errors h).1
  timeframe_length := (of_errors h).2.1

theorem entryType_filled {input : StrategyInput} (h : input.errors = []) {type : EntryType}
    (htype : EntryType.ofText (normalized input.entryType) = some type) :
    (input.filled h).entryType = type := by
  simp only [filled, htype, Option.get_some]

/-- `StrategyDefinition.model_validate`. -/
def validate (input : StrategyInput) : Except (List DslError) Strategy :=
  if h : input.errors = [] then .ok (input.filled h) else .error input.errors

end StrategyInput

/-! ## Section 3: Storage -/

/-- `model_dump()` of a condition. -/
def ValidCondition.dump (c : ValidCondition) : ConditionInput where
  toConditionFields := c.condition.toConditionFields
  lookback := some c.condition.lookback

/-- `model_dump()`, which the `definition` column stores. -/
def Strategy.dump (s : Strategy) : StrategyInput where
  name := s.name
  timeframe := s.timeframe
  direction := s.direction.map biasText
  conditions := s.conditions.map ValidCondition.dump
  entryType := s.entryType.value
  riskPercent := s.risk.riskPercent
  minimumRr := s.risk.minimumRr
  scoreWeights := s.scoreWeights

/-- A bias is normalized already. -/
theorem normalized_bias {value : String} (h : value ∈ biasValues) : normalized value = value := by
  simp only [biasValues, List.mem_cons, List.not_mem_nil, or_false] at h
  rcases h with rfl | rfl <;> decide +kernel

theorem biasOf_biasText (direction : Smc.Direction) :
    normalized (biasText direction) = biasText direction ∧
      biasText direction ∈ biasValues ∧ biasOf (biasText direction) = some direction := by
  cases direction <;> decide +kernel

theorem EntryType.ofText_value (type : EntryType) :
    EntryType.ofText (normalized type.value) = some type := by
  cases type <;> decide +kernel

namespace ValidCondition

theorem map_normalized_direction (c : ValidCondition) :
    c.condition.direction.map normalized = c.condition.direction := by
  cases h : c.condition.direction with
  | none => rfl
  | some direction => exact congrArg some (normalized_bias (c.accepted.bias direction h))

theorem filled_dump (c : ValidCondition) : c.dump.filled = c.condition := by
  simp only [ConditionInput.filled, dump, map_normalized_direction, Option.getD_some]

theorem errors_dump (c : ValidCondition) : c.dump.errors = [] := by
  -- What was accepted is accepted again, field by field.
  have htype : c.dump.type.unfed = false := c.accepted.fed
  have hbias : validateBias "direction" c.dump.direction = [] := by
    rw [ConditionInput.validateBias_eq_nil]
    show ∀ bias ∈ c.condition.direction.map normalized, bias ∈ biasValues
    rw [map_normalized_direction]
    exact c.accepted.bias
  have hrecent : ¬ c.dump.filled.lookback < 1 := by
    rw [filled_dump]
    exact not_lt.mpr c.accepted.recent
  have hzoned : ¬ (c.dump.type = .premiumDiscount ∧ blank c.dump.zone) := by
    rintro ⟨h, hblank⟩
    have hzone : blank c.dump.zone = false := c.accepted.zoned h
    simp [hzone] at hblank
  rw [ConditionInput.errors_eq_nil]
  constructor
  · -- The fields have no errors, and then the two rules over several fields have none.
    simp only [ConditionInput.fieldErrors, htype, hbias]
    cases hoperator : c.dump.operator with
    | none => rfl
    | some operator => simp [c.accepted.compares operator hoperator]
  · rw [ConditionInput.modelError, if_neg hrecent, if_neg hzoned]

end ValidCondition

theorem Strategy.errors_dump (s : Strategy) : s.dump.errors = [] := by
  -- The direction and the entry type are written as the texts they are read from.
  have hbias : validateBias "direction" s.dump.direction = [] := by
    rw [ConditionInput.validateBias_eq_nil]
    intro bias hbias
    simp only [dump, Option.map_map, Option.mem_def, Option.map_eq_some_iff] at hbias
    obtain ⟨direction, -, rfl⟩ := hbias
    simp only [Function.comp_apply, biasOf_biasText]
  have hconditions : StrategyInput.conditionErrors s.dump.conditions = [] := by
    rw [StrategyInput.conditionErrors_eq_nil]
    intro condition hmem
    obtain ⟨c, -, rfl⟩ := List.mem_map.mp hmem
    exact c.errors_dump
  have hentry : StrategyInput.entryErrors s.dump.entryType = [] := by
    rw [StrategyInput.entryErrors_eq_nil]
    show (EntryType.ofText (normalized s.entryType.value)).isSome = true
    rw [EntryType.ofText_value]
    rfl
  simp only [StrategyInput.errors, hbias, hconditions, hentry, List.append_nil,
    List.append_eq_nil_iff, StrategyInput.lengthErrors_eq_nil, StrategyInput.rangeErrors_eq_nil]
  exact ⟨⟨⟨s.name_length, s.timeframe_length⟩, s.risk.risk_range⟩, s.risk.rr_range⟩

/-- **A stored strategy reads back as it was**: every text of it is normalized already, and every
default is written out. -/
theorem Strategy.validate_dump (s : Strategy) : s.dump.validate = .ok s := by
  rw [StrategyInput.validate, dif_pos s.errors_dump]
  congr 1
  ext1
  · rfl
  · rfl
  · show (s.direction.map biasText).bind (fun d => biasOf (normalized d)) = s.direction
    cases s.direction with
    | none => rfl
    | some direction =>
      obtain ⟨hnormal, -, hback⟩ := biasOf_biasText direction
      simp only [Option.map_some, Option.bind_some, hnormal, hback]
  · rfl
  · apply List.ext_getElem
    · simp [StrategyInput.filled, dump]
    · intro i hi hi'
      simp [StrategyInput.filled, dump, ValidCondition.filled_dump]
  · exact StrategyInput.entryType_filled s.errors_dump s.entryType.ofText_value
  · rfl

end SuperTrading
