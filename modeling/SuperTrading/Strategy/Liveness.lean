import SuperTrading.Strategy.Meaning

/-!
# Conditions That Can Fire

Conditions are joined by AND, so one that can never fire stops its whole strategy. Validation
refuses those it can tell; which of the others fire on some series is settled by the names they use.

- **Section 1**: series on which every kind of condition fires
- **Section 2**: which conditions fire
- **Section 3**: what validation refuses
-/

namespace SuperTrading

open SuperTrading.Logic
open Smc (Candle StructureEvent)

namespace ConditionType

/-- The verdict reads the lookback. -/
def expires : ConditionType → Bool
  | bos | mss | choch | liquiditySweep => true
  | _ => false

end ConditionType

namespace Condition

/-- Some series of so many candles or more makes the condition true at its last candle. The engines
wait for three. -/
def Fires (c : Condition) (least : ℕ) : Prop :=
  ∃ candles context, least ≤ candles.length ∧ contextOf candles = .ok context ∧
    c.evaluate context = true

/-- The free texts of the condition name something that there is. -/
def NamesKnown (c : Condition) : Prop :=
  match c.type with
  | .liquiditySweep => ∀ side ∈ stated c.side, upper side ∈ ["BUY", "SELL"]
  | .premiumDiscount => ∃ zone ∈ c.zone, lower zone ∈ ["premium", "equilibrium", "discount"]
  | .session => ∀ name ∈ stated c.name, upper name ∈ defaultKillZones.map KillZone.name
  | _ => True

/-- The condition fires exactly if it holds at some index of some series. -/
theorem fires_iff_holds {c : Condition} {least : ℕ} (hbias : ∀ d ∈ c.direction, d ∈ biasValues) :
    c.Fires least ↔ ∃ candles n, least ≤ n + 1 ∧ n < candles.length ∧ c.Holds candles n := by
  constructor
  · -- The last index of the series is the one that the verdict is of.
    rintro ⟨candles, context, hleast, hcontext, htrue⟩
    have hne : candles ≠ [] := by
      rintro rfl
      cases hcontext
    have hpos := List.length_pos_iff.mpr hne
    have hlast : candles.length - 1 < candles.length := by omega
    have hcurrent := List.getElem?_eq_getElem hlast
    obtain ⟨context', hcontext', hseen⟩ := contextOf_take hcurrent
    rw [Nat.sub_add_cancel hpos, List.take_length, hcontext] at hcontext'
    cases hcontext'
    exact ⟨candles, candles.length - 1, by omega, hlast,
      (evaluate_iff_holds hbias hcurrent hseen).mp htrue⟩
  · -- The series up to the index is the one that shows it.
    rintro ⟨candles, n, hleast, hn, hholds⟩
    have hcurrent := List.getElem?_eq_getElem hn
    obtain ⟨context, hcontext, hseen⟩ := contextOf_take hcurrent
    refine ⟨candles.take (n + 1), context, ?_, hcontext,
      (evaluate_iff_holds hbias hcurrent hseen).mpr hholds⟩
    rw [List.length_take]
    omega

end Condition

/-! ## Section 1: Series -/

namespace Liveness

/-- Closes that break out, turn down, turn up and break out once more. -/
def legs : List ℚ :=
  [12, 11, 10, 13, 14, 15, 16, 13, 12, 11, 14, 15, 17, 16, 15, 14, 13, 12, 10, 11, 12, 13, 14, 18,
    17, 16, 15, 16, 17, 19]

/-- The candle of a minute, from one close towards the next. -/
def leg (minute : ℤ) (before close : ℚ) : Candle where
  timestamp := minute * Timestamp.microsPerMinute
  «open» := if before < close then close - 1 / 4 else close + 1 / 4
  high := close + 1 / 2
  low := close - 1 / 2
  close := close

/-- The legs, or their mirror image. -/
def zigzag (direction : Smc.Direction) : List Candle :=
  (legs.zip legs.tail).zipIdx.map fun ((before, close), i) =>
    match direction with
    | .bullish => leg i before close
    | .bearish => leg i (30 - before) (30 - close)

/-- The index of the last candle, and of the first one to break the other way. -/
def breakIndex : Smc.StructureEventType → ℕ
  | .bos => 28
  | .mss => 28
  | .choch => 22

/-- The list that the evaluator looks an event of the type up in. -/
def eventsOf (type : Smc.StructureEventType) (candles : List Candle) : List StructureEvent :=
  if type = .mss then Smc.promoteConfirmedShifts (structureOf candles) else structureOf candles

/-- Three candles with a gap. -/
def gapped : Smc.Direction → List Candle
  | .bullish => [leg 0 9 10, leg 1 10 12, leg 2 12 14]
  | .bearish => [leg 0 15 14, leg 1 14 12, leg 2 12 10]

/-- The third candle is of the next day, and beyond the first two. -/
def swept : Smc.LiquiditySide → List Candle
  | .buySide => [leg 0 10 10, leg 1 10 10, leg 1440 10 12]
  | .sellSide => [leg 0 10 10, leg 1 10 10, leg 1440 10 8]

/-- Above, at and below the middle of the range. -/
def inZone : String → List Candle × ℕ
  | "premium" => (zigzag .bullish, 28)
  | "equilibrium" => (zigzag .bullish, 14)
  | _ => (zigzag .bearish, 28)

/-- Three candles at the start of a kill zone. -/
def opening (zone : KillZone) : List Candle :=
  [0, 1, 2].map fun minute => leg (⌈zone.startHourUtc * 60⌉ + minute) 10 10

/-- What the series print. -/
structure Prints : Prop where
  events : ∀ type direction, ∃ event ∈ eventsOf type (zigzag direction), event.eventType = type ∧
    event.direction = direction ∧ event.index = breakIndex type
  /-- A break at the last candle, with a candle of the other colour before it. -/
  last : ∀ direction, ∃ event ∈ structureOf (zigzag direction),
    ((structureOf (zigzag direction)).filter fun event => event.index < 28 + 1).getLast? =
      some event ∧ event.direction = direction ∧ event.index = 28 ∧
    (Smc.findOrigin (zigzag direction) event 10).isSome
  gap : ∀ direction, ∃ gap ∈ Smc.foundGaps (gapped direction) 0 "", gap.direction = direction ∧
    gap.createdIndex = 2
  pool : ∀ side, ∃ pool ∈ Smc.formedPools {} ((swept side).take (2 + 1)), pool.side = side ∧
    (Smc.detectSweep ((swept side).take (2 + 1)) pool).swept = true ∧
    (Smc.detectSweep ((swept side).take (2 + 1)) pool).sweptIndex = some 2
  zone : ∀ word ∈ ["premium", "equilibrium", "discount"],
    2 ≤ (inZone word).2 ∧ (inZone word).2 < (inZone word).1.length ∧
      ∃ current ∈ (inZone word).1[(inZone word).2]?,
      ∃ range ∈ rangeAt (inZone word).1 (inZone word).2,
        lower (range.zoneFor current.close) = word
  killZone : ∀ zone ∈ defaultKillZones,
    ∃ current ∈ (opening zone)[2]?, zone.name ∈ activeKillZones current

theorem prints : Prints where
  events type direction := by cases type <;> cases direction <;> decide +kernel
  last direction := by cases direction <;> decide +kernel
  gap direction := by cases direction <;> decide +kernel
  pool side := by cases side <;> decide +kernel
  zone := by decide +kernel
  killZone := by decide +kernel

end Liveness

/-! ## Section 2: Which conditions fire -/

namespace Condition

variable {c : Condition}

/-- The direction to look for. -/
def anyBias (c : Condition) : Smc.Direction := c.bias.getD .bullish

theorem faces_anyBias (c : Condition) : c.Faces c.anyBias := by
  intro d hd
  rw [anyBias, Option.mem_def.mp hd, Option.getD_some]

theorem recent_now (h : 1 ≤ c.lookback) (n : ℕ) : c.Recent n n := ⟨le_refl n, by omega⟩

theorem printed_zigzag (h : 1 ≤ c.lookback) (type : Smc.StructureEventType) :
    c.Printed (Liveness.eventsOf type (Liveness.zigzag c.anyBias)) type
      (Liveness.breakIndex type) := by
  obtain ⟨event, hmem, htype, hdirection, hindex⟩ := Liveness.prints.events type c.anyBias
  exact ⟨event, hmem, htype, hdirection ▸ c.faces_anyBias, hindex ▸ recent_now h _⟩

/-- A zone stands open as long as no candle came after it. -/
theorem standsOpen_now (z : Smc.Zone) (candles : List Candle) (n : ℕ) :
    z.StandsOpen candles n (n + 1) := fun _ _ hafter hbefore => by omega

theorem exists_holds_of_fed (hfed : c.type.unfed = false)
    (hrecent : c.type.expires = true → 1 ≤ c.lookback) (hnames : c.NamesKnown) :
    ∃ candles n, 2 ≤ n ∧ n < candles.length ∧ c.Holds candles n := by
  have hlength : ∀ direction, (Liveness.zigzag direction).length = 29 := by
    intro direction
    cases direction <;> decide
  unfold NamesKnown at hnames
  unfold Holds
  cases htype : c.type with
  -- A zigzag prints every structure event in the direction asked for.
  | trend =>
    obtain ⟨event, -, hlast, hdirection, -, -⟩ := Liveness.prints.last c.anyBias
    exact ⟨Liveness.zigzag c.anyBias, 28, by decide, by simp [hlength], event, hlast,
      hdirection ▸ c.faces_anyBias⟩
  | bos =>
    exact ⟨_, 28, by decide, by simp [hlength], printed_zigzag (hrecent (by rw [htype]; rfl)) .bos⟩
  | mss =>
    exact ⟨_, 28, by decide, by simp [hlength], printed_zigzag (hrecent (by rw [htype]; rfl)) .mss⟩
  | choch =>
    exact ⟨_, 22, by decide, by simp [hlength],
      printed_zigzag (hrecent (by rw [htype]; rfl)) .choch⟩
  | liquiditySweep =>
    have hrecent := hrecent (by rw [htype]; rfl)
    rw [htype] at hnames
    -- The side asked for, or the upper one.
    obtain ⟨side, hside⟩ : ∃ side, c.OnSide side := by
      cases hstated : stated c.side with
      | none => exact ⟨.buySide, by simp [OnSide, hstated]⟩
      | some text =>
        have hname := hnames text hstated
        simp only [List.mem_cons, List.not_mem_nil, or_false] at hname
        rcases hname with hname | hname
        · exact ⟨.buySide, by simp [OnSide, hstated, hname, sideName]⟩
        · exact ⟨.sellSide, by simp [OnSide, hstated, hname, sideName]⟩
    obtain ⟨pool, hmem, hon, hswept⟩ := Liveness.prints.pool side
    have hat := ((Smc.detectSweep_take_iff (Smc.fresh_of_mem_formedPools hmem)).mp hswept).2
    exact ⟨Liveness.swept side, 2, le_refl 2, by cases side <;> decide, pool, hmem, hon ▸ hside, 2,
      hat, recent_now hrecent 2⟩
  -- Three candles leave a gap, which stands open at the third.
  | fvg =>
    obtain ⟨gap, hmem, hdirection, hindex⟩ := Liveness.prints.gap c.anyBias
    refine ⟨Liveness.gapped c.anyBias, 2, le_refl 2, by cases c.anyBias <;> decide, gap, hmem,
      hdirection ▸ c.faces_anyBias, by omega, ?_⟩
    rw [hindex]
    exact standsOpen_now _ _ 2
  | orderBlock =>
    obtain ⟨event, hmem, -, hdirection, hindex, horigin⟩ := Liveness.prints.last c.anyBias
    obtain ⟨origin, horigin⟩ := Option.isSome_iff_exists.mp horigin
    refine ⟨Liveness.zigzag c.anyBias, 28, by decide, by simp [hlength], event, hmem,
      hdirection ▸ c.faces_anyBias, by omega, origin, horigin, ?_⟩
    rw [hindex]
    exact standsOpen_now _ _ 28
  -- Every zone has a series that ends in it.
  | premiumDiscount =>
    rw [htype] at hnames
    obtain ⟨zone, hzone, hword⟩ := hnames
    obtain ⟨htwo, hlt, current, hcurrent, range, hrange, heq⟩ := Liveness.prints.zone _ hword
    exact ⟨_, _, htwo, hlt, current, hcurrent, range, hrange, zone, hzone, heq⟩
  -- Every kill zone has a candle in its hours.
  | session =>
    rw [htype] at hnames
    obtain ⟨zone, hzone, hnamed⟩ : ∃ zone ∈ defaultKillZones, ∀ name ∈ stated c.name,
        upper name = zone.name := by
      cases hstated : stated c.name with
      | none => exact ⟨_, List.mem_cons_self, fun _ h => by cases h⟩
      | some name =>
        obtain ⟨zone, hzone, hname⟩ := List.mem_map.mp (hnames name hstated)
        exact ⟨zone, hzone, fun _ h => by cases h; exact hname.symm⟩
    obtain ⟨current, hcurrent, hactive⟩ := Liveness.prints.killZone zone hzone
    exact ⟨Liveness.opening zone, 2, le_refl 2, by simp [Liveness.opening], current, hcurrent,
      zone.name, hactive, hnamed⟩
  | volume | volatility | indicator | optionsIv | optionsOi | optionsGreeks =>
    simp [htype, ConditionType.unfed] at hfed

/-- The words of the zones of a dealing range. -/
theorem lower_zoneFor (range : Smc.PremiumDiscountZone) (price : ℚ) :
    lower (range.zoneFor price) ∈ ["premium", "equilibrium", "discount"] := by
  unfold Smc.PremiumDiscountZone.zoneFor
  split_ifs <;> decide +kernel

theorem name_of_active {candle : Candle} {zone : String} (h : zone ∈ activeKillZones candle) :
    zone ∈ defaultKillZones.map KillZone.name := by
  exact List.map_subset _ (fun _ hzone => List.mem_of_mem_filter hzone) h

theorem lookback_of_recent {i n : ℕ} (h : c.Recent i n) : 1 ≤ c.lookback := by
  have := h.1
  have := h.2
  omega

/-- What a condition needs to hold anywhere. -/
theorem Holds.live {candles : List Candle} {n : ℕ} (h : c.Holds candles n) :
    c.type.unfed = false ∧ (c.type.expires = true → 1 ≤ c.lookback) ∧ c.NamesKnown := by
  unfold Holds at h
  unfold NamesKnown
  cases htype : c.type with
  -- These read no text and no lookback.
  | trend | fvg | orderBlock => exact ⟨rfl, nofun, trivial⟩
  | bos | mss | choch =>
    rw [htype] at h
    obtain ⟨event, -, -, -, hrecent⟩ := h
    exact ⟨rfl, fun _ => lookback_of_recent hrecent, trivial⟩
  -- A side that is named is the pool's.
  | liquiditySweep =>
    rw [htype] at h
    obtain ⟨pool, -, hon, i, -, hrecent⟩ := h
    refine ⟨rfl, fun _ => lookback_of_recent hrecent, fun side hside => ?_⟩
    rw [hon side hside]
    cases pool.side <;> decide
  -- A zone that is named is the one that the price is in.
  | premiumDiscount =>
    rw [htype] at h
    obtain ⟨current, -, range, -, zone, hzone, heq⟩ := h
    exact ⟨rfl, nofun, zone, hzone, heq ▸ lower_zoneFor range current.close⟩
  -- A kill zone that is named is active at the candle's hour.
  | session =>
    rw [htype] at h
    obtain ⟨current, -, zone, hactive, hname⟩ := h
    exact ⟨rfl, nofun, fun name hstated => hname name hstated ▸ name_of_active hactive⟩
  -- These are never fed.
  | volume | volatility | indicator | optionsIv | optionsOi | optionsGreeks =>
    rw [htype] at h
    exact h.elim

/-- Which conditions fire. -/
theorem fires_iff {least : ℕ} (hleast : least ≤ 3) (hbias : ∀ d ∈ c.direction, d ∈ biasValues) :
    c.Fires least ↔
      c.type.unfed = false ∧ (c.type.expires = true → 1 ≤ c.lookback) ∧ c.NamesKnown := by
  rw [fires_iff_holds hbias]
  constructor
  · rintro ⟨candles, n, -, -, hholds⟩
    exact hholds.live
  · rintro ⟨hfed, hrecent, hnames⟩
    obtain ⟨candles, n, htwo, hn, hholds⟩ := exists_holds_of_fed hfed hrecent hnames
    exact ⟨candles, n, by omega, hn, hholds⟩

/-- A blank text names no zone. -/
theorem not_blank_of_namesKnown (htype : c.type = .premiumDiscount) (h : c.NamesKnown) :
    blank c.zone = false := by
  unfold NamesKnown at h
  rw [htype] at h
  obtain ⟨zone, hzone, hword⟩ := h
  rw [Option.mem_def] at hzone
  have hclean : ∀ word ∈ ["premium", "equilibrium", "discount"],
      (word.toList.all fun c => !isSpace c) ∧ word ≠ lower "" := by decide +kernel
  obtain ⟨hspaces, hne⟩ := hclean _ hword
  have hstrip := strip_of_lower rfl fun c hc => by simpa using List.all_eq_true.mp hspaces c hc
  simp only [blank, hzone, Option.getD_some, hstrip, decide_eq_false_iff_not]
  rintro rfl
  exact hne rfl

end Condition

/-! ## Section 3: What validation refuses -/

namespace ConditionInput

variable {input : ConditionInput}

/-- The same condition, with a lookback that any event on the current candle is within. -/
def lookingBack (input : ConditionInput) : ConditionInput := { input with lookback := some 1 }

/-- A condition whose direction and operator are taken, and that could fire with some lookback, has
no other fault than its lookback. -/
theorem errors_lookingBack (hfed : input.type.unfed = false)
    (hbias : validateBias "direction" input.direction = [])
    (hoperator : ∀ operator ∈ input.operator, operator.boolean = false)
    (hnames : input.filled.NamesKnown) : input.lookingBack.errors = [] := by
  rw [errors_eq_nil]
  constructor
  · simp only [fieldErrors, lookingBack, hfed, hbias]
    cases hop : input.operator with
    | none => rfl
    | some operator => simp [hoperator operator hop]
  · have hzone : ¬ (input.type = .premiumDiscount ∧ blank input.zone) := by
      rintro ⟨htype, hblank⟩
      have hstated := Condition.not_blank_of_namesKnown (c := input.filled) htype hnames
      exact Bool.false_ne_true (hstated.symm.trans hblank)
    rw [modelError, if_neg (by simp [filled, lookingBack])]
    exact if_neg hzone

/-- **Validation against meaning.** A condition that validation accepts fires on some series exactly
if its free texts name a side, a zone or a kill zone that there is. One that it refuses, for
anything but its direction or its operator, fires on none, unless its only fault is a lookback that
its type does not read: then it fires exactly if it would be accepted with another one and its texts
name what there is. -/
theorem validate_live (input : ConditionInput) (least : ℕ) (hleast : least ≤ 3) :
    (∀ c, input.validate = .ok c → (c.condition.Fires least ↔ c.condition.NamesKnown)) ∧
      (∀ errors, input.validate = .error errors → validateBias "direction" input.direction = [] →
        (∀ operator ∈ input.operator, operator.boolean = false) →
        (input.filled.Fires least ↔
          (input.type.expires = false ∧ input.filled.lookback < 1 ∧
            ∃ c, input.lookingBack.validate = .ok c) ∧ input.filled.NamesKnown)) := by
  constructor
  · -- What was accepted lacks only that its texts name something.
    intro c _
    rw [Condition.fires_iff hleast c.accepted.bias]
    exact ⟨fun h => h.2.2, fun h => ⟨c.accepted.fed, fun _ => c.accepted.recent, h⟩⟩
  · intro errors hvalidate hbias hoperator
    have hne : input.errors ≠ [] := fun h => by simp [validate, h] at hvalidate
    rw [Condition.fires_iff hleast (validateBias_eq_nil.mp hbias)]
    constructor
    · -- What fires had no fault but its lookback, which it does not read.
      rintro ⟨hfed, hrecent, hnames⟩
      have hfixed := errors_lookingBack hfed hbias hoperator hnames
      obtain ⟨hfields, hmodel⟩ := errors_eq_nil.mp hfixed
      have hlookback : input.filled.lookback < 1 := by
        by_contra h
        refine hne (errors_eq_nil.mpr ⟨hfields, ?_⟩)
        rw [modelError, if_neg (by simp [filled, lookingBack])] at hmodel
        rw [modelError, if_neg h]
        exact hmodel
      refine ⟨⟨Bool.eq_false_iff.mpr fun hexpires => ?_, hlookback, ?_⟩, hnames⟩
      · exact absurd (hrecent hexpires) (not_le.mpr hlookback)
      · exact ⟨_, dif_pos hfixed⟩
    · -- With another lookback it would be accepted, so it fires as that one does.
      rintro ⟨⟨hexpires, -, c, haccepted⟩, hnames⟩
      refine ⟨?_, fun h => absurd (hexpires.symm.trans h) Bool.false_ne_true, hnames⟩
      have hfixed : input.lookingBack.errors = [] := by
        by_contra h
        simp [validate, h] at haccepted
      exact (accepted_of_errors hfixed).fed

end ConditionInput

/-- A zone with a lookback of zero, which its type does not read. -/
theorem validate_live_premium :
    ({ type := .premiumDiscount, zone := some "Premium", lookback := some 0 } :
        ConditionInput).filled.Fires 3 := by
  have hlive := (ConditionInput.validate_live
    { type := .premiumDiscount, zone := some "Premium", lookback := some 0 } 3 le_rfl).2 _ rfl rfl
      (by simp)
  refine hlive.mpr ⟨⟨rfl, by decide, _, rfl⟩, ?_⟩
  exact ⟨"Premium", rfl, by decide +kernel⟩

end SuperTrading
