import SuperTrading.Smc.Mitigation
import SuperTrading.Smc.SweepsKept
import SuperTrading.Strategy.Evaluator

/-!
# What a Condition Means

A condition is evaluated on the analysis of the candles seen so far, at every candle anew. Its
meaning is a statement about the whole series: the events printed below the cut, the zones that no
candle below the cut has filled, the range of the swings confirmed below the cut.

- **Layer A**: zones that stand open
- **Layer B**: the analysis of a cut, read off the whole series
- **Layer C**: the meaning of a condition
- **Layer D**: the evaluator says what the condition means
-/

namespace SuperTrading

open SuperTrading.Logic
open Smc (Candle Zone ZoneFill StructureEvent FairValueGap Swing)

/-! ## Layer A: Zones -/

namespace Smc

namespace Zone

/-- A candle that trades inside the zone and reaches its far edge. A zone without a size is never
filled. -/
def Fills (z : Zone) (candle : Candle) : Prop :=
  z.bottom < z.top ∧
    match z.direction with
    | .bullish => candle.low ≤ z.bottom ∧ z.bottom < candle.high
    | .bearish => z.top ≤ candle.high ∧ candle.low < z.top

/-- Nothing after index `i` and before index `k` fills the zone. -/
def StandsOpen (z : Zone) (candles : List Candle) (i k : ℕ) : Prop :=
  ∀ j candle, i < j → j < k → candles[j]? = some candle → ¬ z.Fills candle

variable {z : Zone} {candle : Candle}

theorem not_touches (h : ¬ z.bottom < z.top) : ¬ z.Touches candle := by
  intro htouch
  exact h ((le_max_right _ _).trans_lt (htouch.trans_le (min_le_right _ _)))

theorem fills_iff (hsize : z.bottom < z.top) :
    z.Fills candle ↔ z.Touches candle ∧ z.size ≤ z.depth candle := by
  have hwide : z.size = z.top - z.bottom := z.size_eq (by simp [size, hsize])
  cases hd : z.direction with
  -- A fall into the zone is as deep as the low; a rise, as the high.
  | bullish =>
    simp only [Fills, Touches, depth, hd, hwide, sub_le_sub_iff_left, max_le_iff, le_refl, and_true,
      lt_min_iff, max_lt_iff, hsize, true_and]
    constructor
    · rintro ⟨hlow, hhigh⟩
      exact ⟨⟨⟨hlow.trans_lt hhigh, hhigh⟩, hlow.trans_lt hsize⟩, hlow⟩
    · rintro ⟨⟨⟨-, hhigh⟩, -⟩, hlow⟩
      exact ⟨hlow, hhigh⟩
  | bearish =>
    simp only [Fills, Touches, depth, hd, hwide, sub_le_sub_iff_right, le_min_iff, le_refl,
      and_true, lt_min_iff, max_lt_iff, hsize, true_and]
    constructor
    · rintro ⟨hhigh, hlow⟩
      exact ⟨⟨⟨hlow.trans_le hhigh, hsize.trans_le hhigh⟩, hlow⟩, hhigh⟩
    · rintro ⟨⟨-, hlow⟩, hhigh⟩
      exact ⟨hhigh, hlow⟩

/-- The scan finds the zone filled exactly if it came in filled, or some candle fills it. -/
theorem le_deepestFill_scanZone (s : ZoneFill) (entries : List (Candle × ℕ)) {x : ℚ} :
    x ≤ (scanZone z s entries).deepestFill ↔
      x ≤ s.deepestFill ∨ ∃ entry ∈ entries, z.Touches entry.1 ∧ x ≤ z.depth entry.1 := by
  induction entries generalizing s with
  | nil => simp [scanZone]
  | cons entry rest ih =>
    obtain ⟨candle, i⟩ := entry
    rw [scanZone]
    by_cases htouch : z.Touches candle
    · rw [if_pos htouch, ih, ZoneFill.deepestFill_settledAt]
      simp only [ZoneFill.touched, le_max_iff, List.mem_cons, exists_eq_or_imp, htouch, true_and,
        or_assoc]
    · rw [if_neg htouch, ih]
      simp only [List.mem_cons, exists_eq_or_imp, htouch, false_and, false_or]

/-- The loop of `update_mitigation` over a zone that comes in afresh. -/
theorem mitigated_fillZone_iff (entries : List (Candle × ℕ)) :
    (fillZone z.direction z.top z.bottom {} entries).mitigated z = true ↔
      ∃ entry ∈ entries, z.Fills entry.1 := by
  by_cases hsize : z.bottom < z.top
  · have hpos : 0 < z.size := by simp [size, hsize]
    have hread := (ZoneFill.read_fillZone entries hpos).2.2
    obtain ⟨-, -, -, hscan⟩ := fillZone_fresh (s := {}) entries hpos ⟨rfl, rfl, hpos⟩
    rw [hread, ZoneFill.mitigated_of_filled hpos hscan, decide_eq_true_iff, ge_iff_le,
      ZoneFill.one_le_filledPercentage_iff hpos, le_deepestFill_scanZone]
    have hstart : ¬ z.size ≤ ({} : ZoneFill).deepestFill := not_le.mpr hpos
    simp only [hstart, false_or, fills_iff hsize]
  · -- Nothing touches the zone, and the loop leaves it as it came in.
    have hloop : ∀ entries, fillZone z.direction z.top z.bottom {} entries = {} := by
      intro entries
      induction entries with
      | nil => rfl
      | cons entry rest ih => rw [fillZone_cons, if_neg (not_touches hsize), ih]
    have hempty : z.size = 0 := max_eq_right (sub_nonpos.mpr (not_lt.mp hsize))
    rw [hloop]
    refine iff_of_false ?_ ?_
    · simp [ZoneFill.mitigated, ZoneFill.filledPercentage, hempty]
    · rintro ⟨entry, -, hfills⟩
      exact hsize hfills.1

/-- The candles after index `i`, of the first `k`. -/
theorem exists_mem_laterEntries_take {candles : List Candle} {i k : ℕ} {p : Candle → Prop} :
    (∃ entry ∈ laterEntries (candles.take k) i, p entry.1) ↔
      ∃ j candle, i < j ∧ j < k ∧ candles[j]? = some candle ∧ p candle := by
  constructor
  · rintro ⟨entry, hentry, hp⟩
    obtain ⟨j, hj, rfl⟩ := List.getElem_of_mem hentry
    simp only [laterEntries, List.length_drop, List.length_zipIdx, List.length_take] at hj
    refine ⟨i + 1 + j, _, by omega, by omega, ?_, hp⟩
    rw [List.getElem?_eq_getElem (by omega)]
    simp [laterEntries]
  · rintro ⟨j, candle, hij, hjk, hcandle, hp⟩
    obtain ⟨hj, rfl⟩ := List.getElem?_eq_some_iff.mp hcandle
    refine ⟨(candles[j], j), ?_, hp⟩
    rw [laterEntries, List.mem_drop_iff_getElem]
    refine ⟨j - (i + 1), by simp; omega, ?_⟩
    have hsum : i + 1 + (j - (i + 1)) = j := by omega
    simp [hsum]

theorem not_mitigated_iff (candles : List Candle) (i k : ℕ) :
    (fillZone z.direction z.top z.bottom {} (laterEntries (candles.take k) i)).mitigated z = false ↔
      z.StandsOpen candles i k := by
  rw [← Bool.not_eq_true, mitigated_fillZone_iff, exists_mem_laterEntries_take]
  simp only [StandsOpen, not_exists, not_and]

end Zone

end Smc

/-! ## Layer B: The analysis of a cut -/

/-- The structure events of the whole series. -/
def structureOf (candles : List Candle) : List StructureEvent :=
  Smc.detectStructureEvents candles (Smc.swingsOf candles 3)

/-- The dealing range of the swings confirmed by the candle at index `n`. -/
def rangeAt (candles : List Candle) (n : ℕ) : Option Smc.PremiumDiscountZone :=
  Smc.dealingRangeFromSwings
    ((Smc.swingsOf candles 3).filter fun swing => swing.confirmedIndex < n + 1)

/-- What the context at index `n` holds, read off the whole series. -/
structure SeenAt (candles : List Candle) (n : ℕ) (current : Candle) (context : EvaluationContext) :
    Prop where
  price : context.currentPrice = current.close
  index : context.currentIndex = n
  unfed : context.indicators = Dict.empty
  killZones : context.ict.currentKillZones = activeKillZones current
  structure_ : context.smc.structureEvents =
    (structureOf candles).filter fun event => event.index < n + 1
  mss : context.smc.mssEvents =
    (Smc.promoteConfirmedShifts (structureOf candles)).filter fun event => event.index < n + 1
  pools : context.smc.liquidityPools = (Smc.formedPools {} (candles.take (n + 1))).map
    (Smc.detectSweep (candles.take (n + 1)))
  gaps : context.smc.fairValueGaps =
    ((Smc.foundGaps candles 0 "").filter fun gap => gap.createdIndex < n + 1).map
      (FairValueGap.updateMitigation (candles.take (n + 1)))
  blocks : context.smc.orderBlocks = Smc.detectOrderBlocks (candles.take (n + 1))
    ((structureOf candles).filter fun event => event.index < n + 1) context.smc.fairValueGaps 10
  range : context.smc.dealingRange = rangeAt candles n
  zone : context.smc.currentZone = (rangeAt candles n).map fun range => range.zoneFor current.close

section Cut

variable {candles : List Candle} {n : ℕ} {current : Candle}

theorem getLast?_take_succ (h : candles[n]? = some current) :
    (candles.take (n + 1)).getLast? = some current := by
  rw [List.take_add_one, h, Option.toList_some, List.getLast?_concat]

/-- The context at index `n` is the whole series up to there. -/
theorem contextOf_take (h : candles[n]? = some current) :
    ∃ context, contextOf (candles.take (n + 1)) = .ok context ∧
      SeenAt candles n current context := by
  have hlast := getLast?_take_succ h
  have hlength : (candles.take (n + 1)).length = n + 1 := by
    have := (List.getElem?_eq_some_iff.mp h).1
    rw [List.length_take]
    omega
  -- No detector looks ahead, so each one's finding is the whole series' cut at the index.
  have hswings := (Smc.swingsOf_online 3).take candles (n + 1)
  have hevents : structureOf (candles.take (n + 1)) =
      (structureOf candles).filter fun event => event.index < n + 1 :=
    (Smc.detectStructureEvents_online (Smc.swingsOf_online 3)).take candles (n + 1)
  have hmss := (Online.comp Smc.promoteConfirmedShifts_progressive
    (Smc.detectStructureEvents_online (Smc.swingsOf_online 3))).take candles (n + 1)
  have hgaps := (Smc.foundGaps_online 0 "").take candles (n + 1)
  simp only [contextOf, hlast]
  refine ⟨_, rfl, ?_⟩
  exact {
    price := rfl
    index := by simp [hlength]
    unfed := rfl
    killZones := by simp [ICTConfig.analyze, hlast]
    structure_ := hevents
    mss := hmss
    pools := rfl
    gaps := by
      show Smc.detectFvgs (candles.take (n + 1)) 0 "" = _
      rw [Smc.detectFvgs, hgaps]
    blocks := congrArg
      (fun events => Smc.detectOrderBlocks (candles.take (n + 1)) events _ 10) hevents
    range := congrArg Smc.dealingRangeFromSwings hswings
    -- The zone is where the last close lies in the range.
    zone := by
      show (Smc.dealingRangeFromSwings (Smc.swingsOf (candles.take (n + 1)) 3)).bind _ = _
      rw [hswings, hlast]
      show (rangeAt candles n).bind _ = _
      cases rangeAt candles n <;> rfl }

end Cut

/-! ## Layer C: The meaning of a condition -/

namespace Smc.LiquidityPool

/-- The candle at index `i` is the first from the forming on that trades through the pool. -/
def SweptAt (pool : LiquidityPool) (candles : List Candle) (i : ℕ) : Prop :=
  pool.formedIndex ≤ i ∧ (∃ candle, candles[i]? = some candle ∧ pool.sweeps (candle, i) = true) ∧
    ∀ j candle, pool.formedIndex ≤ j → j < i → candles[j]? = some candle →
      pool.sweeps (candle, j) = false

/-- A pool is swept once. -/
theorem SweptAt.unique {pool : LiquidityPool} {candles : List Candle} {i j : ℕ}
    (hi : pool.SweptAt candles i) (hj : pool.SweptAt candles j) : i = j := by
  obtain ⟨hformed, ⟨candle, hcandle, hsweeps⟩, hbefore⟩ := hi
  obtain ⟨hformed', ⟨candle', hcandle', hsweeps'⟩, hbefore'⟩ := hj
  rcases lt_trichotomy i j with hlt | heq | hlt
  · rw [hbefore' i candle hformed hlt hcandle] at hsweeps
    cases hsweeps
  · exact heq
  · rw [hbefore j candle' hformed' hlt hcandle'] at hsweeps'
    cases hsweeps'

end Smc.LiquidityPool

/-- The name a client gives a side. -/
def sideName : Smc.LiquiditySide → String
  | .buySide => "BUY"
  | .sellSide => "SELL"

namespace Condition

/-- The direction asked for; without one, either will do. -/
def bias (c : Condition) : Option Smc.Direction := c.direction.bind biasOf

def Faces (c : Condition) (direction : Smc.Direction) : Prop := ∀ d ∈ c.bias, direction = d

/-- The side asked for, in any case; without one, either will do. -/
def OnSide (c : Condition) (side : Smc.LiquiditySide) : Prop :=
  ∀ text ∈ stated c.side, upper text = sideName side

/-- What happened at index `i` is recent at index `n`. -/
def Recent (c : Condition) (i n : ℕ) : Prop := i ≤ n ∧ (n : ℤ) < i + c.lookback

/-- An event of this type is recent at index `n`. -/
def Printed (c : Condition) (events : List StructureEvent) (type : Smc.StructureEventType) (n : ℕ) :
    Prop :=
  ∃ event ∈ events, event.eventType = type ∧ c.Faces event.direction ∧ c.Recent event.index n

/-- The block that an event leaves behind. -/
def blockZone (event : StructureEvent) (origin : Candle × ℕ) : Zone where
  direction := event.direction
  top := origin.1.high
  bottom := origin.1.low

/-- What the condition says at index `n` of a series. Only the pools are those of the cut: equal
levels are grouped anew at every candle. -/
def Holds (c : Condition) (candles : List Candle) (n : ℕ) : Prop :=
  match c.type with
  | .trend => ∃ event ∈ ((structureOf candles).filter fun event => event.index < n + 1).getLast?,
      c.Faces event.direction
  | .bos => c.Printed (structureOf candles) .bos n
  | .choch => c.Printed (structureOf candles) .choch n
  | .mss => c.Printed (Smc.promoteConfirmedShifts (structureOf candles)) .mss n
  | .liquiditySweep => ∃ pool ∈ Smc.formedPools {} (candles.take (n + 1)),
      c.OnSide pool.side ∧ ∃ i, pool.SweptAt candles i ∧ c.Recent i n
  | .fvg => ∃ gap ∈ Smc.foundGaps candles 0 "", c.Faces gap.direction ∧ gap.createdIndex < n + 1 ∧
      gap.zone.StandsOpen candles gap.createdIndex (n + 1)
  | .orderBlock => ∃ event ∈ structureOf candles, c.Faces event.direction ∧ event.index < n + 1 ∧
      ∃ origin ∈ Smc.findOrigin candles event 10,
        (blockZone event origin).StandsOpen candles event.index (n + 1)
  | .premiumDiscount => ∃ current ∈ candles[n]?, ∃ range ∈ rangeAt candles n, ∃ zone ∈ c.zone,
      lower (range.zoneFor current.close) = lower zone
  | .session => ∃ current ∈ candles[n]?, ∃ zone ∈ activeKillZones current,
      ∀ name ∈ stated c.name, upper name = zone
  | _ => False

end Condition

/-! ## Layer D: The evaluator -/

namespace Smc

open LiquidityPool in
/-- The sweep that is written to a pool as it was formed. -/
theorem detectSweep_take_iff {candles : List Candle} {n i : ℕ} {pool : LiquidityPool}
    (hfresh : pool.Fresh) :
    ((detectSweep (candles.take (n + 1)) pool).swept = true ∧
      (detectSweep (candles.take (n + 1)) pool).sweptIndex = some i) ↔
      i ≤ n ∧ pool.SweptAt candles i := by
  have hunswept : pool.swept = false ∧ pool.sweptIndex = none := by
    rw [← hfresh]
    exact ⟨rfl, rfl⟩
  -- The scan begins at the candle that formed the pool.
  have hentry : ∀ j, ((candles.take (n + 1)).zipIdx.drop pool.formedIndex)[j]? =
      if pool.formedIndex + j < n + 1 then
        candles[pool.formedIndex + j]?.map fun candle => (candle, pool.formedIndex + j)
      else none := by
    intro j
    rw [List.getElem?_drop, List.getElem?_zipIdx, List.getElem?_take]
    split_ifs <;> simp
  unfold detectSweep
  cases hfound : ((candles.take (n + 1)).zipIdx.drop pool.formedIndex).find? pool.sweeps with
  -- No candle of the cut series sweeps, so none sweeps at an index in it.
  | none =>
    simp only [Option.elim_none, hunswept, false_and, false_iff, not_and, Bool.false_eq_true]
    rintro hin ⟨hformed, ⟨candle, hcandle, hsweeps⟩, -⟩
    rw [List.find?_eq_none] at hfound
    refine hfound (candle, i) ?_ hsweeps
    apply List.mem_of_getElem? (i := i - pool.formedIndex)
    rw [hentry, if_pos (by omega), show pool.formedIndex + (i - pool.formedIndex) = i by omega,
      hcandle, Option.map_some]
  | some entry =>
    obtain ⟨hsweeps, k, hk, rfl, hbefore⟩ := List.find?_eq_some_iff_getElem.mp hfound
    -- The candle found stands at `pool.formedIndex + k`.
    have hk' : ((candles.take (n + 1)).zipIdx.drop pool.formedIndex)[k]? = some _ :=
      List.getElem?_eq_getElem hk
    rw [hentry] at hk'
    split_ifs at hk' with hcut
    obtain ⟨candle, hcandle, heq⟩ := Option.map_eq_some_iff.mp hk'
    rw [← heq] at hsweeps ⊢
    have hfirst : pool.SweptAt candles (pool.formedIndex + k) := by
      refine ⟨Nat.le_add_right _ _, ⟨candle, hcandle, hsweeps⟩, ?_⟩
      intro j earlier hformed hj hearlier
      have hget : ((candles.take (n + 1)).zipIdx.drop pool.formedIndex)[j - pool.formedIndex]? =
          some (earlier, j) := by
        have hback : pool.formedIndex + (j - pool.formedIndex) = j := by omega
        rw [hentry, hback, if_pos (by omega), hearlier, Option.map_some]
      obtain ⟨hlt, hval⟩ := List.getElem?_eq_some_iff.mp hget
      have := hbefore (j - pool.formedIndex) (by omega)
      rw [hval] at this
      simpa using this
    simp only [Option.elim_some, markSwept, true_and, Option.some.injEq]
    constructor
    · rintro rfl
      exact ⟨by omega, hfirst⟩
    · rintro ⟨-, h⟩
      exact hfirst.unique h

end Smc

section Verdicts

variable {c : Condition} {candles : List Candle} {n : ℕ} {current : Candle}
  {context : EvaluationContext}

/-- The three ways of the evaluator to compare a direction agree on what validation accepts. -/
theorem faces_iff (hbias : ∀ d ∈ c.direction, d ∈ biasValues) (direction : Smc.Direction) :
    ((c.direction.all fun d => lower direction.value = lower d) = true ↔ c.Faces direction) ∧
      ((((stated c.direction).map upper).all fun d => direction.value = d) = true ↔
        c.Faces direction) := by
  cases hd : c.direction with
  | none => simp [Condition.Faces, Condition.bias, hd, stated]
  | some text =>
    have htext : text ∈ biasValues := hbias text hd
    simp only [biasValues, List.mem_cons, List.not_mem_nil, or_false] at htext
    rw [Condition.Faces, Condition.bias, hd]
    rcases htext with rfl | rfl <;> cases direction <;> decide +kernel

theorem onSide_iff (c : Condition) (side : Smc.LiquiditySide) :
    (((stated c.side).map fun text => upper text ++ "_SIDE").all fun s => side.value = s) = true ↔
      c.OnSide side := by
  have hvalue : side.value = sideName side ++ "_SIDE" := by cases side <;> rfl
  rw [Condition.OnSide, hvalue]
  cases stated c.side with
  | none => simp
  | some text => simp [String.append_left_inj, eq_comm]

theorem isRecent_iff (hindex : context.currentIndex = n) (i : ℕ) (hi : i < n + 1) :
    c.isRecent context i = true ↔ c.Recent i n := by
  rw [Condition.isRecent, Condition.Recent, hindex, decide_eq_true_iff]
  omega

theorem eventType_value_inj {type type' : Smc.StructureEventType} :
    type.value = type'.value ↔ type = type' := by
  cases type <;> cases type' <;> simp [Smc.StructureEventType.value]

/-- The events of one type, wherever the context keeps them. -/
theorem printed_iff (hbias : ∀ d ∈ c.direction, d ∈ biasValues) (hindex : context.currentIndex = n)
    {events : List StructureEvent} {type : Smc.StructureEventType}
    (hevents : (if c.type = .mss then context.smc.mssEvents else context.smc.structureEvents) =
      events.filter fun event => event.index < n + 1)
    (hname : upper c.type.value = type.value) :
    ((c.events context.smc).any fun e =>
        (c.direction.all fun d => lower e.direction.value = lower d) &&
          c.isRecent context e.index) =
      true ↔ c.Printed events type n := by
  simp only [Condition.events, hevents, hname, List.any_eq_true, List.mem_filter, Bool.and_eq_true,
    decide_eq_true_iff, eventType_value_inj, (faces_iff hbias _).1, Condition.Printed]
  constructor
  · rintro ⟨event, ⟨⟨hmem, hcut⟩, htype⟩, hfaces, hrecent⟩
    exact ⟨event, hmem, htype, hfaces, (isRecent_iff hindex _ hcut).mp hrecent⟩
  · rintro ⟨event, hmem, htype, hfaces, hrecent⟩
    have hcut : event.index < n + 1 := Nat.lt_succ_of_le hrecent.1
    exact ⟨event, ⟨⟨hmem, hcut⟩, htype⟩, hfaces, (isRecent_iff hindex _ hcut).mpr hrecent⟩

theorem trend_iff (hbias : ∀ d ∈ c.direction, d ∈ biasValues)
    (hseen : SeenAt candles n current context) :
    (context.smc.bias.any fun bias => c.direction.all fun d => lower bias.value = lower d) = true ↔
      ∃ event ∈ ((structureOf candles).filter fun event => event.index < n + 1).getLast?,
        c.Faces event.direction := by
  rw [Smc.SMCContext.bias, hseen.structure_]
  cases ((structureOf candles).filter fun event => event.index < n + 1).getLast? with
  | none => simp
  | some event => simpa using (faces_iff hbias event.direction).1

theorem sweep_iff (hseen : SeenAt candles n current context) :
    ((context.smc.recentSweeps ((stated c.side).map fun side => upper side ++ "_SIDE")).any fun p =>
        p.sweptIndex.any (c.isRecent context)) = true ↔
      ∃ pool ∈ Smc.formedPools {} (candles.take (n + 1)),
        c.OnSide pool.side ∧ ∃ i, pool.SweptAt candles i ∧ c.Recent i n := by
  -- The sweep leaves the side of its pool.
  have hside : ∀ pool : Smc.LiquidityPool,
      (Smc.detectSweep (candles.take (n + 1)) pool).side = pool.side := by
    intro pool
    unfold Smc.detectSweep
    cases List.find? pool.sweeps _ <;> rfl
  simp only [Smc.SMCContext.recentSweeps, hseen.pools, List.any_eq_true, List.mem_filter,
    List.mem_map, Bool.and_eq_true, onSide_iff, Option.any_eq_true]
  constructor
  · -- A pool of the cut series is swept at the same candle of the whole one.
    rintro ⟨_, ⟨⟨pool, hmem, rfl⟩, hswept, hon⟩, i, hi, hrecent⟩
    obtain ⟨hin, hat⟩ :=
      (Smc.detectSweep_take_iff (Smc.fresh_of_mem_formedPools hmem)).mp ⟨hswept, hi⟩
    rw [hside] at hon
    exact ⟨pool, hmem, hon, i, hat, (isRecent_iff hseen.index i (Nat.lt_succ_of_le hin)).mp hrecent⟩
  · rintro ⟨pool, hmem, hon, i, hat, hrecent⟩
    obtain ⟨hswept, hi⟩ :=
      (Smc.detectSweep_take_iff (n := n) (Smc.fresh_of_mem_formedPools hmem)).mpr ⟨hrecent.1, hat⟩
    rw [← hside] at hon
    exact ⟨_, ⟨⟨pool, hmem, rfl⟩, hswept, hon⟩, i, hi,
      (isRecent_iff hseen.index i (Nat.lt_succ_of_le hrecent.1)).mpr hrecent⟩

/-- A gap of the context is open exactly if no candle since has filled it. -/
theorem mitigated_gap_iff {gap : FairValueGap} (h : gap ∈ Smc.foundGaps candles 0 "") :
    (gap.updateMitigation (candles.take (n + 1))).mitigated = false ↔
      gap.zone.StandsOpen candles gap.createdIndex (n + 1) := by
  rw [(Smc.asFormed_of_mem_foundGaps h).updateMitigation_eq, ← Smc.Zone.not_mitigated_iff]
  rfl

/-- The open gaps of a direction, oldest first. -/
theorem unmitigatedFvgs_eq (hseen : SeenAt candles n current context) (direction : Option String) :
    context.smc.unmitigatedFvgs direction =
      (((Smc.foundGaps candles 0 "").filter fun gap => gap.createdIndex < n + 1).filter fun gap =>
        !(gap.updateMitigation (candles.take (n + 1))).mitigated &&
          direction.all fun d => gap.direction.value = d).map
        (FairValueGap.updateMitigation (candles.take (n + 1))) := by
  rw [Smc.SMCContext.unmitigatedFvgs, hseen.gaps, List.filter_map]
  rfl

theorem fvg_iff (hbias : ∀ d ∈ c.direction, d ∈ biasValues)
    (hseen : SeenAt candles n current context) :
    context.smc.unmitigatedFvgs ((stated c.direction).map upper) ≠ [] ↔
      ∃ gap ∈ Smc.foundGaps candles 0 "", c.Faces gap.direction ∧ gap.createdIndex < n + 1 ∧
        gap.zone.StandsOpen candles gap.createdIndex (n + 1) := by
  rw [unmitigatedFvgs_eq hseen, Ne, List.map_eq_nil_iff, List.filter_eq_nil_iff]
  simp only [not_forall, Bool.and_eq_true, Bool.not_eq_true', not_not, (faces_iff hbias _).2,
    List.mem_filter, decide_eq_true_iff, exists_prop]
  constructor
  · rintro ⟨gap, ⟨hmem, hcut⟩, hopen, hfaces⟩
    exact ⟨gap, hmem, hfaces, hcut, (mitigated_gap_iff hmem).mp hopen⟩
  · rintro ⟨gap, hmem, hfaces, hcut, hopen⟩
    exact ⟨gap, ⟨hmem, hcut⟩, (mitigated_gap_iff hmem).mpr hopen, hfaces⟩

theorem findOrigin_take {event : StructureEvent} (hcut : event.index < n + 1) :
    Smc.findOrigin (candles.take (n + 1)) event 10 = Smc.findOrigin candles event 10 := by
  have htake : (candles.take (n + 1)).zipIdx.take event.index =
      candles.zipIdx.take event.index := by
    apply List.ext_getElem?
    intro i
    by_cases hi : i < event.index
    · have hin : i < n + 1 := by omega
      simp [hi, hin]
    · simp [hi]
  rw [Smc.findOrigin, Smc.findOrigin, htake]

theorem index_lt_of_mem_structureOf {event : StructureEvent} (h : event ∈ structureOf candles) :
    event.index < candles.length :=
  (Smc.detectStructureEvents_online (Smc.swingsOf_online 3)).stamp_lt h

/-- The block of an event below the cut is formed below the cut as well. -/
theorem blockOf_take {event : StructureEvent} (hmem : event ∈ structureOf candles)
    (hcut : event.index < n + 1) (fvgs : List FairValueGap) :
    ∃ strength, Smc.blockOf (candles.take (n + 1)) fvgs 10 event =
      (Smc.findOrigin candles event 10).map fun origin =>
        { direction := event.direction
          top := origin.1.high
          bottom := origin.1.low
          createdIndex := origin.2
          createdAt := origin.1.timestamp
          strength := strength
          causedEventIndex := event.index } := by
  have hlt := index_lt_of_mem_structureOf hmem
  have hcandle : (candles.take (n + 1))[event.index]? = some candles[event.index] := by
    rw [List.getElem?_take, if_pos hcut, List.getElem?_eq_getElem hlt]
  rw [Smc.blockOf, findOrigin_take hcut, hcandle]
  refine ⟨Smc.blockStrength (candles.take (n + 1)) fvgs event candles[event.index], ?_⟩
  cases Smc.findOrigin candles event 10 <;> rfl

/-- A block of the context is open exactly if no candle since its break has filled it. -/
theorem mitigated_block_iff {block : Smc.OrderBlock} (h : block.AsFormed) :
    (block.updateMitigation (candles.take (n + 1))).mitigated = false ↔
      block.zone.StandsOpen candles block.causedEventIndex (n + 1) := by
  rw [h.updateMitigation_eq, ← Smc.Zone.not_mitigated_iff]
  rfl

/-- A block of the context, by the event it comes from. -/
theorem mem_orderBlocks (hseen : SeenAt candles n current context) {block : Smc.OrderBlock} :
    block ∈ context.smc.orderBlocks ↔ ∃ event ∈ structureOf candles, event.index < n + 1 ∧
      ∃ formed,
        Smc.blockOf (candles.take (n + 1)) context.smc.fairValueGaps 10 event = some formed ∧
        formed.updateMitigation (candles.take (n + 1)) = block := by
  simp only [hseen.blocks, Smc.detectOrderBlocks, List.mem_map, List.mem_filterMap, List.mem_filter,
    decide_eq_true_iff]
  constructor
  · rintro ⟨formed, ⟨event, ⟨hmem, hcut⟩, hformed⟩, heq⟩
    exact ⟨event, hmem, hcut, formed, hformed, heq⟩
  · rintro ⟨event, hmem, hcut, formed, hformed, heq⟩
    exact ⟨formed, ⟨event, ⟨hmem, hcut⟩, hformed⟩, heq⟩

/-- The open blocks of the context, read off the whole series. -/
theorem openBlock_iff (hseen : SeenAt candles n current context) {zone : Zone} {i : ℕ} :
    (∃ block ∈ context.smc.orderBlocks, block.zone = zone ∧ block.causedEventIndex = i ∧
        block.mitigated = false) ↔
      (∃ event ∈ structureOf candles, event.index = i ∧
        ∃ origin ∈ Smc.findOrigin candles event 10, Condition.blockZone event origin = zone) ∧
      i < n + 1 ∧ zone.StandsOpen candles i (n + 1) := by
  constructor
  · -- A block is its event's, formed of the origin before it.
    rintro ⟨block, hblock, rfl, rfl, hopen⟩
    obtain ⟨event, hmem, hcut, formed, hformed, rfl⟩ := (mem_orderBlocks hseen).mp hblock
    obtain ⟨strength, heq⟩ := blockOf_take hmem hcut context.smc.fairValueGaps
    rw [heq] at hformed
    obtain ⟨origin, horigin, rfl⟩ := Option.map_eq_some_iff.mp hformed
    rw [mitigated_block_iff ⟨rfl, rfl, rfl, rfl⟩] at hopen
    exact ⟨⟨event, hmem, rfl, origin, horigin, rfl⟩, hcut, hopen⟩
  · rintro ⟨⟨event, hmem, rfl, origin, horigin, rfl⟩, hcut, hopen⟩
    obtain ⟨strength, heq⟩ := blockOf_take hmem hcut context.smc.fairValueGaps
    rw [horigin, Option.map_some] at heq
    refine ⟨_, (mem_orderBlocks hseen).mpr ⟨event, hmem, hcut, _, heq, rfl⟩, rfl, rfl, ?_⟩
    rw [mitigated_block_iff ⟨rfl, rfl, rfl, rfl⟩]
    exact hopen

theorem block_iff (hbias : ∀ d ∈ c.direction, d ∈ biasValues)
    (hseen : SeenAt candles n current context) :
    context.smc.activeOrderBlocks ((stated c.direction).map upper) ≠ [] ↔
      ∃ event ∈ structureOf candles, c.Faces event.direction ∧ event.index < n + 1 ∧
        ∃ origin ∈ Smc.findOrigin candles event 10,
          (Condition.blockZone event origin).StandsOpen candles event.index (n + 1) := by
  rw [Smc.SMCContext.activeOrderBlocks, Ne, List.filter_eq_nil_iff]
  simp only [not_forall, Bool.and_eq_true, Bool.not_eq_true', not_not, (faces_iff hbias _).2,
    exists_prop]
  constructor
  · -- Each active block is an open one, of the direction asked for.
    rintro ⟨block, hmem, hopen, hfaces⟩
    obtain ⟨⟨event, hevent, hindex, origin, horigin, hzone⟩, hcut, hstands⟩ :=
      (openBlock_iff hseen).mp ⟨block, hmem, rfl, rfl, hopen⟩
    have hdirection : event.direction = block.direction := congrArg Zone.direction hzone
    rw [← hindex] at hcut hstands
    exact ⟨event, hevent, hdirection ▸ hfaces, hcut, origin, horigin, hzone ▸ hstands⟩
  · rintro ⟨event, hevent, hfaces, hcut, origin, horigin, hstands⟩
    obtain ⟨block, hmem, hzone, -, hopen⟩ := (openBlock_iff hseen).mpr
      ⟨⟨event, hevent, rfl, origin, horigin, rfl⟩, hcut, hstands⟩
    have hdirection : block.direction = event.direction := congrArg Zone.direction hzone
    exact ⟨block, hmem, hopen, hdirection ▸ hfaces⟩

theorem zone_iff (hcurrent : candles[n]? = some current)
    (hseen : SeenAt candles n current context) :
    (context.smc.currentZone.any fun now => c.zone.any fun zone => lower now = lower zone) = true ↔
      ∃ current ∈ candles[n]?, ∃ range ∈ rangeAt candles n, ∃ zone ∈ c.zone,
        lower (range.zoneFor current.close) = lower zone := by
  rw [hseen.zone, hcurrent]
  cases rangeAt candles n <;> cases c.zone <;> simp

theorem session_iff (hcurrent : candles[n]? = some current)
    (hseen : SeenAt candles n current context) :
    (match stated c.name with
      | some name => decide (upper name ∈ context.ict.currentKillZones)
      | none => decide (context.ict.currentKillZones ≠ [])) = true ↔
      ∃ current ∈ candles[n]?, ∃ zone ∈ activeKillZones current,
        ∀ name ∈ stated c.name, upper name = zone := by
  rw [hseen.killZones, hcurrent]
  cases stated c.name with
  | none =>
    simp only [decide_eq_true_iff, Option.mem_def, Option.some.injEq, exists_eq_left', reduceCtorEq,
      false_implies, implies_true, and_true]
    exact ⟨List.exists_mem_of_ne_nil _, fun ⟨_, hmem⟩ => List.ne_nil_of_mem hmem⟩
  | some name => simp

/-- Nothing writes the indicators. -/
theorem numericCompare_unfed (hseen : SeenAt candles n current context) (name : String) :
    c.numericCompare (context.indicators.get? name) = false := by
  rw [hseen.unfed]
  rfl

/-- The verdict at an index is the meaning there, of any condition whose direction is a bias. -/
theorem evaluate_iff_holds (hbias : ∀ d ∈ c.direction, d ∈ biasValues)
    (hcurrent : candles[n]? = some current) (hseen : SeenAt candles n current context) :
    c.evaluate context = true ↔ c.Holds candles n := by
  unfold Condition.evaluate Condition.Holds
  cases htype : c.type with
  -- One lemma for each kind; three of them read the printed events.
  | trend => exact trend_iff hbias hseen
  | bos =>
    refine printed_iff hbias hseen.index ?_ ?_
    · rw [htype]
      exact hseen.structure_
    · rw [htype]
      decide +kernel
  | mss =>
    refine printed_iff hbias hseen.index ?_ ?_
    · rw [htype]
      exact hseen.mss
    · rw [htype]
      decide +kernel
  | choch =>
    refine printed_iff hbias hseen.index ?_ ?_
    · rw [htype]
      exact hseen.structure_
    · rw [htype]
      decide +kernel
  | liquiditySweep => exact sweep_iff hseen
  | fvg => simpa using fvg_iff hbias hseen
  | orderBlock => simpa using block_iff hbias hseen
  | premiumDiscount => exact zone_iff hcurrent hseen
  | session => exact session_iff hcurrent hseen
  -- The numeric conditions have no feed, and no meaning either.
  | volume | volatility | indicator | optionsIv | optionsOi | optionsGreeks =>
    exact iff_of_false (by simp [numericCompare_unfed hseen]) id

end Verdicts

/-- A kill zone, by the name the client gives it. -/
def inLondon : ValidCondition where
  condition := { type := .session, name := some "london", lookback := 5 }
  accepted := {
    fed := rfl
    bias := nofun
    compares := nofun
    recent := by decide
    zoned := nofun }

end SuperTrading
