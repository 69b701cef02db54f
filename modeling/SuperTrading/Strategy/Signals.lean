import SuperTrading.Paper.BacktestParity
import SuperTrading.Smc.EventGrammar
import SuperTrading.Strategy.Meaning

/-!
# What a Signal Is

`StrategyEngine.evaluate` on the analysis of the real engines. A strategy signals at a candle
exactly if its conditions mean so there, the structure gives it a direction, and its entry type
finds a bracket: the newest zone that stands open, or the dealing range.

- **Layer A**: the newest open zone
- **Layer B**: entries
- **Layer C**: signals
- **Layer D**: scores
- **Layer E**: the backtest and the paper engine
-/

namespace SuperTrading

open SuperTrading.Logic
open Smc (Candle Zone StructureEvent FairValueGap OrderBlock)

/-! ## Layer A: The newest open zone -/

/-- In an ascending list without ties the last element is the greatest. -/
theorem getLast?_eq_some_iff_latest {α : Type*} {key : α → ℕ} {xs : List α} {x : α}
    (h : xs.Pairwise fun a b => key a ≤ key b)
    (htie : ∀ a ∈ xs, ∀ b ∈ xs, key a = key b → a = b) :
    xs.getLast? = some x ↔ x ∈ xs ∧ ∀ y ∈ xs, key y ≤ key x := by
  constructor
  · -- All others stand before the last, so none is greater.
    intro hlast
    have hx := List.mem_of_getLast? hlast
    refine ⟨hx, fun y hy => ?_⟩
    obtain ⟨before, rfl⟩ := List.getLast?_eq_some_iff.mp hlast
    rcases List.mem_append.mp hy with hy | hy
    · exact (List.pairwise_append.mp h).2.2 y hy x (by simp)
    · rw [List.mem_singleton.mp hy]
  · -- The last is as great as the greatest, so it is that one.
    rintro ⟨hx, hgreatest⟩
    obtain ⟨last, hlast⟩ := Option.ne_none_iff_exists'.mp
      (mt List.getLast?_eq_none_iff.mp (List.ne_nil_of_mem hx))
    obtain ⟨before, rfl⟩ := List.getLast?_eq_some_iff.mp hlast
    have hle : key x ≤ key last := by
      rcases List.mem_append.mp hx with hx | hx
      · exact (List.pairwise_append.mp h).2.2 x hx last (by simp)
      · rw [List.mem_singleton.mp hx]
    rw [hlast, htie x hx last (by simp) (le_antisymm hle (hgreatest last (by simp)))]

/-- The zone was formed at an index, and nothing has filled it by index `n`. -/
def OpenSince (formed : Zone → ℕ → Prop) (candles : List Candle) (n : ℕ) (zone : Zone) (i : ℕ) :
    Prop :=
  formed zone i ∧ i < n + 1 ∧ zone.StandsOpen candles i (n + 1)

/-- The zone in this direction that stands open and was formed last. -/
def NewestOpen (formed : Zone → ℕ → Prop) (candles : List Candle) (n : ℕ)
    (direction : Smc.Direction) (zone : Zone) : Prop :=
  ∃ i, OpenSince formed candles n zone i ∧ zone.direction = direction ∧
    ∀ other j, OpenSince formed candles n other j → other.direction = direction → j ≤ i

theorem NewestOpen.direction_eq {formed : Zone → ℕ → Prop} {candles : List Candle} {n : ℕ}
    {direction : Smc.Direction} {zone : Zone} (h : NewestOpen formed candles n direction zone) :
    zone.direction = direction := by
  obtain ⟨_, -, hdirection, -⟩ := h
  exact hdirection

/-- A fair value gap of the series. -/
def gapFormed (candles : List Candle) (zone : Zone) (i : ℕ) : Prop :=
  ∃ gap ∈ Smc.foundGaps candles 0 "", gap.zone = zone ∧ gap.createdIndex = i

/-- The origin of a break of the series. -/
def blockFormed (candles : List Candle) (zone : Zone) (i : ℕ) : Prop :=
  ∃ event ∈ structureOf candles, event.index = i ∧
    ∃ origin ∈ Smc.findOrigin candles event 10, Condition.blockZone event origin = zone

section Zones

variable {candles : List Candle} {n : ℕ} {current : Candle} {context : EvaluationContext}
  {direction : Smc.Direction}

theorem direction_value_inj {d d' : Smc.Direction} : d.value = d'.value ↔ d = d' := by
  cases d <;> cases d' <;> simp [Smc.Direction.value]

/-- The gap that the candle at an index completes in a direction. -/
theorem of_mem_gapsAt {gap : FairValueGap} {i : ℕ} (h : gap ∈ Smc.gapsAt candles 0 "" i) :
    gap.bottom < gap.top ∧ ∃ c0 c1 c2, candles[i - 2]? = some c0 ∧ candles[i - 1]? = some c1 ∧
      candles[i]? = some c2 ∧ gap =
        { direction := gap.direction
          top := if gap.direction = .bullish then c2.low else c0.low
          bottom := if gap.direction = .bullish then c0.high else c2.high
          createdIndex := i
          createdAt := c1.timestamp } := by
  simp only [Smc.gapsAt] at h
  split at h
  · -- Both directions may be found at one candle.
    rename_i c0 c1 c2 h0 h1 h2
    rcases List.mem_append.mp h with h | h <;> split at h <;>
      simp only [List.mem_singleton, List.not_mem_nil] at h
    · rename_i hgap
      subst h
      exact ⟨hgap.1, c0, c1, c2, h0, h1, h2, by simp⟩
    · rename_i hgap
      subst h
      exact ⟨hgap.1, c0, c1, c2, h0, h1, h2, by simp⟩
  · simp at h

/-- A candle completes one gap of a direction at most. -/
theorem eq_of_mem_gapsAt {gap gap' : FairValueGap} {i : ℕ} (h : gap ∈ Smc.gapsAt candles 0 "" i)
    (h' : gap' ∈ Smc.gapsAt candles 0 "" i) (hdirection : gap.direction = gap'.direction) :
    gap = gap' := by
  obtain ⟨-, c0, c1, c2, h0, h1, h2, heq⟩ := of_mem_gapsAt h
  obtain ⟨-, c0', c1', c2', h0', h1', h2', heq'⟩ := of_mem_gapsAt h'
  obtain rfl := Option.some.inj (h0.symm.trans h0')
  obtain rfl := Option.some.inj (h1.symm.trans h1')
  obtain rfl := Option.some.inj (h2.symm.trans h2')
  rw [heq, heq', hdirection]

theorem eq_of_mem_foundGaps {gap gap' : FairValueGap} (h : gap ∈ Smc.foundGaps candles 0 "")
    (h' : gap' ∈ Smc.foundGaps candles 0 "") (hdirection : gap.direction = gap'.direction)
    (hindex : gap.createdIndex = gap'.createdIndex) : gap = gap' := by
  obtain ⟨i, -, hgap⟩ := List.mem_flatMap.mp h
  obtain ⟨i', -, hgap'⟩ := List.mem_flatMap.mp h'
  have hi := Smc.createdIndex_of_mem_gapsAt hgap
  have hi' := Smc.createdIndex_of_mem_gapsAt hgap'
  rw [← hi', ← hindex, hi] at hgap'
  exact eq_of_mem_gapsAt hgap hgap' hdirection

theorem bottom_lt_top_of_gap {gap : FairValueGap} (h : gap ∈ Smc.foundGaps candles 0 "") :
    gap.bottom < gap.top := by
  obtain ⟨i, -, hgap⟩ := List.mem_flatMap.mp h
  exact (of_mem_gapsAt hgap).1

/-- A candle breaks one swing of a direction at most. -/
theorem eq_of_mem_structureOf {event event' : StructureEvent} (h : event ∈ structureOf candles)
    (h' : event' ∈ structureOf candles) (hdirection : event.direction = event'.direction)
    (hindex : event.index = event'.index) : event = event' := by
  have hscanned := (Smc.StructureState.scanInv (Smc.swingsOf candles 3) candles).scanned
  obtain ⟨-, target, -, htarget, -, -, hbroken, -⟩ := hscanned.breaks event h
  obtain ⟨-, target', -, htarget', -, -, hbroken', -⟩ := hscanned.breaks event' h'
  rw [hdirection, hindex, htarget'] at htarget
  cases htarget
  exact List.inj_on_of_nodup_map hscanned.once h h' (hbroken.trans hbroken'.symm)

theorem pairwise_structureOf (candles : List Candle) :
    (structureOf candles).Pairwise fun a b => a.index ≤ b.index :=
  (Smc.StructureState.scanInv (Smc.swingsOf candles 3) candles).scanned.ordered

/-- The last of the open gaps is the newest zone. -/
theorem newestGap_iff (hseen : SeenAt candles n current context) {zone : Zone} :
    (∃ gap, (context.smc.unmitigatedFvgs (some direction.value)).getLast? = some gap ∧
        gap.zone = zone) ↔ NewestOpen (gapFormed candles) candles n direction zone := by
  rw [unmitigatedFvgs_eq hseen]
  set xs := ((Smc.foundGaps candles 0 "").filter fun gap =>
    gap.createdIndex < n + 1).filter fun gap =>
    !(gap.updateMitigation (candles.take (n + 1))).mitigated &&
      (some direction.value).all fun d => gap.direction.value = d
  -- What the engine lists are the open gaps of the direction.
  have hmem : ∀ gap, gap ∈ xs ↔ gap ∈ Smc.foundGaps candles 0 "" ∧ gap.createdIndex < n + 1 ∧
      gap.zone.StandsOpen candles gap.createdIndex (n + 1) ∧ gap.direction = direction := by
    intro gap
    simp only [xs, List.mem_filter, decide_eq_true_iff, Bool.and_eq_true, Bool.not_eq_true',
      Option.all_some, direction_value_inj, and_assoc]
    exact and_congr_right fun hgap => and_congr_right fun _ =>
      and_congr_left fun _ => mitigated_gap_iff hgap
  -- They stand in the order in which they were formed, one at a candle.
  have hlatest : ∀ gap, xs.getLast? = some gap ↔
      gap ∈ xs ∧ ∀ other ∈ xs, other.createdIndex ≤ gap.createdIndex := by
    intro gap
    apply getLast?_eq_some_iff_latest
    · exact (((Smc.foundGaps_online 0 "").pairwise candles).filter _).filter _
    · intro a ha b hb
      obtain ⟨hfound, -, -, hdirection⟩ := (hmem a).mp ha
      obtain ⟨hfound', -, -, hdirection'⟩ := (hmem b).mp hb
      exact eq_of_mem_foundGaps hfound hfound' (hdirection.trans hdirection'.symm)
  rw [List.getLast?_map]
  constructor
  · -- The last of them is the newest zone.
    rintro ⟨_, hlast, rfl⟩
    obtain ⟨gap, hgap, rfl⟩ := Option.map_eq_some_iff.mp hlast
    obtain ⟨hin, hgreatest⟩ := (hlatest gap).mp hgap
    obtain ⟨hfound, hcut, hopen, hdirection⟩ := (hmem gap).mp hin
    refine ⟨gap.createdIndex, ⟨⟨gap, hfound, rfl, rfl⟩, hcut, hopen⟩, hdirection, ?_⟩
    rintro _ _ ⟨⟨other, hother, rfl, rfl⟩, hcut', hopen'⟩ hdirection'
    exact hgreatest other ((hmem other).mpr ⟨hother, hcut', hopen', hdirection'⟩)
  · -- The newest zone is that of a gap in the list, which comes last.
    rintro ⟨_, ⟨⟨gap, hfound, rfl, rfl⟩, hcut, hopen⟩, hdirection, hgreatest⟩
    refine ⟨_, Option.map_eq_some_iff.mpr ⟨gap, (hlatest gap).mpr ⟨?_, ?_⟩, rfl⟩, rfl⟩
    · exact (hmem gap).mpr ⟨hfound, hcut, hopen, hdirection⟩
    · intro other hother
      obtain ⟨hfound', hcut', hopen', hdirection'⟩ := (hmem other).mp hother
      exact hgreatest other.zone _ ⟨⟨other, hfound', rfl, rfl⟩, hcut', hopen'⟩ hdirection'

theorem pairwise_orderBlocks (hseen : SeenAt candles n current context) :
    context.smc.orderBlocks.Pairwise fun a b => a.causedEventIndex ≤ b.causedEventIndex := by
  rw [hseen.blocks, Smc.detectOrderBlocks, List.pairwise_map, List.pairwise_filterMap]
  refine ((pairwise_structureOf candles).filter _).imp_of_mem ?_
  intro event event' hevent hevent' hle block hblock block' hblock'
  obtain ⟨hmem, hcut⟩ := List.mem_filter.mp hevent
  obtain ⟨hmem', hcut'⟩ := List.mem_filter.mp hevent'
  obtain ⟨strength, heq⟩ := blockOf_take hmem (of_decide_eq_true hcut) context.smc.fairValueGaps
  obtain ⟨strength', heq'⟩ := blockOf_take hmem' (of_decide_eq_true hcut') context.smc.fairValueGaps
  rw [heq] at hblock
  rw [heq'] at hblock'
  obtain ⟨origin, -, rfl⟩ := Option.map_eq_some_iff.mp hblock
  obtain ⟨origin', -, rfl⟩ := Option.map_eq_some_iff.mp hblock'
  exact hle

theorem eq_of_mem_orderBlocks (hseen : SeenAt candles n current context) {block block' : OrderBlock}
    (h : block ∈ context.smc.orderBlocks) (h' : block' ∈ context.smc.orderBlocks)
    (hdirection : block.direction = block'.direction)
    (hindex : block.causedEventIndex = block'.causedEventIndex) : block = block' := by
  obtain ⟨event, hmem, hcut, formed, hformed, rfl⟩ := (mem_orderBlocks hseen).mp h
  obtain ⟨event', hmem', hcut', formed', hformed', rfl⟩ := (mem_orderBlocks hseen).mp h'
  have hsame : event = event' := by
    obtain ⟨strength, heq⟩ := blockOf_take hmem hcut context.smc.fairValueGaps
    obtain ⟨strength', heq'⟩ := blockOf_take hmem' hcut' context.smc.fairValueGaps
    rw [heq] at hformed
    rw [heq'] at hformed'
    obtain ⟨origin, -, rfl⟩ := Option.map_eq_some_iff.mp hformed
    obtain ⟨origin', -, rfl⟩ := Option.map_eq_some_iff.mp hformed'
    exact eq_of_mem_structureOf hmem hmem' hdirection hindex
  subst hsame
  rw [Option.some.inj (hformed.symm.trans hformed')]

/-- The last of the active blocks is the newest zone. -/
theorem newestBlock_iff (hseen : SeenAt candles n current context) {zone : Zone} :
    (∃ block, (context.smc.activeOrderBlocks (some direction.value)).getLast? = some block ∧
        block.zone = zone) ↔ NewestOpen (blockFormed candles) candles n direction zone := by
  set xs := context.smc.activeOrderBlocks (some direction.value)
  -- What the engine lists are the open blocks of the direction.
  have hmem : ∀ block, block ∈ xs ↔ block ∈ context.smc.orderBlocks ∧ block.mitigated = false ∧
      block.direction = direction := by
    intro block
    simp only [xs, Smc.SMCContext.activeOrderBlocks, List.mem_filter, Bool.and_eq_true,
      Bool.not_eq_true', Option.all_some, decide_eq_true_iff, direction_value_inj]
  -- They stand in the order of the events that caused them.
  have hlatest : ∀ block, xs.getLast? = some block ↔
      block ∈ xs ∧ ∀ other ∈ xs, other.causedEventIndex ≤ block.causedEventIndex := by
    intro block
    apply getLast?_eq_some_iff_latest
    · exact (pairwise_orderBlocks hseen).filter _
    · intro a ha b hb
      obtain ⟨hin, -, hdirection⟩ := (hmem a).mp ha
      obtain ⟨hin', -, hdirection'⟩ := (hmem b).mp hb
      exact eq_of_mem_orderBlocks hseen hin hin' (hdirection.trans hdirection'.symm)
  constructor
  · -- The last of them is the newest zone.
    rintro ⟨block, hlast, rfl⟩
    obtain ⟨hin, hgreatest⟩ := (hlatest block).mp hlast
    obtain ⟨hblock, hopen, hdirection⟩ := (hmem block).mp hin
    refine ⟨block.causedEventIndex, (openBlock_iff hseen).mp ⟨block, hblock, rfl, rfl, hopen⟩,
      hdirection, ?_⟩
    intro other j hother hdirection'
    obtain ⟨block', hblock', rfl, rfl, hopen'⟩ := (openBlock_iff hseen).mpr hother
    exact hgreatest block' ((hmem block').mpr ⟨hblock', hopen', hdirection'⟩)
  · -- The newest zone is that of a block in the list, which comes last.
    rintro ⟨i, hsince, hdirection, hgreatest⟩
    obtain ⟨block, hblock, rfl, rfl, hopen⟩ := (openBlock_iff hseen).mpr hsince
    refine ⟨block, (hlatest block).mpr ⟨(hmem block).mpr ⟨hblock, hopen, hdirection⟩, ?_⟩, rfl⟩
    intro other hother
    obtain ⟨hblock', hopen', hdirection'⟩ := (hmem other).mp hother
    exact hgreatest other.zone _ ((openBlock_iff hseen).mp ⟨other, hblock', rfl, rfl, hopen'⟩)
      hdirection'

end Zones

/-! ## Layer B: Entries -/

/-- The direction of the last event printed by index `n`. -/
def trendAt (candles : List Candle) (n : ℕ) : Option Smc.Direction :=
  (((structureOf candles).filter fun event => event.index < n + 1).getLast?).map (·.direction)

/-- The middle of a zone, and the stop a little beyond its far edge. -/
def RetestOf (zone : Zone) (entry stop : ℚ) : Prop :=
  entry = (zone.top + zone.bottom) / 2 ∧
    stop = zoneStop zone.top zone.bottom ((zone.top - zone.bottom) * entryBufferPct) zone.direction

/-- The entry and the stop that there are for a direction at index `n`. -/
def EntryType.Offers (type : EntryType) (candles : List Candle) (n : ℕ) (direction : Smc.Direction)
    (entry stop : ℚ) : Prop :=
  match type with
  | .market => ∃ current ∈ candles[n]?, ∃ range ∈ rangeAt candles n,
      entry = current.close ∧ stop = rangeStop range direction
  | .fvgRetest => ∃ zone, NewestOpen (gapFormed candles) candles n direction zone ∧
      RetestOf zone entry stop
  | .orderBlockRetest => ∃ zone, NewestOpen (blockFormed candles) candles n direction zone ∧
      RetestOf zone entry stop

section Entries

variable {candles : List Candle} {n : ℕ} {current : Candle} {context : EvaluationContext}
  {direction : Smc.Direction} {entry stop : ℚ}

/-- A gap that was found has a size. -/
theorem bottom_lt_top_of_gapFormed {zone : Zone} {i : ℕ} (h : gapFormed candles zone i) :
    zone.bottom < zone.top := by
  obtain ⟨gap, hgap, rfl, -⟩ := h
  exact bottom_lt_top_of_gap hgap

theorem resolve_fvgRetest (hseen : SeenAt candles n current context) :
    EntryType.fvgRetest.resolve context direction = (some entry, some stop) ↔
      EntryType.fvgRetest.Offers candles n direction entry stop := by
  simp only [EntryType.Offers, ← newestGap_iff hseen]
  simp only [EntryType.resolve]
  cases hlast : (context.smc.unmitigatedFvgs (some direction.value)).getLast? with
  | none => simp
  | some gap =>
    obtain ⟨i, ⟨hformed, -⟩, hdirection, -⟩ := (newestGap_iff hseen).mp ⟨gap, hlast, rfl⟩
    have hsize : gap.size = gap.top - gap.bottom :=
      max_eq_left (sub_nonneg.mpr (bottom_lt_top_of_gapFormed hformed).le)
    simp only [Prod.mk.injEq, Option.some.injEq, exists_eq_left', RetestOf, ← hdirection, hsize]
    exact and_congr eq_comm eq_comm

theorem resolve_orderBlockRetest (hseen : SeenAt candles n current context) :
    EntryType.orderBlockRetest.resolve context direction = (some entry, some stop) ↔
      EntryType.orderBlockRetest.Offers candles n direction entry stop := by
  simp only [EntryType.Offers, ← newestBlock_iff hseen]
  simp only [EntryType.resolve]
  cases hlast : (context.smc.activeOrderBlocks (some direction.value)).getLast? with
  | none => simp
  | some block =>
    obtain ⟨i, -, hdirection, -⟩ := (newestBlock_iff hseen).mp ⟨block, hlast, rfl⟩
    simp only [Prod.mk.injEq, Option.some.injEq, exists_eq_left', RetestOf, ← hdirection]
    exact and_congr eq_comm eq_comm

theorem resolve_market (hcurrent : candles[n]? = some current)
    (hseen : SeenAt candles n current context) :
    EntryType.market.resolve context direction = (some entry, some stop) ↔
      EntryType.market.Offers candles n direction entry stop := by
  simp only [EntryType.Offers, EntryType.resolve, hseen.price, hseen.range, hcurrent]
  cases rangeAt candles n <;> simp [eq_comm]

theorem resolve_iff (hcurrent : candles[n]? = some current)
    (hseen : SeenAt candles n current context) (type : EntryType) :
    type.resolve context direction = (some entry, some stop) ↔
      type.Offers candles n direction entry stop :=
  match type with
  | .market => resolve_market hcurrent hseen
  | .fvgRetest => resolve_fvgRetest hseen
  | .orderBlockRetest => resolve_orderBlockRetest hseen

end Entries

/-! ## Layer C: Signals -/

/-- What there is to trade at index `n`. -/
structure Strategy.SetUp (s : Strategy) (candles : List Candle) (n : ℕ) (direction : Smc.Direction)
    (entry stop : ℚ) : Prop where
  holds : ∀ c ∈ s.conditions, c.condition.Holds candles n
  directed : s.direction.or (trendAt candles n) = some direction
  offered : s.entryType.Offers candles n direction entry stop

theorem abs_signalTarget_sub {entry stop minimumRr : ℚ} (hrr : 0 < minimumRr)
    (direction : Smc.Direction) :
    |signalTarget entry stop minimumRr direction - entry| = |entry - stop| * minimumRr := by
  have hpos : 0 ≤ |entry - stop| * minimumRr := mul_nonneg (abs_nonneg _) hrr.le
  cases direction with
  | bullish => rw [signalTarget, add_sub_cancel_left, abs_of_nonneg hpos]
  | bearish => rw [signalTarget, sub_sub_cancel_left, abs_neg, abs_of_nonneg hpos]

/-- The reward of a signal is what the strategy asks for. -/
theorem reward_of_signalTarget {entry stop minimumRr : ℚ} (hrr : 0 < minimumRr) (hne : entry ≠ stop)
    (direction : Smc.Direction) :
    |signalTarget entry stop minimumRr direction - entry| / |entry - stop| = minimumRr := by
  rw [abs_signalTarget_sub hrr, mul_div_cancel_left₀ _ (abs_ne_zero.mpr (sub_ne_zero.mpr hne))]

theorem Signal.not_stopOnWrongSide (signal : Signal) :
    ¬ stopOnWrongSide signal.entry signal.stop signal.direction := by
  have hbracket := signal.bracketed
  cases hdirection : signal.direction with
  | bullish =>
    rw [hdirection] at hbracket
    exact not_lt.mpr hbracket.1.le
  | bearish =>
    rw [hdirection] at hbracket
    exact not_lt.mpr hbracket.1.le

/-- When `StrategyEngine.evaluate` signals, of any analysis. -/
theorem StrategyDefinition.evaluate_signal_iff (strategy : StrategyDefinition)
    (reading : SetupReading) (signal : Signal) :
    (strategy.evaluate reading).signal = some signal ↔
      reading.allSatisfied = true ∧ strategy.direction.or reading.bias = some signal.direction ∧
      reading.entryAndStop signal.direction = (some signal.entry, some signal.stop) ∧
      signal.target = signalTarget signal.entry signal.stop strategy.risk.minimumRr
        signal.direction ∧
      signal.riskReward = round4 strategy.risk.minimumRr ∧ isJournallable signal.target := by
  constructor
  · intro h
    unfold evaluate at h
    -- Every branch but one leaves the signal out.
    split at h
    · simp at h
    · rename_i hall
      split at h
      · simp at h
      · rename_i direction hdirection
        split at h
        · rename_i entry stop hread
          split at h
          · simp at h
          · rename_i hne
            split at h
            · simp at h
            · dsimp only at h
              split at h
              · rename_i hjournallable
                cases h
                refine ⟨by simpa using hall, hdirection, hread, rfl, ?_, hjournallable⟩
                rw [reward_of_signalTarget strategy.risk.rr_range.1 hne]
              · simp at h
        · simp at h
  · -- The other way, every guard of the branch is passed.
    rintro ⟨hall, hdirection, hread, htarget, hreward, hjournallable⟩
    have hne := signal.entry_ne_stop
    have hside := signal.not_stopOnWrongSide
    obtain ⟨direction, entry, stop, target, riskReward, hbracket⟩ := signal
    dsimp only at hdirection hread htarget hreward hjournallable hne hside
    subst htarget hreward
    unfold evaluate
    rw [if_neg (by simp [hall]), hdirection]
    simp only [hread, dif_neg hne, dif_neg hside, if_pos hjournallable,
      reward_of_signalTarget strategy.risk.rr_range.1 hne]

theorem StrategyDefinition.satisfied_evaluate (strategy : StrategyDefinition)
    (reading : SetupReading) : (strategy.evaluate reading).satisfied = reading.satisfied := by
  unfold evaluate
  split
  · rfl
  · split
    · rfl
    · split
      · split
        · rfl
        · split
          · rfl
          · dsimp only
            split <;> rfl
      · rfl

/-- The implicit AND, with the labels on either side. -/
theorem evaluateConditions_eq (conditions : List Condition) (context : EvaluationContext) :
    (evaluateConditions conditions context).1 = true ↔
      ∀ c ∈ conditions, c.evaluate context = true := by
  simp [evaluateConditions, List.filter_eq_nil_iff]

section Signals

variable {candles : List Candle} {n : ℕ} {current : Candle} {context : EvaluationContext}

theorem bias_eq_trendAt (hseen : SeenAt candles n current context) :
    context.smc.bias = trendAt candles n := by
  rw [Smc.SMCContext.bias, hseen.structure_, trendAt]

theorem Strategy.allSatisfied_iff (s : Strategy) (hcurrent : candles[n]? = some current)
    (hseen : SeenAt candles n current context) :
    (s.reading context).allSatisfied = true ↔ ∀ c ∈ s.conditions, c.condition.Holds candles n := by
  show (evaluateConditions s.leaves context).1 = true ↔ _
  rw [evaluateConditions_eq, leaves, List.forall_mem_map]
  exact forall₂_congr fun c _ => evaluate_iff_holds c.accepted.bias hcurrent hseen

theorem Strategy.signal_iff_setUp (s : Strategy) (hcurrent : candles[n]? = some current)
    (hseen : SeenAt candles n current context) (signal : Signal) :
    (s.result context).signal = some signal ↔
      s.SetUp candles n signal.direction signal.entry signal.stop ∧
      signal.target = signalTarget signal.entry signal.stop s.risk.minimumRr signal.direction ∧
      signal.riskReward = round4 s.risk.minimumRr ∧ isJournallable signal.target := by
  rw [result, StrategyDefinition.evaluate_signal_iff, s.allSatisfied_iff hcurrent hseen]
  have hread : (s.reading context).entryAndStop signal.direction =
      (some signal.entry, some signal.stop) ↔ _ := resolve_iff hcurrent hseen s.entryType
  have hbias : (s.reading context).bias = trendAt candles n := bias_eq_trendAt hseen
  rw [hread, hbias]
  constructor
  · rintro ⟨hholds, hdirected, hoffered, hrest⟩
    exact ⟨⟨hholds, hdirected, hoffered⟩, hrest⟩
  · rintro ⟨hsetup, hrest⟩
    exact ⟨hsetup.holds, hsetup.directed, hsetup.offered, hrest⟩

end Signals

/-- The stop is on the side of the entry that loses. -/
def OnLosingSide (entry stop : ℚ) : Smc.Direction → Prop
  | .bullish => stop < entry
  | .bearish => entry < stop

theorem Bracketed.onLosingSide {entry stop target : ℚ} {direction : Smc.Direction}
    (h : Bracketed entry stop target direction) : OnLosingSide entry stop direction := by
  cases direction <;> exact h.1

theorem OnLosingSide.bracketed {entry stop minimumRr : ℚ} (hrr : 0 < minimumRr)
    {direction : Smc.Direction} (h : OnLosingSide entry stop direction) :
    Bracketed entry stop (signalTarget entry stop minimumRr direction) direction := by
  apply bracketed_signalTarget hrr
  · cases direction with
    | bullish => exact ne_of_gt h
    | bearish => exact ne_of_lt h
  · cases direction <;> exact not_lt.mpr (le_of_lt h)

/-- The engine gives out a signal with these numbers. -/
def Strategy.Signals (s : Strategy) (context : EvaluationContext) (direction : Smc.Direction)
    (entry stop target riskReward : ℚ) : Prop :=
  ∃ signal, (s.result context).signal = some signal ∧ signal.direction = direction ∧
    signal.entry = entry ∧ signal.stop = stop ∧ signal.target = target ∧
    signal.riskReward = riskReward

/-- What the engine gives out, from what it sees. -/
theorem Strategy.signals_iff {s : Strategy} {candles : List Candle} {n : ℕ} {current : Candle}
    {context : EvaluationContext} (hcurrent : candles[n]? = some current)
    (hseen : SeenAt candles n current context) {direction : Smc.Direction}
    {entry stop target riskReward : ℚ} :
    s.Signals context direction entry stop target riskReward ↔
      s.SetUp candles n direction entry stop ∧ OnLosingSide entry stop direction ∧
        target = signalTarget entry stop s.risk.minimumRr direction ∧
        riskReward = round4 s.risk.minimumRr ∧ isJournallable target := by
  constructor
  · rintro ⟨signal, hsignal, rfl, rfl, rfl, rfl, rfl⟩
    obtain ⟨hsetup, hrest⟩ := (s.signal_iff_setUp hcurrent hseen signal).mp hsignal
    exact ⟨hsetup, signal.bracketed.onLosingSide, hrest⟩
  · rintro ⟨hsetup, hside, rfl, rfl, hjournallable⟩
    refine ⟨⟨direction, entry, stop, _, _, hside.bracketed s.risk.rr_range.1⟩, ?_, rfl, rfl, rfl,
      rfl, rfl⟩
    exact (s.signal_iff_setUp hcurrent hseen _).mpr ⟨hsetup, rfl, rfl, hjournallable⟩

/-- Buys the retest of a gap in London. -/
def londonRetest : Strategy where
  name := "london"
  timeframe := "15m"
  direction := some .bullish
  conditions := [inLondon]
  entryType := .fvgRetest
  scoreWeights := none
  name_length := by decide
  timeframe_length := by decide

/-- The stop of a retest is on the losing side exactly if the zone has a height: it is seen from the
middle of the zone. -/
theorem onLosingSide_retest_iff {zone : Zone} {entry stop : ℚ} (h : RetestOf zone entry stop) :
    OnLosingSide entry stop zone.direction ↔ zone.bottom < zone.top := by
  obtain ⟨rfl, rfl⟩ := h
  constructor
  · intro hside
    cases hdirection : zone.direction <;> rw [hdirection] at hside <;>
      simp only [OnLosingSide, zoneStop, entryBufferPct] at hside <;> linarith
  · intro hsize
    have hheight : 0 < (zone.top - zone.bottom) * entryBufferPct :=
      mul_pos (sub_pos.mpr hsize) (by norm_num [entryBufferPct])
    cases zone.direction <;> simp only [OnLosingSide, zoneStop] <;> linarith

/-- The zones that the entry type waits for a retest of. -/
def EntryType.formed (candles : List Candle) : EntryType → Zone → ℕ → Prop
  | .market => fun _ _ => False
  | .fvgRetest => gapFormed candles
  | .orderBlockRetest => blockFormed candles

theorem EntryType.offers_retest_iff {type : EntryType} (hretest : type ≠ .market)
    {candles : List Candle} {n : ℕ} {direction : Smc.Direction} {entry stop : ℚ} :
    type.Offers candles n direction entry stop ↔
      ∃ zone, NewestOpen (type.formed candles) candles n direction zone ∧
        RetestOf zone entry stop := by
  cases type with
  | market => exact absurd rfl hretest
  | fvgRetest => exact Iff.rfl
  | orderBlockRetest => exact Iff.rfl

/-- Buys the retest of any gap. -/
def anyRetest : Strategy := { londonRetest with conditions := [] }

/-- The gap of the first three candles, from 100 to 110. -/
theorem newestOpen_engulfing :
    NewestOpen (gapFormed Smc.engulfing) Smc.engulfing 2 .bullish ⟨.bullish, 110, 100⟩ := by
  have hgap : ∃ gap ∈ Smc.foundGaps Smc.engulfing 0 "",
      gap.zone = ⟨.bullish, 110, 100⟩ ∧ gap.createdIndex = 2 := by decide +kernel
  refine ⟨2, ⟨hgap, by decide, ?_⟩, rfl, ?_⟩
  · exact fun _ _ hafter hbefore => by omega
  · exact fun _ j hother _ => Nat.lt_succ_iff.mp hother.2.1

theorem retestOf_engulfing : RetestOf ⟨.bullish, 110, 100⟩ 105 (199 / 2) := by
  unfold RetestOf
  norm_num [zoneStop, entryBufferPct]

theorem setUp_anyRetest : anyRetest.SetUp Smc.engulfing 2 .bullish 105 (199 / 2) where
  holds := fun _ hc => absurd hc List.not_mem_nil
  directed := Option.some_or
  offered := ⟨_, newestOpen_engulfing, retestOf_engulfing⟩

theorem round2_mono {q q' : ℚ} (h : q ≤ q') : round2 q ≤ round2 q' := by
  have hscaled : roundHalfEven (q * 100) ≤ roundHalfEven (q' * 100) :=
    roundHalfEven_mono (mul_le_mul_of_nonneg_right h (by norm_num))
  exact div_le_div_of_nonneg_right (by exact_mod_cast hscaled) (by norm_num)

theorem round2_intCast (n : ℤ) : round2 n = n := by
  have hscaled : roundHalfEven ((n : ℚ) * 100) = n * 100 := by
    exact_mod_cast roundHalfEven_intCast (n * 100)
  unfold round2
  rw [hscaled]
  push_cast
  exact mul_div_cancel_right₀ _ (by norm_num)

theorem rrComponent_self {minimumRr : ℚ} (h : 0 < minimumRr) :
    rrComponent minimumRr minimumRr = 2 / 3 := by
  rw [rrComponent, if_pos ⟨h, le_refl _⟩, div_self h.ne']
  norm_num

theorem rrComponent_nonneg (riskReward minimumRr : ℚ) : 0 ≤ rrComponent riskReward minimumRr := by
  unfold rrComponent
  split_ifs with h
  · have : 0 ≤ riskReward / minimumRr := div_nonneg (h.1.le.trans h.2) h.1.le
    exact div_nonneg (le_min this (by norm_num)) (by norm_num)
  · exact le_refl 0

theorem get?_getD_nonneg {weights : Dict String ℚ} (h : ∀ w ∈ weights.values, 0 ≤ w)
    (name : String) :
    0 ≤ (weights.get? name).getD 0 := by
  cases hget : weights.get? name with
  | none => exact le_refl 0
  | some w => exact h w ((weights.mem_values_iff).mpr ⟨name, hget⟩)

theorem rawScore_nonneg {weights : Dict String ℚ} (h : ∀ w ∈ weights.values, 0 ≤ w)
    (satisfied : List ConditionType) (riskReward minimumRr : ℚ) :
    0 ≤ rawScore satisfied riskReward minimumRr weights := by
  refine add_nonneg (List.sum_nonneg ?_)
    (mul_nonneg (get?_getD_nonneg h _) (rrComponent_nonneg _ _))
  rintro _ hpart
  obtain ⟨part, -, rfl⟩ := List.mem_map.mp hpart
  split_ifs
  · exact get?_getD_nonneg h _
  · exact le_refl 0

theorem totalWeight_pos {weights : Dict String ℚ} (h : ∀ w ∈ weights.values, 0 ≤ w) :
    0 < totalWeight weights := by
  unfold totalWeight
  split_ifs with hsum
  · norm_num
  · exact lt_of_le_of_ne (List.sum_nonneg h) (Ne.symm hsum)

/-- A score is a percentage. -/
theorem computeStrategyScore_range {weights : Option (Dict String ℚ)}
    (h : ∀ w ∈ (weightsOr weights).values, 0 ≤ w) (satisfied : List ConditionType)
    (riskReward minimumRr : ℚ) :
    0 ≤ computeStrategyScore satisfied riskReward minimumRr weights ∧
      computeStrategyScore satisfied riskReward minimumRr weights ≤ 100 := by
  have htotal := totalWeight_pos h
  have hlow : 0 ≤ min (rawScore satisfied riskReward minimumRr (weightsOr weights))
      (totalWeight (weightsOr weights)) / totalWeight (weightsOr weights) * 100 :=
    mul_nonneg (div_nonneg (le_min (rawScore_nonneg h _ _ _) htotal.le) htotal.le) (by norm_num)
  have hhigh : min (rawScore satisfied riskReward minimumRr (weightsOr weights))
      (totalWeight (weightsOr weights)) / totalWeight (weightsOr weights) * 100 ≤ 100 := by
    have := (div_le_one htotal).mpr
      (min_le_right (rawScore satisfied riskReward minimumRr (weightsOr weights)) _)
    linarith
  have hzero : round2 0 = 0 := round2_intCast 0
  have hhundred : round2 100 = 100 := round2_intCast 100
  exact ⟨hzero ▸ round2_mono hlow, hhundred ▸ round2_mono hhigh⟩

/-- By the default weights a reward that is asked for earns the `risk_reward` weight by two
thirds. -/
theorem rawScore_default (satisfied : List ConditionType) {minimumRr : ℚ} (h : 0 < minimumRr) :
    rawScore satisfied minimumRr minimumRr defaultWeights ≤ 85 := by
  have hweights : defaultWeights.get? "htf_alignment" = some 20 ∧
      defaultWeights.get? "structure" = some 20 ∧ defaultWeights.get? "liquidity" = some 20 ∧
      defaultWeights.get? "fvg" = some 15 ∧ defaultWeights.get? "volatility" = none ∧
      defaultWeights.get? "risk_reward" = some 15 := by decide
  obtain ⟨hhtf, hstructure, hliquidity, hfvg, hvolatility, hreward⟩ := hweights
  simp only [rawScore, scoredParts, List.map_cons, List.map_nil, List.sum_cons, List.sum_nil, hhtf,
    hstructure, hliquidity, hfvg, hvolatility, hreward, Option.getD_some, Option.getD_none,
    rrComponent_self h]
  split_ifs <;> norm_num

/-- **The score ranks strategies, not setups.** A signal's score counts every condition type of its
strategy, whatever the candles, and beside them only its reward. It is a percentage for weights
that are not negative. By the default weights none is above 94.44: the part of the reward is full
from one and a half times the `minimum_rr` on, and a signal's target is put at the `minimum_rr`. -/
theorem Strategy.score_range (s : Strategy) (context : EvaluationContext) (signal : Signal)
    (h : (s.result context).signal = some signal) :
    s.score (s.result context) = computeStrategyScore (s.leaves.map (·.type))
        (|signal.target - signal.entry| / |signal.entry - signal.stop|) s.risk.minimumRr
        s.scoreWeights ∧
      ((∀ w ∈ (weightsOr s.scoreWeights).values, 0 ≤ w) →
        0 ≤ s.score (s.result context) ∧ s.score (s.result context) ≤ 100) ∧
      (s.scoreWeights = none → s.score (s.result context) ≤ 9444 / 100) := by
  obtain ⟨hall, -, -, htarget, -, -⟩ := (StrategyDefinition.evaluate_signal_iff _ _ signal).mp h
  have htrue := (evaluateConditions_eq s.leaves context).mp hall
  -- Every condition is satisfied, so its label is among the satisfied ones.
  have hsatisfied : (s.result context).satisfied = s.leaves.map Condition.label := by
    rw [result, StrategyDefinition.satisfied_evaluate]
    show (s.leaves.filter fun c => c.evaluate context).map Condition.label = _
    rw [List.filter_eq_self.mpr htrue]
  have htypes : (s.leaves.filter fun c => c.label ∈ (s.result context).satisfied) = s.leaves := by
    rw [List.filter_eq_self]
    intro c hc
    rw [hsatisfied, decide_eq_true_iff]
    exact List.mem_map_of_mem hc
  have hscore : s.score (s.result context) = computeStrategyScore (s.leaves.map (·.type))
      (|signal.target - signal.entry| / |signal.entry - signal.stop|) s.risk.minimumRr
      s.scoreWeights := by
    simp only [score, h, htypes]
  refine ⟨hscore, fun hweights => ?_, fun hnone => ?_⟩
  · rw [hscore]
    exact computeStrategyScore_range hweights _ _ _
  · have hreward := reward_of_signalTarget s.risk.rr_range.1 signal.entry_ne_stop signal.direction
    have hraw := rawScore_default (s.leaves.map (·.type)) s.risk.rr_range.1
    have htotal : totalWeight defaultWeights = 90 := by decide +kernel
    have hhigh : round2 (850 / 9) = 9444 / 100 := by decide +kernel
    rw [hscore, htarget, hreward, hnone]
    simp only [computeStrategyScore, weightsOr, htotal]
    generalize rawScore (s.leaves.map (·.type)) s.risk.minimumRr s.risk.minimumRr defaultWeights =
      raw at hraw ⊢
    have hmin : min raw 90 ≤ 85 := min_le_of_left_le hraw
    rw [← hhigh]
    exact round2_mono (by linarith)

/-- What the retest of the gap signals. -/
def retestSignal : Signal where
  direction := .bullish
  entry := 105
  stop := 199 / 2
  target := 116
  riskReward := 2
  bracketed := by constructor <;> decide +kernel

theorem score_range_anyRetest : ∃ context, (anyRetest.result context).signal = some retestSignal ∧
    anyRetest.score (anyRetest.result context) ≤ 9444 / 100 := by
  have hcurrent : Smc.engulfing[2]? = some (Smc.barAt 0 2 120 110 118) := rfl
  obtain ⟨context, -, hseen⟩ := contextOf_take hcurrent
  have htarget : (116 : ℚ) = signalTarget 105 (199 / 2) 2 .bullish := by decide +kernel
  have hreward : (2 : ℚ) = round4 2 := by decide +kernel
  have hjournallable : isJournallable 116 := by decide +kernel
  have hsignal := (anyRetest.signal_iff_setUp hcurrent hseen retestSignal).mpr
    ⟨setUp_anyRetest, htarget, hreward, hjournallable⟩
  exact ⟨context, hsignal, (anyRetest.score_range context retestSignal hsignal).2.2 rfl⟩

/-! ## Layer E: The backtest and the paper engine -/

namespace Strategy

variable (s : Strategy) {candles : List Candle} {n : ℕ} {current : Candle}

/-- The engines of a strategy analyse what the context says. -/
theorem evaluate_analysis (hcurrent : candles[n]? = some current) :
    ∃ context, SeenAt candles n current context ∧
      s.toStrategyDefinition.evaluate (s.analysis s.toStrategyDefinition (candles.take (n + 1))) =
        s.result context := by
  obtain ⟨context, hcontext, hseen⟩ := contextOf_take hcurrent
  refine ⟨context, hseen, ?_⟩
  rw [analysis, hcontext]
  rfl

/-- A set-up that the candle it is found at can fill, from the third candle on. -/
def Fillable (candles : List Candle) : Prop :=
  ∃ n current direction entry stop, candles[n]? = some current ∧ 2 ≤ n ∧
    s.SetUp candles n direction entry stop ∧ OnLosingSide entry stop direction ∧
    isJournallable (signalTarget entry stop s.risk.minimumRr direction) ∧
    current.low ≤ entry ∧ entry ≤ current.high

/-- The backtest finds nothing to fill exactly if there is no set-up to fill. -/
theorem noFill_iff : Follows.NoFill s.analysis s.toStrategyDefinition candles ↔
    ¬ s.Fillable candles := by
  constructor
  · -- A set-up that is fillable makes a signal whose entry the same candle reaches.
    rintro hnone ⟨n, current, direction, entry, stop, hcurrent, htwo, hsetup, hside, hjournallable,
      hfill⟩
    obtain ⟨hlt, rfl⟩ := List.getElem?_eq_some_iff.mp hcurrent
    obtain ⟨context, hseen, heval⟩ := s.evaluate_analysis hcurrent
    have hsignal := (s.signal_iff_setUp hcurrent hseen
      ⟨direction, entry, stop, _, _, hside.bracketed s.risk.rr_range.1⟩).mpr
        ⟨hsetup, rfl, rfl, hjournallable⟩
    have hvisible := List.take_concat_get' candles n hlt
    have hnofill := hnone (candles.take n) candles[n] (by rw [hvisible]; exact List.take_prefix _ _)
    rw [hvisible, fillableSignal, if_neg (by rw [List.length_take]; omega), heval, hsignal]
      at hnofill
    simp only [Option.filter_some, hfill, and_self, decide_true, if_true] at hnofill
    cases hnofill
  · -- Back, the signal on a first part of the series is a set-up at its last candle.
    intro hnone seen c hbegins
    by_contra hsome
    obtain ⟨signal, hsignal⟩ := Option.ne_none_iff_exists'.mp hsome
    obtain ⟨rest, rfl⟩ := hbegins
    have hcurrent : (seen ++ [c] ++ rest)[seen.length]? = some c := by simp
    have hvisible : (seen ++ [c] ++ rest).take (seen.length + 1) = seen ++ [c] :=
      List.take_left' (by simp)
    obtain ⟨context, hseen, heval⟩ := s.evaluate_analysis hcurrent
    rw [hvisible] at heval
    have hrange := fillableSignal_range hsignal
    rw [fillableSignal, heval] at hsignal
    split_ifs at hsignal with hthree
    rw [List.length_append, List.length_singleton] at hthree
    obtain ⟨hsetup, htarget, -, hjournallable⟩ := (s.signal_iff_setUp hcurrent hseen signal).mp
      (Option.filter_eq_some_iff.mp hsignal).1
    exact hnone ⟨seen.length, c, signal.direction, signal.entry, signal.stop, hcurrent, by omega,
      hsetup, signal.bracketed.onLosingSide, htarget ▸ hjournallable, hrange⟩

/-- The paper engine of a strategy, fed the candles of a backtest, reports what the backtest
reports, if the cap leaves something of a position or there is no set-up to fill. -/
theorem paper_agrees (symbol : Symbol) (accountId : AccountId) (strategyId : Option String)
    (limits : RiskLimits) (capital : ℚ) (candles : List (PaperEnv × Candle))
    (hpercent : s.risk.riskPercent ≤ limits.riskPerTradePct)
    (hpriced : ∀ e ∈ candles, e.2.Priced)
    (hdistinct : ((candles.map Prod.snd).map Candle.timestamp).Nodup)
    (hgate : (PaperSession.new s.toStrategyDefinition symbol accountId strategyId limits
      capital).GateApproves s.analysis candles)
    (hcap : (∀ cap ∈ limits.maxPositionSize, 0 < cap) ∨ ¬ s.Fillable (candles.map Prod.snd)) :
    ∃ session, (PaperSession.new s.toStrategyDefinition symbol accountId strategyId limits
        capital).feed s.analysis candles = .ok session ∧
      session.Agrees ((PaperSession.backtest s.toStrategyDefinition limits capital).run s.analysis
        (candles.map Prod.snd)) :=
  PaperSession.agrees_of_cap hpercent hpriced hdistinct hgate (hcap.imp_right s.noFill_iff.mpr)

end Strategy

end SuperTrading
