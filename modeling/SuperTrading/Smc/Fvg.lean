import SuperTrading.Logic.Online
import SuperTrading.Smc.Types

/-!
# Fair Value Gaps

`app/smc/fvg.py`: the three-candle imbalance, and how far later candles have filled it.
Order blocks are filled by the same rule.
-/

namespace SuperTrading.Smc

open SuperTrading.Logic

/-! ## Section 1: Filling a zone -/

/-- What the loop over the candles after a zone has found so far. -/
structure ZoneFill where
  deepestFill : ℚ := 0
  invalidated : Bool := false
  settledIndex : Option ℕ := none

/-- The loop of `update_mitigation`, over the candles after the zone. It is left at the
candle that settles the zone: by engulfing it, or by filling it to its size. A block that
comes with a `mitigated_index` is settled already, and its loop is never left. -/
def fillZone (direction : Direction) (top bottom : ℚ) : ZoneFill → List (Candle × ℕ) → ZoneFill
  | s, [] => s
  | s, (candle, i) :: rest =>
    let size := max (top - bottom) 0
    let overlapHigh := min candle.high top
    let overlapLow := max candle.low bottom
    if overlapHigh ≤ overlapLow then fillZone direction top bottom s rest
    else
      let fillDepth := match direction with
        | .bullish => top - overlapLow
        | .bearish => overlapHigh - bottom
      let deepestFill := max s.deepestFill fillDepth
      let invalidated := s.invalidated || decide (candle.low ≤ bottom ∧ candle.high ≥ top)
      if s.settledIndex = none ∧ (invalidated ∨ (size ≠ 0 ∧ deepestFill ≥ size)) then
        { deepestFill := deepestFill, invalidated := invalidated, settledIndex := some i }
      else
        fillZone direction top bottom
          { s with deepestFill := deepestFill, invalidated := invalidated } rest

/-- `min(deepest_fill / size, 1.0) if size else 0.0`. -/
def ZoneFill.filledPercentage (s : ZoneFill) (size : ℚ) : ℚ :=
  if size ≠ 0 then min (s.deepestFill / size) 1 else 0

/-! ## Section 2: The detector -/

/-- How large a gap is, in percent of its lower edge. -/
def gapSizePct (top bottom : ℚ) : ℚ := if bottom ≠ 0 then (top - bottom) / bottom * 100 else 0

/-- The gaps that the candle at `i` completes. -/
def gapsAt (candles : List Candle) (minGapPct : ℚ) (timeframe : String) (i : ℕ) :
    List FairValueGap :=
  match candles[i - 2]?, candles[i - 1]?, candles[i]? with
  | some c0, some c1, some c2 =>
    let gap := fun direction top bottom =>
      { direction := direction
        top := top
        bottom := bottom
        createdIndex := i
        createdAt := c1.timestamp
        timeframe := timeframe : FairValueGap }
    (if c0.high < c2.low ∧ gapSizePct c2.low c0.high ≥ minGapPct then
      [gap .bullish c2.low c0.high] else []) ++
    (if c0.low > c2.high ∧ gapSizePct c0.low c2.high ≥ minGapPct then
      [gap .bearish c0.low c2.high] else [])
  | _, _, _ => []

/-- `update_mitigation` of one gap. -/
def FairValueGap.updateMitigation (candles : List Candle) (gap : FairValueGap) : FairValueGap :=
  let fill := fillZone gap.direction gap.top gap.bottom { invalidated := gap.invalidated }
    (candles.zipIdx.drop (gap.createdIndex + 1))
  let filledPercentage := fill.filledPercentage gap.size
  { gap with
    invalidated := fill.invalidated
    filledPercentage := filledPercentage
    mitigated := decide (filledPercentage ≥ 1) || fill.invalidated }

/-- The gaps as they were formed. -/
def foundGaps (candles : List Candle) (minGapPct : ℚ) (timeframe : String) : List FairValueGap :=
  (List.range' 2 (candles.length - 2)).flatMap (gapsAt candles minGapPct timeframe)

def detectFvgs (candles : List Candle) (minGapPct : ℚ := 0) (timeframe : String := "") :
    List FairValueGap :=
  (foundGaps candles minGapPct timeframe).map (FairValueGap.updateMitigation candles)

/-! ## Section 3: Gaps are found online -/

/-- What of a gap is settled when it is formed. -/
structure GapOutline where
  direction : Direction
  top : ℚ
  bottom : ℚ
  createdIndex : ℕ
  deriving DecidableEq, Repr

def FairValueGap.outline (g : FairValueGap) : GapOutline :=
  { direction := g.direction, top := g.top, bottom := g.bottom, createdIndex := g.createdIndex }

variable {candles : List Candle} {minGapPct : ℚ} {timeframe : String} {i : ℕ} {gap : FairValueGap}

theorem createdIndex_of_mem_gapsAt (h : gap ∈ gapsAt candles minGapPct timeframe i) :
    gap.createdIndex = i := by
  simp only [gapsAt] at h
  split at h
  · rcases List.mem_append.mp h with h | h <;> split at h <;> simp_all
  · simp at h

theorem foundGaps_online (minGapPct : ℚ) (timeframe : String) :
    Online FairValueGap.createdIndex fun candles => foundGaps candles minGapPct timeframe := by
  apply online_windows
  · intro candles candle i hi
    simp only [gapsAt]
    rw [List.getElem?_append_left (by omega), List.getElem?_append_left (by omega),
      List.getElem?_append_left (by omega)]
  · intro candles i gap hgap
    rw [createdIndex_of_mem_gapsAt hgap]
    omega

/-- Filling a gap leaves its outline. -/
theorem map_outline_detectFvgs (candles : List Candle) (minGapPct : ℚ) (timeframe : String) :
    (detectFvgs candles minGapPct timeframe).map FairValueGap.outline =
      (foundGaps candles minGapPct timeframe).map FairValueGap.outline := by
  rw [detectFvgs, List.map_map]
  rfl

theorem detectFvgs_online (minGapPct : ℚ) (timeframe : String) :
    Online GapOutline.createdIndex fun candles =>
      (detectFvgs candles minGapPct timeframe).map FairValueGap.outline := by
  simp only [map_outline_detectFvgs]
  exact Online.comp (progressive_map fun _ => rfl) (foundGaps_online minGapPct timeframe)

end SuperTrading.Smc
