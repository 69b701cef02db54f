import SuperTrading.Smc.NoLookAhead
import SuperTrading.Smc.OrderBlocks
import Mathlib.Algebra.Order.Field.Basic
import Mathlib.Tactic.Linarith

/-!
# Early Exit from Mitigation

`update_mitigation` leaves its loop at the candle that settles a zone. This compares it with
the same loop over every later candle, and with what it says of a longer series. The detectors
call it on the zones they have just formed, which carry no flag and no index yet.

- **Layer A**: what one candle does to a zone
- **Layer B**: the loop, and the loop that is never left
- **Layer C**: gaps and blocks
-/

namespace SuperTrading.Smc

open SuperTrading.Logic

/-! ## Layer A: What one candle does to a zone -/

/-- A price zone, and the side it is filled from. -/
structure Zone where
  direction : Direction
  top : ℚ
  bottom : ℚ
  deriving DecidableEq, Repr

namespace Zone

def size (z : Zone) : ℚ := max (z.top - z.bottom) 0

/-- The candle overlaps the zone. -/
def Touches (z : Zone) (candle : Candle) : Prop := max candle.low z.bottom < min candle.high z.top

instance (z : Zone) (candle : Candle) : Decidable (z.Touches candle) :=
  inferInstanceAs (Decidable (max candle.low z.bottom < min candle.high z.top))

/-- How deep the candle fills the zone. -/
def depth (z : Zone) (candle : Candle) : ℚ :=
  match z.direction with
  | .bullish => z.top - max candle.low z.bottom
  | .bearish => min candle.high z.top - z.bottom

/-- The candle reaches over both edges of the zone. -/
def Engulfs (z : Zone) (candle : Candle) : Prop := candle.low ≤ z.bottom ∧ candle.high ≥ z.top

instance (z : Zone) (candle : Candle) : Decidable (z.Engulfs candle) :=
  inferInstanceAs (Decidable (candle.low ≤ z.bottom ∧ candle.high ≥ z.top))

variable {z : Zone} {candle : Candle}

theorem size_eq (h : 0 < z.size) : z.size = z.top - z.bottom := by
  unfold size at h ⊢
  rcases lt_max_iff.mp h with h | h
  · exact max_eq_left h.le
  · exact absurd h (lt_irrefl 0)

theorem depth_le_size (z : Zone) (candle : Candle) : z.depth candle ≤ z.size := by
  have hlow : z.bottom ≤ max candle.low z.bottom := le_max_right _ _
  have hhigh : min candle.high z.top ≤ z.top := min_le_right _ _
  apply le_max_of_le_left
  unfold depth
  cases z.direction with
  | bullish => exact sub_le_sub_left hlow _
  | bearish => exact sub_le_sub_right hhigh _

/-- An engulfing candle touches the zone and fills it in the same step. -/
theorem touches_of_engulfs (hsize : 0 < z.size) (h : z.Engulfs candle) :
    z.Touches candle ∧ z.depth candle = z.size := by
  have hwide := size_eq hsize
  obtain ⟨hlow, hhigh⟩ := h
  have hbottom : max candle.low z.bottom = z.bottom := max_eq_right hlow
  have htop : min candle.high z.top = z.top := min_eq_right hhigh
  constructor
  · rw [Touches, hbottom, htop]
    linarith
  · unfold depth
    cases z.direction with
    | bullish => simp only [hbottom, hwide]
    | bearish => simp only [htop, hwide]

end Zone

/-! ## Layer B: The loop, and the loop that is never left -/

namespace ZoneFill

/-- What a candle that touches the zone makes of the state. -/
def touched (z : Zone) (s : ZoneFill) (candle : Candle) : ZoneFill :=
  { s with
    deepestFill := max s.deepestFill (z.depth candle)
    invalidated := s.invalidated || decide (z.Engulfs candle) }

/-- The outcome of the zone is settled. -/
def Settled (z : Zone) (s : ZoneFill) : Prop :=
  s.invalidated = true ∨ (z.size ≠ 0 ∧ s.deepestFill ≥ z.size)

instance (z : Zone) (s : ZoneFill) : Decidable (s.Settled z) :=
  inferInstanceAs (Decidable (s.invalidated = true ∨ (z.size ≠ 0 ∧ s.deepestFill ≥ z.size)))

/-- `mitigated_index` is written once. -/
def settledAt (z : Zone) (s : ZoneFill) (i : ℕ) : ZoneFill :=
  if s.settledIndex = none ∧ s.Settled z then { s with settledIndex := some i } else s

theorem deepestFill_settledAt (z : Zone) (s : ZoneFill) (i : ℕ) :
    (s.settledAt z i).deepestFill = s.deepestFill := by
  unfold settledAt
  split <;> rfl

end ZoneFill

/-- The loop of `update_mitigation` without its `break`: every later candle is scanned. -/
def scanZone (z : Zone) : ZoneFill → List (Candle × ℕ) → ZoneFill
  | s, [] => s
  | s, (candle, i) :: rest =>
    if z.Touches candle then scanZone z ((s.touched z candle).settledAt z i) rest
    else scanZone z s rest

section Loop

variable {z : Zone} {s : ZoneFill} {candle : Candle} {i : ℕ} {entries rest : List (Candle × ℕ)}

/-- The loop as it is written, in the words of Layer A. -/
theorem fillZone_cons (z : Zone) (s : ZoneFill) (candle : Candle) (i : ℕ)
    (rest : List (Candle × ℕ)) :
    fillZone z.direction z.top z.bottom s ((candle, i) :: rest) =
      if z.Touches candle then
        if s.settledIndex = none ∧ (s.touched z candle).Settled z then
          { s.touched z candle with settledIndex := some i }
        else fillZone z.direction z.top z.bottom (s.touched z candle) rest
      else fillZone z.direction z.top z.bottom s rest := by
  rw [fillZone.eq_def]
  dsimp only
  by_cases htouch : z.Touches candle
  · have hoverlap : ¬ min candle.high z.top ≤ max candle.low z.bottom := not_le.mpr htouch
    rw [if_neg hoverlap, if_pos htouch]
    rfl
  · have hoverlap : min candle.high z.top ≤ max candle.low z.bottom := not_lt.mp htouch
    rw [if_pos hoverlap, if_neg htouch]

/-- The scan only deepens, keeps its flag, and keeps the candle that settled the zone. -/
structure ZoneFill.Grows (s s' : ZoneFill) : Prop where
  deepest : s.deepestFill ≤ s'.deepestFill
  invalidated : s.invalidated = true → s'.invalidated = true
  settled : ∀ i, s.settledIndex = some i → s'.settledIndex = some i

theorem ZoneFill.Grows.refl (s : ZoneFill) : s.Grows s := ⟨le_refl _, id, fun _ => id⟩

theorem ZoneFill.Grows.trans {s s' s'' : ZoneFill} (h : s.Grows s') (h' : s'.Grows s'') :
    s.Grows s'' where
  deepest := h.deepest.trans h'.deepest
  invalidated hs := h'.invalidated (h.invalidated hs)
  settled i hs := h'.settled i (h.settled i hs)

theorem ZoneFill.grows_touched (z : Zone) (s : ZoneFill) (candle : Candle) :
    s.Grows (s.touched z candle) where
  deepest := le_max_left _ _
  invalidated hs := by simp [touched, hs]
  settled _ := id

theorem grows_fillZone (z : Zone) (s : ZoneFill) (entries : List (Candle × ℕ)) :
    s.Grows (fillZone z.direction z.top z.bottom s entries) := by
  induction entries generalizing s with
  | nil => exact .refl s
  | cons entry rest ih =>
    obtain ⟨candle, i⟩ := entry
    have htouched := s.grows_touched z candle
    rw [fillZone_cons]
    split
    · split
      · next hsettled =>
        exact ⟨htouched.deepest, htouched.invalidated, fun j hj => by simp [hsettled.1] at hj⟩
      · exact htouched.trans (ih _)
    · exact ih s

/-- More candles behind the series. -/
theorem fillZone_append_grows (z : Zone) (s : ZoneFill) (entries more : List (Candle × ℕ)) :
    (fillZone z.direction z.top z.bottom s entries).Grows
      (fillZone z.direction z.top z.bottom s (entries ++ more)) := by
  induction entries generalizing s with
  | nil => exact grows_fillZone z s more
  | cons entry rest ih =>
    obtain ⟨candle, i⟩ := entry
    rw [List.cons_append, fillZone_cons, fillZone_cons]
    split
    · split
      · exact .refl _
      · exact ih _
    · exact ih s

theorem ZoneFill.grows_settledAt (z : Zone) (s : ZoneFill) (i : ℕ) : s.Grows (s.settledAt z i) := by
  unfold settledAt
  split
  · next hnone =>
    exact ⟨le_refl _, id, fun j hj => absurd (hnone.1.symm.trans hj) nofun⟩
  · exact .refl s

theorem grows_scanZone (z : Zone) (s : ZoneFill) (entries : List (Candle × ℕ)) :
    s.Grows (scanZone z s entries) := by
  induction entries generalizing s with
  | nil => exact .refl s
  | cons entry rest ih =>
    obtain ⟨candle, i⟩ := entry
    rw [scanZone]
    split
    · apply (s.grows_touched z candle).trans
      apply ((s.touched z candle).grows_settledAt z i).trans
      exact ih _
    · exact ih s

/-- How deep the full scan finds the zone filled. -/
theorem deepestFill_scanZone_le_iff {x : ℚ} :
    (scanZone z s entries).deepestFill ≤ x ↔
      s.deepestFill ≤ x ∧ ∀ entry ∈ entries, z.Touches entry.1 → z.depth entry.1 ≤ x := by
  induction entries generalizing s with
  | nil => simp [scanZone]
  | cons entry rest ih =>
    obtain ⟨candle, i⟩ := entry
    rw [scanZone]
    by_cases htouch : z.Touches candle
    · simp [htouch, ih, ZoneFill.deepestFill_settledAt, ZoneFill.touched, and_assoc]
    · simp [htouch, ih]

/-! A zone that comes in afresh: nothing filled, no flag, no index. -/

/-- A zone that is not settled yet. -/
structure ZoneFill.Open (z : Zone) (s : ZoneFill) : Prop where
  unsettled : s.settledIndex = none
  standing : s.invalidated = false
  unfilled : s.deepestFill < z.size

/-- A candle settles an open zone by filling it, and by nothing less. -/
theorem ZoneFill.Open.touched (hsize : 0 < z.size) (h : s.Open z) (candle : Candle) :
    ((s.touched z candle).Settled z ∧ (s.touched z candle).deepestFill = z.size) ∨
      ¬ (s.touched z candle).Settled z ∧ (s.touched z candle).Open z := by
  have hle : (s.touched z candle).deepestFill ≤ z.size :=
    max_le h.unfilled.le (z.depth_le_size candle)
  by_cases hsettled : (s.touched z candle).Settled z
  · refine Or.inl ⟨hsettled, le_antisymm hle ?_⟩
    rcases hsettled with hinvalid | ⟨-, hfull⟩
    · -- The candle engulfs the zone.
      have hengulf : z.Engulfs candle := by simpa [ZoneFill.touched, h.standing] using hinvalid
      rw [← (Zone.touches_of_engulfs hsize hengulf).2]
      exact le_max_right _ _
    · exact hfull
  · refine Or.inr ⟨hsettled, h.unsettled, ?_, ?_⟩
    · by_contra hinvalid
      exact hsettled (Or.inl (by simpa using hinvalid))
    · by_contra hfull
      exact hsettled (Or.inr ⟨hsize.ne', not_lt.mp hfull⟩)

/-- What is read of the two loops is the same, and whatever is invalidated is filled. -/
theorem fillZone_fresh (entries : List (Candle × ℕ)) (hsize : 0 < z.size) (h : s.Open z) :
    (fillZone z.direction z.top z.bottom s entries).deepestFill =
        (scanZone z s entries).deepestFill ∧
      (fillZone z.direction z.top z.bottom s entries).settledIndex =
        (scanZone z s entries).settledIndex ∧
      ((fillZone z.direction z.top z.bottom s entries).invalidated = true →
        (fillZone z.direction z.top z.bottom s entries).deepestFill = z.size) ∧
      ((scanZone z s entries).invalidated = true →
        (scanZone z s entries).deepestFill = z.size) := by
  induction entries generalizing s with
  | nil => simp [fillZone, scanZone, h.standing]
  | cons entry rest ih =>
    obtain ⟨candle, i⟩ := entry
    rw [fillZone_cons, scanZone]
    by_cases htouch : z.Touches candle
    · rw [if_pos htouch, if_pos htouch]
      rcases h.touched hsize candle with ⟨hsettled, hfull⟩ | ⟨hopen, hstill⟩
      · -- The loop is left here, and the scan finds nothing deeper and no earlier index.
        have hnow : (s.touched z candle).settledIndex = none ∧ (s.touched z candle).Settled z :=
          ⟨h.unsettled, hsettled⟩
        rw [if_pos ⟨h.unsettled, hsettled⟩, ZoneFill.settledAt, if_pos hnow]
        have hgrows := grows_scanZone z { s.touched z candle with settledIndex := some i } rest
        have hbound :
            (scanZone z { s.touched z candle with settledIndex := some i } rest).deepestFill ≤
            z.size :=
          deepestFill_scanZone_le_iff.mpr ⟨hfull.le, fun entry _ _ => z.depth_le_size entry.1⟩
        have hscan := le_antisymm hbound (hfull.symm.le.trans hgrows.deepest)
        exact ⟨hfull.trans hscan.symm, (hgrows.settled i rfl).symm, fun _ => hfull, fun _ => hscan⟩
      · have hnot : ¬ ((s.touched z candle).settledIndex = none ∧ (s.touched z candle).Settled z) :=
          fun hnow => hopen hnow.2
        rw [if_neg fun hnow => hopen hnow.2, ZoneFill.settledAt, if_neg hnot]
        exact ih hstill
    · rw [if_neg htouch, if_neg htouch]
      exact ih h

end Loop

namespace ZoneFill

variable {z : Zone} {s s' : ZoneFill} {entries more : List (Candle × ℕ)}

/-- `mitigated = filled_percentage >= 1.0 or invalidated`. -/
def mitigated (z : Zone) (s : ZoneFill) : Bool :=
  decide (s.filledPercentage z.size ≥ 1) || s.invalidated

theorem filledPercentage_eq (hsize : 0 < z.size) (s : ZoneFill) :
    s.filledPercentage z.size = min (s.deepestFill / z.size) 1 := if_pos hsize.ne'

theorem filledPercentage_mono (hsize : 0 < z.size) (h : s.deepestFill ≤ s'.deepestFill) :
    s.filledPercentage z.size ≤ s'.filledPercentage z.size := by
  rw [filledPercentage_eq hsize, filledPercentage_eq hsize]
  apply min_le_min_right
  gcongr

theorem one_le_filledPercentage_iff (hsize : 0 < z.size) :
    1 ≤ s.filledPercentage z.size ↔ z.size ≤ s.deepestFill := by
  rw [filledPercentage_eq hsize, le_min_iff, one_le_div hsize]
  simp

theorem Grows.mitigated (hsize : 0 < z.size) (h : s.Grows s') (hs : s.mitigated z = true) :
    s'.mitigated z = true := by
  simp only [ZoneFill.mitigated, Bool.or_eq_true, decide_eq_true_eq] at hs ⊢
  rcases hs with hfull | hinvalid
  · exact Or.inl (hfull.le.trans (filledPercentage_mono hsize h.deepest))
  · exact Or.inr (h.invalidated hinvalid)

/-- What is invalidated is filled, so the flag adds nothing. -/
theorem mitigated_of_filled (hsize : 0 < z.size)
    (h : s.invalidated = true → s.deepestFill = z.size) :
    s.mitigated z = decide (s.filledPercentage z.size ≥ 1) := by
  cases hinvalid : s.invalidated with
  | false => simp [mitigated, hinvalid]
  | true =>
    have hfull := (one_le_filledPercentage_iff hsize).mpr (h hinvalid).ge
    simp [mitigated, hfull]

/-- What the loop that is left tells of a zone as it was formed, beside the full scan. -/
theorem read_fillZone (entries : List (Candle × ℕ)) (hsize : 0 < z.size) :
    let fill := fillZone z.direction z.top z.bottom {} entries
    let scan := scanZone z {} entries
    fill.filledPercentage z.size = scan.filledPercentage z.size ∧
      fill.settledIndex = scan.settledIndex ∧ fill.mitigated z = scan.mitigated z := by
  intro fill scan
  have hopen : ZoneFill.Open z {} := ⟨rfl, rfl, hsize⟩
  obtain ⟨hdeepest, hsettled, hfill, hscan⟩ := fillZone_fresh entries hsize hopen
  have hpercent : fill.filledPercentage z.size = scan.filledPercentage z.size := by
    rw [filledPercentage, filledPercentage, hdeepest]
  refine ⟨hpercent, hsettled, ?_⟩
  rw [mitigated_of_filled hsize hfill, mitigated_of_filled hsize hscan, hpercent]

end ZoneFill

/-! ## Layer C: Gaps and blocks -/

/-- The candles after index `k`. -/
def laterEntries (candles : List Candle) (k : ℕ) : List (Candle × ℕ) :=
  candles.zipIdx.drop (k + 1)

/-- A longer series has more of them. -/
theorem laterEntries_append (candles more : List Candle) (k : ℕ) :
    ∃ news, laterEntries (candles ++ more) k = laterEntries candles k ++ news := by
  unfold laterEntries
  rw [List.zipIdx_append, List.drop_append]
  exact ⟨_, rfl⟩

namespace FairValueGap

def zone (g : FairValueGap) : Zone := { direction := g.direction, top := g.top, bottom := g.bottom }

/-- `update_mitigation` of one gap, scanning every later candle. -/
def scanMitigation (candles : List Candle) (gap : FairValueGap) : FairValueGap :=
  let fill := scanZone gap.zone { invalidated := gap.invalidated }
    (laterEntries candles gap.createdIndex)
  let filledPercentage := fill.filledPercentage gap.size
  { gap with
    invalidated := fill.invalidated
    filledPercentage := filledPercentage
    mitigated := decide (filledPercentage ≥ 1) || fill.invalidated }

/-- What is read of a gap does not fall back. -/
structure Kept (g g' : FairValueGap) : Prop where
  mitigated : g.mitigated = true → g'.mitigated = true
  filled : g.filledPercentage ≤ g'.filledPercentage

/-- The gap as the detector forms it. -/
structure AsFormed (g : FairValueGap) : Prop where
  standing : g.invalidated = false
  unmitigated : g.mitigated = false
  unfilled : g.filledPercentage = 0

/-- The early exit changes nothing that is read, now and when more candles are there. -/
structure MitigationExact (candles : List Candle) (gap : FairValueGap) : Prop where
  mitigated : (gap.updateMitigation candles).mitigated = (gap.scanMitigation candles).mitigated
  filled : (gap.updateMitigation candles).filledPercentage =
    (gap.scanMitigation candles).filledPercentage
  kept : ∀ more, Kept (gap.updateMitigation candles) (gap.updateMitigation (candles ++ more))

end FairValueGap

namespace OrderBlock

def zone (b : OrderBlock) : Zone := { direction := b.direction, top := b.top, bottom := b.bottom }

/-- `update_mitigation` of one block, scanning every later candle. -/
def scanMitigation (candles : List Candle) (block : OrderBlock) : OrderBlock :=
  let fill := scanZone block.zone
    { invalidated := block.invalidated, settledIndex := block.mitigatedIndex }
    (laterEntries candles block.causedEventIndex)
  let filledPercentage := fill.filledPercentage block.size
  let mitigated := decide (filledPercentage ≥ 1) || fill.invalidated
  { block with
    invalidated := fill.invalidated
    filledPercentage := filledPercentage
    mitigated := mitigated
    mitigatedIndex := if mitigated then fill.settledIndex else none }

/-- What is read of a block does not fall back. -/
structure Kept (b b' : OrderBlock) : Prop where
  mitigated : b.mitigated = true → b'.mitigated = true
  filled : b.filledPercentage ≤ b'.filledPercentage
  index : ∀ i, b.mitigatedIndex = some i → b'.mitigatedIndex = some i

structure AsFormed (b : OrderBlock) : Prop where
  standing : b.invalidated = false
  unmitigated : b.mitigated = false
  unfilled : b.filledPercentage = 0
  unsettled : b.mitigatedIndex = none

structure MitigationExact (candles : List Candle) (block : OrderBlock) : Prop where
  mitigated : (block.updateMitigation candles).mitigated = (block.scanMitigation candles).mitigated
  filled : (block.updateMitigation candles).filledPercentage =
    (block.scanMitigation candles).filledPercentage
  index : (block.updateMitigation candles).mitigatedIndex =
    (block.scanMitigation candles).mitigatedIndex
  kept : ∀ more, Kept (block.updateMitigation candles) (block.updateMitigation (candles ++ more))

end OrderBlock

section Formed

variable {candles : List Candle}

namespace FairValueGap

variable {gap : FairValueGap}

/-- The loop of a gap as it was formed. -/
def fillFrom (candles : List Candle) (gap : FairValueGap) : ZoneFill :=
  fillZone gap.zone.direction gap.zone.top gap.zone.bottom {}
    (laterEntries candles gap.createdIndex)

theorem AsFormed.updateMitigation_eq (h : gap.AsFormed) (candles : List Candle) :
    gap.updateMitigation candles =
      { gap with
        invalidated := (gap.fillFrom candles).invalidated
        filledPercentage := (gap.fillFrom candles).filledPercentage gap.zone.size
        mitigated := (gap.fillFrom candles).mitigated gap.zone } := by
  rw [updateMitigation, h.standing]
  rfl

theorem fillFrom_append_grows (candles more : List Candle) (gap : FairValueGap) :
    (gap.fillFrom candles).Grows (gap.fillFrom (candles ++ more)) := by
  obtain ⟨news, hnews⟩ := laterEntries_append candles more gap.createdIndex
  rw [fillFrom, fillFrom, hnews]
  exact fillZone_append_grows gap.zone _ _ _

theorem AsFormed.mitigationExact (h : gap.AsFormed) (hsize : 0 < gap.size) :
    gap.MitigationExact candles := by
  have hzone : 0 < gap.zone.size := hsize
  -- The early exit reads as the full scan does on the zone.
  obtain ⟨hfilled, -, hmitigated⟩ := ZoneFill.read_fillZone
    (laterEntries candles gap.createdIndex) hzone
  have hscan : gap.scanMitigation candles =
      { gap with
        invalidated := (scanZone gap.zone {} (laterEntries candles gap.createdIndex)).invalidated
        filledPercentage := (scanZone gap.zone {}
          (laterEntries candles gap.createdIndex)).filledPercentage gap.zone.size
        mitigated := (scanZone gap.zone {}
          (laterEntries candles gap.createdIndex)).mitigated gap.zone } := by
    rw [scanMitigation, h.standing]
    rfl
  constructor
  · rw [h.updateMitigation_eq, hscan]
    exact hmitigated
  · rw [h.updateMitigation_eq, hscan]
    exact hfilled
  · -- A longer series scans more candles, and nothing falls back.
    intro more
    have hgrows := gap.fillFrom_append_grows candles more
    rw [h.updateMitigation_eq, h.updateMitigation_eq]
    exact ⟨hgrows.mitigated hzone, ZoneFill.filledPercentage_mono hzone hgrows.deepest⟩

end FairValueGap

theorem asFormed_of_mem_foundGaps {minGapPct : ℚ} {timeframe : String} {gap : FairValueGap}
    (h : gap ∈ foundGaps candles minGapPct timeframe) : gap.AsFormed := by
  obtain ⟨i, -, hgap⟩ := List.mem_flatMap.mp h
  rw [gapsAt] at hgap
  split at hgap
  · rcases List.mem_append.mp hgap with hgap | hgap
    · obtain ⟨-, rfl⟩ := by simpa only [List.mem_ite_nil_right, List.mem_singleton] using hgap
      exact ⟨rfl, rfl, rfl⟩
    · obtain ⟨-, rfl⟩ := by simpa only [List.mem_ite_nil_right, List.mem_singleton] using hgap
      exact ⟨rfl, rfl, rfl⟩
  · cases hgap

namespace OrderBlock

variable {block : OrderBlock}

/-- The loop of a block as it was formed. -/
def fillFrom (candles : List Candle) (block : OrderBlock) : ZoneFill :=
  fillZone block.zone.direction block.zone.top block.zone.bottom {}
    (laterEntries candles block.causedEventIndex)

/-- A block with what its loop found written down. -/
def recorded (block : OrderBlock) (fill : ZoneFill) : OrderBlock :=
  { block with
    invalidated := fill.invalidated
    filledPercentage := fill.filledPercentage block.zone.size
    mitigated := fill.mitigated block.zone
    mitigatedIndex := if fill.mitigated block.zone then fill.settledIndex else none }

theorem AsFormed.updateMitigation_eq (h : block.AsFormed) (candles : List Candle) :
    block.updateMitigation candles = block.recorded (block.fillFrom candles) := by
  rw [updateMitigation, h.standing, h.unsettled]
  rfl

theorem fillFrom_append_grows (candles more : List Candle) (block : OrderBlock) :
    (block.fillFrom candles).Grows (block.fillFrom (candles ++ more)) := by
  obtain ⟨news, hnews⟩ := laterEntries_append candles more block.causedEventIndex
  rw [fillFrom, fillFrom, hnews]
  exact fillZone_append_grows block.zone _ _ _

theorem kept_of_grows (hsize : 0 < block.zone.size) {fill fill' : ZoneFill}
    (h : fill.Grows fill') : Kept (block.recorded fill) (block.recorded fill') where
  mitigated := h.mitigated hsize
  filled := ZoneFill.filledPercentage_mono hsize h.deepest
  index i hi := by
    simp only [recorded] at hi ⊢
    split at hi
    · next hmitigated =>
      rw [if_pos (h.mitigated hsize hmitigated)]
      exact h.settled i hi
    · cases hi

theorem AsFormed.mitigationExact (h : block.AsFormed) (hsize : 0 < block.size) :
    block.MitigationExact candles := by
  have hzone : 0 < block.zone.size := hsize
  obtain ⟨hfilled, hsettled, hmitigated⟩ := ZoneFill.read_fillZone
    (laterEntries candles block.causedEventIndex) hzone
  have hscan : block.scanMitigation candles = block.recorded (scanZone block.zone {}
      (laterEntries candles block.causedEventIndex)) := by
    rw [scanMitigation, h.standing, h.unsettled]
    rfl
  constructor
  · rw [h.updateMitigation_eq, hscan]
    exact hmitigated
  · rw [h.updateMitigation_eq, hscan]
    exact hfilled
  · rw [h.updateMitigation_eq, hscan]
    simp only [recorded, fillFrom, hsettled, hmitigated]
  · intro more
    rw [h.updateMitigation_eq, h.updateMitigation_eq]
    exact kept_of_grows hzone (block.fillFrom_append_grows candles more)

end OrderBlock

theorem asFormed_of_blockOf {fvgs : List FairValueGap} {lookbackCandles : ℕ}
    {event : StructureEvent} {block : OrderBlock}
    (h : blockOf candles fvgs lookbackCandles event = some block) : block.AsFormed := by
  rw [blockOf] at h
  split at h
  · cases h
    exact ⟨rfl, rfl, rfl, rfl⟩
  · cases h

end Formed

/-- **The early exit** changes nothing that is read: of every zone of some size, as the detectors
form it and hand it to `update_mitigation`, the loop that is left tells what the full scan tells,
and on a longer series nothing of it falls back. -/
theorem updateMitigation_exact (candles : List Candle) :
    (∀ gap : FairValueGap, gap.AsFormed → 0 < gap.size → gap.MitigationExact candles) ∧
    (∀ block : OrderBlock, block.AsFormed → 0 < block.size → block.MitigationExact candles) ∧
    (∀ minGapPct timeframe, ∀ gap ∈ foundGaps candles minGapPct timeframe, gap.AsFormed) ∧
    ∀ fvgs lookbackCandles event block,
      blockOf candles fvgs lookbackCandles event = some block → block.AsFormed :=
  ⟨fun _ hformed hsize => hformed.mitigationExact hsize,
    fun _ hformed hsize => hformed.mitigationExact hsize,
    fun _ _ _ hgap => asFormed_of_mem_foundGaps hgap,
    fun _ _ _ _ hblock => asFormed_of_blockOf hblock⟩

/-- A gap from 100 to 110, formed by the first three candles. -/
def sampleGap : FairValueGap :=
  { direction := .bullish, top := 110, bottom := 100, createdIndex := 2, createdAt := 60000000 }

def sampleBlock : OrderBlock :=
  { direction := .bullish
    top := 110
    bottom := 100
    createdIndex := 1
    createdAt := 60000000
    strength := 1
    causedEventIndex := 2 }

/-- The fourth candle fills the gap by half, the fifth engulfs it. -/
def engulfing : List Candle :=
  [barAt 0 0 100 90 98, barAt 0 1 112 97 111, barAt 0 2 120 110 118, barAt 0 3 119 105 115,
    barAt 0 4 118 95 97]

theorem updateMitigation_exact_engulfing :
    sampleGap.MitigationExact engulfing ∧ sampleBlock.MitigationExact engulfing ∧
      (sampleGap.updateMitigation engulfing).filledPercentage = 1 :=
  ⟨(updateMitigation_exact engulfing).1 sampleGap ⟨rfl, rfl, rfl⟩ (by decide +kernel),
    (updateMitigation_exact engulfing).2.1 sampleBlock ⟨rfl, rfl, rfl, rfl⟩ (by decide +kernel),
    by decide +kernel⟩

end SuperTrading.Smc
