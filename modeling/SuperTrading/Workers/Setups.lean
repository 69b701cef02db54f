import SuperTrading.Logic.HighWater
import SuperTrading.Logic.Runs
import SuperTrading.Logic.Upsert
import SuperTrading.Smc.Engine

/-!
# Journaled Setups

`ScannerWorker._persist_new_setups`: every pass analyzes the whole series again and writes the
detections whose type and instant the `setups` table lacks. The table is read once, before the
pass writes, so two detections of one pass that share a type and an instant are both written.

- **Layer A**: the candidates of a pass, and what is written
- **Layer B**: runs
-/

namespace SuperTrading

open SuperTrading.Logic
open Smc (Candle SMCContext StructureEvent FairValueGap OrderBlock)

/-! ## Layer A: A pass -/

/-- A value of a `data` column. -/
inductive SetupValue
  | text (value : String)
  | number (value : ℚ)
  deriving DecidableEq, Repr

structure SetupCandidate where
  setupType : String
  detectedAt : Timestamp
  data : List (String × SetupValue)
  deriving DecidableEq, Repr

/-- A row of `setups`. -/
structure SetupRow extends SetupCandidate where
  instrumentId : String
  timeframe : String
  deriving DecidableEq, Repr

/-- What a detection is told apart by. -/
abbrev SetupKey := String × Timestamp

def SetupCandidate.key (c : SetupCandidate) : SetupKey := (c.setupType, c.detectedAt)

/-- With the series it is detected in. -/
def SetupRow.key (row : SetupRow) : String × String × SetupKey :=
  (row.instrumentId, row.timeframe, row.toSetupCandidate.key)

/-- `direction.value`. -/
def directionValue : Smc.Direction → SetupValue
  | .bullish => .text "BULLISH"
  | .bearish => .text "BEARISH"

/-- `event_type.value.lower()`. -/
def eventTypeLower : Smc.StructureEventType → String
  | .bos => "bos"
  | .choch => "choch"
  | .mss => "mss"

def structureSetup (event : StructureEvent) : SetupCandidate where
  setupType := "structure_" ++ eventTypeLower event.eventType
  detectedAt := event.timestamp
  data :=
    [("direction", directionValue event.direction), ("broken_price", .number event.brokenPrice),
      ("break_price", .number event.breakPrice)]

def gapSetup (fvg : FairValueGap) : SetupCandidate where
  setupType := "fair_value_gap"
  detectedAt := fvg.createdAt
  data :=
    [("direction", directionValue fvg.direction), ("top", .number fvg.top),
      ("bottom", .number fvg.bottom)]

def blockSetup (orderBlock : OrderBlock) : SetupCandidate where
  setupType := "order_block"
  detectedAt := orderBlock.createdAt
  data :=
    [("direction", directionValue orderBlock.direction), ("top", .number orderBlock.top),
      ("bottom", .number orderBlock.bottom), ("strength", .number orderBlock.strength)]

def setupCandidates (smc : SMCContext) : List SetupCandidate :=
  smc.structureEvents.map structureSetup ++ smc.fairValueGaps.map gapSetup ++
    smc.orderBlocks.map blockSetup

def SetupCandidate.row (instrumentId timeframe : String) (c : SetupCandidate) : SetupRow :=
  { c with
    instrumentId := instrumentId
    timeframe := timeframe }

/-- The `existing` combinations: those of the series, from the earliest candidate on. -/
def existingSetups (instrumentId timeframe : String) (minDetectedAt : Timestamp)
    (rows : List SetupRow) : List SetupKey :=
  (rows.filter fun row => row.instrumentId = instrumentId ∧ row.timeframe = timeframe ∧
    minDetectedAt ≤ row.detectedAt).map fun row => row.toSetupCandidate.key

/-- `_persist_new_setups`. -/
def persistNewSetups (instrumentId timeframe : String) (smc : SMCContext) (rows : List SetupRow) :
    List SetupRow :=
  match setupCandidates smc with
  | [] => rows
  | first :: rest =>
    let minDetectedAt := (rest.map SetupCandidate.detectedAt).foldl min first.detectedAt
    let existing := existingSetups instrumentId timeframe minDetectedAt rows
    rows ++ ((first :: rest).filter fun c => c.key ∉ existing).map
      (SetupCandidate.row instrumentId timeframe)

variable {instrumentId timeframe : String} {smc : SMCContext} {rows : List SetupRow}

theorem mem_existingSetups {minDetectedAt : Timestamp} {c : SetupCandidate}
    (hmin : minDetectedAt ≤ c.detectedAt) :
    c.key ∈ existingSetups instrumentId timeframe minDetectedAt rows ↔
      (c.row instrumentId timeframe).key ∈ rows.map SetupRow.key := by
  unfold existingSetups
  simp only [List.mem_map, List.mem_filter, decide_eq_true_eq]
  refine exists_congr fun row => ?_
  constructor
  · rintro ⟨⟨hmem, hinstrument, htimeframe, -⟩, hkey⟩
    refine ⟨hmem, ?_⟩
    rw [SetupRow.key, hinstrument, htimeframe, hkey]
    rfl
  · rintro ⟨hmem, hkey⟩
    obtain ⟨hinstrument, hrest⟩ := Prod.mk.inj hkey
    obtain ⟨htimeframe, hcombination⟩ := Prod.mk.inj hrest
    obtain ⟨-, hdetected⟩ := Prod.mk.inj hcombination
    exact ⟨⟨hmem, hinstrument, htimeframe, hdetected.symm ▸ hmin⟩, hcombination⟩

/-- What is written is what the table lacks of the candidates. -/
theorem persistNewSetups_eq (instrumentId timeframe : String) (smc : SMCContext)
    (rows : List SetupRow) :
    ∃ existing, persistNewSetups instrumentId timeframe smc rows =
        insertMissing SetupRow.key existing rows
          ((setupCandidates smc).map (SetupCandidate.row instrumentId timeframe)) ∧
      ∀ row ∈ (setupCandidates smc).map (SetupCandidate.row instrumentId timeframe),
        row.key ∈ existing ↔ row.key ∈ rows.map SetupRow.key := by
  unfold persistNewSetups
  cases hcandidates : setupCandidates smc with
  -- Without candidates nothing is read.
  | nil =>
    refine ⟨[], ?_, fun _ h => nomatch h⟩
    simp [insertMissing]
  -- The rows read are those from the earliest candidate on.
  | cons first rest =>
    set minDetectedAt := (rest.map SetupCandidate.detectedAt).foldl min first.detectedAt
    have hmin : ∀ c ∈ first :: rest, minDetectedAt ≤ c.detectedAt := fun c hc =>
      (foldl_min_spec _ first.detectedAt).2 c.detectedAt (List.mem_map_of_mem hc)
    -- What is read is of this series, so that its combinations say all there is to know.
    set existing := existingSetups instrumentId timeframe minDetectedAt rows
    have hkey : ∀ c : SetupCandidate,
        (c.row instrumentId timeframe).key ∈ existing.map (instrumentId, timeframe, ·) ↔
          c.key ∈ existing := by
      intro c
      rw [List.mem_map]
      constructor
      · rintro ⟨k, hk, heq⟩
        cases heq
        exact hk
      · exact fun hc => ⟨c.key, hc, rfl⟩
    refine ⟨existing.map (instrumentId, timeframe, ·), ?_, ?_⟩
    · rw [insertMissing, List.filter_map]
      change rows ++ ((first :: rest).filter fun c => c.key ∉ existing).map _ = _
      have hmissing : ((first :: rest).filter fun c => c.key ∉ existing) =
          (first :: rest).filter ((fun row => decide
            (SetupRow.key row ∉ existing.map (instrumentId, timeframe, ·))) ∘
              SetupCandidate.row instrumentId timeframe) :=
        List.filter_congr fun c _ => decide_eq_decide.mpr (not_congr (hkey c).symm)
      exact congrArg (rows ++ List.map _ ·) hmissing
    · intro row hrow
      obtain ⟨c, hc, rfl⟩ := List.mem_map.mp hrow
      exact (hkey c).trans (mem_existingSetups (hmin c hc))

/-! ## Layer B: Runs -/

/-- The `setups` table, the series as far as it has come, and the combinations of all candidates
so far. -/
structure ScanWorld where
  rows : List SetupRow
  candles : List Candle := []
  seen : List SetupKey := []

namespace ScanWorld

/-- The candidates of a pass, once these candles have come. A pass needs three candles. -/
def candidates (w : ScanWorld) (news : List Candle) : List SetupCandidate :=
  if (w.candles ++ news).length < 3 then []
  else
    match Smc.analyze {} (w.candles ++ news) with
    | .error _ => []
    | .ok smc => setupCandidates smc

/-- A pass over the series, once more of it has come. -/
def step (instrumentId timeframe : String) (w : ScanWorld) (news : List Candle) : ScanWorld where
  rows :=
    if (w.candles ++ news).length < 3 then w.rows
    else
      match Smc.analyze {} (w.candles ++ news) with
      | .error _ => w.rows
      | .ok smc => persistNewSetups instrumentId timeframe smc w.rows
  candles := w.candles ++ news
  seen := w.seen ++ (w.candidates news).map SetupCandidate.key

/-- One row for each combination among the candidates so far, and none for any other. -/
def JournaledOnce (instrumentId timeframe : String) (w : ScanWorld) : Prop :=
  ∀ k : SetupKey, (w.rows.map SetupRow.key).count (instrumentId, timeframe, k) =
    if k ∈ w.seen then 1 else 0

/-- No two candidates of the pass share a combination that the table lacks. -/
def DistinctMissing (instrumentId timeframe : String) (w : ScanWorld) (news : List Candle) : Prop :=
  ∀ k ∈ (w.candidates news).map SetupCandidate.key,
    (instrumentId, timeframe, k) ∉ w.rows.map SetupRow.key →
      ((w.candidates news).map SetupCandidate.key).count k ≤ 1

instance (w : ScanWorld) (news : List Candle) :
    Decidable (w.DistinctMissing instrumentId timeframe news) :=
  inferInstanceAs (Decidable (∀ k ∈ _, _ → _))

variable {w : ScanWorld} {news : List Candle}

/-- What a pass writes, by its candidates. -/
theorem rows_step (instrumentId timeframe : String) (w : ScanWorld) (news : List Candle) :
    ∃ existing, (w.step instrumentId timeframe news).rows =
        insertMissing SetupRow.key existing w.rows
          ((w.candidates news).map (SetupCandidate.row instrumentId timeframe)) ∧
      ∀ row ∈ (w.candidates news).map (SetupCandidate.row instrumentId timeframe),
        row.key ∈ existing ↔ row.key ∈ w.rows.map SetupRow.key := by
  have hnothing : ∃ existing, w.rows = insertMissing SetupRow.key existing w.rows
        (([] : List SetupCandidate).map (SetupCandidate.row instrumentId timeframe)) ∧
      ∀ row ∈ ([] : List SetupCandidate).map (SetupCandidate.row instrumentId timeframe),
        row.key ∈ existing ↔ row.key ∈ w.rows.map SetupRow.key :=
    ⟨[], by simp [insertMissing], fun _ h => nomatch h⟩
  unfold step candidates
  split_ifs
  · exact hnothing
  · cases Smc.analyze {} (w.candles ++ news) with
    | error _ => exact hnothing
    | ok smc => exact persistNewSetups_eq instrumentId timeframe smc w.rows

theorem count_row_key (k : SetupKey) (cs : List SetupCandidate) :
    ((cs.map (SetupCandidate.row instrumentId timeframe)).map SetupRow.key).count
        (instrumentId, timeframe, k) = (cs.map SetupCandidate.key).count k := by
  rw [List.map_map, List.count_eq_countP, List.count_eq_countP, List.countP_map, List.countP_map]
  refine List.countP_congr fun c _ => ?_
  simp [SetupRow.key, SetupCandidate.row]

/-- **A pass keeps one row for each combination exactly if no two of its candidates share one that
the table lacks.** -/
theorem JournaledOnce.step_iff (h : w.JournaledOnce instrumentId timeframe) :
    (w.step instrumentId timeframe news).JournaledOnce instrumentId timeframe ↔
      w.DistinctMissing instrumentId timeframe news := by
  obtain ⟨existing, hrows, hexisting⟩ := rows_step instrumentId timeframe w news
  have hkey : ∀ k : SetupKey,
      ((w.step instrumentId timeframe news).rows.map SetupRow.key).count
        (instrumentId, timeframe, k) =
          (if k ∈ (w.step instrumentId timeframe news).seen then 1 else 0) ↔
        ((instrumentId, timeframe, k) ∉ w.rows.map SetupRow.key →
          ((w.candidates news).map SetupCandidate.key).count k ≤ 1) := by
    intro k
    have hnews : (instrumentId, timeframe, k) ∈
        ((w.candidates news).map (SetupCandidate.row instrumentId timeframe)).map SetupRow.key ↔
          k ∈ (w.candidates news).map SetupCandidate.key := by
      rw [← List.count_pos_iff, count_row_key, List.count_pos_iff]
    have hseen : (if k ∈ (w.step instrumentId timeframe news).seen then 1 else 0) =
        if k ∈ w.seen ∨ (instrumentId, timeframe, k) ∈
          ((w.candidates news).map (SetupCandidate.row instrumentId timeframe)).map SetupRow.key
        then 1 else 0 :=
      if_congr (List.mem_append.trans (or_congr_right hnews.symm)) rfl rfl
    have hbatch := count_insertMissing_iff hexisting (h k)
    rw [count_row_key] at hbatch
    rwa [hseen, hrows]
  refine (forall_congr' hkey).trans ⟨fun hall k _ => hall k, fun hall k hmissing => ?_⟩
  -- A combination that no candidate has is written by none.
  by_cases hk : k ∈ (w.candidates news).map SetupCandidate.key
  · exact hall k hk hmissing
  · exact (List.count_eq_zero.mpr hk).trans_le (Nat.zero_le 1)

/-- **Setups are journaled once**, over all passes on a table that has nothing of the series yet,
exactly if in each pass no two candidates share a combination that the table lacks. -/
theorem setups_journaled_once (instrumentId timeframe : String) {rows : List SetupRow}
    (hnone : ∀ row ∈ rows, ¬ (row.instrumentId = instrumentId ∧ row.timeframe = timeframe))
    (passes : List (List Candle)) :
    Throughout (step instrumentId timeframe) (JournaledOnce instrumentId timeframe)
        { rows := rows } passes ↔
      Each (step instrumentId timeframe) (DistinctMissing instrumentId timeframe)
        { rows := rows } passes := by
  have hstart : ({ rows := rows } : ScanWorld).JournaledOnce instrumentId timeframe := by
    intro k
    rw [if_neg List.not_mem_nil, List.count_eq_zero]
    intro hmem
    obtain ⟨row, hrow, hkey⟩ := List.mem_map.mp hmem
    obtain ⟨hinstrument, hrest⟩ := Prod.mk.inj hkey
    exact hnone row hrow ⟨hinstrument, (Prod.mk.inj hrest).1⟩
  exact throughout_iff_each (I := fun _ => True) (fun _ _ _ _ _ => trivial)
    (fun _ _ _ h => h.step_iff) trivial hstart

/-- A minute at one price. -/
def flatMinute (minute : ℕ) (price : ℚ) : Candle where
  timestamp := minute * Timestamp.microsPerMinute
  «open» := price
  high := price + 1
  low := price - 1
  close := price

/-- A swing high, a falling minute, and a close above the swing high. -/
def oneBreak : List Candle :=
  [flatMinute 0 100, flatMinute 1 101, flatMinute 2 102, flatMinute 3 105, flatMinute 4 102,
    flatMinute 5 101, flatMinute 6 100, { flatMinute 7 100 with close := 99 }, flatMinute 8 107]

/-- That close is the next swing high, and is broken as well. -/
def secondBreak : List Candle :=
  [flatMinute 9 105, flatMinute 10 104, flatMinute 11 103, flatMinute 12 109]

/-- A pass before the second break finds one block at the falling minute, and one after it does
not write another. -/
theorem setups_journaled_once_of_two_passes :
    Throughout (step "NIFTY" "15m") (JournaledOnce "NIFTY" "15m") { rows := [] }
      [oneBreak, []] :=
  (setups_journaled_once "NIFTY" "15m" (by decide) [oneBreak, []]).mpr (by decide +kernel)

/-- Both breaks have the falling minute as the origin of their blocks, so that a pass over the whole
series writes it twice. -/
theorem one_origin_journaled_twice :
    let scanned := run (step "NIFTY" "15m") { rows := [] } [oneBreak ++ secondBreak]
    (scanned.rows.map SetupRow.key).count
        ("NIFTY", "15m", "order_block", 7 * Timestamp.microsPerMinute) = 2 ∧
      ¬ Throughout (step "NIFTY" "15m") (JournaledOnce "NIFTY" "15m") { rows := [] }
        [oneBreak ++ secondBreak] := by
  intro scanned
  have hcount : (scanned.rows.map SetupRow.key).count
      ("NIFTY", "15m", "order_block", 7 * Timestamp.microsPerMinute) = 2 := by decide +kernel
  refine ⟨hcount, fun h => ?_⟩
  have honce := h.last ("order_block", 7 * Timestamp.microsPerMinute)
  rw [hcount] at honce
  split_ifs at honce
  omega

end ScanWorld

end SuperTrading
