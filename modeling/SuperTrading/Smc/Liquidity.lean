import SuperTrading.Logic.Online
import SuperTrading.Logic.SortBy
import SuperTrading.Smc.Types
import Mathlib.Data.Finset.Dedup
import Mathlib.Data.Finset.Empty
import Mathlib.Data.Finset.Lattice.Basic
import Mathlib.Data.List.MinMax

/-!
# Liquidity

`app/smc/liquidity.py`: equal highs and lows, the extremes of the previous day and week,
and the candle that sweeps each of them.
-/

namespace SuperTrading.Smc

open SuperTrading.Logic

/-! ## Section 1: Equal highs and lows -/

/-- `bisect.bisect_left`, of a sorted list. -/
def bisectLeft (prices : List ℚ) (x : ℚ) : ℕ := (prices.takeWhile fun p => p < x).length

/-- `bisect.bisect_right`, of a sorted list. -/
def bisectRight (prices : List ℚ) (x : ℚ) : ℕ := (prices.takeWhile fun p => p ≤ x).length

/-- `anchor.price * (tolerance_pct / 100)`. -/
def bandWidth (tolerancePct : ℚ) (anchor : Swing) : ℚ := anchor.price * (tolerancePct / 100)

/-- The pool of a group, anchored at its last member. -/
def groupPool (side : LiquiditySide) (sourceType : LiquiditySourceType) (group : List Swing) :
    Option LiquidityPool :=
  (group.argmax Swing.index).map fun last =>
    { side := side
      sourceType := sourceType
      price := (group.map Swing.price).sum / group.length
      formedIndex := last.index
      formedTimestamp := last.timestamp
      memberIndices := sortBy id (group.map Swing.index) }

structure LevelState where
  used : Finset ℕ := ∅
  pools : List LiquidityPool := []

/-- One anchor of the loop of `detect_equal_levels`. -/
def LevelState.step (side : LiquiditySide) (sourceType : LiquiditySourceType) (tolerancePct : ℚ)
    (candidates : List Swing) (s : LevelState) (anchor : Swing) : LevelState :=
  if anchor.index ∈ s.used then s
  else
    let tolerance := bandWidth tolerancePct anchor
    let prices := candidates.map Swing.price
    let lo := bisectLeft prices (anchor.price - tolerance) - 1
    let hi := min candidates.length (bisectRight prices (anchor.price + tolerance) + 1)
    let group := ((candidates.take hi).drop lo).filter fun swing =>
      swing.index ∉ s.used ∧ |swing.price - anchor.price| ≤ tolerance
    if group.length < 2 then s
    else
      { used := s.used ∪ (group.map Swing.index).toFinset
        pools := s.pools ++ (groupPool side sourceType group).toList }

/-- `sorted((s for s in swings if s.swing_type == swing_type), key=lambda s: s.price)`. -/
def levelCandidates (swings : List Swing) (swingType : SwingType) : List Swing :=
  sortBy Swing.price (swings.filter fun swing => swing.swingType = swingType)

/-- One round of the outer loop. -/
def equalLevels (swings : List Swing) (tolerancePct : ℚ) (swingType : SwingType)
    (side : LiquiditySide) (sourceType : LiquiditySourceType) : List LiquidityPool :=
  let candidates := levelCandidates swings swingType
  (candidates.foldl (LevelState.step side sourceType tolerancePct candidates) {}).pools

def detectEqualLevels (swings : List Swing) (tolerancePct : ℚ := 5 / 100) : List LiquidityPool :=
  equalLevels swings tolerancePct .high .buySide .equalHighs ++
    equalLevels swings tolerancePct .low .sellSide .equalLows

/-! ## Section 2: The levels of the previous day and week -/

inductive Period
  | day
  | week
  deriving DecidableEq, Repr

namespace Period

def ofText : String → Option Period
  | "day" => some .day
  | "week" => some .week
  | _ => none

def bucketKey : Period → Candle → ℤ
  | .day => Candle.date
  | .week => Candle.isoWeek

def highSource : Period → LiquiditySourceType
  | .day => .previousDayHigh
  | .week => .previousWeekHigh

def lowSource : Period → LiquiditySourceType
  | .day => .previousDayLow
  | .week => .previousWeekLow

end Period

structure SessionState where
  pools : List LiquidityPool := []
  currentKey : ℤ
  periodHigh : ℚ
  periodLow : ℚ

def SessionState.start (period : Period) (first : Candle) : SessionState :=
  { currentKey := period.bucketKey first, periodHigh := first.high, periodLow := first.low }

def SessionState.step (period : Period) (s : SessionState) (entry : Candle × ℕ) : SessionState :=
  let candle := entry.1
  if period.bucketKey candle ≠ s.currentKey then
    let pool := fun side sourceType price =>
      { side := side
        sourceType := sourceType
        price := price
        formedIndex := entry.2
        formedTimestamp := candle.timestamp : LiquidityPool }
    { pools := s.pools ++
        [pool .buySide period.highSource s.periodHigh, pool .sellSide period.lowSource s.periodLow]
      currentKey := period.bucketKey candle
      periodHigh := candle.high
      periodLow := candle.low }
  else
    { s with periodHigh := max s.periodHigh candle.high, periodLow := min s.periodLow candle.low }

/-- `detect_session_levels` past its check. -/
def sessionLevels (candles : List Candle) (period : Period) : List LiquidityPool :=
  candles.head?.elim [] fun first =>
    (candles.zipIdx.foldl (SessionState.step period) (SessionState.start period first)).pools

def detectSessionLevels (candles : List Candle) (period : String := "day") :
    Except String (List LiquidityPool) :=
  match Period.ofText period with
  | none => .error "period must be 'day' or 'week'"
  | some period => .ok (sessionLevels candles period)

/-! ## Section 3: Sweeps -/

namespace LiquidityPool

/-- Does the candle trade through the level? -/
def isThrough (pool : LiquidityPool) (candle : Candle) : Bool :=
  match pool.side with
  | .buySide => candle.high > pool.price
  | .sellSide => candle.low < pool.price

/-- Does it close back on the side it came from? -/
def isRejectedBy (pool : LiquidityPool) (candle : Candle) : Bool :=
  match pool.side with
  | .buySide => candle.close < pool.price
  | .sellSide => candle.close > pool.price

/-- May the candle at an index sweep the pool? -/
def sweeps (pool : LiquidityPool) (entry : Candle × ℕ) : Bool :=
  decide (entry.2 ∉ pool.memberIndices) && pool.isThrough entry.1

def markSwept (pool : LiquidityPool) (entry : Candle × ℕ) : LiquidityPool :=
  { pool with
    swept := true
    sweptIndex := some entry.2
    sweptTimestamp := some entry.1.timestamp
    rejected := pool.isRejectedBy entry.1 }

end LiquidityPool

/-- `detect_sweeps` of one pool: the first candle from `formed_index` on that sweeps it. -/
def detectSweep (candles : List Candle) (pool : LiquidityPool) : LiquidityPool :=
  ((candles.zipIdx.drop pool.formedIndex).find? pool.sweeps).elim pool pool.markSwept

def detectSweeps (candles : List Candle) (pools : List LiquidityPool) : List LiquidityPool :=
  pools.map (detectSweep candles)

/-! ## Section 4: Session levels are found online -/

namespace LiquidityPool

/-- The pool as it was formed. -/
def unswept (pool : LiquidityPool) : LiquidityPool :=
  { pool with swept := false, sweptIndex := none, sweptTimestamp := none, rejected := false }

/-- No sweep is written to the pool yet. -/
def Fresh (pool : LiquidityPool) : Prop := pool.unswept = pool

/-- The pool as the candles before `k` leave it: a sweep from `k` on has not come yet. -/
def asOf (k : ℕ) (pool : LiquidityPool) : LiquidityPool :=
  if pool.sweptIndex.any fun i => i < k then pool else pool.unswept

end LiquidityPool

theorem sessionLevels_online (period : Period) :
    Online LiquidityPool.formedIndex fun candles => sessionLevels candles period := by
  apply online_foldl
  · intro candle
    rfl
  · intro s candle i
    simp only [SessionState.step]
    split
    · exact ⟨_, rfl, by simp⟩
    · exact ⟨[], by simp⟩

/-- What holds of each level as a period ends holds of all. -/
theorem forall_sessionLevels {period : Period} {P : LiquidityPool → Prop}
    (h : ∀ side sourceType price i timestamp,
      sourceType = period.highSource ∨ sourceType = period.lowSource →
        P { side := side, sourceType := sourceType, price := price, formedIndex := i
            formedTimestamp := timestamp })
    {candles : List Candle} {pool : LiquidityPool} (hpool : pool ∈ sessionLevels candles period) :
    P pool := by
  -- The pools are carried through the loop, which adds two as a period ends.
  have hloop : ∀ (entries : List (Candle × ℕ)) (s : SessionState), (∀ p ∈ s.pools, P p) →
      ∀ p ∈ (entries.foldl (SessionState.step period) s).pools, P p := by
    intro entries
    induction entries with
    | nil => exact fun s hs => hs
    | cons entry entries ih =>
      intro s hs
      apply ih
      simp only [SessionState.step]
      split
      · intro p hp
        rcases List.mem_append.mp hp with hp | hp
        · exact hs p hp
        · simp only [List.mem_cons, List.not_mem_nil, or_false] at hp
          rcases hp with rfl | rfl
          · exact h _ _ _ _ _ (.inl rfl)
          · exact h _ _ _ _ _ (.inr rfl)
      · exact hs
  -- The first candle starts the first period with no pools.
  cases candles with
  | nil => simp [sessionLevels] at hpool
  | cons first rest => exact hloop _ _ (by simp [SessionState.start]) pool hpool

/-- A session level is formed without a sweep. -/
theorem fresh_of_mem_sessionLevels {candles : List Candle} {period : Period} {pool : LiquidityPool}
    (h : pool ∈ sessionLevels candles period) : pool.Fresh :=
  forall_sessionLevels (fun _ _ _ _ _ _ => rfl) h

theorem sourceType_of_mem_sessionLevels {candles : List Candle} {period : Period}
    {pool : LiquidityPool} (h : pool ∈ sessionLevels candles period) :
    pool.sourceType = period.highSource ∨ pool.sourceType = period.lowSource :=
  forall_sessionLevels (P := fun pool => pool.sourceType = period.highSource ∨
    pool.sourceType = period.lowSource) (fun _ _ _ _ _ hsource => hsource) h

/-! ## Section 5: Sweeps of a cut series -/

section Cuts

variable {candles : List Candle} {pool : LiquidityPool} {k : ℕ}

/-- The first candle of a kind, sought in the cut series: the one found in the whole series, if
it stands before the cut. -/
theorem find?_zipIdx_take (p : Candle × ℕ → Bool) (candles : List Candle) (start k : ℕ) :
    ((candles.take k).zipIdx.drop start).find? p =
      ((candles.zipIdx.drop start).find? p).filter fun entry => entry.2 < k := by
  have hsplit : candles.zipIdx.drop start = (candles.take k).zipIdx.drop start ++
      ((candles.drop k).zipIdx (candles.take k).length).drop (start - (candles.take k).length) := by
    conv_lhs => rw [← List.take_append_drop k candles, List.zipIdx_append, List.drop_append]
    simp
  rw [hsplit, List.find?_append]
  cases hfound : ((candles.take k).zipIdx.drop start).find? p with
  | some entry =>
    have hmem := List.mem_of_mem_drop (List.mem_of_find?_eq_some hfound)
    have hlt := (List.mem_zipIdx hmem).2.1
    rw [List.length_take] at hlt
    have hk : entry.2 < k := by omega
    simp [Option.filter, hk]
  | none =>
    rw [Option.none_or]
    cases hlater : List.find? p _ with
    | none => rfl
    | some entry =>
      -- It stands behind the cut, so the cut series is longer than `k` and does not show it.
      have hmem := List.mem_of_mem_drop (List.mem_of_find?_eq_some hlater)
      obtain ⟨hle, hlt, -⟩ := List.mem_zipIdx hmem
      rw [List.length_drop] at hlt
      rw [List.length_take] at hle hlt
      have hk : ¬ entry.2 < k := by omega
      simp [Option.filter, hk]

/-- The cut series marks the sweeps that come before the cut, and marks them the same. -/
theorem detectSweep_take (h : pool.Fresh) :
    detectSweep (candles.take k) pool = (detectSweep candles pool).asOf k := by
  have hfresh : pool.asOf k = pool := by
    simp only [LiquidityPool.asOf]
    split
    · rfl
    · exact h
  simp only [detectSweep, find?_zipIdx_take]
  cases (candles.zipIdx.drop pool.formedIndex).find? pool.sweeps with
  | none => exact hfresh.symm
  | some entry =>
    by_cases hk : entry.2 < k
    · simp [LiquidityPool.asOf, LiquidityPool.markSwept, Option.filter, hk]
    · simp only [Option.filter, hk, decide_false, Bool.false_eq_true, if_false, Option.elim_none,
        Option.elim_some, LiquidityPool.asOf, LiquidityPool.markSwept, Option.any_some]
      exact h.symm

theorem LiquidityPool.asOf_of_swept (h : (pool.asOf k).swept = true) : pool.asOf k = pool := by
  simp only [asOf] at h ⊢
  split at h
  · next hk => rw [if_pos hk]
  · cases h

/-- What `detectSweep` finds: the first candle from the pool's own on that is no member and trades
through the level. -/
theorem of_sweptIndex_detectSweep (h : pool.Fresh) {i : ℕ}
    (hswept : (detectSweep candles pool).sweptIndex = some i) :
    pool.formedIndex ≤ i ∧ i ∉ pool.memberIndices ∧
      (∃ c, candles[i]? = some c ∧ pool.isThrough c = true) ∧
      ∀ (j : ℕ) (c : Candle), pool.formedIndex ≤ j → j < i → candles[j]? = some c →
        j ∉ pool.memberIndices → pool.isThrough c = false := by
  have hnone : pool.sweptIndex = none := by rw [← h]; rfl
  rw [detectSweep] at hswept
  cases hfound : (candles.zipIdx.drop pool.formedIndex).find? pool.sweeps with
  | none =>
    rw [hfound, Option.elim_none, hnone] at hswept
    cases hswept
  | some entry =>
    rw [hfound] at hswept
    obtain rfl : entry.2 = i := Option.some.inj hswept
    obtain ⟨hsweeps, n, hn, hentry, hfirst⟩ := List.find?_eq_some_iff_getElem.mp hfound
    have hat : ∀ m, (candles.zipIdx.drop pool.formedIndex)[m]? =
        candles[pool.formedIndex + m]?.map fun c => (c, pool.formedIndex + m) := by
      intro m
      rw [List.getElem?_drop, List.getElem?_zipIdx]
      simp
    have hown := hat n
    rw [List.getElem?_eq_getElem hn, hentry] at hown
    obtain ⟨c, hc, rfl⟩ := Option.map_eq_some_iff.mp hown.symm
    rw [LiquidityPool.sweeps, Bool.and_eq_true, decide_eq_true_eq] at hsweeps
    refine ⟨Nat.le_add_right _ _, hsweeps.1, ⟨c, hc, hsweeps.2⟩, fun j c' hle hlt hc' hj => ?_⟩
    -- An earlier candle was passed over.
    obtain ⟨m, rfl⟩ := Nat.exists_eq_add_of_le hle
    have hm : m < n := Nat.lt_of_add_lt_add_left hlt
    have hthere := hat m
    rw [hc', List.getElem?_eq_getElem (hm.trans hn)] at hthere
    have hpassed := hfirst m hm
    rw [Option.some.inj hthere] at hpassed
    simpa [LiquidityPool.sweeps, hj] using hpassed

theorem sourceType_detectSweep : (detectSweep candles pool).sourceType = pool.sourceType := by
  simp only [detectSweep]
  cases (candles.zipIdx.drop pool.formedIndex).find? pool.sweeps <;> rfl

theorem memberIndices_detectSweep :
    (detectSweep candles pool).memberIndices = pool.memberIndices := by
  simp only [detectSweep]
  cases (candles.zipIdx.drop pool.formedIndex).find? pool.sweeps <;> rfl

theorem formedIndex_detectSweep : (detectSweep candles pool).formedIndex = pool.formedIndex := by
  simp only [detectSweep]
  cases (candles.zipIdx.drop pool.formedIndex).find? pool.sweeps <;> rfl

/-- Erasing the mark of the sweep gives the fresh pool back. -/
theorem unswept_detectSweep (h : pool.Fresh) : (detectSweep candles pool).unswept = pool := by
  rw [detectSweep]
  cases (candles.zipIdx.drop pool.formedIndex).find? pool.sweeps with
  | none => exact h
  | some entry => exact h

/-- Session levels and their sweeps, cut at an index. -/
theorem detectSweeps_sessionLevels_take (candles : List Candle) (period : Period) (k : ℕ) :
    detectSweeps (candles.take k) (sessionLevels (candles.take k) period) =
      ((detectSweeps candles (sessionLevels candles period)).filter
        fun pool => pool.formedIndex < k).map (LiquidityPool.asOf k) := by
  have hlevels : sessionLevels (candles.take k) period = _ :=
    (sessionLevels_online period).take candles k
  simp only [detectSweeps, hlevels, List.filter_map, List.map_map, Function.comp_def,
    formedIndex_detectSweep]
  refine List.map_congr_left fun pool hpool => ?_
  exact detectSweep_take (fresh_of_mem_sessionLevels (List.mem_filter.mp hpool).1)

end Cuts

end SuperTrading.Smc
