import SuperTrading.Smc.EqualLevels
import SuperTrading.Smc.NoLookAhead

/-!
# Reported Sweeps

A sweep that the engine reports stays reported exactly as long as its pool is not grouped again:
a swing joins it, or takes one of its members. Session levels are never formed again.
-/

namespace SuperTrading.Smc

open SuperTrading.Logic

/-! ## Section 1: What the engine reports -/

/-- The pools that the engine reports on the first `n` candles; it reports none if it raises. -/
def reportedPools (cfg : SMCConfig) (candles : List Candle) (n : ℕ) : List LiquidityPool :=
  match analyze cfg (candles.take n) with
  | .ok context => context.liquidityPools
  | .error _ => []

/-- Every pool reported swept on the first `k` candles is matched on the first `m` by one of its
side and source that is swept at its index. -/
def SweepsKept (cfg : SMCConfig) (candles : List Candle) (k m : ℕ) : Prop :=
  ∀ pool ∈ reportedPools cfg candles k, pool.swept = true →
    ∃ pool' ∈ reportedPools cfg candles m, pool'.side = pool.side ∧
      pool'.sourceType = pool.sourceType ∧ pool'.swept = true ∧ pool'.sweptIndex = pool.sweptIndex

instance (cfg : SMCConfig) (candles : List Candle) (k m : ℕ) :
    Decidable (SweepsKept cfg candles k m) :=
  inferInstanceAs (Decidable (∀ pool ∈ _, _ → ∃ pool' ∈ _, _ ∧ _ ∧ _ ∧ _))

/-- The pools before `detect_sweeps`. -/
def formedPools (cfg : SMCConfig) (candles : List Candle) : List LiquidityPool :=
  detectEqualLevels (swingsOf candles cfg.swingLength) cfg.equalLevelTolerancePct ++
    (if cfg.detectDailyLevels then sessionLevels candles .day else []) ++
    (if cfg.detectWeeklyLevels then sessionLevels candles .week else [])

theorem reportedPools_eq (cfg : SMCConfig) (candles : List Candle) (n : ℕ) :
    reportedPools cfg candles n =
      if cfg.swingLength < 1 then []
      else (formedPools cfg (candles.take n)).map (detectSweep (candles.take n)) := by
  simp only [reportedPools, analyze, detectSwings]
  by_cases hlength : cfg.swingLength < 1
  · simp only [if_pos hlength]
    rfl
  · simp only [if_neg hlength]
    have hdaily : detectSessionLevels (candles.take n) "day" =
        .ok (sessionLevels (candles.take n) .day) := rfl
    have hweekly : detectSessionLevels (candles.take n) "week" =
        .ok (sessionLevels (candles.take n) .week) := rfl
    cases hday : cfg.detectDailyLevels <;> cases hweek : cfg.detectWeeklyLevels <;>
      simp only [formedPools, hday, hweek, hdaily, hweekly, if_true, Bool.false_eq_true, if_false,
        bind, Except.bind, pure, Except.pure, detectSweeps]

/-! ## Section 2: When a pool is grouped again -/

/-- The source of the equal levels of a type. -/
def equalSource : SwingType → LiquiditySourceType
  | .high => .equalHighs
  | .low => .equalLows

def equalSide : SwingType → LiquiditySide
  | .high => .buySide
  | .low => .sellSide

/-- The swings of a type that the first `n` candles show. -/
def swingsUpto (cfg : SMCConfig) (candles : List Candle) (n : ℕ) (swingType : SwingType) :
    List Swing :=
  levelCandidates (swingsOf (candles.take n) cfg.swingLength) swingType

/-- The groups of the swings that the first `n` candles show. -/
abbrev levelGroups (cfg : SMCConfig) (candles : List Candle) (n : ℕ) (swingType : SwingType) :
    List (List Swing) :=
  groupInBands Swing.index (inBand cfg.equalLevelTolerancePct) (swingsUpto cfg candles n swingType)

/-- Among the swings of the first `n` candles, one from outside the pool of equal levels is grouped
with a member of it: it joins the pool, or takes the member. -/
def LiquidityPool.Regrouped (cfg : SMCConfig) (candles : List Candle) (n : ℕ)
    (pool : LiquidityPool) : Prop :=
  ∃ swingType, pool.sourceType = equalSource swingType ∧
    ∃ group ∈ levelGroups cfg candles n swingType,
      (∃ z ∈ group, z.index ∈ pool.memberIndices) ∧ ∃ x ∈ group, x.index ∉ pool.memberIndices

/-! ## Section 3: Pools that are formed again -/

section Kept

variable {cfg : SMCConfig} {candles : List Candle} {k m : ℕ} {pool : LiquidityPool}

theorem take_take_of_le (hkm : k ≤ m) : (candles.take m).take k = candles.take k := by
  rw [List.take_take, Nat.min_eq_left hkm]

/-- The swings shown by `k` candles are those that `m` candles show confirmed by then. -/
theorem swingsUpto_of_le (hkm : k ≤ m) (swingType : SwingType) :
    swingsUpto cfg candles k swingType =
      (swingsUpto cfg candles m swingType).filter fun s => s.confirmedIndex < k := by
  have hcut : swingsOf ((candles.take m).take k) cfg.swingLength = _ :=
    (swingsOf_online cfg.swingLength).take (candles.take m) k
  rw [take_take_of_le hkm] at hcut
  simp only [swingsUpto, levelCandidates, hcut, filter_sortBy, List.filter_filter, Bool.and_comm]

/-- What a pool of equal levels is to its group. -/
structure PoolOf (side : LiquiditySide) (sourceType : LiquiditySourceType) (group : List Swing)
    (pool : LiquidityPool) : Prop where
  fresh : pool.Fresh
  hasSide : pool.side = side
  hasSource : pool.sourceType = sourceType
  members : ∀ i, i ∈ pool.memberIndices ↔ ∃ s ∈ group, s.index = i
  last : ∃ s ∈ group, s.index = pool.formedIndex
  formed : ∀ s ∈ group, s.index ≤ pool.formedIndex

theorem poolOf_of_mem_groupPool {side : LiquiditySide} {sourceType : LiquiditySourceType}
    {group : List Swing} (h : pool ∈ (groupPool side sourceType group).toList) :
    PoolOf side sourceType group pool := by
  rw [Option.mem_toList, groupPool, Option.map_eq_some_iff] at h
  obtain ⟨last, hlast, rfl⟩ := h
  exact ⟨rfl, rfl, rfl, fun i => by rw [mem_sortBy, List.mem_map],
    ⟨last, List.argmax_mem hlast, rfl⟩, fun s hs => List.le_of_mem_argmax hs hlast⟩

theorem fresh_of_mem_equalLevels {swings : List Swing} {tolerancePct : ℚ} {swingType : SwingType}
    {side : LiquiditySide} {sourceType : LiquiditySourceType}
    (h : pool ∈ equalLevels swings tolerancePct swingType side sourceType) :
    pool.Fresh ∧ pool.sourceType = sourceType := by
  rw [equalLevels_eq, List.mem_flatMap] at h
  obtain ⟨group, -, hpool⟩ := h
  have hof := poolOf_of_mem_groupPool hpool
  exact ⟨hof.fresh, hof.hasSource⟩

theorem mem_sessionLevels_of_le (hkm : k ≤ m) {period : Period}
    (h : pool ∈ sessionLevels (candles.take k) period) :
    pool ∈ sessionLevels (candles.take m) period := by
  have hcut : sessionLevels ((candles.take m).take k) period = _ :=
    (sessionLevels_online period).take (candles.take m) k
  rw [take_take_of_le hkm] at hcut
  rw [hcut] at h
  exact (List.mem_filter.mp h).1

theorem fresh_of_mem_formedPools (h : pool ∈ formedPools cfg candles) : pool.Fresh := by
  simp only [formedPools, detectEqualLevels, List.mem_append, List.mem_ite_nil_right] at h
  rcases h with ((h | h) | h) | h
  · exact (fresh_of_mem_equalLevels h).1
  · exact (fresh_of_mem_equalLevels h).1
  · exact fresh_of_mem_sessionLevels h.2
  · exact fresh_of_mem_sessionLevels h.2

theorem nodup_swingsUpto (cfg : SMCConfig) (candles : List Candle) (n : ℕ)
    (swingType : SwingType) : ((swingsUpto cfg candles n swingType).map Swing.index).Nodup := by
  apply nodup_levelCandidates
  have hnodup := nodup_key_swingsOf (candles.take n) cfg.swingLength
  rw [List.Nodup, List.pairwise_map] at hnodup
  exact hnodup.imp fun hne h => hne (Prod.ext h.1 h.2)

/-- The pools of equal levels are those of the groups. -/
theorem mem_formedPools_iff_of_equal {n : ℕ} {swingType : SwingType}
    (hsource : pool.sourceType = equalSource swingType) :
    pool ∈ formedPools cfg (candles.take n) ↔ ∃ group ∈ levelGroups cfg candles n swingType,
      pool ∈ (groupPool (equalSide swingType) (equalSource swingType) group).toList := by
  -- A session level has a source of its own.
  have hsession : ∀ period, pool ∉ sessionLevels (candles.take n) period := by
    intro period hpool
    have hlevel := sourceType_of_mem_sessionLevels hpool
    rw [hsource] at hlevel
    cases swingType <;> cases period <;> simp [equalSource, Period.highSource, Period.lowSource]
      at hlevel
  have hsources : ∀ side sourceType swingType',
      pool ∈ equalLevels (swingsOf (candles.take n) cfg.swingLength) cfg.equalLevelTolerancePct
        swingType' side sourceType ↔ ∃ group ∈ levelGroups cfg candles n swingType',
          pool ∈ (groupPool side sourceType group).toList := by
    intro side sourceType swingType'
    rw [equalLevels_eq, List.mem_flatMap]
    exact Iff.rfl
  -- The levels of the other side have the other source.
  have hother : ∀ side sourceType swingType', sourceType ≠ equalSource swingType →
      ¬ ∃ group ∈ levelGroups cfg candles n swingType',
        pool ∈ (groupPool side sourceType group).toList := by
    rintro side sourceType swingType' hne ⟨group, -, hpool⟩
    exact hne ((poolOf_of_mem_groupPool hpool).hasSource.symm.trans hsource)
  simp only [formedPools, detectEqualLevels, List.mem_append, List.mem_ite_nil_right, hsession,
    and_false, or_false, hsources]
  cases swingType with
  | high => exact or_iff_left (hother _ _ _ (by decide))
  | low => exact or_iff_right (hother _ _ _ (by decide))

/-- Swings of one index among those of a type are the same. -/
theorem eq_of_index_eq {n : ℕ} {swingType : SwingType} {s s' : Swing}
    (h : s ∈ swingsUpto cfg candles n swingType) (h' : s' ∈ swingsUpto cfg candles n swingType)
    (hindex : s.index = s'.index) : s = s' :=
  List.inj_on_of_nodup_map (nodup_swingsUpto cfg candles n swingType) h h' hindex

theorem mem_of_mem_levelGroups {n : ℕ} {swingType : SwingType} {group : List Swing} {s : Swing}
    (h : group ∈ levelGroups cfg candles n swingType) (hs : s ∈ group) :
    s ∈ swingsUpto cfg candles n swingType :=
  Grouping.mem_of_mem_groups h hs

theorem eq_of_mem_levelGroups {n : ℕ} {swingType : SwingType} {g g' : List Swing} {s : Swing}
    (hg : g ∈ levelGroups cfg candles n swingType) (hg' : g' ∈ levelGroups cfg candles n swingType)
    (hs : s ∈ g) (hs' : s ∈ g') : g = g' := by
  have hself : ∀ a z, inBand cfg.equalLevelTolerancePct a z = true →
      inBand cfg.equalLevelTolerancePct a a = true := fun _ _ => inBand_self
  exact Grouping.eq_of_mem_groups hself hg hg' hs hs'

/-- A group of the first swings is one of all exactly if it has its members for itself. -/
theorem mem_levelGroups_iff (hkm : k ≤ m) {swingType : SwingType} {group : List Swing}
    (h : group ∈ levelGroups cfg candles k swingType) :
    group ∈ levelGroups cfg candles m swingType ↔ ∀ g ∈ levelGroups cfg candles m swingType,
      ∀ z ∈ g, z ∈ group → ∀ x ∈ g, x ∈ group := by
  have hself : ∀ a z, inBand cfg.equalLevelTolerancePct a z = true →
      inBand cfg.equalLevelTolerancePct a a = true := fun _ _ => inBand_self
  rw [levelGroups, swingsUpto_of_le hkm] at h
  exact Grouping.mem_groups_iff_unmixed hself (nodup_swingsUpto cfg candles m swingType) h

/-- A pool that is formed has its members for itself. -/
theorem not_regrouped_of_mem {n : ℕ} (hpool : pool ∈ formedPools cfg (candles.take n)) :
    ¬ pool.Regrouped cfg candles n := by
  rintro ⟨swingType, hsource, g, hg, ⟨z, hz, hzmember⟩, x, hx, hxmember⟩
  obtain ⟨group, hgroup, hof⟩ := (mem_formedPools_iff_of_equal hsource).mp hpool
  have hmembers := (poolOf_of_mem_groupPool hof).members
  obtain ⟨s, hs, hindex⟩ := (hmembers z.index).mp hzmember
  obtain rfl : s = z := eq_of_index_eq (mem_of_mem_levelGroups hgroup hs)
    (mem_of_mem_levelGroups hg hz) hindex
  have hsame : g = group := eq_of_mem_levelGroups hg hgroup hz hs
  exact hxmember ((hmembers x.index).mpr ⟨x, hsame ▸ hx, rfl⟩)

/-- A pool is formed again exactly if it is not regrouped. -/
theorem mem_formedPools_iff (hkm : k ≤ m) (hpool : pool ∈ formedPools cfg (candles.take k)) :
    pool ∈ formedPools cfg (candles.take m) ↔ ¬ pool.Regrouped cfg candles m := by
  refine ⟨not_regrouped_of_mem, fun hnot => ?_⟩
  by_cases hequal : ∃ swingType, pool.sourceType = equalSource swingType
  · obtain ⟨swingType, hsource⟩ := hequal
    rw [mem_formedPools_iff_of_equal hsource] at hpool ⊢
    obtain ⟨group, hgroup, hof⟩ := hpool
    have hmembers := (poolOf_of_mem_groupPool hof).members
    refine ⟨group, ?_, hof⟩
    have hkept : ∀ s ∈ group, s ∈ swingsUpto cfg candles m swingType := fun s hs => by
      have hs := mem_of_mem_levelGroups hgroup hs
      rw [swingsUpto_of_le hkm] at hs
      exact (List.mem_filter.mp hs).1
    refine (mem_levelGroups_iff hkm hgroup).mpr fun g hg z hz hzgroup x hx => ?_
    -- Nobody from outside the pool is grouped with one of its members.
    by_contra hxgroup
    refine hnot ⟨swingType, hsource, g, hg, ⟨z, hz, (hmembers z.index).mpr ⟨z, hzgroup, rfl⟩⟩, x,
      hx, fun hxmember => hxgroup ?_⟩
    obtain ⟨s, hs, hindex⟩ := (hmembers x.index).mp hxmember
    rw [← eq_of_index_eq (hkept s hs) (mem_of_mem_levelGroups hg hx) hindex]
    exact hs
  · simp only [formedPools, detectEqualLevels, List.mem_append, List.mem_ite_nil_right] at hpool ⊢
    have hnone : ∀ side swingType swings, pool ∉ equalLevels swings cfg.equalLevelTolerancePct
        swingType side (equalSource swingType) := fun side swingType swings hmem =>
      hequal ⟨swingType, (fresh_of_mem_equalLevels hmem).2⟩
    rcases hpool with ((hpool | hpool) | hpool) | hpool
    · exact absurd hpool (hnone _ .high _)
    · exact absurd hpool (hnone _ .low _)
    · exact .inl (.inr ⟨hpool.1, mem_sessionLevels_of_le hkm hpool.2⟩)
    · exact .inr ⟨hpool.1, mem_sessionLevels_of_le hkm hpool.2⟩

/-! ## Section 4: Another pool that the same candle sweeps -/

theorem isThrough_of_beyond {swingType : SwingType} {c c' : Candle}
    (hside : pool.side = equalSide swingType) (hbeyond : swingType.Beyond c c')
    (h : pool.isThrough c' = true) : pool.isThrough c = true := by
  rw [LiquidityPool.isThrough, hside] at h ⊢
  cases swingType with
  | high => exact decide_eq_true (lt_trans (of_decide_eq_true h) hbeyond)
  | low => exact decide_eq_true (lt_trans hbeyond (of_decide_eq_true h))

theorem of_getElem?_take {n i : ℕ} {c : Candle} (h : (candles.take n)[i]? = some c) :
    i < n ∧ candles[i]? = some c := by
  rw [List.getElem?_take] at h
  split_ifs at h with hi
  exact ⟨hi, h⟩

/-- The members of a pool of the first `n` candles are confirmed by them. -/
theorem confirmed_of_member {n : ℕ} {swingType : SwingType} {group : List Swing} {s : Swing}
    (h : group ∈ levelGroups cfg candles n swingType) (hs : s ∈ group) :
    s.index + cfg.swingLength < n := by
  have hmem := mem_of_mem_levelGroups h hs
  rw [swingsUpto_of_le le_rfl] at hmem
  obtain ⟨hmem, hlt⟩ := List.mem_filter.mp hmem
  rw [← (beyond_of_mem_swingsOf (mem_levelCandidates.mp hmem).1).1]
  exact of_decide_eq_true hlt

/-- A pool of the longer series that the candle of an earlier sweep sweeps has no new members: a
new swing would have swept the earlier pool itself. -/
theorem confirmed_of_same_sweep (hkm : k ≤ m) {swingType : SwingType} {pool' : LiquidityPool}
    {i : ℕ} (hsource : pool.sourceType = equalSource swingType)
    (hsource' : pool'.sourceType = equalSource swingType)
    (hpool : pool ∈ formedPools cfg (candles.take k))
    (hpool' : pool' ∈ formedPools cfg (candles.take m))
    (hswept : (detectSweep (candles.take k) pool).sweptIndex = some i)
    (hswept' : (detectSweep (candles.take m) pool').sweptIndex = some i) :
    ∀ j ∈ pool'.memberIndices, j + cfg.swingLength < k := by
  obtain ⟨group, hgroup, hof⟩ := (mem_formedPools_iff_of_equal hsource).mp hpool
  obtain ⟨group', hgroup', hof'⟩ := (mem_formedPools_iff_of_equal hsource').mp hpool'
  have hpoolOf := poolOf_of_mem_groupPool hof
  have hpoolOf' := poolOf_of_mem_groupPool hof'
  obtain ⟨-, -, ⟨c, hc, hthrough⟩, hfirst⟩ := of_sweptIndex_detectSweep hpoolOf.fresh hswept
  obtain ⟨hle', hmember', -⟩ := of_sweptIndex_detectSweep hpoolOf'.fresh hswept'
  intro j hj
  obtain ⟨x, hx, rfl⟩ := (hpoolOf'.members j).mp hj
  by_contra hnew
  have hxi : x.index < i := lt_of_le_of_ne ((hpoolOf'.formed x hx).trans hle') fun heq =>
    hmember' (heq ▸ hj)
  obtain ⟨hik, hcandle⟩ := of_getElem?_take hc
  have hmem := mem_levelCandidates.mp (mem_of_mem_levelGroups hgroup' hx)
  obtain ⟨-, cx, hcx, hbeyond⟩ := beyond_of_mem_swingsOf hmem.1
  obtain ⟨-, hcandlex⟩ := of_getElem?_take hcx
  -- The new swing reaches beyond the sweeping candle, so it went through the earlier pool first.
  have hreach := hbeyond i c (by rw [List.getElem?_take_of_lt (hik.trans_le hkm)]; exact hcandle)
    (Nat.ne_of_gt hxi) (by omega) (by omega)
  rw [hmem.2] at hreach
  have hxthrough := isThrough_of_beyond hpoolOf.hasSide hreach hthrough
  obtain ⟨last, hlast, hformed⟩ := hpoolOf.last
  have hbefore := confirmed_of_member hgroup hlast
  have hout : x.index ∉ pool.memberIndices := fun hin => by
    obtain ⟨s, hs, hindex⟩ := (hpoolOf.members _).mp hin
    have hconfirmed := confirmed_of_member hgroup hs
    omega
  have hnot := hfirst x.index cx (by omega) hxi
    (by rw [List.getElem?_take_of_lt (hxi.trans hik)]; exact hcandlex) hout
  rw [hxthrough] at hnot
  cases hnot

end Kept

/-! ## Section 5: Kept sweeps -/

theorem regrouped_detectSweep {cfg : SMCConfig} {candles cs : List Candle} {n : ℕ}
    {pool : LiquidityPool} :
    (detectSweep cs pool).Regrouped cfg candles n ↔ pool.Regrouped cfg candles n := by
  simp only [LiquidityPool.Regrouped, sourceType_detectSweep, memberIndices_detectSweep]

theorem exists_sweptIndex {candles : List Candle} {pool : LiquidityPool} (h : pool.Fresh)
    (hswept : (detectSweep candles pool).swept = true) :
    ∃ i, (detectSweep candles pool).sweptIndex = some i := by
  rw [detectSweep] at hswept ⊢
  cases hfound : (candles.zipIdx.drop pool.formedIndex).find? pool.sweeps with
  | none =>
    rw [hfound, Option.elim_none, ← h] at hswept
    cases hswept
  | some entry => exact ⟨entry.2, rfl⟩

/-- A sweep lies before the cut, so the longer series shows the same one. -/
theorem detectSweep_of_le {candles : List Candle} {pool : LiquidityPool} {k m : ℕ} (hkm : k ≤ m)
    (hfresh : pool.Fresh) (hswept : (detectSweep (candles.take k) pool).swept = true) :
    detectSweep (candles.take m) pool = detectSweep (candles.take k) pool := by
  have hcut : detectSweep ((candles.take m).take k) pool = _ := detectSweep_take hfresh
  rw [take_take_of_le hkm] at hcut
  rw [hcut] at hswept ⊢
  exact (LiquidityPool.asOf_of_swept hswept).symm

section Reported

variable {cfg : SMCConfig} {candles : List Candle} {k m : ℕ} {pool : LiquidityPool}

theorem mem_reportedPools {n : ℕ} : pool ∈ reportedPools cfg candles n ↔ ¬ cfg.swingLength < 1 ∧
    ∃ formed ∈ formedPools cfg (candles.take n), detectSweep (candles.take n) formed = pool := by
  rw [reportedPools_eq]
  split_ifs with hlength
  · simp [hlength]
  · simp [hlength]

/-- A pool that is reported swept stays reported exactly if it is not regrouped. -/
theorem mem_reportedPools_iff (hkm : k ≤ m) (hpool : pool ∈ reportedPools cfg candles k)
    (hswept : pool.swept = true) :
    pool ∈ reportedPools cfg candles m ↔ ¬ pool.Regrouped cfg candles m := by
  obtain ⟨hlength, formed, hformed, rfl⟩ := mem_reportedPools.mp hpool
  have hfresh := fresh_of_mem_formedPools hformed
  rw [regrouped_detectSweep, ← mem_formedPools_iff hkm hformed, mem_reportedPools]
  constructor
  · rintro ⟨-, formed', hformed', heq⟩
    have hback := congrArg LiquidityPool.unswept heq
    have hfresh' := fresh_of_mem_formedPools hformed'
    rw [unswept_detectSweep hfresh', unswept_detectSweep hfresh] at hback
    exact hback ▸ hformed'
  · intro hagain
    exact ⟨hlength, formed, hagain, detectSweep_of_le hkm hfresh hswept⟩

end Reported

/-- **Kept sweeps.** A pool that is reported swept stays reported as it is exactly if no swing joins
it or takes a member of it, and if this goes for all of them the sweeps are kept. In place of a
pool that is regrouped only another one can be swept by the same candle, all of whose members were
confirmed before. -/
theorem sweepsKept_of_not_regrouped (cfg : SMCConfig) (candles : List Candle) (k m : ℕ)
    (hkm : k ≤ m) :
    (∀ pool ∈ reportedPools cfg candles k, pool.swept = true →
      (pool ∈ reportedPools cfg candles m ↔ ¬ pool.Regrouped cfg candles m)) ∧
    ((∀ pool ∈ reportedPools cfg candles k, pool.swept = true →
      ¬ pool.Regrouped cfg candles m) → SweepsKept cfg candles k m) ∧
    ∀ pool ∈ reportedPools cfg candles k, pool.swept = true → pool.Regrouped cfg candles m →
      ∀ pool' ∈ reportedPools cfg candles m, pool'.sourceType = pool.sourceType →
        pool'.sweptIndex = pool.sweptIndex →
        ∀ i ∈ pool'.memberIndices, i + cfg.swingLength < k := by
  refine ⟨fun pool hpool hswept => mem_reportedPools_iff hkm hpool hswept, ?_, ?_⟩
  · -- Each pool that is not regrouped answers for itself.
    intro h pool hpool hswept
    exact ⟨pool, (mem_reportedPools_iff hkm hpool hswept).mpr (h pool hpool hswept), rfl, rfl,
      hswept, rfl⟩
  · -- Two pools of one side swept by one candle: the lemma on their members.
    rintro pool hpool hswept ⟨swingType, hequal, -⟩ pool' hpool' hsource hindex
    obtain ⟨-, formed, hformed, rfl⟩ := mem_reportedPools.mp hpool
    obtain ⟨-, formed', hformed', rfl⟩ := mem_reportedPools.mp hpool'
    rw [hequal, sourceType_detectSweep] at hsource
    rw [sourceType_detectSweep] at hequal
    rw [memberIndices_detectSweep]
    obtain ⟨i, hi⟩ := exists_sweptIndex (fresh_of_mem_formedPools hformed) hswept
    exact confirmed_of_same_sweep hkm hequal hsource hformed hformed' hi (hindex.trans hi)

/-- Two highs around 100 and a candle that sweeps them, then two highs below, which a third one
joins. -/
def lowerTops : List Candle :=
  [barAt 0 0 90 80 85, barAt 0 1 100 80 85, barAt 0 2 90 80 85, barAt 0 3 (10001 / 100) 80 85,
    barAt 0 4 90 80 85, barAt 0 5 (1005 / 10) 80 85, barAt 0 6 90 80 85,
    barAt 0 7 (9992 / 100) 80 85, barAt 0 8 90 80 85, barAt 0 9 (9996 / 100) 80 85,
    barAt 0 10 90 80 85, barAt 0 11 (9993 / 100) 80 85, barAt 0 12 90 80 85]

/-- The upper pool is swept and keeps its members, although its band reaches into the lower one. -/
theorem sweepsKept_lowerTops : SweepsKept { swingLength := 1 } lowerTops 11 13 := by
  apply (sweepsKept_of_not_regrouped { swingLength := 1 } lowerTops 11 13 (by decide)).2.1
  intro pool hpool hswept hregrouped
  obtain ⟨swingType, hsource, group, hgroup, hmixed⟩ := hregrouped
  have hupper : ∀ pool ∈ reportedPools { swingLength := 1 } lowerTops 11, pool.swept = true →
      pool.sourceType = .equalHighs ∧ pool.memberIndices = [1, 3] := by decide +kernel
  have hkept : ∀ group ∈ levelGroups { swingLength := 1 } lowerTops 13 .high,
      ¬ ((∃ z ∈ group, z.index ∈ [1, 3]) ∧ ∃ x ∈ group, x.index ∉ [1, 3]) := by decide +kernel
  obtain ⟨hhighs, hmembers⟩ := hupper pool hpool hswept
  rw [hhighs] at hsource
  rw [hmembers] at hmixed
  cases swingType with
  | high => exact hkept group hgroup hmixed
  | low => cases hsource

/-- Two highs at 100, and a candle at 100.04 that sweeps them and then joins them. -/
def joiningHigh : List Candle :=
  [barAt 0 0 90 80 85, barAt 0 1 100 80 85, barAt 0 2 90 80 85, barAt 0 3 100 80 85,
    barAt 0 4 90 80 85, barAt 0 5 (10004 / 100) 80 85, barAt 0 6 90 80 85]

/-- The sixth candle sweeps the pool of the first two highs. The seventh confirms it as a high of
the same band: the pool of the three is formed at the sixth candle and is not swept. -/
theorem sweep_retracted : ¬ ∀ (cfg : SMCConfig) (candles : List Candle) (k m : ℕ), k ≤ m →
    m ≤ candles.length → SweepsKept cfg candles k m := fun h =>
  absurd (h { swingLength := 1 } joiningHigh 6 7 (by decide) (by decide)) (by decide +kernel)

end SuperTrading.Smc
