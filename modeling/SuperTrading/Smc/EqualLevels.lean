import SuperTrading.Logic.Bands
import SuperTrading.Smc.Liquidity
import Mathlib.Data.List.TakeWhile
import Mathlib.Tactic.Linarith

/-!
# Equal Levels as Groups

The bisected slice holds every candidate of the anchor's band, so `detect_equal_levels` is
greedy grouping in bands, and its pools are those of the groups.
-/

namespace SuperTrading.Smc

open SuperTrading.Logic

/-! ## Section 1: The bisected slice -/

/-- A slice that leaves out only what the filter leaves out. -/
theorem filter_slice {α : Type*} {p : α → Bool} {xs : List α} {lo hi : ℕ}
    (hlo : ∀ x ∈ xs.take lo, ¬ p x = true) (hhi : ∀ x ∈ xs.drop hi, ¬ p x = true) :
    ((xs.take hi).drop lo).filter p = xs.filter p := by
  have hbelow : ((xs.take hi).take lo).filter p = [] := by
    refine List.filter_eq_nil_iff.mpr fun x hx => hlo x ?_
    rw [List.take_take] at hx
    exact List.take_subset_take_left xs (Nat.min_le_left lo hi) hx
  have habove : (xs.drop hi).filter p = [] := List.filter_eq_nil_iff.mpr hhi
  -- The filter leaves nothing of the two ends, so they may as well be there.
  calc ((xs.take hi).drop lo).filter p
      = ((xs.take hi).take lo).filter p ++ ((xs.take hi).drop lo).filter p := by
        rw [hbelow, List.nil_append]
    _ = (xs.take hi).filter p := by rw [← List.filter_append, List.take_append_drop]
    _ = (xs.take hi).filter p ++ (xs.drop hi).filter p := by rw [habove, List.append_nil]
    _ = xs.filter p := by rw [← List.filter_append, List.take_append_drop]

section Bisect

variable {candidates : List Swing} {x : ℚ} {s : Swing}

theorem price_lt_of_mem_take (h : s ∈ candidates.take (bisectLeft (candidates.map Swing.price) x)) :
    s.price < x := by
  rw [bisectLeft, List.takeWhile_map, List.length_map,
    ← List.prefix_iff_eq_take.mp (List.takeWhile_prefix _)] at h
  simpa using List.mem_takeWhile_imp h

theorem lt_price_of_mem_drop (hsorted : candidates.Pairwise fun a b => a.price ≤ b.price)
    (h : s ∈ candidates.drop (bisectRight (candidates.map Swing.price) x)) : x < s.price := by
  rw [bisectRight, List.takeWhile_map, List.length_map] at h
  induction candidates with
  | nil => simp at h
  | cons a candidates ih =>
    obtain ⟨ha, hrest⟩ := List.pairwise_cons.mp hsorted
    by_cases hax : a.price ≤ x
    · simp only [List.takeWhile_cons, Function.comp_apply, hax, decide_true, if_true,
        List.length_cons, List.drop_succ_cons] at h
      exact ih hrest h
    · simp only [List.takeWhile_cons, Function.comp_apply, hax, decide_false, Bool.false_eq_true,
        if_false, List.length_nil, List.drop_zero, List.mem_cons] at h
      rw [not_le] at hax
      rcases h with rfl | h
      · exact hax
      · exact hax.trans_le (ha s h)

/-- The slice around an anchor leaves out no candidate of its band. -/
theorem filter_bisected {p : Swing → Bool} {anchor : Swing} {tolerance : ℚ}
    (hsorted : candidates.Pairwise fun a b => a.price ≤ b.price)
    (hp : ∀ s, p s = true → |s.price - anchor.price| ≤ tolerance) :
    ((candidates.take (min candidates.length
        (bisectRight (candidates.map Swing.price) (anchor.price + tolerance) + 1))).drop
      (bisectLeft (candidates.map Swing.price) (anchor.price - tolerance) - 1)).filter p =
      candidates.filter p := by
  -- The slice is one wider on either side than it has to be.
  apply filter_slice
  · intro s hs hps
    have hlt := price_lt_of_mem_take (List.take_subset_take_left _ (Nat.sub_le _ 1) hs)
    have hband := neg_abs_le (s.price - anchor.price)
    linarith [hp s hps]
  · intro s hs hps
    have hle : bisectRight (candidates.map Swing.price) (anchor.price + tolerance) ≤
        min candidates.length
          (bisectRight (candidates.map Swing.price) (anchor.price + tolerance) + 1) := by
      refine le_min ?_ (Nat.le_succ _)
      rw [bisectRight, List.takeWhile_map, List.length_map]
      exact (List.takeWhile_prefix _).length_le
    have hlt := lt_price_of_mem_drop hsorted (List.drop_subset_drop_left _ hle hs)
    have hband := le_abs_self (s.price - anchor.price)
    linarith [hp s hps]

end Bisect

/-! ## Section 2: Pools of groups -/

/-- `z` is in the band that `detect_equal_levels` draws around `a`. -/
def inBand (tolerancePct : ℚ) (a z : Swing) : Bool :=
  |z.price - a.price| ≤ bandWidth tolerancePct a

/-- Whoever has a swing in its band is in it as well. -/
theorem inBand_self {tolerancePct : ℚ} {a z : Swing} (h : inBand tolerancePct a z = true) :
    inBand tolerancePct a a = true := by
  simp only [inBand, decide_eq_true_eq, sub_self, abs_zero] at h ⊢
  exact (abs_nonneg _).trans h

theorem pairwise_levelCandidates (swings : List Swing) (swingType : SwingType) :
    (levelCandidates swings swingType).Pairwise fun a b => a.price ≤ b.price :=
  pairwise_sortBy _ _

theorem mem_levelCandidates {swings : List Swing} {swingType : SwingType} {s : Swing} :
    s ∈ levelCandidates swings swingType ↔ s ∈ swings ∧ s.swingType = swingType := by
  simp [levelCandidates]

section Groups

variable {side : LiquiditySide} {sourceType : LiquiditySourceType} {tolerancePct : ℚ}
  {candidates : List Swing}

/-- An anchor of the loop, and one of the grouping. -/
theorem LevelState.step_eq (hsorted : candidates.Pairwise fun a b => a.price ≤ b.price)
    {s : LevelState} {g : Grouping ℕ Swing} (anchor : Swing) (hused : s.used = g.used)
    (hpools : s.pools = g.groups.flatMap fun group => (groupPool side sourceType group).toList) :
    let s' := s.step side sourceType tolerancePct candidates anchor
    let g' := g.place Swing.index (inBand tolerancePct) candidates anchor
    s'.used = g'.used ∧
      s'.pools = g'.groups.flatMap fun group => (groupPool side sourceType group).toList := by
  have hfree : candidates.filter (fun swing => decide (swing.index ∉ s.used ∧
      |swing.price - anchor.price| ≤ bandWidth tolerancePct anchor)) =
      g.free Swing.index (inBand tolerancePct) candidates anchor := by
    simp only [Grouping.free, inBand, hused, Bool.decide_and]
  simp only [LevelState.step, Grouping.place]
  rw [filter_bisected hsorted (fun s hs => (of_decide_eq_true hs).2), hfree, hused]
  by_cases hin : anchor.index ∈ g.used
  · simp [hin, hused, hpools]
  · by_cases hlength : (g.free Swing.index (inBand tolerancePct) candidates anchor).length < 2
    · simp [hin, hlength, hused, hpools]
    · simp [hin, hlength, hpools, Grouping.add]

theorem equalLevels_eq (swings : List Swing) (swingType : SwingType) :
    equalLevels swings tolerancePct swingType side sourceType =
      (groupInBands Swing.index (inBand tolerancePct) (levelCandidates swings swingType)).flatMap
        fun group => (groupPool side sourceType group).toList := by
  have hsorted := pairwise_levelCandidates swings swingType
  -- The loop and the grouping use up the same swings, anchor by anchor.
  have hloop : ∀ (anchors : List Swing) (s : LevelState) (g : Grouping ℕ Swing), s.used = g.used →
      s.pools = g.groups.flatMap (fun group => (groupPool side sourceType group).toList) →
      (anchors.foldl (LevelState.step side sourceType tolerancePct
        (levelCandidates swings swingType)) s).pools =
      (anchors.foldl (Grouping.place Swing.index (inBand tolerancePct)
        (levelCandidates swings swingType)) g).groups.flatMap
        fun group => (groupPool side sourceType group).toList := by
    intro anchors
    induction anchors with
    | nil => exact fun s g _ hpools => hpools
    | cons anchor anchors ih =>
      intro s g hused hpools
      obtain ⟨hused', hpools'⟩ := LevelState.step_eq hsorted anchor hused hpools
      exact ih _ _ hused' hpools'
  exact hloop _ {} { used := ∅ } rfl rfl

end Groups

/-! ## Section 3: Every candidate against every anchor -/

/-- One anchor of the loop without the bisected slice: every candidate is tested. -/
def LevelState.plainStep (side : LiquiditySide) (sourceType : LiquiditySourceType)
    (tolerancePct : ℚ) (candidates : List Swing) (s : LevelState) (anchor : Swing) : LevelState :=
  if anchor.index ∈ s.used then s
  else
    let tolerance := bandWidth tolerancePct anchor
    let group := candidates.filter fun swing =>
      swing.index ∉ s.used ∧ |swing.price - anchor.price| ≤ tolerance
    if group.length < 2 then s
    else
      { used := s.used ∪ (group.map Swing.index).toFinset
        pools := s.pools ++ (groupPool side sourceType group).toList }

def equalLevelsPlain (swings : List Swing) (tolerancePct : ℚ) (swingType : SwingType)
    (side : LiquiditySide) (sourceType : LiquiditySourceType) : List LiquidityPool :=
  let candidates := levelCandidates swings swingType
  (candidates.foldl (LevelState.plainStep side sourceType tolerancePct candidates) {}).pools

/-- `detect_equal_levels`, testing every candidate against every anchor. -/
def detectEqualLevelsPlain (swings : List Swing) (tolerancePct : ℚ) : List LiquidityPool :=
  equalLevelsPlain swings tolerancePct .high .buySide .equalHighs ++
    equalLevelsPlain swings tolerancePct .low .sellSide .equalLows

theorem LevelState.step_eq_plainStep {side : LiquiditySide} {sourceType : LiquiditySourceType}
    {tolerancePct : ℚ} {candidates : List Swing}
    (hsorted : candidates.Pairwise fun a b => a.price ≤ b.price) (s : LevelState)
    (anchor : Swing) :
    s.step side sourceType tolerancePct candidates anchor =
      s.plainStep side sourceType tolerancePct candidates anchor := by
  simp only [LevelState.step, LevelState.plainStep]
  rw [filter_bisected hsorted (fun s hs => (of_decide_eq_true hs).2)]

theorem equalLevels_eq_plain (swings : List Swing) (tolerancePct : ℚ) (swingType : SwingType)
    (side : LiquiditySide) (sourceType : LiquiditySourceType) :
    equalLevels swings tolerancePct swingType side sourceType =
      equalLevelsPlain swings tolerancePct swingType side sourceType := by
  have hstep : LevelState.step side sourceType tolerancePct (levelCandidates swings swingType) =
      LevelState.plainStep side sourceType tolerancePct (levelCandidates swings swingType) := by
    funext s anchor
    exact LevelState.step_eq_plainStep (pairwise_levelCandidates swings swingType) s anchor
  simp only [equalLevels, equalLevelsPlain, hstep]

/-! ## Section 4: The pools of one side -/

/-- The swing is a member of no pool. -/
def Unpooled (pools : List LiquidityPool) (s : Swing) : Prop :=
  ∀ pool ∈ pools, s.index ∉ pool.memberIndices

/-- What the pools of one side are to the swings of their type. -/
structure GroupedLevels (swings : List Swing) (tolerancePct : ℚ) (swingType : SwingType)
    (pools : List LiquidityPool) : Prop where
  disjoint : pools.Pairwise fun p q => List.Disjoint p.memberIndices q.memberIndices
  two : ∀ pool ∈ pools, pool.memberIndices.Nodup ∧ 2 ≤ pool.memberIndices.length
  /-- A pool has swings of the type, all in the band of one of them. -/
  banded : ∀ pool ∈ pools, ∃ anchor ∈ swings, anchor.swingType = swingType ∧
    anchor.index ∈ pool.memberIndices ∧ ∀ i ∈ pool.memberIndices, ∃ s ∈ swings,
      s.swingType = swingType ∧ s.index = i ∧
        |s.price - anchor.price| ≤ anchor.price * (tolerancePct / 100)
  alone : ∀ a ∈ swings, a.swingType = swingType → Unpooled pools a →
    ∀ b ∈ swings, b.swingType = swingType → Unpooled pools b → b ≠ a →
      ¬ |b.price - a.price| ≤ a.price * (tolerancePct / 100)

section Pools

variable {side : LiquiditySide} {sourceType : LiquiditySourceType} {swings : List Swing}
  {tolerancePct : ℚ} {swingType : SwingType} {group : List Swing} {pool : LiquidityPool}

theorem memberIndices_of_mem_groupPool (h : pool ∈ (groupPool side sourceType group).toList) :
    pool.side = side ∧ pool.memberIndices = sortBy id (group.map Swing.index) := by
  rw [Option.mem_toList, groupPool, Option.map_eq_some_iff] at h
  obtain ⟨last, -, rfl⟩ := h
  exact ⟨rfl, rfl⟩

/-- A group that is not empty has its pool. -/
theorem exists_groupPool (side : LiquiditySide) (sourceType : LiquiditySourceType)
    (h : group ≠ []) : ∃ pool, pool ∈ (groupPool side sourceType group).toList := by
  cases hlast : group.argmax Swing.index with
  | none => exact absurd (List.argmax_eq_none.mp hlast) h
  | some last => exact ⟨_, Option.mem_toList.mpr (by rw [groupPool, hlast]; rfl)⟩

theorem nodup_levelCandidates
    (hdistinct : swings.Pairwise fun a b => ¬ (a.index = b.index ∧ a.swingType = b.swingType)) :
    ((levelCandidates swings swingType).map Swing.index).Nodup := by
  have hfilter : ((swings.filter fun s => s.swingType = swingType).map Swing.index).Nodup := by
    rw [List.Nodup, List.pairwise_map]
    apply (hdistinct.filter _).imp_of_mem
    intro a b ha hb hab hindex
    have htype : a.swingType = swingType := by simpa using (List.mem_filter.mp ha).2
    have htype' : b.swingType = swingType := by simpa using (List.mem_filter.mp hb).2
    exact hab ⟨hindex, htype.trans htype'.symm⟩
  exact ((sortBy_perm Swing.price _).map Swing.index).nodup_iff.mpr hfilter

/-- The pools are those of the groups, member by member. -/
theorem exists_group_of_mem (h : pool ∈ equalLevels swings tolerancePct swingType side sourceType) :
    ∃ group ∈ groupInBands Swing.index (inBand tolerancePct) (levelCandidates swings swingType),
      pool.side = side ∧ pool.memberIndices = sortBy id (group.map Swing.index) := by
  rw [equalLevels_eq, List.mem_flatMap] at h
  obtain ⟨group, hgroup, hpool⟩ := h
  exact ⟨group, hgroup, memberIndices_of_mem_groupPool hpool⟩

/-- The grouping that the loop ends with. -/
def levelGrouping (swings : List Swing) (tolerancePct : ℚ) (swingType : SwingType) :
    Grouping ℕ Swing :=
  (levelCandidates swings swingType).foldl (Grouping.place Swing.index (inBand tolerancePct)
    (levelCandidates swings swingType)) { used := ∅ }

theorem wellGrouped_levelGrouping (swings : List Swing) (tolerancePct : ℚ)
    (swingType : SwingType) :
    Grouping.WellGrouped Swing.index (inBand tolerancePct) (levelCandidates swings swingType)
      (levelGrouping swings tolerancePct swingType) :=
  Grouping.wellGrouped_groupInBands fun _ _ => inBand_self

/-- A swing without a pool was taken by no group. -/
theorem unused_of_unpooled {s : Swing}
    (h : Unpooled (equalLevels swings tolerancePct swingType side sourceType) s) :
    s.index ∉ (levelGrouping swings tolerancePct swingType).used := by
  intro hused
  have hgrouped := wellGrouped_levelGrouping swings tolerancePct swingType
  obtain ⟨group, hgroup, x, hx, hindex⟩ := (hgrouped.used s.index).mp hused
  obtain ⟨pool, hpool⟩ := exists_groupPool side sourceType (List.ne_nil_of_mem hx)
  apply h pool
  · rw [equalLevels_eq, List.mem_flatMap]
    exact ⟨group, hgroup, hpool⟩
  · rw [(memberIndices_of_mem_groupPool hpool).2, mem_sortBy, ← hindex]
    exact List.mem_map_of_mem hx

/-- The greedy grouping makes the pools of one side what they are. -/
theorem groupedLevels_equalLevels
    (hdistinct : swings.Pairwise fun a b => ¬ (a.index = b.index ∧ a.swingType = b.swingType)) :
    GroupedLevels swings tolerancePct swingType
      (equalLevels swings tolerancePct swingType side sourceType) := by
  have hgrouped := wellGrouped_levelGrouping swings tolerancePct swingType
  constructor
  · rw [equalLevels_eq, List.pairwise_flatMap]
    constructor
    · intro group _
      cases groupPool side sourceType group <;> simp
    · -- A shared index would have been taken twice.
      apply hgrouped.apart.imp
      intro group group' hapart p hp q hq i hi hi'
      rw [(memberIndices_of_mem_groupPool hp).2, mem_sortBy, List.mem_map] at hi
      rw [(memberIndices_of_mem_groupPool hq).2, mem_sortBy, List.mem_map] at hi'
      obtain ⟨x, hx, hxi⟩ := hi
      obtain ⟨y, hy, hyi⟩ := hi'
      exact hapart x hx y hy (hxi.trans hyi.symm)
  · intro pool hpool
    obtain ⟨group, hgroup, -, hmembers⟩ := exists_group_of_mem hpool
    have hnodup : (group.map Swing.index).Nodup :=
      (nodup_levelCandidates hdistinct).sublist ((hgrouped.sublist group hgroup).map _)
    rw [hmembers]
    constructor
    · exact (sortBy_perm id _).nodup_iff.mpr hnodup
    · rw [(sortBy_perm id _).length_eq, List.length_map]
      exact hgrouped.two group hgroup
  · intro pool hpool
    obtain ⟨group, hgroup, -, hmembers⟩ := exists_group_of_mem hpool
    obtain ⟨anchor, hanchor, hband⟩ := hgrouped.anchored group hgroup
    have hmem : ∀ s ∈ group, s ∈ swings ∧ s.swingType = swingType := fun s hs =>
      mem_levelCandidates.mp ((hgrouped.sublist group hgroup).subset hs)
    refine ⟨anchor, (hmem anchor hanchor).1, (hmem anchor hanchor).2, ?_, ?_⟩
    · rw [hmembers, mem_sortBy]
      exact List.mem_map_of_mem hanchor
    · intro i hi
      rw [hmembers, mem_sortBy, List.mem_map] at hi
      obtain ⟨s, hs, rfl⟩ := hi
      exact ⟨s, (hmem s hs).1, (hmem s hs).2, rfl, of_decide_eq_true (hband s hs)⟩
  · intro a ha hatype hafree b hb hbtype hbfree hne hnear
    have hmem : a ∈ levelCandidates swings swingType := mem_levelCandidates.mpr ⟨ha, hatype⟩
    have hmem' : b ∈ levelCandidates swings swingType := mem_levelCandidates.mpr ⟨hb, hbtype⟩
    have hband : inBand tolerancePct a b = true := decide_eq_true hnear
    have hunused := unused_of_unpooled hafree
    -- When its turn came, the free anchor would have grouped the other one.
    apply unused_of_unpooled hbfree
    unfold levelGrouping at hunused ⊢
    have hself : ∀ a z, inBand tolerancePct a z = true → inBand tolerancePct a a = true :=
      fun _ _ => inBand_self
    exact Grouping.used_of_near_foldl hself (fun _ hx => hx) hmem hmem' hne hband hunused

end Pools

/-- The pools of one side are those of its round. -/
theorem filter_side_detectEqualLevels (swings : List Swing) (tolerancePct : ℚ) :
    (detectEqualLevels swings tolerancePct).filter (fun pool => pool.side = .buySide) =
        equalLevels swings tolerancePct .high .buySide .equalHighs ∧
      (detectEqualLevels swings tolerancePct).filter (fun pool => pool.side = .sellSide) =
        equalLevels swings tolerancePct .low .sellSide .equalLows := by
  have hhighs : ∀ pool ∈ equalLevels swings tolerancePct .high .buySide .equalHighs,
      pool.side = .buySide := fun pool hpool => by
    obtain ⟨-, -, hside, -⟩ := exists_group_of_mem hpool
    exact hside
  have hlows : ∀ pool ∈ equalLevels swings tolerancePct .low .sellSide .equalLows,
      pool.side = .sellSide := fun pool hpool => by
    obtain ⟨-, -, hside, -⟩ := exists_group_of_mem hpool
    exact hside
  have hkeep : ∀ {side : LiquiditySide} {pools : List LiquidityPool},
      (∀ pool ∈ pools, pool.side = side) →
        pools.filter (fun pool => decide (pool.side = side)) = pools := fun h =>
    List.filter_eq_self.mpr fun pool hpool => decide_eq_true (h pool hpool)
  have hdrop : ∀ {side side' : LiquiditySide} {pools : List LiquidityPool}, side' ≠ side →
      (∀ pool ∈ pools, pool.side = side') →
        pools.filter (fun pool => decide (pool.side = side)) = [] := fun hne h =>
    List.filter_eq_nil_iff.mpr fun pool hpool => by simpa [h pool hpool] using hne
  have hne : LiquiditySide.sellSide ≠ .buySide := nofun
  -- Highs make buy-side pools only, lows sell-side ones.
  simp only [detectEqualLevels, List.filter_append]
  constructor
  · rw [hkeep hhighs, hdrop hne hlows, List.append_nil]
  · rw [hdrop hne.symm hhighs, hkeep hlows, List.nil_append]

/-- **The bisected grouping is the plain one**, and what it makes of the swings of each type. -/
theorem detectEqualLevels_grouped (swings : List Swing) (tolerancePct : ℚ)
    (hdistinct : swings.Pairwise fun a b => ¬ (a.index = b.index ∧ a.swingType = b.swingType)) :
    detectEqualLevels swings tolerancePct = detectEqualLevelsPlain swings tolerancePct ∧
      GroupedLevels swings tolerancePct .high
        ((detectEqualLevels swings tolerancePct).filter fun pool => pool.side = .buySide) ∧
      GroupedLevels swings tolerancePct .low
        ((detectEqualLevels swings tolerancePct).filter fun pool => pool.side = .sellSide) := by
  obtain ⟨hbuy, hsell⟩ := filter_side_detectEqualLevels swings tolerancePct
  refine ⟨?_, ?_, ?_⟩
  · simp only [detectEqualLevels, detectEqualLevelsPlain, equalLevels_eq_plain]
  · rw [hbuy]
    exact groupedLevels_equalLevels hdistinct
  · rw [hsell]
    exact groupedLevels_equalLevels hdistinct

/-- Two highs at one price, a third out of their band, and a candle that is both a high and a
low. -/
def equalTops : List Swing :=
  [{ index := 2, confirmedIndex := 3, timestamp := 120000000, price := 100, swingType := .high },
    { index := 5, confirmedIndex := 6, timestamp := 300000000, price := 110, swingType := .high },
    { index := 5, confirmedIndex := 6, timestamp := 300000000, price := 90, swingType := .low },
    { index := 8, confirmedIndex := 9, timestamp := 480000000, price := 100, swingType := .high }]

theorem equalTops_grouped :
    detectEqualLevels equalTops (5 / 100) = detectEqualLevelsPlain equalTops (5 / 100) ∧
      GroupedLevels equalTops (5 / 100) .high
        ((detectEqualLevels equalTops (5 / 100)).filter fun pool => pool.side = .buySide) := by
  obtain ⟨hplain, hhighs, -⟩ := detectEqualLevels_grouped equalTops (5 / 100) (by decide)
  exact ⟨hplain, hhighs⟩

end SuperTrading.Smc
