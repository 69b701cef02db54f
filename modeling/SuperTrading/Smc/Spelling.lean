import SuperTrading.Smc.Engine

/-!
# Spellings of an Instant

One instant can be written in many UTC offsets. No detector but the session levels reads the
offset: erasing it from every candle changes nothing they report. The session levels read the
local calendar, and tell one spelling from another exactly where the local day, or the local
week, changes between other candles.

- **Layer A**: the detectors that read no offset
- **Layer B**: the session levels
- **Layer C**: the whole analysis
-/

namespace SuperTrading.Smc

open SuperTrading.Logic

/-! ## Layer A: The detectors that read no offset -/

/-- The same instant, written in UTC. -/
def Candle.toUtc (c : Candle) : Candle := { c with utcOffset := 0 }

section Erased

variable (candles : List Candle)

/-- An indexed candle, written in UTC. -/
def entryToUtc (entry : Candle × ℕ) : Candle × ℕ := (entry.1.toUtc, entry.2)

theorem zipIdx_toUtc (start : ℕ) :
    (candles.map Candle.toUtc).zipIdx start = (candles.zipIdx start).map entryToUtc := by
  rw [List.zipIdx_map]
  rfl

theorem detectSwings_toUtc (swingLength : ℕ) :
    detectSwings (candles.map Candle.toUtc) swingLength = detectSwings candles swingLength := by
  have hwindow : ∀ i, swingWindow (candles.map Candle.toUtc) swingLength i =
      (swingWindow candles swingLength i).map Candle.toUtc := by
    intro i
    rw [swingWindow, swingWindow, ← List.map_drop, ← List.map_take]
  have hat : swingsAt (candles.map Candle.toUtc) swingLength = swingsAt candles swingLength := by
    funext i
    unfold swingsAt
    rw [hwindow, List.map_map, List.map_map, List.getElem?_map]
    cases candles[i]? <;> rfl
  unfold detectSwings swingsOf foundSwings
  rw [hat, List.length_map]

theorem detectStructureEvents_toUtc (swings : List Swing) :
    detectStructureEvents (candles.map Candle.toUtc) swings =
      detectStructureEvents candles swings := by
  rw [detectStructureEvents, zipIdx_toUtc, List.foldl_map]
  rfl

theorem fillZone_toUtc (direction : Direction) (top bottom : ℚ) (s : ZoneFill)
    (entries : List (Candle × ℕ)) :
    fillZone direction top bottom s (entries.map entryToUtc) =
      fillZone direction top bottom s entries := by
  induction entries generalizing s with
  | nil => rfl
  | cons entry entries ih =>
    obtain ⟨candle, i⟩ := entry
    simp only [List.map_cons, entryToUtc, fillZone, ih]
    rfl

theorem detectFvgs_toUtc (minGapPct : ℚ) (timeframe : String) :
    detectFvgs (candles.map Candle.toUtc) minGapPct timeframe =
      detectFvgs candles minGapPct timeframe := by
  have hat : gapsAt (candles.map Candle.toUtc) minGapPct timeframe =
      gapsAt candles minGapPct timeframe := by
    funext i
    unfold gapsAt
    simp only [List.getElem?_map]
    cases candles[i - 2]? <;> cases candles[i - 1]? <;> cases candles[i]? <;> rfl
  have hupdate : FairValueGap.updateMitigation (candles.map Candle.toUtc) =
      FairValueGap.updateMitigation candles := by
    funext gap
    unfold FairValueGap.updateMitigation
    rw [zipIdx_toUtc, ← List.map_drop, fillZone_toUtc]
  rw [detectFvgs, detectFvgs, foundGaps, foundGaps, hat, hupdate, List.length_map]

theorem averageOf_toUtc {measure : Candle → ℚ} (h : ∀ c, measure c.toUtc = measure c)
    (endIndex : ℕ) :
    averageOf measure (candles.map Candle.toUtc) endIndex = averageOf measure candles endIndex := by
  have hwindow : lookbackWindow (candles.map Candle.toUtc) endIndex =
      (lookbackWindow candles endIndex).map Candle.toUtc := by
    unfold lookbackWindow
    simp only [← List.map_take, ← List.map_drop, List.map_eq_nil_iff]
    split_ifs <;> rfl
  have hmeasure : measure ∘ Candle.toUtc = measure := funext h
  unfold averageOf
  rw [hwindow]
  dsimp only
  rw [List.map_map, hmeasure, List.length_map]
  simp only [List.map_eq_nil_iff]

theorem findOrigin_toUtc (event : StructureEvent) (lookbackCandles : ℕ) :
    findOrigin (candles.map Candle.toUtc) event lookbackCandles =
      (findOrigin candles event lookbackCandles).map entryToUtc := by
  unfold findOrigin
  rw [zipIdx_toUtc, ← List.map_take, ← List.map_drop, ← List.map_reverse, List.find?_map]
  rfl

theorem detectOrderBlocks_toUtc (events : List StructureEvent) (fvgs : List FairValueGap)
    (lookbackCandles : ℕ) :
    detectOrderBlocks (candles.map Candle.toUtc) events fvgs lookbackCandles =
      detectOrderBlocks candles events fvgs lookbackCandles := by
  -- The strength reads ranges and volumes, and no time.
  have hstrength : ∀ event candle, blockStrength (candles.map Candle.toUtc) fvgs event
      (Candle.toUtc candle) = blockStrength candles fvgs event candle := by
    intro event candle
    unfold blockStrength averageRange averageVolume
    rw [averageOf_toUtc candles (fun _ => rfl), averageOf_toUtc candles (fun _ => rfl)]
    rfl
  have hblock : blockOf (candles.map Candle.toUtc) fvgs lookbackCandles =
      blockOf candles fvgs lookbackCandles := by
    funext event
    unfold blockOf
    rw [findOrigin_toUtc, List.getElem?_map]
    cases findOrigin candles event lookbackCandles with
    | none => rfl
    | some origin =>
      cases candles[event.index]? with
      | none => rfl
      | some candle =>
        simp only [Option.map_some, hstrength, entryToUtc]
        rfl
  have hupdate : OrderBlock.updateMitigation (candles.map Candle.toUtc) =
      OrderBlock.updateMitigation candles := by
    funext block
    unfold OrderBlock.updateMitigation
    rw [zipIdx_toUtc, ← List.map_drop, fillZone_toUtc]
  rw [detectOrderBlocks, hblock, hupdate]
  rfl

theorem detectSweeps_toUtc (pools : List LiquidityPool) :
    detectSweeps (candles.map Candle.toUtc) pools = detectSweeps candles pools := by
  apply List.map_congr_left
  intro pool _
  unfold detectSweep
  rw [zipIdx_toUtc, ← List.map_drop, List.find?_map]
  have hsweeps : pool.sweeps ∘ entryToUtc = pool.sweeps := rfl
  rw [hsweeps]
  cases (candles.zipIdx.drop pool.formedIndex).find? pool.sweeps <;> rfl

end Erased

/-! ## Layer B: The session levels -/

/-- Where the key changes along a list that begins behind a candle of a given key. -/
def changesFrom (bucketKey : Candle → ℤ) : ℤ → List Candle → List Bool
  | _, [] => []
  | currentKey, candle :: candles =>
    decide (bucketKey candle ≠ currentKey) :: changesFrom bucketKey (bucketKey candle) candles

/-- Between which neighbours the key changes. -/
def changes (bucketKey : Candle → ℤ) (candles : List Candle) : List Bool :=
  candles.head?.elim [] fun first => changesFrom bucketKey (bucketKey first) candles

section Levels

variable (period : Period) {candles candles' : List Candle}

/-- A scan leaves the levels it begins with, and forms the others at the candles it reads. -/
theorem pools_foldl_step (candles : List Candle) (start : ℕ) (s : SessionState) :
    ∃ formed, ((candles.zipIdx start).foldl (SessionState.step period) s).pools =
      s.pools ++ formed ∧ ∀ pool ∈ formed, start ≤ pool.formedIndex := by
  induction candles generalizing start s with
  | nil => exact ⟨[], by simp, by simp⟩
  | cons candle candles ih =>
    obtain ⟨formed, heq, hformed⟩ := ih (start + 1) (s.step period (candle, start))
    rw [List.zipIdx_cons, List.foldl_cons, heq]
    simp only [SessionState.step]
    split_ifs with hkey
    · refine ⟨_, List.append_assoc _ _ _, ?_⟩
      intro pool hpool
      rcases List.mem_append.mp hpool with hpool | hpool
      · simp only [List.mem_cons, List.not_mem_nil, or_false] at hpool
        rcases hpool with rfl | rfl <;> exact Nat.le_refl start
      · exact Nat.le_of_succ_le (hformed pool hpool)
    · exact ⟨formed, rfl, fun pool hpool => Nat.le_of_succ_le (hformed pool hpool)⟩

/-- A level formed at a candle is not among those that later candles form. -/
theorem foldl_step_pools_ne (candles candles' : List Candle) (start : ℕ) (s s' : SessionState)
    (pool pool' : LiquidityPool)
    (hpools : s.pools = s'.pools ++ [pool, pool']) (hpool : pool.formedIndex = start) :
    ((candles.zipIdx (start + 1)).foldl (SessionState.step period) s).pools ≠
      ((candles'.zipIdx (start + 1)).foldl (SessionState.step period) s').pools := by
  intro heq
  obtain ⟨formed, hformed, -⟩ := pools_foldl_step period candles (start + 1) s
  obtain ⟨formed', hformed', hlater⟩ := pools_foldl_step period candles' (start + 1) s'
  rw [hformed, hformed', hpools, List.append_assoc] at heq
  have hmem : pool ∈ formed' := by
    rw [← List.append_cancel_left heq]
    simp
  have hle := hlater pool hmem
  omega

/-- Two scans of one list in two spellings find the same levels exactly when the key changes at
the same candles. -/
theorem foldl_step_pools_iff (h : candles.map Candle.toUtc = candles'.map Candle.toUtc)
    (start : ℕ) (s : SessionState) (currentKey' : ℤ) :
    ((candles.zipIdx start).foldl (SessionState.step period) s).pools =
        ((candles'.zipIdx start).foldl (SessionState.step period)
          { s with currentKey := currentKey' }).pools ↔
      changesFrom period.bucketKey s.currentKey candles =
        changesFrom period.bucketKey currentKey' candles' := by
  induction candles generalizing candles' start s currentKey' with
  | nil =>
    rw [List.map_nil, eq_comm, List.map_eq_nil_iff] at h
    subst h
    exact ⟨fun _ => rfl, fun _ => rfl⟩
  | cons candle candles ih =>
    cases candles' with
    | nil => simp at h
    | cons candle' candles' =>
      rw [List.map_cons, List.map_cons, List.cons.injEq] at h
      obtain ⟨hcandle, hrest⟩ := h
      have hhigh : candle.high = candle'.high := (congrArg Candle.high hcandle :)
      have hlow : candle.low = candle'.low := (congrArg Candle.low hcandle :)
      have htime : candle.timestamp = candle'.timestamp := (congrArg Candle.timestamp hcandle :)
      simp only [List.zipIdx_cons, List.foldl_cons, changesFrom, List.cons.injEq,
        decide_eq_decide]
      by_cases hkey : period.bucketKey candle = s.currentKey <;>
        by_cases hkey' : period.bucketKey candle' = currentKey'
      · -- Neither spelling sees a new period.
        have hnext := ih hrest (start + 1) (s.step period (candle, start)) currentKey'
        simp only [SessionState.step, hkey, hkey', hhigh, hlow, ne_eq, not_true_eq_false,
          if_false, true_and] at hnext ⊢
        exact hnext
      · -- Only the second does, and it alone forms levels here.
        have hne := foldl_step_pools_ne period candles' candles start
        simp only [SessionState.step, hkey, hkey', ne_eq, not_true_eq_false, not_false_eq_true,
          if_false, if_true, false_and, iff_false, false_iff]
        exact fun heq => hne _ _ _ _ rfl rfl heq.symm
      · have hne := foldl_step_pools_ne period candles candles' start
        simp only [SessionState.step, hkey, hkey', ne_eq, not_true_eq_false, not_false_eq_true,
          if_false, if_true, false_and, iff_false]
        exact fun heq => hne _ _ _ _ rfl rfl heq
      · -- Both form the same levels, of the same extremes.
        have hnext := ih hrest (start + 1) (s.step period (candle, start))
          (period.bucketKey candle')
        simp only [SessionState.step, hkey, hkey', hhigh, hlow, htime, ne_eq, not_false_eq_true,
          if_true, true_and] at hnext ⊢
        exact hnext

/-- The levels of a list in two spellings are the same exactly when the period changes between
the same candles. -/
theorem sessionLevels_eq_iff (h : candles.map Candle.toUtc = candles'.map Candle.toUtc) :
    sessionLevels candles period = sessionLevels candles' period ↔
      changes period.bucketKey candles = changes period.bucketKey candles' := by
  cases candles with
  | nil =>
    rw [List.map_nil, eq_comm, List.map_eq_nil_iff] at h
    subst h
    exact ⟨fun _ => rfl, fun _ => rfl⟩
  | cons first rest =>
    cases candles' with
    | nil => simp at h
    | cons first' rest' =>
      -- The first candle starts the first period in either spelling.
      have hfirst : first.toUtc = first'.toUtc := (List.cons.inj h).1
      have hhigh : first'.high = first.high := (congrArg Candle.high hfirst.symm :)
      have hlow : first'.low = first.low := (congrArg Candle.low hfirst.symm :)
      have hiff := foldl_step_pools_iff period h 0 (.start period first)
        (period.bucketKey first')
      simp only [sessionLevels, changes, List.head?_cons, Option.elim_some]
      simp only [SessionState.start, hhigh, hlow] at hiff ⊢
      exact hiff

end Levels

/-! ## Layer C: The whole analysis -/

/-- The levels can be read back from the pools after the sweeps. -/
theorem sessionLevels_of_detectSweeps {candles candles' : List Candle} {period : Period}
    (h : detectSweeps candles (sessionLevels candles period) =
      detectSweeps candles' (sessionLevels candles' period)) :
    sessionLevels candles period = sessionLevels candles' period := by
  have hback : ∀ cs : List Candle, (detectSweeps cs (sessionLevels cs period)).map
      LiquidityPool.unswept = sessionLevels cs period := by
    intro cs
    rw [detectSweeps, List.map_map]
    have hid : ∀ pool ∈ sessionLevels cs period,
        (LiquidityPool.unswept ∘ detectSweep cs) pool = id pool := by
      intro pool hpool
      exact unswept_detectSweep (fresh_of_mem_sessionLevels hpool)
    rw [List.map_congr_left hid, List.map_id]
  rw [← hback candles, h, hback]

section Whole

variable {candles candles' : List Candle}

/-- What reads no offset cannot tell two spellings apart. -/
theorem eq_of_toUtc {β : Type} (h : candles.map Candle.toUtc = candles'.map Candle.toUtc)
    (f : List Candle → β) (hf : ∀ cs, f (cs.map Candle.toUtc) = f cs) : f candles = f candles' := by
  rw [← hf candles, h, hf]

/-- But for the session levels, an analysis reads no offset. -/
theorem analyze_congr (h : candles.map Candle.toUtc = candles'.map Candle.toUtc)
    (hday : sessionLevels candles .day = sessionLevels candles' .day)
    (hweek : sessionLevels candles .week = sessionLevels candles' .week) (cfg : SMCConfig) :
    analyze cfg candles = analyze cfg candles' := by
  have hswings : ∀ n, detectSwings candles n = detectSwings candles' n := fun n =>
    eq_of_toUtc h (detectSwings · n) fun cs => detectSwings_toUtc cs n
  have hevents : ∀ swings, detectStructureEvents candles swings =
      detectStructureEvents candles' swings := fun swings =>
    eq_of_toUtc h (detectStructureEvents · swings) fun cs => detectStructureEvents_toUtc cs swings
  have hfvgs : ∀ gap, detectFvgs candles gap = detectFvgs candles' gap := fun gap =>
    eq_of_toUtc h (detectFvgs · gap) fun cs => detectFvgs_toUtc cs gap _
  have hblocks : ∀ events fvgs lookback, detectOrderBlocks candles events fvgs lookback =
      detectOrderBlocks candles' events fvgs lookback := fun events fvgs lookback =>
    eq_of_toUtc h (detectOrderBlocks · events fvgs lookback) fun cs =>
      detectOrderBlocks_toUtc cs events fvgs lookback
  have hsweeps : ∀ pools, detectSweeps candles pools = detectSweeps candles' pools := fun pools =>
    eq_of_toUtc h (detectSweeps · pools) fun cs => detectSweeps_toUtc cs pools
  have hdaily : detectSessionLevels candles "day" = detectSessionLevels candles' "day" :=
    congrArg Except.ok hday
  have hweekly : detectSessionLevels candles "week" = detectSessionLevels candles' "week" :=
    congrArg Except.ok hweek
  -- The last close is read off the candles themselves, past the detectors.
  have hclose : candles.getLast?.map Candle.close = candles'.getLast?.map Candle.close := by
    have hlast := congrArg (fun cs => cs.getLast?.map Candle.close) h
    rwa [List.getLast?_map, List.getLast?_map, Option.map_map, Option.map_map] at hlast
  unfold analyze
  rw [hdaily, hweekly]
  simp only [hswings, hevents, hfvgs, hblocks, hsweeps, hclose]

/-- The configuration that detects the levels of one period only. -/
def onlyLevels : Period → SMCConfig
  | .day => { detectWeeklyLevels := false }
  | .week => { detectDailyLevels := false }

theorem pools_onlyLevels (candles : List Candle) (period : Period) :
    (analyze (onlyLevels period) candles).map SMCContext.liquidityPools =
      .ok (detectSweeps candles (detectEqualLevels (swingsOf candles 3) ++
        sessionLevels candles period)) := by
  have hswings : detectSwings candles 3 = .ok (swingsOf candles 3) := rfl
  have hday : detectSessionLevels candles "day" = .ok (sessionLevels candles .day) := rfl
  have hweek : detectSessionLevels candles "week" = .ok (sessionLevels candles .week) := rfl
  cases period with
  | day =>
    simp only [analyze, onlyLevels, hswings, hday, if_true, Bool.false_eq_true, if_false,
      Except.bind, bind, pure, Except.pure, Except.map, List.append_nil]
  | week =>
    simp only [analyze, onlyLevels, hswings, hweek, if_true, Bool.false_eq_true, if_false,
      Except.bind, bind, pure, Except.pure, Except.map, List.append_nil]

/-- The levels of a period show in the analysis that detects no others. -/
theorem sessionLevels_of_analyze (h : candles.map Candle.toUtc = candles'.map Candle.toUtc)
    (period : Period)
    (heq : analyze (onlyLevels period) candles = analyze (onlyLevels period) candles') :
    sessionLevels candles period = sessionLevels candles' period := by
  have hswings : detectSwings candles = detectSwings candles' :=
    eq_of_toUtc h (detectSwings ·) fun cs => detectSwings_toUtc cs _
  have hequal : swingsOf candles 3 = swingsOf candles' 3 := Except.ok.inj hswings
  have hpools := congrArg (Except.map SMCContext.liquidityPools) heq
  rw [pools_onlyLevels, pools_onlyLevels, hequal] at hpools
  have hlevels := Except.ok.inj hpools
  -- The pools of equal swings stand in front of both lists, and are swept alike.
  have hfront : detectSweeps candles (detectEqualLevels (swingsOf candles' 3)) =
      detectSweeps candles' (detectEqualLevels (swingsOf candles' 3)) :=
    eq_of_toUtc h (detectSweeps · _) fun cs => detectSweeps_toUtc cs _
  simp only [detectSweeps, List.map_append] at hlevels hfront
  rw [hfront] at hlevels
  exact sessionLevels_of_detectSweeps (List.append_cancel_left hlevels)

/-- Two spellings of one list have the same analysis, whatever the configuration, exactly when
the local day and the local week change between the same candles. -/
theorem analyze_eq_iff (h : candles.map Candle.toUtc = candles'.map Candle.toUtc) :
    (∀ cfg, analyze cfg candles = analyze cfg candles') ↔
      changes Candle.date candles = changes Candle.date candles' ∧
        changes Candle.isoWeek candles = changes Candle.isoWeek candles' := by
  have hday : sessionLevels candles .day = sessionLevels candles' .day ↔
      changes Candle.date candles = changes Candle.date candles' := sessionLevels_eq_iff .day h
  have hweek : sessionLevels candles .week = sessionLevels candles' .week ↔
      changes Candle.isoWeek candles = changes Candle.isoWeek candles' :=
    sessionLevels_eq_iff .week h
  rw [← hday, ← hweek]
  constructor
  · intro hsame
    exact ⟨sessionLevels_of_analyze h .day (hsame _), sessionLevels_of_analyze h .week (hsame _)⟩
  · rintro ⟨hday, hweek⟩ cfg
    exact analyze_congr h hday hweek cfg

end Whole

end SuperTrading.Smc
