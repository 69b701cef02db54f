import SuperTrading.Smc.Engine

/-!
# No Look-Ahead, No Retraction

Every detector but the equal levels is online: on the first `k` candles it reports what it
reports on the whole series with a stamp below `k`.
-/

namespace SuperTrading.Smc

open SuperTrading.Logic

/-- On the first `k` candles the detectors report what they report on all candles with a stamp
below `k`; a session level is as the first `k` candles leave it. -/
theorem detectors_take (candles : List Candle) (swingLength : ℕ) (hlength : 1 ≤ swingLength)
    (minGapPct : ℚ) (timeframe : String) (k : ℕ) :
    ∃ swings swingsUpto, detectSwings candles swingLength = .ok swings ∧
      detectSwings (candles.take k) swingLength = .ok swingsUpto ∧
      swingsUpto = swings.filter (fun swing => swing.confirmedIndex < k) ∧
      detectStructureEvents (candles.take k) swingsUpto =
        (detectStructureEvents candles swings).filter (fun event => event.index < k) ∧
      promoteConfirmedShifts (detectStructureEvents (candles.take k) swingsUpto) =
        (promoteConfirmedShifts (detectStructureEvents candles swings)).filter
          (fun event => event.index < k) ∧
      (detectFvgs (candles.take k) minGapPct timeframe).map FairValueGap.outline =
        ((detectFvgs candles minGapPct timeframe).filter (fun gap => gap.createdIndex < k)).map
          FairValueGap.outline ∧
      ∀ period ∈ ["day", "week"], ∃ levels levelsUpto,
        detectSessionLevels candles period = .ok levels ∧
        detectSessionLevels (candles.take k) period = .ok levelsUpto ∧
        detectSweeps (candles.take k) levelsUpto =
          ((detectSweeps candles levels).filter (fun pool => pool.formedIndex < k)).map
            (LiquidityPool.asOf k) := by
  -- Each detector is online, and one that reads another's output is by composition.
  have hswings := swingsOf_online swingLength
  have hstructure := detectStructureEvents_online hswings
  have hmss := Online.comp promoteConfirmedShifts_progressive hstructure
  have hok : ∀ cs, detectSwings cs swingLength = .ok (swingsOf cs swingLength) := fun cs =>
    if_neg (by omega)
  refine ⟨_, _, hok candles, hok (candles.take k), hswings.take candles k,
    hstructure.take candles k, hmss.take candles k, ?_, ?_⟩
  · have hgaps := (detectFvgs_online minGapPct timeframe).take candles k
    rw [List.filter_map] at hgaps
    exact hgaps
  · intro period hperiod
    simp only [List.mem_cons, List.not_mem_nil, or_false] at hperiod
    rcases hperiod with rfl | rfl
    · exact ⟨_, _, rfl, rfl, detectSweeps_sessionLevels_take candles .day k⟩
    · exact ⟨_, _, rfl, rfl, detectSweeps_sessionLevels_take candles .week k⟩

/-- A candle at a minute of a day. -/
def barAt (day minute : ℤ) (high low close : ℚ) : Candle :=
  { timestamp := day * Timestamp.microsPerDay + minute * Timestamp.microsPerMinute
    «open» := close, high := high, low := low, close := close }

/-- Two days; the second opens above the high of the first. -/
def twoDays : List Candle :=
  [barAt 0 0 10 9 9, barAt 0 1 12 10 11, barAt 0 2 11 8 9, barAt 0 3 13 9 12, barAt 1 0 15 13 14,
    barAt 1 1 14 10 11]

/-- Of its two swings one is confirmed by the first three candles. -/
theorem detectors_take_twoDays : ∃ swings swingsUpto, detectSwings twoDays 1 = .ok swings ∧
    detectSwings (twoDays.take 3) 1 = .ok swingsUpto ∧
    swingsUpto = swings.filter fun swing => swing.confirmedIndex < 3 := by
  obtain ⟨swings, swingsUpto, hall, hupto, hcut, -⟩ := detectors_take twoDays 1 (by decide) 0 "" 3
  exact ⟨swings, swingsUpto, hall, hupto, hcut⟩

end SuperTrading.Smc
