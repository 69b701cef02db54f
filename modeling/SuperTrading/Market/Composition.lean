import SuperTrading.Market.Resample

/-!
# Resampling Composes

Candles resampled to one timeframe and from there to a longer one, against the same candles
resampled to the longer one at once. The two agree where the bars of the first lie within the
buckets of the second. Intraday bars start with the session and days at midnight, so the bar
that lies across midnight belongs to the day before, and what it holds of the new day with it.

- **Layer A**: bars of bars
- **Layer B**: buckets within buckets
- **Layer C**: the composition
-/

namespace SuperTrading

open Logic
open Smc (Candle)

/-! ## Layer A: Bars of bars -/

section Bars

variable {f : Timestamp → List Candle} {keys : List Timestamp} {bars : List Candle} {bar : Candle}

/-- The last bar closes where the last candle does. -/
theorem closes_flatMap (h : List.Forall₂ (fun k bar => IsBarOf bar (f k)) keys bars) :
    ∀ last ∈ (keys.flatMap f).getLast?, ∃ lastBar ∈ bars.getLast?, lastBar.close = last.close := by
  induction h with
  | nil => simp
  | @cons k first keys bars hfirst hrest ih =>
    intro last hlast
    rw [List.flatMap_cons] at hlast
    cases hrest with
    | nil =>
      rw [List.flatMap_nil, List.append_nil] at hlast
      exact ⟨first, rfl, hfirst.closes last hlast⟩
    | @cons k' second keys bars hsecond hrest =>
      have hne : (k' :: keys).flatMap f ≠ [] := by
        rw [List.flatMap_cons]
        exact List.append_ne_nil_of_left_ne_nil hsecond.nonempty _
      rw [List.getLast?_append_of_ne_nil _ hne] at hlast
      obtain ⟨lastBar, hbar, hclose⟩ := ih last hlast
      exact ⟨lastBar, by rwa [List.getLast?_cons_cons], hclose⟩

/-- **A bar of bars** is a bar of their candles. -/
theorem IsBarOf.flatMap (h : List.Forall₂ (fun k bar => IsBarOf bar (f k)) keys bars)
    (hbar : IsBarOf bar bars) : IsBarOf bar (keys.flatMap f) := by
  -- Each candle lies in one of the parts, under the bar of that part.
  have hmembers : ∀ c ∈ keys.flatMap f, ∃ b ∈ bars, ∃ k ∈ keys, c ∈ f k ∧ IsBarOf b (f k) := by
    intro c hc
    obtain ⟨k, hk, hc⟩ := List.mem_flatMap.mp hc
    obtain ⟨b, hb, hbk⟩ := exists_of_mem_forall₂ h hk
    exact ⟨b, hb, k, hk, hc, hbk⟩
  constructor
  · -- No part is empty, so neither is the whole.
    cases h with
    | nil => exact absurd rfl hbar.nonempty
    | cons hfirst _ =>
      rw [List.flatMap_cons]
      exact List.append_ne_nil_of_left_ne_nil hfirst.nonempty _
  · -- It opens with the first part's first, and closes with the last part's last.
    cases h with
    | nil => simp
    | @cons k b _ _ hfirst _ =>
      obtain ⟨c, cs, hcs⟩ := List.exists_cons_of_ne_nil hfirst.nonempty
      intro first hhead
      rw [List.flatMap_cons, hcs] at hhead
      obtain rfl : c = first := by simpa using hhead
      rw [hbar.opens b rfl, hfirst.opens c (by rw [hcs]; rfl)]
  · intro last hlast
    obtain ⟨lastBar, hlastBar, hclose⟩ := closes_flatMap h last hlast
    rw [hbar.closes lastBar hlastBar, hclose]
  · -- The high is above every candle, and is one of theirs.
    intro c hc
    obtain ⟨b, hb, k, -, hc, hbk⟩ := hmembers c hc
    exact (hbk.le_high c hc).trans (hbar.le_high b hb)
  · obtain ⟨b, hb, hhigh⟩ := hbar.high_mem
    obtain ⟨k, hk, hbk⟩ := exists_of_mem_forall₂ h.flip hb
    obtain ⟨c, hc, hchigh⟩ := hbk.high_mem
    exact ⟨c, List.mem_flatMap.mpr ⟨k, hk, hc⟩, hchigh.trans hhigh⟩
  · -- So is the low, from below.
    intro c hc
    obtain ⟨b, hb, k, -, hc, hbk⟩ := hmembers c hc
    exact (hbar.low_le b hb).trans (hbk.low_le c hc)
  · obtain ⟨b, hb, hlow⟩ := hbar.low_mem
    obtain ⟨k, hk, hbk⟩ := exists_of_mem_forall₂ h.flip hb
    obtain ⟨c, hc, hclow⟩ := hbk.low_mem
    exact ⟨c, List.mem_flatMap.mpr ⟨k, hk, hc⟩, hclow.trans hlow⟩
  · -- The volume is the sum over the parts.
    rw [hbar.volume]
    clear hbar hmembers
    induction h with
    | nil => rfl
    | cons hfirst _ ih =>
      rw [List.map_cons, List.sum_cons, ih, List.flatMap_cons, List.map_append, List.sum_append,
        hfirst.volume]

end Bars

/-! ## Layer B: Buckets within buckets -/

/-- How far a bar of `b` that starts before a bucket of `c` reaches into it: not at all, unless
bars that start with the session meet a bucket that starts at midnight. -/
def overhang (b c : Timeframe) : ℤ :=
  if b.minutes < dayMinutes ∧ dayMinutes ≤ c.minutes then
    spanOf (sessionOpenMinutesUtc % b.minutes)
  else 0

/-- The overhang is how the two grids lie to each other. -/
theorem bucketOffset_emod_eq_overhang {b c : Timeframe} (h : isValidUpsample b c = true) :
    (bucketOffset b.minutes - bucketOffset c.minutes) % spanOf b.minutes = overhang b c := by
  revert h
  cases b <;> cases c <;> decide

theorem spanOf_dvd_spanOf {b c : Timeframe} (h : isValidUpsample b c = true) :
    spanOf b.minutes ∣ spanOf c.minutes := by
  obtain ⟨-, hmod⟩ := of_decide_eq_true h
  obtain ⟨n, hn⟩ := Nat.dvd_of_mod_eq_zero hmod
  refine ⟨n, ?_⟩
  simp only [spanOf, hn, Nat.cast_mul]
  ring

/-- A bar of `b` starts in the bucket of `c` of an instant it holds, unless the instant lies in
the overhang. -/
theorem bucketStart_bucketStart_iff {b c : Timeframe} (h : isValidUpsample b c = true)
    (t : Timestamp) :
    bucketStart (bucketStart t b.minutes) c.minutes = bucketStart t c.minutes ↔
      overhang b c ≤ t - bucketStart t c.minutes := by
  rw [← bucketOffset_emod_eq_overhang h]
  simp only [bucketStart_eq]
  exact gridFloor_gridFloor_iff (spanOf_pos b.minutes_pos) (spanOf_pos c.minutes_pos)
    (spanOf_dvd_spanOf h)

theorem isValidUpsample_trans {a b c : Timeframe} (hab : isValidUpsample a b = true)
    (hbc : isValidUpsample b c = true) : isValidUpsample a c = true := by
  obtain ⟨hltab, hmodab⟩ := of_decide_eq_true hab
  obtain ⟨hltbc, hmodbc⟩ := of_decide_eq_true hbc
  apply decide_eq_true
  constructor
  · exact hltab.trans hltbc
  · exact Nat.mod_eq_zero_of_dvd
      ((Nat.dvd_of_mod_eq_zero hmodab).trans (Nat.dvd_of_mod_eq_zero hmodbc))

/-! ## Layer C: The composition -/

section Composition

variable {a b c : Timeframe} {candles fine : List Candle}

/-- No candle lies in the overhang of `b` into a bucket of `c`. -/
def ClearOfOverhang (b c : Timeframe) (candles : List Candle) : Prop :=
  ∀ x ∈ candles, overhang b c ≤ x.timestamp - bucketStart x.timestamp c.minutes

instance (b c : Timeframe) (candles : List Candle) : Decidable (ClearOfOverhang b c candles) :=
  inferInstanceAs (Decidable
    (∀ x ∈ candles, overhang b c ≤ x.timestamp - bucketStart x.timestamp c.minutes))

/-- The bucket of a candle's bar is the bucket of the candle. -/
theorem bucketStart_candleBucket (hutc : ∀ x ∈ candles, x.utcOffset = 0)
    (hbc : isValidUpsample b c = true) (hclear : ClearOfOverhang b c candles) {x : Candle}
    (hx : x ∈ candles) : bucketStart (candleBucket b x) c.minutes = candleBucket c x := by
  rw [candleBucket_eq (hutc x hx), candleBucket_eq (hutc x hx)]
  exact (bucketStart_bucketStart_iff hbc x.timestamp).mpr (hclear x hx)

/-- The bars have the buckets of their candles. -/
theorem bucketKeys_fine (hutc : ∀ x ∈ candles, x.utcOffset = 0)
    (hbc : isValidUpsample b c = true) (hclear : ClearOfOverhang b c candles)
    (hfine : List.Forall₂ (IsBucketBar b candles) (bucketKeys (candleBucket b) candles) fine) :
    bucketKeys (candleBucket c) fine = bucketKeys (candleBucket c) candles := by
  -- Keys are strictly increasing on both sides, so it is enough that they are the same ones.
  apply eq_of_strict_of_mem_iff id (strict_bucketKeys fine) (strict_bucketKeys candles)
  intro k
  rw [mem_bucketKeys, mem_bucketKeys]
  constructor
  · rintro ⟨bar, hbar, rfl⟩
    obtain ⟨hkey, hbucket⟩ := isBucketBar_of_mem hfine hbar
    obtain ⟨x, hx, hxkey⟩ := mem_bucketKeys.mp hkey
    refine ⟨x, hx, ?_⟩
    rw [candleBucket_eq hbucket.utc, ← hxkey, bucketStart_candleBucket hutc hbc hclear hx]
  · rintro ⟨x, hx, rfl⟩
    have hkey : candleBucket b x ∈ bucketKeys (candleBucket b) candles :=
      mem_bucketKeys.mpr ⟨x, hx, rfl⟩
    obtain ⟨bar, hbar, hbucket⟩ := exists_of_mem_forall₂ hfine hkey
    refine ⟨bar, hbar, ?_⟩
    rw [candleBucket_eq hbucket.utc, hbucket.timestamp, bucketStart_candleBucket hutc hbc hclear hx]

/-- A bar of the bars of a bucket is the bar of the bucket. -/
theorem isBucketBar_of_fine (hutc : ∀ x ∈ candles, x.utcOffset = 0)
    (hdistinct : (candles.map Candle.timestamp).Nodup) (hbc : isValidUpsample b c = true)
    (hclear : ClearOfOverhang b c candles)
    (hfine : List.Forall₂ (IsBucketBar b candles) (bucketKeys (candleBucket b) candles) fine)
    {k : Timestamp} {bar : Candle} (h : IsBucketBar c fine k bar) :
    IsBucketBar c candles k bar := by
  refine ⟨h.timestamp, h.utc, ?_⟩
  have hsorted : fine.Pairwise fun x y => x.timestamp ≤ y.timestamp := by
    rw [← List.pairwise_map, map_timestamp_of_forall₂ hfine]
    exact (strict_bucketKeys candles).imp le_of_lt
  -- The bars of the bucket are those of its keys, in order.
  have hbars : List.Forall₂ (fun j bar => IsBarOf bar (bucketOf (candleBucket b) Candle.timestamp
      candles j)) ((bucketKeys (candleBucket b) candles).filter fun j =>
        bucketStart j c.minutes = k) (bucketOf (candleBucket c) Candle.timestamp fine k) := by
    rw [bucketOf, sortBy_of_pairwise _ (hsorted.filter _)]
    have hfilter := List.rel_filter (R := IsBucketBar b candles)
      (p := fun j => decide (bucketStart j c.minutes = k))
      (q := fun bar => decide (candleBucket c bar = k)) (fun j bar hj => by
        simp only [candleBucket_eq hj.utc, hj.timestamp]) hfine
    exact hfilter.imp fun _ _ hj => hj.isBarOf
  -- The candles of the bucket are theirs, bar after bar.
  have hcandles : bucketOf (candleBucket c) Candle.timestamp candles k =
      ((bucketKeys (candleBucket b) candles).filter fun j => bucketStart j c.minutes = k).flatMap
        (bucketOf (candleBucket b) Candle.timestamp candles) := by
    rw [← sortBy_filter_eq_flatMap (candleBucket_mono hutc) hdistinct, bucketOf]
    congr 1
    apply List.filter_congr
    intro x hx
    rw [bucketStart_candleBucket hutc hbc hclear hx]
  rw [hcandles]
  exact h.isBarOf.flatMap hbars

/-- **Resampling composes**, for candles that keep clear of the overhang. -/
theorem resampleCandles_comp (a b c : Timeframe) (candles : List Candle)
    (hab : isValidUpsample a b = true) (hbc : isValidUpsample b c = true)
    (hutc : ∀ x ∈ candles, x.utcOffset = 0) (hdistinct : (candles.map Candle.timestamp).Nodup)
    (hclear : ClearOfOverhang b c candles) :
    ∃ fine bars, resampleCandles candles a b = .ok fine ∧
      resampleCandles fine b c = .ok bars ∧ resampleCandles candles a c = .ok bars := by
  obtain ⟨fine, hfineOk, hfine⟩ := resampleCandles_ok hutc hab
  obtain ⟨bars, hbarsOk, hbars⟩ := resampleCandles_ok hutc (isValidUpsample_trans hab hbc)
  have hfineUtc : ∀ bar ∈ fine, bar.utcOffset = 0 := fun bar hbar =>
    (isBucketBar_of_mem hfine hbar).2.utc
  obtain ⟨coarse, hcoarseOk, hcoarse⟩ := resampleCandles_ok hfineUtc hbc
  rw [bucketKeys_fine hutc hbc hclear hfine] at hcoarse
  have hsame : coarse = bars := by
    apply List.right_unique_forall₂' (fun _ _ _ h h' => h.unique h') _ hbars
    exact hcoarse.imp fun _ _ h => isBucketBar_of_fine hutc hdistinct hbc hclear hfine h
  exact ⟨fine, bars, hfineOk, hsame ▸ hcoarseOk, hbarsOk⟩

end Composition

/-- The first quarters of an hour of a session, and the last one of the day before's. -/
def sessionQuarters : List Candle :=
  [{ timestamp := -855 * Timestamp.microsPerMinute
     «open» := 99
     high := 100
     low := 98
     close := 99
     volume := 10 },
    { timestamp := 225 * Timestamp.microsPerMinute
      «open» := 100
      high := 103
      low := 99
      close := 102
      volume := 30 },
    { timestamp := 240 * Timestamp.microsPerMinute
      «open» := 102
      high := 104
      low := 101
      close := 101
      volume := 20 }]

theorem sessionQuarters_comp :
    ∃ fine bars, resampleCandles sessionQuarters .m15 .h1 = .ok fine ∧
      resampleCandles fine .h1 .d1 = .ok bars ∧
      resampleCandles sessionQuarters .m15 .d1 = .ok bars :=
  resampleCandles_comp .m15 .h1 .d1 sessionQuarters (by decide) (by decide) (by decide) (by decide)
    (by decide)

/-- The first quarter of an hour of a day. -/
def midnightQuarter : Candle :=
  { timestamp := 0, «open» := 100, high := 103, low := 99, close := 102, volume := 30 }

/-- The hour that holds the quarter starts on the day before, and its day is that one. -/
theorem midnightQuarter_not_comp :
    isValidUpsample .m15 .h1 = true ∧ isValidUpsample .h1 .d1 = true ∧
      bucketStart midnightQuarter.timestamp Timeframe.m15.minutes = midnightQuarter.timestamp ∧
      ¬ ∃ fine bars, resampleCandles [midnightQuarter] .m15 .h1 = .ok fine ∧
        resampleCandles fine .h1 .d1 = .ok bars ∧
        resampleCandles [midnightQuarter] .m15 .d1 = .ok bars := by
  refine ⟨by decide, by decide, by decide, ?_⟩
  rintro ⟨fine, bars, hfine, hcomposed, hdirect⟩
  -- The hour starts on the day before, and takes the candle along.
  have hhour : resampleCandles [midnightQuarter] .m15 .h1 =
      .ok [{ midnightQuarter with timestamp := -15 * Timestamp.microsPerMinute }] := by
    decide +kernel
  have hbefore : resampleCandles [{ midnightQuarter with
      timestamp := -15 * Timestamp.microsPerMinute }] .h1 .d1 =
      .ok [{ midnightQuarter with timestamp := -Timestamp.microsPerDay }] := by decide +kernel
  have hday : resampleCandles [midnightQuarter] .m15 .d1 = .ok [midnightQuarter] := by
    decide +kernel
  rw [hhour, Except.ok.injEq] at hfine
  rw [← hfine, hbefore, Except.ok.injEq] at hcomposed
  rw [hday, ← hcomposed, Except.ok.injEq, List.cons.injEq] at hdirect
  have htimestamp : (0 : ℤ) = -Timestamp.microsPerDay := congrArg Candle.timestamp hdirect.1
  exact absurd htimestamp (by decide)

end SuperTrading
