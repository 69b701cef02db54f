import SuperTrading.Logic.Buckets
import SuperTrading.Logic.HighWater
import SuperTrading.Market.FloatBuckets
import Mathlib.Algebra.BigOperators.Group.List.Lemmas

/-!
# Resampling

`resample_candles` of `app/market/aggregation.py`: candles are collected in a dictionary of
buckets, and each bucket becomes one bar. Buckets part time, and the bars hold the candles of
their buckets.
-/

namespace SuperTrading

open Logic
open Smc (Candle)

/-! ## Section 1: The model -/

/-- `bucket_start` of a candle. -/
def candleBucket (target : Timeframe) (candle : Candle) : Timestamp :=
  bucketStart candle.timestamp target.minutes sessionOpenMinutesUtc candle.utcOffset

/-- One round of the loop over the sorted buckets. A week's bar keeps the zone of the candle that
opened its entry in the dictionary, any other bar is written in UTC. -/
def bucketBar (target : Timeframe) (bucketTs : Timestamp) (bucket : List Candle) :
    Except String Candle :=
  (aggregateCandles (sortBy Candle.timestamp bucket)).map fun aggregated =>
    { timestamp := bucketTs
      «open» := aggregated.open
      high := aggregated.high
      low := aggregated.low
      close := aggregated.close
      volume := aggregated.volume
      utcOffset := if target.minutes = weekMinutes then (bucket.head?.map Candle.utcOffset).getD 0
        else 0 }

/-- `resample_candles`, of supported timeframes. -/
def resampleCandles (candles : List Candle) (source target : Timeframe) :
    Except String (List Candle) :=
  if isValidUpsample source target then
    (bucketKeys (candleBucket target) candles).mapM fun bucketTs =>
      bucketBar target bucketTs
        (((collect (candleBucket target) candles).get? bucketTs).getD [])
  else .error s!"Cannot derive {target.value} candles from {source.value}"

/-- `resample_candles` on the buckets that floats give: each candle is filed with the start of its
bucket, and the first that has none raises out of the loop. -/
def resampleCandlesFloat (candles : List Candle) (source target : Timeframe) :
    Except String (List Candle) :=
  if isValidUpsample source target then do
    let filed ← candles.mapM fun c =>
      (bucketStartFloat c.timestamp target.minutes sessionOpenMinutesUtc c.utcOffset).map (·, c)
    (bucketKeys Prod.fst filed).mapM fun bucketTs =>
      bucketBar target bucketTs ((((collect Prod.fst filed).get? bucketTs).getD []).map Prod.snd)
  else .error s!"Cannot derive {target.value} candles from {source.value}"

/-! ## Section 2: Bars -/

/-- The bar tells of these candles, which are in the order of their times: where they open and
close, how far they go, and what is traded. -/
structure IsBarOf (bar : Candle) (members : List Candle) : Prop where
  nonempty : members ≠ []
  opens : ∀ first ∈ members.head?, bar.open = first.open
  closes : ∀ last ∈ members.getLast?, bar.close = last.close
  le_high : ∀ c ∈ members, c.high ≤ bar.high
  high_mem : ∃ c ∈ members, c.high = bar.high
  low_le : ∀ c ∈ members, bar.low ≤ c.low
  low_mem : ∃ c ∈ members, c.low = bar.low
  volume : bar.volume = (members.map Candle.volume).sum

/-- `aggregate_candles` of candles in order. -/
theorem isBarOf_aggregateCandles {members : List Candle} (h : members ≠ []) :
    ∃ bar, aggregateCandles members = .ok bar ∧ IsBarOf bar members := by
  cases members with
  | nil => exact absurd rfl h
  | cons first rest =>
    obtain ⟨hhigh, hhighLe⟩ := foldl_max_spec (rest.map Candle.high) first.high
    obtain ⟨hlow, hlowLe⟩ := foldl_min_spec (rest.map Candle.low) first.low
    -- The folds start from the first member, which is one of the list.
    rw [← List.map_cons] at hhigh hhighLe hlow hlowLe
    refine ⟨_, rfl, ?_⟩
    constructor
    · exact h
    · rintro _ ⟨⟩
      rfl
    · intro last hlast
      simp only [List.getLast?_cons, Option.mem_some_iff] at hlast
      rw [hlast]
    · exact fun c hc => hhighLe _ (List.mem_map_of_mem hc)
    · exact List.mem_map.mp hhigh
    · exact fun c hc => hlowLe _ (List.mem_map_of_mem hc)
    · exact List.mem_map.mp hlow
    · rfl

/-- The bar has the prices and the volume of the other. -/
def SamePrices (bar bar' : Candle) : Prop :=
  bar.open = bar'.open ∧ bar.high = bar'.high ∧ bar.low = bar'.low ∧ bar.close = bar'.close ∧
    bar.volume = bar'.volume

namespace IsBarOf

variable {bar bar' : Candle} {members : List Candle}

theorem of_samePrices (h : SamePrices bar bar') (hbar : IsBarOf bar' members) :
    IsBarOf bar members := by
  obtain ⟨hopen, hhigh, hlow, hclose, hvolume⟩ := h
  constructor
  · exact hbar.nonempty
  · rw [hopen]
    exact hbar.opens
  · rw [hclose]
    exact hbar.closes
  · rw [hhigh]
    exact hbar.le_high
  · rw [hhigh]
    exact hbar.high_mem
  · rw [hlow]
    exact hbar.low_le
  · rw [hlow]
    exact hbar.low_mem
  · rw [hvolume]
    exact hbar.volume

/-- The candles determine the bar. -/
theorem samePrices (h : IsBarOf bar members) (h' : IsBarOf bar' members) : SamePrices bar bar' := by
  obtain ⟨first, rest, rfl⟩ := List.exists_cons_of_ne_nil h.nonempty
  refine ⟨?_, ?_, ?_, ?_, ?_⟩
  · rw [h.opens first rfl, h'.opens first rfl]
  · obtain ⟨c, hc, hhigh⟩ := h.high_mem
    obtain ⟨c', hc', hhigh'⟩ := h'.high_mem
    apply le_antisymm
    · exact hhigh ▸ h'.le_high c hc
    · exact hhigh' ▸ h.le_high c' hc'
  · obtain ⟨c, hc, hlow⟩ := h.low_mem
    obtain ⟨c', hc', hlow'⟩ := h'.low_mem
    apply le_antisymm
    · exact hlow' ▸ h.low_le c' hc'
    · exact hlow ▸ h'.low_le c hc
  · have hlast : (first :: rest).getLast? = some ((first :: rest).getLast h.nonempty) :=
      List.getLast?_eq_some_getLast h.nonempty
    rw [h.closes _ hlast, h'.closes _ hlast]
  · rw [h.volume, h'.volume]

end IsBarOf

/-! ## Section 3: The bar of a bucket -/

/-- A loop whose every round gives a result. -/
theorem mapM_ok {ε α β : Type*} {f : α → Except ε β} {P : α → β → Prop} {xs : List α}
    (h : ∀ x ∈ xs, ∃ y, f x = .ok y ∧ P x y) :
    ∃ ys, xs.mapM f = .ok ys ∧ List.Forall₂ P xs ys := by
  induction xs with
  | nil => exact ⟨[], rfl, .nil⟩
  | cons x xs ih =>
    obtain ⟨hx, hxs⟩ := List.forall_mem_cons.mp h
    obtain ⟨y, hy, hP⟩ := hx
    obtain ⟨ys, hys, hrest⟩ := ih hxs
    refine ⟨y :: ys, ?_, .cons hP hrest⟩
    rw [List.mapM_cons, hy, hys]
    rfl

/-- The bar of one bucket of candles written in UTC. -/
structure IsBucketBar (target : Timeframe) (candles : List Candle) (bucketTs : Timestamp)
    (bar : Candle) : Prop where
  timestamp : bar.timestamp = bucketTs
  utc : bar.utcOffset = 0
  isBarOf : IsBarOf bar (bucketOf (candleBucket target) Candle.timestamp candles bucketTs)

/-- A bucket has one bar. -/
theorem IsBucketBar.unique {target : Timeframe} {candles : List Candle} {bucketTs : Timestamp}
    {bar bar' : Candle} (h : IsBucketBar target candles bucketTs bar)
    (h' : IsBucketBar target candles bucketTs bar') : bar = bar' := by
  obtain ⟨hopen, hhigh, hlow, hclose, hvolume⟩ := h.isBarOf.samePrices h'.isBarOf
  have htimestamp : bar.timestamp = bar'.timestamp := h.timestamp.trans h'.timestamp.symm
  have hutc : bar.utcOffset = bar'.utcOffset := h.utc.trans h'.utc.symm
  cases bar
  cases bar'
  simp_all

section Resample

variable {source target : Timeframe} {candles bars : List Candle}

theorem candleBucket_eq {c : Candle} (hutc : c.utcOffset = 0) :
    candleBucket target c = bucketStart c.timestamp target.minutes := by
  rw [candleBucket, hutc]

/-- Each bucket of the dictionary becomes its bar. -/
theorem exists_bucketBar (hutc : ∀ c ∈ candles, c.utcOffset = 0) {bucketTs : Timestamp}
    (h : bucketTs ∈ bucketKeys (candleBucket target) candles) :
    ∃ bar, bucketBar target bucketTs
        (((collect (candleBucket target) candles).get? bucketTs).getD []) = .ok bar ∧
      IsBucketBar target candles bucketTs bar := by
  have hnonempty := bucketOf_ne_nil Candle.timestamp h
  obtain ⟨aggregated, haggregate, hbar⟩ := isBarOf_aggregateCandles hnonempty
  rw [bucketOf] at haggregate
  rw [bucketBar, getD_collect, haggregate]
  refine ⟨_, rfl, rfl, ?_, ?_⟩
  · -- No candle of the bucket brings another zone.
    dsimp only
    split
    · cases hhead : (candles.filter fun c => candleBucket target c = bucketTs).head? with
      | none => rfl
      | some c =>
        have hmem := List.mem_of_head? hhead
        exact hutc c (List.mem_filter.mp hmem).1
    · rfl
  · apply hbar.of_samePrices
    exact ⟨rfl, rfl, rfl, rfl, rfl⟩

/-- What `resample_candles` returns: the bars of the buckets, in order. -/
theorem resampleCandles_ok (hutc : ∀ c ∈ candles, c.utcOffset = 0)
    (hvalid : isValidUpsample source target = true) :
    ∃ bars, resampleCandles candles source target = .ok bars ∧
      List.Forall₂ (IsBucketBar target candles) (bucketKeys (candleBucket target) candles)
        bars := by
  rw [resampleCandles, if_pos hvalid]
  exact mapM_ok fun bucketTs h => exists_bucketBar hutc h

theorem map_timestamp_of_forall₂ {keys : List Timestamp}
    (h : List.Forall₂ (IsBucketBar target candles) keys bars) :
    bars.map Candle.timestamp = keys := by
  induction h with
  | nil => rfl
  | cons hbar _ ih => rw [List.map_cons, hbar.timestamp, ih]

theorem isBucketBar_of_mem {keys : List Timestamp}
    (h : List.Forall₂ (IsBucketBar target candles) keys bars) {bar : Candle} (hbar : bar ∈ bars) :
    bar.timestamp ∈ keys ∧ IsBucketBar target candles bar.timestamp bar := by
  obtain ⟨bucketTs, hkey, hbucket⟩ := exists_of_mem_forall₂ h.flip hbar
  rw [hbucket.timestamp]
  exact ⟨hkey, hbucket⟩

/-- Buckets follow times. -/
theorem candleBucket_mono (hutc : ∀ c ∈ candles, c.utcOffset = 0) :
    ∀ x ∈ candles, ∀ y ∈ candles, x.timestamp ≤ y.timestamp →
      candleBucket target x ≤ candleBucket target y := by
  intro x hx y hy hxy
  rw [candleBucket_eq (hutc x hx), candleBucket_eq (hutc y hy)]
  exact bucketStart_mono target.minutes_pos hxy

theorem bucketStart_of_mem_keys (hutc : ∀ c ∈ candles, c.utcOffset = 0) {bucketTs : Timestamp}
    (h : bucketTs ∈ bucketKeys (candleBucket target) candles) :
    bucketStart bucketTs target.minutes = bucketTs := by
  obtain ⟨c, hc, rfl⟩ := mem_bucketKeys.mp h
  rw [candleBucket_eq (hutc c hc)]
  exact bucketStart_idem target.minutes_pos

/-- The candles of a bucket are those whose timestamps fall in it. -/
theorem bucketOf_eq_sortBy (hutc : ∀ c ∈ candles, c.utcOffset = 0) {bucketTs : Timestamp}
    (hstart : bucketStart bucketTs target.minutes = bucketTs) :
    bucketOf (candleBucket target) Candle.timestamp candles bucketTs =
      sortBy Candle.timestamp (candles.filter fun c =>
        bucketTs ≤ c.timestamp ∧ c.timestamp < bucketTs + spanOf target.minutes) := by
  rw [bucketOf]
  congr 1
  apply List.filter_congr
  intro c hc
  rw [candleBucket_eq (hutc c hc)]
  exact decide_eq_decide.mpr (bucketStart_eq_iff target.minutes_pos hstart)

/-- The bars have the volume of their buckets. -/
theorem sum_volume_of_forall₂ {keys : List Timestamp}
    (h : List.Forall₂ (IsBucketBar target candles) keys bars) :
    (bars.map Candle.volume).sum =
      ((keys.flatMap (bucketOf (candleBucket target) Candle.timestamp candles)).map
        Candle.volume).sum := by
  induction h with
  | nil => rfl
  | cons hbar _ ih =>
    rw [List.map_cons, List.sum_cons, ih, List.flatMap_cons, List.map_append, List.sum_append,
      hbar.isBarOf.volume]

end Resample

/-! ## Section 4: Nothing is lost -/

/-- What resampling makes of candles. -/
structure Resampled (target : Timeframe) (candles bars : List Candle) : Prop where
  ascending : bars.Pairwise fun a b => a.timestamp < b.timestamp
  volume : (bars.map Candle.volume).sum = (candles.map Candle.volume).sum
  /-- A bar stands for the candles of its bucket, in the order of their times. -/
  isBarOf : ∀ bar ∈ bars, bucketStart bar.timestamp target.minutes = bar.timestamp ∧
    IsBarOf bar (sortBy Candle.timestamp (candles.filter fun c =>
      bar.timestamp ≤ c.timestamp ∧ c.timestamp < bar.timestamp + spanOf target.minutes))
  complete : ∀ c ∈ candles, ∃ bar ∈ bars,
    bar.timestamp = bucketStart c.timestamp target.minutes

section Resampled

variable {source target : Timeframe} {candles bars : List Candle}

theorem resampled_of_forall₂ (hutc : ∀ c ∈ candles, c.utcOffset = 0)
    (hdistinct : (candles.map Candle.timestamp).Nodup)
    (h : List.Forall₂ (IsBucketBar target candles) (bucketKeys (candleBucket target) candles)
      bars) : Resampled target candles bars := by
  have htimestamps := map_timestamp_of_forall₂ h
  constructor
  · rw [← List.pairwise_map, htimestamps]
    exact strict_bucketKeys candles
  · -- The candles in order are the buckets in order, and each bar adds up its own.
    have hsorted : sortBy Candle.timestamp candles =
        (bucketKeys (candleBucket target) candles).flatMap
          (bucketOf (candleBucket target) Candle.timestamp candles) :=
      sortBy_eq_flatMap (candleBucket_mono hutc) hdistinct
    rw [sum_volume_of_forall₂ h, ← hsorted]
    exact ((sortBy_perm Candle.timestamp candles).map Candle.volume).sum_eq
  · intro bar hbar
    obtain ⟨hkey, hbucket⟩ := isBucketBar_of_mem h hbar
    have hstart := bucketStart_of_mem_keys hutc hkey
    refine ⟨hstart, ?_⟩
    rw [← bucketOf_eq_sortBy hutc hstart]
    exact hbucket.isBarOf
  · intro c hc
    have hkey : bucketStart c.timestamp target.minutes ∈ bars.map Candle.timestamp := by
      rw [htimestamps, mem_bucketKeys]
      exact ⟨c, hc, candleBucket_eq (hutc c hc)⟩
    exact List.mem_map.mp hkey

/-- The order of the candles does not matter. -/
theorem resampleCandles_eq_of_perm {candles' : List Candle} (hperm : candles.Perm candles')
    (hutc : ∀ c ∈ candles, c.utcOffset = 0) (hdistinct : (candles.map Candle.timestamp).Nodup)
    (hvalid : isValidUpsample source target = true) :
    resampleCandles candles' source target = resampleCandles candles source target := by
  have hutc' : ∀ c ∈ candles', c.utcOffset = 0 := fun c hc => hutc c (hperm.mem_iff.mpr hc)
  obtain ⟨bars, hbars, h⟩ := resampleCandles_ok hutc hvalid
  obtain ⟨bars', hbars', h'⟩ := resampleCandles_ok hutc' hvalid
  rw [hbars, hbars']
  congr 1
  rw [← bucketKeys_eq_of_perm hperm] at h'
  apply List.right_unique_forall₂' (fun _ _ _ h h' => h.unique h') h'
  apply h.imp
  intro bucketTs bar hbar
  -- No two candles have one time, so a bucket in order does not tell how it came.
  have hmembers : bucketOf (candleBucket target) Candle.timestamp candles bucketTs =
      bucketOf (candleBucket target) Candle.timestamp candles' bucketTs :=
    bucketOf_eq_of_perm hperm hdistinct
  exact ⟨hbar.timestamp, hbar.utc, hmembers ▸ hbar.isBarOf⟩

/-- Where every candle is in its bucket, floats make no difference. -/
theorem resampleCandlesFloat_eq (hutc : ∀ c ∈ candles, c.utcOffset = 0)
    (h : ∀ c ∈ candles, Bucketed c.timestamp target.minutes) :
    resampleCandlesFloat candles source target = resampleCandles candles source target := by
  -- Each candle is filed under the bucket of exact minutes.
  have hstart : ∀ c ∈ candles, (bucketStartFloat c.timestamp target.minutes sessionOpenMinutesUtc
      c.utcOffset).map (·, c) = .ok (candleBucket target c, c) := by
    intro c hc
    rw [hutc c hc, (h c hc).eq_ok target.minutes_pos, candleBucket_eq (hutc c hc)]
    rfl
  have hfiled : (candles.mapM fun c => (bucketStartFloat c.timestamp target.minutes
      sessionOpenMinutesUtc c.utcOffset).map (·, c)) =
        .ok (candles.map fun c => (candleBucket target c, c)) := by
    clear hutc h
    induction candles with
    | nil => rfl
    | cons c cs ih =>
      obtain ⟨hhead, htail⟩ := List.forall_mem_cons.mp hstart
      rw [List.mapM_cons, hhead, ih htail]
      rfl
  -- The buckets are then the same, in the same order, with the same candles.
  rw [resampleCandlesFloat, resampleCandles, hfiled]
  split_ifs
  · show (bucketKeys Prod.fst _).mapM _ = _
    rw [bucketKeys_map_pair]
    simp only [getD_collect_map_pair]
  · rfl

/-- What buckets are to two instants, one not after the other. -/
def PartsTime (minutes : ℕ) (s t : Timestamp) : Prop :=
  ∃ a b, bucketStartFloat s minutes = .ok a ∧ bucketStartFloat t minutes = .ok b ∧
    (b ≤ t ∧ t < b + spanOf minutes) ∧ bucketStartFloat b minutes = .ok b ∧ a ≤ b

theorem Bucketed.partsTime {minutes : ℕ} {s t : Timestamp} (hs : Bucketed s minutes)
    (ht : Bucketed t minutes) (hpos : 0 < minutes) (hst : s ≤ t) : PartsTime minutes s t := by
  refine ⟨_, _, hs.eq_ok hpos, ht.eq_ok hpos, ⟨bucketStart_le hpos, lt_bucketStart_add hpos⟩, ?_,
    bucketStart_mono hpos hst⟩
  rw [(ht.idem hpos).eq_ok hpos, bucketStart_idem hpos]

/-- **Buckets part time, and resampling loses nothing**, of the instants whose minutes floats
keep. -/
theorem resampleCandles_resampled (candles : List Candle) (source target : Timeframe)
    (hutc : ∀ c ∈ candles, c.utcOffset = 0) (hdistinct : (candles.map Candle.timestamp).Nodup)
    (hbucketed : ∀ c ∈ candles, Bucketed c.timestamp target.minutes)
    (hvalid : isValidUpsample source target = true) :
    (∀ (timeframe : Timeframe) (s t : Timestamp), Bucketed s timeframe.minutes →
      Bucketed t timeframe.minutes → s ≤ t → PartsTime timeframe.minutes s t) ∧
    (∀ c ∈ candles, bucketStartFloat c.timestamp target.minutes =
      .ok (bucketStart c.timestamp target.minutes)) ∧
    ∃ bars, Resampled target candles bars ∧ ∀ candles', candles.Perm candles' →
      resampleCandlesFloat candles' source target = .ok bars := by
  refine ⟨?_, ?_, ?_⟩
  · intro timeframe s t hs ht hst
    exact hs.partsTime ht timeframe.minutes_pos hst
  · exact fun c hc => (hbucketed c hc).eq_ok target.minutes_pos
  · -- The bars do not depend on the order of the candles.
    obtain ⟨bars, hbars, h⟩ := resampleCandles_ok hutc hvalid
    refine ⟨bars, resampled_of_forall₂ hutc hdistinct h, ?_⟩
    intro candles' hperm
    have hmem : ∀ {c}, c ∈ candles' → c ∈ candles := hperm.mem_iff.mpr
    rw [resampleCandlesFloat_eq (fun c hc => hutc c (hmem hc)) fun c hc => hbucketed c (hmem hc),
      resampleCandles_eq_of_perm hperm hutc hdistinct hvalid, hbars]

end Resampled

/-- Three minutes in no order, two of them in one five-minute bucket before 1970. -/
def unordered : List Candle :=
  [{ timestamp := 6 * Timestamp.microsPerMinute
     «open» := 12
     high := 13
     low := 11
     close := 12
     volume := 30 },
    { timestamp := -2 * Timestamp.microsPerMinute
      «open» := 11
      high := 14
      low := 10
      close := 13
      volume := 20 },
    { timestamp := -3 * Timestamp.microsPerMinute
      «open» := 10
      high := 12
      low := 9
      close := 11
      volume := 10 }]

theorem unordered_resampled :
    ∃ bars, Resampled .m5 unordered bars ∧ resampleCandlesFloat unordered .m1 .m5 = .ok bars := by
  obtain ⟨-, -, bars, hbars, hperm⟩ := resampleCandles_resampled unordered .m1 .m5 (by decide)
    (by decide) (by decide +kernel) (by decide)
  exact ⟨bars, hbars, hperm unordered (List.Perm.refl _)⟩

/-- The last microsecond of the first minute of the year 3000. -/
def lateMinute : Timestamp := 376200 * Timestamp.microsPerDay + Timestamp.microsPerMinute - 1

/-- Its bucket starts after it, and the first instant of all has none of an hour. -/
theorem lateMinute_not_parted :
    bucketStartFloat lateMinute 1 = .ok (lateMinute + 1) ∧
      bucketStartFloat Timestamp.datetimeMin 60 = .error "date value out of range" ∧
      ¬ ∀ (timeframe : Timeframe) (s t : Timestamp), s.InDatetime → t.InDatetime → s ≤ t →
        PartsTime timeframe.minutes s t := by
  have hlate : bucketStartFloat lateMinute 1 = .ok (lateMinute + 1) := by decide +kernel
  refine ⟨hlate, by decide +kernel, fun h => ?_⟩
  obtain ⟨-, b, -, hb, ⟨hle, -⟩, -⟩ := h .m1 lateMinute lateMinute (by decide) (by decide) le_rfl
  rw [show Timeframe.m1.minutes = 1 from rfl, hlate] at hb
  obtain rfl := Except.ok.inj hb
  exact absurd hle (by decide)

end SuperTrading
