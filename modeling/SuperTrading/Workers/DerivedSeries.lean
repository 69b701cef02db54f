import SuperTrading.Logic.Runs
import SuperTrading.Workers.Candle
import Mathlib.Data.List.Induction

/-!
# The Derived Series

A derived bar is written when the base candle in the last slot of its bucket closes, from
the base candles stored by then: all of the bucket. A bucket whose last slot has no tick
gets no bar.

- **The table**: what is stored of a series, read in the order of its timestamps
- **Slots**: which base candles the ticks close
- **A closed candle**: what `_on_candle_closed` writes
- **Runs**: the derived series after any ticks
-/

namespace SuperTrading

open SuperTrading.Logic
open Smc (Candle)

/-! ## Section 1: The table -/

namespace CandleTable

/-- The stored candles of a series, in the order they were first stored. -/
def rows (table : CandleTable) (instrumentId : String) (timeframe : Timeframe) : List Candle :=
  (table.entries.filter fun e => e.1.1 = instrumentId ∧ e.1.2.1 = timeframe).map fun e =>
    e.2.toCandle e.1.2.2

variable {table : CandleTable} {instrumentId : String} {timeframe target : Timeframe}
  {candle : Candle} {b : Timestamp}

theorem getCandles_eq (table : CandleTable) (instrumentId : String) (timeframe : Timeframe)
    (first last : Option Timestamp) :
    table.getCandles instrumentId timeframe first last =
      sortBy Candle.timestamp ((table.rows instrumentId timeframe).filter fun c =>
        first.all (fun t => decide (t ≤ c.timestamp)) &&
          last.all fun t => decide (c.timestamp ≤ t)) := by
  simp only [getCandles, rows, List.filter_map, List.filter_filter]
  congr 2
  refine List.filter_congr fun e _ => ?_
  simp [CandleRow.toCandle, Bool.and_comm, Bool.and_assoc]

theorem getCandles_of_sorted
    (h : (table.rows instrumentId timeframe).Pairwise fun a b => a.timestamp < b.timestamp) :
    table.getCandles instrumentId timeframe = table.rows instrumentId timeframe := by
  rw [getCandles_eq]
  simp only [Option.all_none, Bool.and_self, List.filter_true]
  exact sortBy_of_pairwise _ (h.imp le_of_lt)

/-- The candle at an instant is that of the key. -/
theorem filter_getCandles (table : CandleTable) (instrumentId : String) (timeframe : Timeframe)
    (b : Timestamp) :
    ((table.getCandles instrumentId timeframe).filter fun c => c.timestamp = b) =
      ((table.get? (instrumentId, timeframe, b)).map fun row => row.toCandle b).toList := by
  have hkey : ((table.rows instrumentId timeframe).filter fun c => c.timestamp = b) =
      ((table.get? (instrumentId, timeframe, b)).map fun row => row.toCandle b).toList := by
    have hentries := table.filter_entries_key (instrumentId, timeframe, b)
    simp only [rows, List.filter_map, List.filter_filter]
    -- The rows of a series at one time are those of one key.
    have hsame : (table.entries.filter fun e => ((fun c : Candle => decide (c.timestamp = b)) ∘
        fun e : (String × Timeframe × Timestamp) × CandleRow => e.2.toCandle e.1.2.2) e &&
        decide (e.1.1 = instrumentId ∧ e.1.2.1 = timeframe)) =
        table.entries.filter fun e => e.1 = (instrumentId, timeframe, b) := by
      refine List.filter_congr fun e _ => ?_
      rcases e with ⟨⟨i, f, t⟩, row⟩
      simp [CandleRow.toCandle, Bool.and_comm, Bool.and_left_comm]
    rw [hsame, hentries]
    cases table.get? (instrumentId, timeframe, b) <;> rfl
  rw [getCandles_eq, filter_sortBy]
  simp only [Option.all_none, Bool.and_self, List.filter_true, hkey]
  cases table.get? (instrumentId, timeframe, b) <;> rfl

theorem rows_upsert_of_ne (candle : Candle) (h : target ≠ timeframe) :
    (table.upsertCandle instrumentId target candle).rows instrumentId timeframe =
      table.rows instrumentId timeframe := by
  simp only [rows, upsertCandle]
  rw [table.filter_entries_set (p := fun k => decide (k.1 = instrumentId ∧ k.2.1 = timeframe))
    (by simp [h])]

/-- A candle at a new instant is stored behind the others. -/
theorem rows_upsert_of_fresh (h : ∀ c ∈ table.rows instrumentId timeframe,
    c.timestamp ≠ candle.timestamp) (hoffset : candle.utcOffset = 0) :
    (table.upsertCandle instrumentId timeframe candle).rows instrumentId timeframe =
      table.rows instrumentId timeframe ++ [candle] := by
  have hfresh : table.get? (instrumentId, timeframe, candle.timestamp) = none := by
    cases hget : table.get? (instrumentId, timeframe, candle.timestamp) with
    | none => rfl
    | some row =>
      have hmem : row.toCandle candle.timestamp ∈ table.rows instrumentId timeframe :=
        List.mem_map.mpr ⟨((instrumentId, timeframe, candle.timestamp), row),
          List.mem_filter.mpr ⟨table.mem_entries_iff.mpr hget, by simp⟩, rfl⟩
      exact (h _ hmem rfl).elim
  rw [rows, upsertCandle, table.entries_set_of_fresh hfresh, List.filter_append, List.map_append]
  cases candle
  simp only at hoffset
  simp [CandleRow.toCandle, rows, hoffset]

end CandleTable

/-! ## Section 2: Slots -/

/-- `x` was the greatest so far, and something greater came after it. -/
def Passed {α : Type*} [LT α] [LE α] (xs : List α) (x : α) : Prop :=
  ∃ before after, xs = before ++ x :: after ∧ (∀ u ∈ before, u ≤ x) ∧ ∃ u ∈ after, x < u

/-- One element more passes the greatest so far, if it is greater. -/
theorem passed_append_singleton {α : Type*} [LinearOrder α] {xs : List α} {greatest : α}
    (hmem : greatest ∈ xs) (hle : ∀ u ∈ xs, u ≤ greatest) (x last : α) :
    Passed (xs ++ [last]) x ↔ Passed xs x ∨ x = greatest ∧ greatest < last := by
  constructor
  · rintro ⟨before, after, hsplit, hbefore, u, hu, hxu⟩
    obtain ⟨after, y, rfl⟩ := List.eq_nil_or_concat' after |>.resolve_left (List.ne_nil_of_mem hu)
    have hcut : xs ++ [last] = (before ++ x :: after) ++ [y] := by simp [hsplit]
    obtain ⟨rfl, hlast⟩ := List.append_inj' hcut rfl
    obtain rfl : last = y := by simpa using hlast
    by_cases hx : x = greatest
    · subst hx
      rcases List.mem_append.mp hu with hu | hu
      · exact .inl ⟨before, after, rfl, hbefore, u, hu, hxu⟩
      · rw [List.mem_singleton] at hu
        exact .inr ⟨rfl, hu ▸ hxu⟩
    · -- The greatest stands behind `x`, which it exceeds.
      have hlt : x < greatest := lt_of_le_of_ne (hle x (by simp)) hx
      refine .inl ⟨before, after, rfl, hbefore, greatest, ?_, hlt⟩
      rcases List.mem_append.mp hmem with hin | hin
      · exact absurd (hbefore greatest hin) (not_le.mpr hlt)
      · exact (List.mem_cons.mp hin).resolve_left (Ne.symm hx)
  · rintro (⟨before, after, rfl, hbefore, u, hu, hxu⟩ | ⟨rfl, hlt⟩)
    · exact ⟨before, after ++ [last], by simp, hbefore, u, List.mem_append_left _ hu, hxu⟩
    · obtain ⟨before, after, rfl⟩ := List.append_of_mem hmem
      exact ⟨before, after ++ [last], by simp, fun u hu => hle u (List.mem_append_left _ hu), last,
        by simp, hlt⟩

/-- The base slot that a tick falls into. -/
def slotOf (base : Timeframe) (tick : StandardTick) : Timestamp :=
  bucketStart tick.timestamp base.minutes sessionOpenMinutesUtc tick.utcOffset

/-- Slots smaller than a week do not depend on the offset a timestamp is written in. -/
theorem slotOf_idem {base : Timeframe} (hbase : base.minutes ≠ weekMinutes) (tick : StandardTick) :
    bucketStart (slotOf base tick) base.minutes = slotOf base tick := by
  have hsame : slotOf base tick = bucketStart tick.timestamp base.minutes := by
    simp only [slotOf, bucketStart, if_neg hbase]
  rw [hsame, bucketStart_idem base.minutes_pos]

/-- A bucket has one last slot. -/
theorem eq_of_completesBucket {base : Timeframe} {target : ℕ} {s t : Timestamp}
    (htarget : 0 < target)
    (hs : bucketStart s base.minutes = s) (ht : bucketStart t base.minutes = t) (hst : s < t)
    (hcomplete : completesBucket s base.minutes target = true) :
    bucketStart s target ≠ bucketStart t target := by
  intro heq
  have hnext := bucketStart_mono htarget (add_span_le_of_lt base.minutes_pos hs ht hst)
  have hfrom : bucketStart s target ≤ bucketStart (s + spanOf base.minutes) target :=
    bucketStart_mono htarget (by linarith [spanOf_pos base.minutes_pos])
  have hsame : bucketStart (s + spanOf base.minutes) target = bucketStart s target :=
    le_antisymm (heq ▸ hnext) hfrom
  simp [completesBucket, hsame] at hcomplete

/-! ## Section 3: A closed candle -/

/-- The row of the bar made of these candles; there is none if there are none. -/
def barRow (candles : List Candle) : Option CandleRow :=
  match aggregateCandles candles with
  | .error _ => none
  | .ok derived => some
    { «open» := derived.open
      high := derived.high
      low := derived.low
      close := derived.close
      volume := derived.volume }

/-- The candles of a list that lie in a bucket. -/
def inBucket (target : Timeframe) (b : Timestamp) (candles : List Candle) : List Candle :=
  candles.filter fun c => bucketStart c.timestamp target.minutes = b

section Closed

variable {w : CandleWorker} {table : CandleTable} {instrumentId : String} {target : Timeframe}
  {asOf b : Timestamp} {closed : List Candle}

/-- The lookback window holds all of the bucket, so the bar is made of all its stored candles. -/
theorem deriveTimeframe_eq (hrows : table.rows instrumentId w.baseTimeframe = closed)
    (hsorted : closed.Pairwise fun a b => a.timestamp < b.timestamp)
    (hlast : ∀ c ∈ closed, c.timestamp ≤ asOf) :
    w.deriveTimeframe table instrumentId target asOf =
      (barRow (inBucket target (bucketStart asOf target.minutes) closed)).elim table
        (table.set (instrumentId, target, bucketStart asOf target.minutes)) := by
  have hwindow : (table.getCandles instrumentId w.baseTimeframe
      (some (asOf - spanOf (target.minutes * 2))) (some asOf)).filter
        (fun c => bucketStart c.timestamp target.minutes = bucketStart asOf target.minutes) =
      inBucket target (bucketStart asOf target.minutes) closed := by
    rw [CandleTable.getCandles_eq, hrows, sortBy_of_pairwise _ ((hsorted.imp le_of_lt).filter _),
      List.filter_filter]
    refine List.filter_congr fun c hc => ?_
    by_cases hbucket : bucketStart c.timestamp target.minutes = bucketStart asOf target.minutes
    · -- The bucket starts less than its length before `asOf`.
      have hstart := lt_bucketStart_add target.minutes_pos (t := asOf)
      have hle := bucketStart_le target.minutes_pos (t := c.timestamp)
      have hspan : spanOf (target.minutes * 2) = 2 * spanOf target.minutes := by
        simp only [spanOf]
        push_cast
        ring
      have hpos := spanOf_pos target.minutes_pos
      have hfirst : asOf - spanOf (target.minutes * 2) ≤ c.timestamp := by linarith
      simp [hbucket, hfirst, hlast c hc]
    · simp [hbucket]
  simp only [CandleWorker.deriveTimeframe, hwindow, barRow]
  cases aggregateCandles (inBucket target (bucketStart asOf target.minutes) closed) <;> rfl

/-- Does the loop of `_on_candle_closed` derive a bar of the timeframe? -/
def derives (w : CandleWorker) (asOf : Timestamp) (target : Timeframe) : Bool :=
  w.baseTimeframe.minutes < target.minutes ∧
    completesBucket asOf w.baseTimeframe.minutes target.minutes = true

theorem exists_barRow {candles : List Candle} (h : candles ≠ []) :
    ∃ row, barRow candles = some row := by
  cases candles with
  | nil => exact absurd rfl h
  | cons first rest => exact ⟨_, rfl⟩

/-- A round of the loop leaves the base series, and writes the bar of its own bucket only. -/
theorem deriveIfComplete_eq (target : Timeframe)
    (hrows : table.rows instrumentId w.baseTimeframe = closed)
    (hsorted : closed.Pairwise fun a b => a.timestamp < b.timestamp)
    (hlast : ∀ c ∈ closed, c.timestamp ≤ asOf) (hmem : ∃ c ∈ closed, c.timestamp = asOf) :
    (w.deriveIfComplete instrumentId asOf table target).rows instrumentId w.baseTimeframe = closed ∧
      ∀ other b, (w.deriveIfComplete instrumentId asOf table target).get? (instrumentId, other, b) =
        if other = target ∧ derives w asOf target = true ∧ b = bucketStart asOf target.minutes then
          barRow (inBucket target b closed)
        else table.get? (instrumentId, other, b) := by
  obtain ⟨c, hc, rfl⟩ := hmem
  have hsome : c ∈ inBucket target (bucketStart c.timestamp target.minutes) closed :=
    List.mem_filter.mpr ⟨hc, by simp⟩
  obtain ⟨row, hrow⟩ := exists_barRow (List.ne_nil_of_mem hsome)
  -- The bucket is complete: its bar is written, over an older one if there is one.
  by_cases hderives : derives w c.timestamp target = true
  · have hboth := hderives
    simp only [derives, Bool.decide_and, Bool.and_eq_true, decide_eq_true_eq] at hboth
    have hset : w.deriveIfComplete instrumentId c.timestamp table target =
        table.set (instrumentId, target, bucketStart c.timestamp target.minutes) row := by
      rw [CandleWorker.deriveIfComplete, if_neg (by simp [hboth.1, hboth.2]),
        deriveTimeframe_eq hrows hsorted hlast, hrow]
      rfl
    -- A derived row is none of the base series.
    have hne : target ≠ w.baseTimeframe := fun h => absurd hboth.1 (by rw [h]; exact lt_irrefl _)
    refine ⟨?_, fun other b => ?_⟩
    · rw [hset]
      refine Eq.trans ?_ hrows
      exact CandleTable.rows_upsert_of_ne (row.toCandle _) hne
    · rw [hset, Dict.get?_set]
      by_cases hkey : other = target ∧ b = bucketStart c.timestamp target.minutes
      · obtain ⟨rfl, rfl⟩ := hkey
        simp [hderives, hrow]
      · have hkeys : (instrumentId, target, bucketStart c.timestamp target.minutes) ≠
            (instrumentId, other, b) := fun h => by
          simp only [Prod.mk.injEq, true_and] at h
          exact hkey ⟨h.1.symm, h.2.symm⟩
        rw [if_neg hkeys, if_neg fun h => hkey ⟨h.1, h.2.2⟩]
  · -- It is not complete, and nothing is written.
    have hskip : w.deriveIfComplete instrumentId c.timestamp table target = table := by
      rw [CandleWorker.deriveIfComplete, if_pos]
      by_contra hboth
      exact hderives (by simpa [derives, not_or, not_le] using hboth)
    refine ⟨by rw [hskip, hrows], fun other b => ?_⟩
    rw [hskip, if_neg fun h => hderives h.2.1]

/-- The loop over `derived_timeframes`. -/
theorem foldl_deriveIfComplete_eq (targets : List Timeframe)
    (hrows : table.rows instrumentId w.baseTimeframe = closed)
    (hsorted : closed.Pairwise fun a b => a.timestamp < b.timestamp)
    (hlast : ∀ c ∈ closed, c.timestamp ≤ asOf) (hmem : ∃ c ∈ closed, c.timestamp = asOf) :
    (targets.foldl (w.deriveIfComplete instrumentId asOf) table).rows instrumentId w.baseTimeframe =
        closed ∧
      ∀ other b, (targets.foldl (w.deriveIfComplete instrumentId asOf) table).get?
          (instrumentId, other, b) =
        if other ∈ targets ∧ derives w asOf other = true ∧ b = bucketStart asOf other.minutes then
          barRow (inBucket other b closed)
        else table.get? (instrumentId, other, b) := by
  induction targets generalizing table with
  | nil => exact ⟨hrows, fun other b => by simp⟩
  | cons target targets ih =>
    obtain ⟨hrows', hget⟩ := deriveIfComplete_eq target hrows hsorted hlast hmem
    obtain ⟨hrest, hgets⟩ := ih hrows'
    refine ⟨hrest, fun other b => ?_⟩
    rw [List.foldl_cons, hgets other b, hget other b]
    -- A target writes its own timeframe only, and the same bar each time.
    by_cases hother : other = target
    · subst hother
      by_cases hin : other ∈ targets
      · by_cases hwrite : derives w asOf other = true ∧ b = bucketStart asOf other.minutes
        · simp [hin, hwrite]
        · simp [hwrite]
      · simp [hin]
    · simp [hother]

end Closed

/-! ## Section 4: Runs -/

/-- The bar of a bucket, once the candle in its last slot is closed. -/
def derivedRow (base target : Timeframe) (closed : List Candle) (b : Timestamp) :
    Option CandleRow :=
  if closed.any fun c => bucketStart c.timestamp target.minutes = b ∧
      completesBucket c.timestamp base.minutes target.minutes = true then
    barRow (inBucket target b closed)
  else none

/-- A closed candle makes the bar of the bucket it completes, and no other. -/
theorem derivedRow_append {base target : Timeframe} {closed : List Candle} {candle : Candle}
    (hslots : ∀ c ∈ closed, bucketStart c.timestamp base.minutes = c.timestamp)
    (hslot : bucketStart candle.timestamp base.minutes = candle.timestamp)
    (hlast : ∀ c ∈ closed, c.timestamp < candle.timestamp) (b : Timestamp) :
    derivedRow base target (closed ++ [candle]) b =
      if completesBucket candle.timestamp base.minutes target.minutes = true ∧
          b = bucketStart candle.timestamp target.minutes then
        barRow (inBucket target b (closed ++ [candle]))
      else derivedRow base target closed b := by
  by_cases hb : b = bucketStart candle.timestamp target.minutes
  · by_cases hcomplete : completesBucket candle.timestamp base.minutes target.minutes = true
    · simp [derivedRow, hb, hcomplete]
    · -- No candle before it completes the bucket that it still lies in.
      have hnone : ¬ (closed.any fun c => bucketStart c.timestamp target.minutes = b ∧
          completesBucket c.timestamp base.minutes target.minutes = true) = true := fun hany => by
        obtain ⟨c, hc, hcomplete'⟩ := List.any_eq_true.mp hany
        obtain ⟨hbucket, hcomplete'⟩ := of_decide_eq_true hcomplete'
        exact eq_of_completesBucket target.minutes_pos (hslots c hc) hslot (hlast c hc) hcomplete'
          (hbucket.trans hb)
      simp only [derivedRow, List.any_append, List.any_cons, List.any_nil, hcomplete, false_and,
        and_false, decide_false, Bool.or_false, if_neg hnone, if_false, Bool.false_eq_true]
  · have hout : ¬ bucketStart candle.timestamp target.minutes = b := fun h => hb h.symm
    simp [derivedRow, inBucket, hb, hout]

/-- What a run of ticks has made of the candles under forming and of the table. -/
structure SeriesInv (w : CandleWorker) (symbol instrumentId : String) (ticks : List StandardTick)
    (forming : Dict String FormingCandle) (table : CandleTable) : Prop where
  sorted : (table.rows instrumentId w.baseTimeframe).Pairwise fun a b => a.timestamp < b.timestamp
  slots : ∀ c ∈ table.rows instrumentId w.baseTimeframe,
    bucketStart c.timestamp w.baseTimeframe.minutes = c.timestamp
  idle : forming.get? symbol = none → ticks = [] ∧ table.rows instrumentId w.baseTimeframe = []
  greatest : ∀ f, forming.get? symbol = some f →
    f.timestamp ∈ ticks.map (slotOf w.baseTimeframe) ∧
      (∀ slot ∈ ticks.map (slotOf w.baseTimeframe), slot ≤ f.timestamp) ∧
      ∀ c ∈ table.rows instrumentId w.baseTimeframe, c.timestamp < f.timestamp
  passed : ∀ slot, (∃ c ∈ table.rows instrumentId w.baseTimeframe, c.timestamp = slot) ↔
    Passed (ticks.map (slotOf w.baseTimeframe)) slot
  derived : ∀ target ∈ w.derivedTimeframes, w.baseTimeframe.minutes < target.minutes →
    ∀ b, table.get? (instrumentId, target, b) =
      derivedRow w.baseTimeframe target (table.rows instrumentId w.baseTimeframe) b

section Step

variable {w : CandleWorker} {symbol instrumentId : String} {ticks : List StandardTick}
  {forming : Dict String FormingCandle} {table : CandleTable} {tick : StandardTick}

theorem SeriesInv.start (w : CandleWorker) (symbol instrumentId : String) :
    SeriesInv w symbol instrumentId [] Dict.empty Dict.empty where
  sorted := List.Pairwise.nil
  slots := by simp [CandleTable.rows, Dict.empty]
  idle _ := ⟨rfl, rfl⟩
  greatest f hf := by simp at hf
  passed slot := by
    constructor
    · rintro ⟨c, hc, -⟩
      simp [CandleTable.rows, Dict.empty] at hc
    · rintro ⟨before, after, hsplit, -⟩
      simp at hsplit
  derived target _ _ b := rfl

/-- What `_on_candle_closed` stores. -/
theorem SeriesInv.close (hbase : w.baseTimeframe.minutes ≠ weekMinutes)
    (hid : w.instrumentIds.get? symbol = some instrumentId) {f : FormingCandle}
    (hf : forming.get? symbol = some f)
    (h : SeriesInv w symbol instrumentId ticks forming table) :
    let table' := w.onCandleClosed table symbol f.toCandle
    table'.rows instrumentId w.baseTimeframe =
        table.rows instrumentId w.baseTimeframe ++ [f.toCandle] ∧
      bucketStart f.timestamp w.baseTimeframe.minutes = f.timestamp ∧
      ∀ target ∈ w.derivedTimeframes, w.baseTimeframe.minutes < target.minutes →
        ∀ b, table'.get? (instrumentId, target, b) =
          derivedRow w.baseTimeframe target (table'.rows instrumentId w.baseTimeframe) b := by
  obtain ⟨hmem, -, hlast⟩ := h.greatest f hf
  obtain ⟨t, -, ht⟩ := List.mem_map.mp hmem
  -- The candle that closes starts its own slot, and is the latest of its series.
  have hslot : bucketStart f.timestamp w.baseTimeframe.minutes = f.timestamp := by
    rw [← ht]
    exact slotOf_idem hbase t
  have hrows : (table.upsertCandle instrumentId w.baseTimeframe f.toCandle).rows instrumentId
      w.baseTimeframe = table.rows instrumentId w.baseTimeframe ++ [f.toCandle] :=
    CandleTable.rows_upsert_of_fresh (fun c hc => (hlast c hc).ne) rfl
  have hsorted : (table.rows instrumentId w.baseTimeframe ++ [f.toCandle]).Pairwise
      fun a b => a.timestamp < b.timestamp :=
    List.pairwise_append.mpr ⟨h.sorted, by simp, fun c hc c' hc' => by
      rw [List.mem_singleton.mp hc']
      exact hlast c hc⟩
  have hupto : ∀ c ∈ table.rows instrumentId w.baseTimeframe ++ [f.toCandle],
      c.timestamp ≤ f.timestamp := fun c hc => by
    rcases List.mem_append.mp hc with hc | hc
    · exact (hlast c hc).le
    · rw [List.mem_singleton.mp hc]
      exact le_refl _
  -- Each target of the worker is one round of the loop.
  obtain ⟨hrows', hget⟩ := foldl_deriveIfComplete_eq w.derivedTimeframes hrows hsorted hupto
    ⟨f.toCandle, by simp, rfl⟩
  have hclosed : w.onCandleClosed table symbol f.toCandle =
      w.derivedTimeframes.foldl (w.deriveIfComplete instrumentId f.timestamp)
        (table.upsertCandle instrumentId w.baseTimeframe f.toCandle) := by
    simp only [CandleWorker.onCandleClosed, hid]
    rfl
  intro table'
  have htable : table'.rows instrumentId w.baseTimeframe = _ := hclosed ▸ hrows'
  refine ⟨htable, hslot, fun target htarget hlt b => ?_⟩
  -- The base candle is no derived row.
  have hne : w.baseTimeframe ≠ target := fun heq => absurd hlt (by rw [heq]; exact lt_irrefl _)
  have hold : (table.upsertCandle instrumentId w.baseTimeframe f.toCandle).get?
      (instrumentId, target, b) = table.get? (instrumentId, target, b) :=
    Dict.get?_set_of_ne _ (by simp [hne]) _
  have hwrites : (target ∈ w.derivedTimeframes ∧ derives w f.timestamp target = true ∧
      b = bucketStart f.timestamp target.minutes) ↔
      completesBucket f.timestamp w.baseTimeframe.minutes target.minutes = true ∧
        b = bucketStart f.timestamp target.minutes := by
    simp [htarget, derives, hlt]
  have happend : derivedRow w.baseTimeframe target
      (table.rows instrumentId w.baseTimeframe ++ [f.toCandle]) b =
      if completesBucket f.timestamp w.baseTimeframe.minutes target.minutes = true ∧
          b = bucketStart f.timestamp target.minutes then
        barRow (inBucket target b (table.rows instrumentId w.baseTimeframe ++ [f.toCandle]))
      else derivedRow w.baseTimeframe target (table.rows instrumentId w.baseTimeframe) b :=
    @derivedRow_append w.baseTimeframe target _ f.toCandle h.slots hslot hlast b
  -- The bucket of the closed candle is written anew, and any other row is as it was.
  have hbar := hget target b
  rw [← hclosed, hold, h.derived target htarget hlt b] at hbar
  rw [htable, happend]
  exact hbar.trans (if_congr hwrites rfl rfl)

/-- The first tick starts a candle. -/
theorem SeriesInv.first (hf : forming.get? symbol = none)
    (h : SeriesInv w symbol instrumentId ticks forming table) :
    SeriesInv w symbol instrumentId (ticks ++ [tick])
      (forming.set symbol (FormingCandle.start (slotOf w.baseTimeframe tick) tick)) table := by
  obtain ⟨rfl, hnone⟩ := h.idle hf
  refine ⟨h.sorted, h.slots, by simp, fun f hget => ?_, fun slot => ?_, h.derived⟩
  · obtain rfl : FormingCandle.start _ tick = f := by simpa using hget
    simp [FormingCandle.start, hnone]
  · simp only [hnone, List.not_mem_nil, false_and, exists_false, false_iff]
    rintro ⟨before, after, hsplit, -, u, hu, -⟩
    rcases List.append_eq_singleton_iff.mp hsplit.symm with ⟨-, hcons⟩ | ⟨-, hcons⟩
    · obtain ⟨-, rfl⟩ := List.cons.inj hcons
      simp at hu
    · cases hcons

/-- The slots of the ticks so far, with one that none of them is after. -/
theorem slots_le_append {slot : Timestamp}
    (hle : ∀ s ∈ ticks.map (slotOf w.baseTimeframe), s ≤ slot)
    (htick : slotOf w.baseTimeframe tick ≤ slot) :
    ∀ s ∈ (ticks ++ [tick]).map (slotOf w.baseTimeframe), s ≤ slot := by
  intro s hs
  rw [List.map_append, List.mem_append] at hs
  rcases hs with hs | hs
  · exact hle s hs
  · rw [List.map_singleton, List.mem_singleton] at hs
    exact hs.le.trans htick

/-- A tick of the slot under forming, or of one before it, closes nothing. -/
theorem SeriesInv.passed_of_le {f : FormingCandle} (hf : forming.get? symbol = some f)
    (h : SeriesInv w symbol instrumentId ticks forming table)
    (htick : slotOf w.baseTimeframe tick ≤ f.timestamp) (slot : Timestamp) :
    (∃ c ∈ table.rows instrumentId w.baseTimeframe, c.timestamp = slot) ↔
      Passed ((ticks ++ [tick]).map (slotOf w.baseTimeframe)) slot := by
  obtain ⟨hmem, hle, -⟩ := h.greatest f hf
  rw [List.map_append, List.map_singleton, passed_append_singleton hmem hle, h.passed slot]
  exact ⟨.inl, fun hor => hor.resolve_right fun hgt => absurd hgt.2 (not_lt.mpr htick)⟩

/-- A tick of an earlier slot is dropped. -/
theorem SeriesInv.stale {f : FormingCandle} (hf : forming.get? symbol = some f)
    (hstale : slotOf w.baseTimeframe tick < f.timestamp)
    (h : SeriesInv w symbol instrumentId ticks forming table) :
    SeriesInv w symbol instrumentId (ticks ++ [tick]) forming table := by
  obtain ⟨hmem, hle, hlast⟩ := h.greatest f hf
  refine ⟨h.sorted, h.slots, by simp [hf], fun f' hf' => ?_, h.passed_of_le hf hstale.le,
    h.derived⟩
  obtain rfl : f = f' := Option.some.inj (hf.symm.trans hf')
  refine ⟨?_, slots_le_append hle hstale.le, hlast⟩
  rw [List.map_append]
  exact List.mem_append_left _ hmem

/-- A tick of the slot under forming goes into the candle. -/
theorem SeriesInv.added {f : FormingCandle} (hf : forming.get? symbol = some f)
    (hslot : f.timestamp = slotOf w.baseTimeframe tick)
    (h : SeriesInv w symbol instrumentId ticks forming table) :
    SeriesInv w symbol instrumentId (ticks ++ [tick]) (forming.set symbol (f.add tick)) table := by
  obtain ⟨hmem, hle, hlast⟩ := h.greatest f hf
  refine ⟨h.sorted, h.slots, by simp, fun f' hf' => ?_, h.passed_of_le hf hslot.ge, h.derived⟩
  obtain rfl : f.add tick = f' := by simpa using hf'
  refine ⟨?_, slots_le_append hle hslot.ge, hlast⟩
  rw [List.map_append]
  exact List.mem_append_left _ hmem

/-- A tick of a later slot closes the candle, and starts the next one. -/
theorem SeriesInv.rolled (hbase : w.baseTimeframe.minutes ≠ weekMinutes)
    (hid : w.instrumentIds.get? symbol = some instrumentId) {f : FormingCandle}
    (hf : forming.get? symbol = some f) (hlt : f.timestamp < slotOf w.baseTimeframe tick)
    (h : SeriesInv w symbol instrumentId ticks forming table) :
    SeriesInv w symbol instrumentId (ticks ++ [tick])
      (forming.set symbol (FormingCandle.start (slotOf w.baseTimeframe tick) tick))
      (w.onCandleClosed table symbol f.toCandle) := by
  obtain ⟨hmem, hle, hlast⟩ := h.greatest f hf
  obtain ⟨hrows, hslot, hderived⟩ := h.close hbase hid hf
  -- The closed candle comes after every stored one and before the slot of the tick.
  refine ⟨?_, ?_, by simp, fun f' hf' => ?_, fun slot => ?_, hderived⟩
  · rw [hrows, List.pairwise_append]
    refine ⟨h.sorted, by simp, fun c hc c' hc' => ?_⟩
    rw [List.mem_singleton.mp hc']
    exact hlast c hc
  · intro c hc
    rw [hrows, List.mem_append, List.mem_singleton] at hc
    rcases hc with hc | rfl
    · exact h.slots c hc
    · exact hslot
  · obtain rfl : FormingCandle.start _ tick = f' := by simpa using hf'
    refine ⟨by simp [FormingCandle.start],
      slots_le_append (fun s hs => (hle s hs).trans hlt.le) (le_refl _), fun c hc => ?_⟩
    rw [hrows, List.mem_append, List.mem_singleton] at hc
    rcases hc with hc | rfl
    · exact (hlast c hc).trans hlt
    · exact hlt
  · rw [List.map_append, List.map_singleton, passed_append_singleton hmem hle, ← h.passed slot,
      hrows]
    simp only [List.mem_append, List.mem_singleton, or_and_right, exists_or, exists_eq_left]
    exact or_congr_right ⟨fun heq => ⟨heq.symm, hlt⟩, fun hgt => hgt.1.symm⟩

/-- One tick. -/
theorem SeriesInv.feed (hbase : w.baseTimeframe.minutes ≠ weekMinutes)
    (hid : w.instrumentIds.get? symbol = some instrumentId) (hsymbol : tick.symbol = symbol)
    (h : SeriesInv w symbol instrumentId ticks forming table) :
    ∃ forming' table', CandleWorker.feed ({ w with forming := forming }, table) tick =
        ({ w with forming := forming' }, table') ∧
      SeriesInv w symbol instrumentId (ticks ++ [tick]) forming' table' := by
  subst hsymbol
  have hslotOf : bucketStart tick.timestamp w.baseTimeframe.minutes sessionOpenMinutesUtc
      tick.utcOffset = slotOf w.baseTimeframe tick := rfl
  cases hf : forming.get? tick.symbol with
  | none =>
    refine ⟨_, _, ?_, h.first hf⟩
    simp only [CandleWorker.feed, CandleWorker.processTick, hf, hslotOf]
  | some f =>
    -- The tick is late, of the forming slot, or of a later one.
    rcases lt_trichotomy (slotOf w.baseTimeframe tick) f.timestamp with hstale | hslot | hlater
    · refine ⟨_, _, ?_, h.stale hf hstale⟩
      simp only [CandleWorker.feed, CandleWorker.processTick, hf, hslotOf, if_pos hstale]
    · refine ⟨_, _, ?_, h.added hf hslot.symm⟩
      simp only [CandleWorker.feed, CandleWorker.processTick, hf, hslotOf, hslot, lt_irrefl,
        ne_eq, not_true_eq_false, if_false]
    · refine ⟨_, _, ?_, h.rolled hbase hid hf hlater⟩
      simp only [CandleWorker.feed, CandleWorker.processTick, hf, hslotOf, if_neg hlater.not_gt,
        ne_eq, hlater.ne, not_false_eq_true, if_true]
      rfl

theorem SeriesInv.run (hbase : w.baseTimeframe.minutes ≠ weekMinutes)
    (hid : w.instrumentIds.get? symbol = some instrumentId) (ticks : List StandardTick)
    (hsymbol : ∀ tick ∈ ticks, tick.symbol = symbol) :
    ∃ forming table, run CandleWorker.feed ({ w with forming := Dict.empty }, Dict.empty) ticks =
        ({ w with forming := forming }, table) ∧
      SeriesInv w symbol instrumentId ticks forming table := by
  induction ticks using List.reverseRecOn with
  | nil => exact ⟨_, _, rfl, .start w symbol instrumentId⟩
  | append_singleton ticks tick ih =>
    obtain ⟨forming, table, hrun, hinv⟩ := ih fun t ht => hsymbol t (List.mem_append_left _ ht)
    obtain ⟨forming', table', hfeed, hinv'⟩ :=
      hinv.feed hbase hid (hsymbol tick (List.mem_append_right _ List.mem_cons_self))
    refine ⟨forming', table', ?_, hinv'⟩
    rw [Logic.run, List.foldl_append]
    rw [Logic.run] at hrun
    rw [hrun]
    exact hfeed

end Step

/-! ## Section 5: The bars of closed buckets -/

/-- The bucket has a closed base candle, and so has a later one. -/
def ClosedBucket (table : CandleTable) (instrumentId : String) (base target : Timeframe)
    (b : Timestamp) : Prop :=
  inBucket target b (table.getCandles instrumentId base) ≠ [] ∧
    ∃ c ∈ table.getCandles instrumentId base, b < bucketStart c.timestamp target.minutes

instance (table : CandleTable) (instrumentId : String) (base target : Timeframe) (b : Timestamp) :
    Decidable (ClosedBucket table instrumentId base target b) :=
  inferInstanceAs (Decidable (inBucket target b (table.getCandles instrumentId base) ≠ [] ∧
    ∃ c ∈ table.getCandles instrumentId base, b < bucketStart c.timestamp target.minutes))

/-- The derived series has one bar at the start of the bucket, and it is the aggregate of the
stored base candles that lie in it. -/
def BarExact (table : CandleTable) (instrumentId : String) (base target : Timeframe)
    (b : Timestamp) : Prop :=
  ∃ derived,
    aggregateCandles (inBucket target b (table.getCandles instrumentId base)) = .ok derived ∧
    ((table.getCandles instrumentId target).filter fun c => c.timestamp = b) =
      [{ timestamp := b
         «open» := derived.open
         high := derived.high
         low := derived.low
         close := derived.close
         volume := derived.volume }]

/-- A tick falls into the last base slot of the bucket, and none before it into a later slot. -/
def LastSlotTraded (base target : Timeframe) (ticks : List StandardTick) (b : Timestamp) : Prop :=
  ∃ before tick after, ticks = before ++ tick :: after ∧
    bucketStart (slotOf base tick) target.minutes = b ∧
    completesBucket (slotOf base tick) base.minutes target.minutes = true ∧
    ∀ earlier ∈ before, slotOf base earlier ≤ slotOf base tick

/-- What is stored of a derived bucket. -/
theorem barExact_iff {table : CandleTable} {instrumentId : String} {base target : Timeframe}
    {b : Timestamp} {closed : List Candle}
    (hrows : table.getCandles instrumentId base = closed)
    (hget : table.get? (instrumentId, target, b) = derivedRow base target closed b) :
    BarExact table instrumentId base target b ↔
      ∃ c ∈ closed, bucketStart c.timestamp target.minutes = b ∧
        completesBucket c.timestamp base.minutes target.minutes = true := by
  rw [BarExact, CandleTable.filter_getCandles, hrows, hget, derivedRow]
  constructor
  · rintro ⟨derived, -, hbar⟩
    by_contra hnone
    rw [if_neg fun hany => hnone (by simpa using hany)] at hbar
    simp at hbar
  · rintro ⟨c, hc, hbucket, hcomplete⟩
    rw [if_pos (List.any_eq_true.mpr ⟨c, hc, by simp [hbucket, hcomplete]⟩)]
    have hmem : c ∈ inBucket target b closed := List.mem_filter.mpr ⟨hc, by simp [hbucket]⟩
    cases hcandles : inBucket target b closed with
    | nil => simp [hcandles] at hmem
    | cons first rest => exact ⟨_, rfl, rfl⟩

/-- A worker that makes five-minute bars of one-minute candles. -/
def fiveMinuteWorker : CandleWorker :=
  { instrumentIds := Dict.empty.set "NIFTY" "1", derivedTimeframes := [.m5] }

def tickAt (minute : ℤ) (ltp : ℚ) : StandardTick :=
  { symbol := "NIFTY", timestamp := minute * Timestamp.microsPerMinute, ltp := ltp }

end SuperTrading
