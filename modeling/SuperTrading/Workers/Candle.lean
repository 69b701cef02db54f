import SuperTrading.Logic.Dict
import SuperTrading.Logic.SortBy
import SuperTrading.Market.Aggregation

/-!
# Candle Worker

`app/workers/candle_worker.py` over the candle table of `app/market/repository.py`: ticks
into base candles, and base candles into derived bars.
-/

namespace SuperTrading

open SuperTrading.Logic
open Smc (Candle)

/-! ## Section 1: The candle table -/

/-- The columns of a row beside its key. -/
structure CandleRow where
  «open» : ℚ
  high : ℚ
  low : ℚ
  close : ℚ
  volume : ℚ
  deriving DecidableEq, Repr

def CandleRow.toCandle (row : CandleRow) (timestamp : Timestamp) : Candle :=
  { timestamp := timestamp
    «open» := row.open, high := row.high, low := row.low, close := row.close, volume := row.volume }

/-- One row for an instrument, a timeframe and an instant: `uq_candle_key`. -/
abbrev CandleTable := Dict (String × Timeframe × Timestamp) CandleRow

namespace CandleTable

/-- `get_candles`. -/
def getCandles (table : CandleTable) (instrumentId : String) (timeframe : Timeframe)
    (first last : Option Timestamp := none) : List Candle :=
  let rows := table.entries.filter fun e =>
    e.1.1 = instrumentId ∧ e.1.2.1 = timeframe ∧
      first.all (fun t => decide (t ≤ e.1.2.2)) ∧ last.all (fun t => decide (e.1.2.2 ≤ t))
  sortBy Candle.timestamp (rows.map fun e => e.2.toCandle e.1.2.2)

/-- `upsert_candles`, of one candle. -/
def upsertCandle (table : CandleTable) (instrumentId : String) (timeframe : Timeframe)
    (candle : Candle) : CandleTable :=
  table.set (instrumentId, timeframe, candle.timestamp)
    { «open» := candle.open
      high := candle.high
      low := candle.low
      close := candle.close
      volume := candle.volume }

end CandleTable

/-! ## Section 2: The worker -/

/-- What the worker reads of a tick. -/
structure StandardTick where
  symbol : String
  timestamp : Timestamp
  ltp : ℚ
  volume : ℚ := 0
  utcOffset : ℤ := 0
  deriving DecidableEq, Repr

structure FormingCandle where
  timestamp : Timestamp
  «open» : ℚ
  high : ℚ
  low : ℚ
  close : ℚ
  volume : ℚ := 0
  deriving DecidableEq, Repr

def FormingCandle.toCandle (f : FormingCandle) : Candle :=
  { timestamp := f.timestamp
    «open» := f.open, high := f.high, low := f.low, close := f.close, volume := f.volume }

/-- The candle that a tick starts. -/
def FormingCandle.start (bucket : Timestamp) (tick : StandardTick) : FormingCandle :=
  { timestamp := bucket
    «open» := tick.ltp, high := tick.ltp, low := tick.ltp, close := tick.ltp
    volume := tick.volume }

def FormingCandle.add (f : FormingCandle) (tick : StandardTick) : FormingCandle :=
  { f with
    high := max f.high tick.ltp
    low := min f.low tick.ltp
    close := tick.ltp
    volume := f.volume + tick.volume }

structure CandleWorker where
  instrumentIds : Dict String String
  baseTimeframe : Timeframe := .m1
  derivedTimeframes : List Timeframe := []
  forming : Dict String FormingCandle := Dict.empty

/-- `_completes_bucket`: the next base candle falls into another bucket. -/
def completesBucket (candleStart : Timestamp) (baseMinutes targetMinutes : ℕ) : Bool :=
  bucketStart (candleStart + spanOf baseMinutes) targetMinutes ≠
    bucketStart candleStart targetMinutes

namespace CandleWorker

/-- `_derive_timeframe`. -/
def deriveTimeframe (w : CandleWorker) (table : CandleTable) (instrumentId : String)
    (target : Timeframe) (asOf : Timestamp) : CandleTable :=
  let targetBucket := bucketStart asOf target.minutes
  let lookbackStart := asOf - spanOf (target.minutes * 2)
  let recent := table.getCandles instrumentId w.baseTimeframe (some lookbackStart) (some asOf)
  let bucketCandles := recent.filter fun c => bucketStart c.timestamp target.minutes = targetBucket
  match aggregateCandles bucketCandles with
  -- There is nothing to aggregate, and no bar is written.
  | .error _ => table
  | .ok derived => table.upsertCandle instrumentId target
    { timestamp := targetBucket
      «open» := derived.open
      high := derived.high
      low := derived.low
      close := derived.close
      volume := derived.volume }

/-- One round of the loop over `derived_timeframes`. -/
def deriveIfComplete (w : CandleWorker) (instrumentId : String) (asOf : Timestamp)
    (table : CandleTable) (target : Timeframe) : CandleTable :=
  if target.minutes ≤ w.baseTimeframe.minutes ∨
      ¬ completesBucket asOf w.baseTimeframe.minutes target.minutes then table
  else w.deriveTimeframe table instrumentId target asOf

/-- `_on_candle_closed`. -/
def onCandleClosed (w : CandleWorker) (table : CandleTable) (symbol : String) (candle : Candle) :
    CandleTable :=
  match w.instrumentIds.get? symbol with
  | none => table
  | some instrumentId =>
    w.derivedTimeframes.foldl (w.deriveIfComplete instrumentId candle.timestamp)
      (table.upsertCandle instrumentId w.baseTimeframe candle)

/-- `process_tick`, with the candle it returns. -/
def processTick (w : CandleWorker) (table : CandleTable) (tick : StandardTick) :
    CandleWorker × CandleTable × Option Candle :=
  let bucket :=
    bucketStart tick.timestamp w.baseTimeframe.minutes sessionOpenMinutesUtc tick.utcOffset
  match w.forming.get? tick.symbol with
  | none =>
    ({ w with forming := w.forming.set tick.symbol (FormingCandle.start bucket tick) }, table, none)
  | some forming =>
    if bucket < forming.timestamp then (w, table, none)
    else if forming.timestamp ≠ bucket then
      ({ w with forming := w.forming.set tick.symbol (FormingCandle.start bucket tick) },
        w.onCandleClosed table tick.symbol forming.toCandle, some forming.toCandle)
    else
      ({ w with forming := w.forming.set tick.symbol (forming.add tick) }, table, none)

/-- A tick, for the worker and the table. -/
def feed (s : CandleWorker × CandleTable) (tick : StandardTick) : CandleWorker × CandleTable :=
  ((s.1.processTick s.2 tick).1, (s.1.processTick s.2 tick).2.1)

end CandleWorker

end SuperTrading
