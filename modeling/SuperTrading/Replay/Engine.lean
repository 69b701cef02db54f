import SuperTrading.Smc.Types
import SuperTrading.Replay.Statistics

/-!
# Replay Engine

`ReplayClock` of `app/replay/clock.py` and `ReplayEngine` of `app/replay/engine.py`: one user
trades by hand against candles that are shown one after the other. An operation gives back what
it returns or raises, and the engine as it leaves it, a raise included.
-/

namespace SuperTrading

open Smc (Candle)

/-! ## Section 1: The clock -/

inductive ReplayStatus
  | created
  | playing
  | paused
  | finished
  deriving DecidableEq, Repr

/-- The cursor is on a candle, so that there always is a current one. -/
structure ReplayClock where
  candles : List Candle
  cursor : ℕ := 0
  status : ReplayStatus := .created
  onCandle : cursor < candles.length

namespace ReplayClock

def currentCandle (c : ReplayClock) : Candle := c.candles.get ⟨c.cursor, c.onCandle⟩

def isFinished (c : ReplayClock) : Prop := c.candles.length - 1 ≤ c.cursor

instance (c : ReplayClock) : Decidable c.isFinished :=
  inferInstanceAs (Decidable (c.candles.length - 1 ≤ c.cursor))

def reset (c : ReplayClock) : ReplayClock :=
  { c with
    cursor := 0
    status := .created
    onCandle := Nat.zero_lt_of_lt c.onCandle }

/-- `next_candle`. The candle it returns is the current one of the clock it leaves. -/
def nextCandle (c : ReplayClock) : ReplayClock :=
  if h : c.isFinished then { c with status := .finished }
  else
    { c with
      cursor := c.cursor + 1
      status := if c.candles.length - 1 ≤ c.cursor + 1 then .finished else c.status
      onCandle := by
        simp only [isFinished] at h
        omega }

end ReplayClock

/-! ## Section 2: The engine -/

structure ReplayTrade where
  direction : Direction
  entryPrice : ℚ
  quantity : ℚ
  openedIndex : ℕ
  openedAt : Timestamp
  stop : Option ℚ := none
  target : Option ℚ := none
  /-- The stop as first placed. -/
  initialStop : Option ℚ := none
  exitPrice : Option ℚ := none
  closedIndex : Option ℕ := none
  closedAt : Option Timestamp := none
  pnl : Option ℚ := none
  rMultiple : Option ℚ := none
  deriving DecidableEq, Repr

structure ReplayEngine where
  clock : ReplayClock
  startingBalance : ℚ
  balance : ℚ
  openTrade : Option ReplayTrade := none
  closedTrades : List ReplayTrade := []

/-- `_MAX_JOURNALLED`. -/
def maxJournalled : ℚ := 10 ^ 12

namespace ReplayTrade

/-- `_pnl_at`, of the open trade. -/
def pnlAt (trade : ReplayTrade) (exitPrice : ℚ) : ℚ :=
  trade.direction.signed ((exitPrice - trade.entryPrice) * trade.quantity)

/-- The `r_multiple` that `close` sets: against the stop as first placed. -/
def rMultipleAt (trade : ReplayTrade) (exitPrice : ℚ) : Option ℚ :=
  match trade.initialStop with
  | none => trade.rMultiple
  | some initialStop =>
    if trade.entryPrice ≠ initialStop then
      some (trade.direction.signed (exitPrice - trade.entryPrice) /
        |trade.entryPrice - initialStop|)
    else trade.rMultiple

/-- The stop or target that the candle hits, the stop first. -/
def hitBy (trade : ReplayTrade) (candle : Candle) : Option ℚ :=
  match trade.direction with
  | .long =>
    (trade.stop.filter fun stop => candle.low ≤ stop).or
      (trade.target.filter fun target => target ≤ candle.high)
  | .short =>
    (trade.stop.filter fun stop => stop ≤ candle.high).or
      (trade.target.filter fun target => candle.low ≤ target)

end ReplayTrade

namespace ReplayEngine

def new (candles : List Candle) (startingBalance : ℚ) (h : 0 < candles.length) : ReplayEngine :=
  { clock :=
      { candles := candles
        onCandle := h }
    startingBalance := startingBalance
    balance := startingBalance }

/-- The prices that `_refuse_a_price_the_journal_cannot_hold` lets through for the trade. -/
def Holds (balance : ℚ) (trade : ReplayTrade) (price : ℚ) : Prop :=
  |trade.pnlAt price| < maxJournalled ∧ |balance + trade.pnlAt price| < maxJournalled

instance (balance : ℚ) (trade : ReplayTrade) (price : ℚ) : Decidable (Holds balance trade price) :=
  inferInstanceAs (Decidable (_ ∧ _))

/-- What it raises for any other. -/
def refusal (trade : ReplayTrade) (exitPrice : ℚ) : String :=
  s!"A fill at {formatFloat exitPrice} on {formatFloat trade.quantity} units entered at " ++
    s!"{formatFloat trade.entryPrice} would book a P&L of {fixed2 (trade.pnlAt exitPrice)}, " ++
    "which " ++
    "this session cannot record. Use a smaller position or a price nearer the entry."

variable (e : ReplayEngine)

/-- `_open`. -/
def «open» (direction : Direction) (quantity : ℚ) : Except String ReplayTrade × ReplayEngine :=
  match e.openTrade with
  | some _ => (.error "A position is already open; close it before opening a new one", e)
  | none =>
    let candle := e.clock.currentCandle
    let trade : ReplayTrade :=
      { direction := direction
        entryPrice := candle.close
        quantity := quantity
        openedIndex := e.clock.cursor
        openedAt := candle.timestamp }
    (.ok trade, { e with openTrade := some trade })

def buy (quantity : ℚ) : Except String ReplayTrade × ReplayEngine := e.open .long quantity

def sell (quantity : ℚ) : Except String ReplayTrade × ReplayEngine := e.open .short quantity

/-- `set_stop` and `set_target`: what they share, and what each changes of the trade. -/
def setLevel (price : ℚ) (change : ReplayTrade → ReplayTrade) : Except String Unit × ReplayEngine :=
  match e.openTrade with
  | none => (.error "No open position", e)
  | some trade =>
    if Holds e.balance trade price then (.ok (), { e with openTrade := some (change trade) })
    else (.error (refusal trade price), e)

def setStop (price : ℚ) : Except String Unit × ReplayEngine :=
  e.setLevel price fun trade =>
    { trade with
      stop := some price
      initialStop := trade.initialStop.or (some price) }

def setTarget (price : ℚ) : Except String Unit × ReplayEngine :=
  e.setLevel price fun trade => { trade with target := some price }

def close (price : Option ℚ := none) : Except String ReplayTrade × ReplayEngine :=
  match e.openTrade with
  | none => (.error "No open position", e)
  | some trade =>
    let candle := e.clock.currentCandle
    let exitPrice := price.getD candle.close
    if Holds e.balance trade exitPrice then
      let closed :=
        { trade with
          exitPrice := some exitPrice
          closedIndex := some e.clock.cursor
          closedAt := some candle.timestamp
          pnl := some (trade.pnlAt exitPrice)
          rMultiple := trade.rMultipleAt exitPrice }
      (.ok closed,
        { e with
          balance := e.balance + trade.pnlAt exitPrice
          closedTrades := e.closedTrades ++ [closed]
          openTrade := none })
    else (.error (refusal trade exitPrice), e)

/-- `_check_stop_target`. -/
def checkStopTarget (candle : Candle) : Except String Unit × ReplayEngine :=
  match e.openTrade.bind fun trade => trade.hitBy candle with
  | none => (.ok (), e)
  | some level => ((e.close (some level)).1.map fun _ => (), (e.close (some level)).2)

/-- The loop of `advance`, from the candle it would return. -/
def advanceLoop (e : ReplayEngine) (candle : Candle) : ℕ → Except String Candle × ReplayEngine
  | 0 => (.ok candle, e)
  | steps + 1 =>
    if e.clock.isFinished then (.ok candle, e)
    else
      let e := { e with clock := e.clock.nextCandle }
      let candle := e.clock.currentCandle
      match e.checkStopTarget candle with
      | (.error message, e) => (.error message, e)
      | (.ok _, e) => advanceLoop e candle steps

def advance (steps : ℤ := 1) : Except String Candle × ReplayEngine :=
  e.advanceLoop e.clock.currentCandle steps.toNat

/-- What `POST /replay/{id}/reset` does to the engine. -/
def reset : ReplayEngine :=
  { e with
    clock := e.clock.reset
    openTrade := none
    closedTrades := []
    balance := e.startingBalance }

/-- `statistics`. -/
def statistics : ReplayStatistics :=
  computeStatistics (e.closedTrades.filterMap ReplayTrade.pnl) e.startingBalance
    (e.closedTrades.filterMap ReplayTrade.rMultiple)

end ReplayEngine

/-! ## Section 3: Actions -/

inductive ReplayAction
  | buy (quantity : ℚ)
  | sell (quantity : ℚ)
  | setStop (price : ℚ)
  | setTarget (price : ℚ)
  | close (price : Option ℚ)
  | advance (steps : ℤ)
  | reset
  deriving DecidableEq, Repr

namespace ReplayEngine

/-- One action: what it raises, if it does, and the engine after it. -/
def act (e : ReplayEngine) : ReplayAction → Except String Unit × ReplayEngine
  | .buy quantity => ((e.buy quantity).1.map fun _ => (), (e.buy quantity).2)
  | .sell quantity => ((e.sell quantity).1.map fun _ => (), (e.sell quantity).2)
  | .setStop price => e.setStop price
  | .setTarget price => e.setTarget price
  | .close price => ((e.close price).1.map fun _ => (), (e.close price).2)
  | .advance steps => ((e.advance steps).1.map fun _ => (), (e.advance steps).2)
  | .reset => (.ok (), e.reset)

def step (e : ReplayEngine) (action : ReplayAction) : ReplayEngine := (e.act action).2

end ReplayEngine

end SuperTrading
