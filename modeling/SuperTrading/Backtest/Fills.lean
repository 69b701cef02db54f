import SuperTrading.Logic.Runs
import SuperTrading.Backtest.Engine

/-!
# Backtest Fills

Are the prices that a backtest records prices of the candle it records them on? An entry is
gated on the candle's range. An exit is not: it is booked at the level, and a candle may open
beyond it.
-/

namespace SuperTrading

open Logic
open Smc (Candle)

/-! ## Section 1: What is recorded on a candle -/

namespace BacktestState

/-- The price that a turn of the loop puts on record: that of the exit it appends, or that of
the trade it opens. -/
def fillBetween (s s' : BacktestState) : Option ℚ :=
  if s.trades.length < s'.trades.length then s'.trades.getLast?.map BacktestTradeRecord.exitPrice
  else if s.openTrade.isNone then s'.openTrade.map OpenTrade.entryPrice
  else none

/-- The fills of the trades so far, with their timestamps. -/
def recorded (s : BacktestState) : List (Timestamp × ℚ) :=
  (s.trades.flatMap fun t => [(t.openedAt, t.entryPrice), (t.closedAt, t.exitPrice)]) ++
    s.openTrade.toList.map fun t => (t.openedAt, t.entryPrice)

variable {s : BacktestState}

theorem fillBetween_self (s : BacktestState) : s.fillBetween s = none := by
  unfold fillBetween
  cases s.openTrade <;> simp

theorem fillBetween_closed (closed : BacktestTradeRecord) (equity : ℚ) :
    s.fillBetween { trades := s.trades ++ [closed], equity := equity } = some closed.exitPrice := by
  simp [fillBetween]

theorem fillBetween_opened (h : s.openTrade = none) (trade : OpenTrade) :
    s.fillBetween { s with openTrade := some trade } = some trade.entryPrice := by
  simp [fillBetween, h]

end BacktestState

namespace BacktestEngine

variable {analyze : Analysis} {e : BacktestEngine}

/-- The record of a trade that is closed at a level. -/
def closedAt (e : BacktestEngine) (trade : OpenTrade) (candle : Candle) (hitPrice : ℚ) :
    BacktestTradeRecord :=
  let exitPrice := e.costModel.exitPrice hitPrice trade.direction
  let move := trade.direction.signed (exitPrice - trade.entryPrice)
  let costs := e.costModel.roundTripCosts (trade.entryPrice * trade.quantity)
    (exitPrice * trade.quantity)
  let riskPerUnit := |trade.entryPrice - trade.stop|
  { direction := trade.direction
    entryPrice := trade.entryPrice
    exitPrice := exitPrice
    quantity := trade.quantity
    pnl := move * trade.quantity - costs
    rMultiple := if riskPerUnit = 0 then none else some (move / riskPerUnit)
    openedAt := trade.openedAt
    closedAt := candle.timestamp }

theorem checkExit_eq (e : BacktestEngine) (trade : OpenTrade) (candle : Candle) :
    e.checkExit trade candle = (trade.hitPrice candle).map (e.closedAt trade candle) := rfl

/-- All that a turn of the loop can do. -/
theorem onCandle_cases (analyze : Analysis) (e : BacktestEngine) (visible : List Candle)
    (candle : Candle) (s : BacktestState) :
    ((∀ trade, s.openTrade = some trade → trade.hitPrice candle = none) ∧
        e.onCandle analyze visible candle s = s) ∨
      (∃ trade p, s.openTrade = some trade ∧ trade.hitPrice candle = some p ∧
        e.onCandle analyze visible candle s =
          { trades := s.trades ++ [e.closedAt trade candle p]
            equity := s.equity + (e.closedAt trade candle p).pnl }) ∨
      ∃ signal, s.openTrade = none ∧
        fillableSignal analyze e.strategy visible candle = some signal ∧
        e.onCandle analyze visible candle s =
          { s with openTrade := some (e.openTrade signal candle s.equity) } := by
  unfold onCandle
  cases htrade : s.openTrade with
  | some trade =>
    -- With a trade open, the candle closes it or does nothing.
    simp only [checkExit_eq]
    cases hhit : trade.hitPrice candle with
    | some p => exact Or.inr (Or.inl ⟨trade, p, rfl, hhit, rfl⟩)
    | none =>
      left
      constructor
      · rintro trade' ⟨⟩
        exact hhit
      · rfl
  | none =>
    cases hsignal : fillableSignal analyze e.strategy visible candle with
    | some signal => exact Or.inr (Or.inr ⟨signal, rfl, rfl, rfl⟩)
    | none => exact Or.inl ⟨nofun, rfl⟩

/-- One turn of the loop, with the candles it has seen in the state. -/
def turn (analyze : Analysis) (e : BacktestEngine) (s : List Candle × BacktestState)
    (candle : Candle) : List Candle × BacktestState :=
  (s.1 ++ [candle], e.onCandle analyze (s.1 ++ [candle]) candle s.2)

/-- The fills of a run, each with the candle it happens on. -/
def fills (analyze : Analysis) (e : BacktestEngine) (s : List Candle × BacktestState)
    (candles : List Candle) : List (Candle × ℚ) :=
  emitted (e.turn analyze) (fun s s' => (s.2.fillBetween s'.2).toList) s candles

theorem fills_cons (s : List Candle × BacktestState) (candle : Candle) (candles : List Candle) :
    e.fills analyze s (candle :: candles) =
      (s.2.fillBetween (e.turn analyze s candle).2).toList.map (fun p => (candle, p)) ++
        e.fills analyze (e.turn analyze s candle) candles := rfl

def start (e : BacktestEngine) : List Candle × BacktestState :=
  ([], { equity := e.startingCapital })

/-! ## Section 2: The fills are what the run returns -/

theorem recorded_turn (analyze : Analysis) (e : BacktestEngine) (s : List Candle × BacktestState)
    (candle : Candle) :
    (e.turn analyze s candle).2.recorded = s.2.recorded ++
      (s.2.fillBetween (e.turn analyze s candle).2).toList.map fun p => (candle.timestamp, p) := by
  rcases e.onCandle_cases analyze (s.1 ++ [candle]) candle s.2 with
    ⟨-, hsame⟩ | ⟨trade, p, htrade, -, hclosed⟩ | ⟨signal, hnone, -, hopened⟩
  · rw [turn, hsame, BacktestState.fillBetween_self]
    simp
  · -- The entry of the trade moves into its record, and the exit follows it.
    rw [turn, hclosed, BacktestState.fillBetween_closed]
    simp [BacktestState.recorded, htrade, closedAt]
  · rw [turn, hopened, BacktestState.fillBetween_opened hnone]
    simp [BacktestState.recorded, hnone, openTrade]

theorem recorded_loop (seen : List Candle) (s : BacktestState) (candles : List Candle) :
    (e.loop analyze seen s candles).recorded = s.recorded ++
      (e.fills analyze (seen, s) candles).map fun fill => (fill.1.timestamp, fill.2) := by
  induction candles generalizing seen s with
  | nil => simp [loop, fills, emitted]
  | cons candle candles ih =>
    have hturn := e.recorded_turn analyze (seen, s) candle
    have hrest := ih (seen ++ [candle]) (e.onCandle analyze (seen ++ [candle]) candle s)
    rw [loop, hrest, fills_cons, List.map_append, ← List.append_assoc, List.map_map]
    exact congrArg (· ++ _) hturn

/-- What `run` returns are the fills, in their order: the two prices of each trade, and the
entry of the trade that is still open. -/
theorem run_recorded (analyze : Analysis) (e : BacktestEngine) (candles : List Candle) :
    ((e.run analyze candles).trades.flatMap fun t =>
        [(t.openedAt, t.entryPrice), (t.closedAt, t.exitPrice)]) ++
      ((e.run analyze candles).openTrade.toList.map fun t => (t.openedAt, t.entryPrice)) =
    (e.fills analyze e.start candles).map fun fill => (fill.1.timestamp, fill.2) := by
  have hloop : (e.loop analyze [] { equity := e.startingCapital } candles).recorded =
      (e.fills analyze e.start candles).map fun fill => (fill.1.timestamp, fill.2) :=
    (e.recorded_loop [] { equity := e.startingCapital } candles).trans (List.nil_append _)
  rw [← hloop]
  simp only [run, BacktestState.recorded]
  congr 1
  cases hlast : candles.getLast? with
  | none =>
    rw [List.getLast?_eq_none_iff.mp hlast]
    rfl
  | some last =>
    cases (e.loop analyze [] { equity := e.startingCapital } candles).openTrade <;> rfl

end BacktestEngine

/-! ## Section 3: Prices of the candle -/

/-- The four prices of a candle lie within its range. -/
def Smc.Candle.WellFormed (c : Candle) : Prop :=
  (c.low ≤ c.open ∧ c.open ≤ c.high) ∧ c.low ≤ c.close ∧ c.close ≤ c.high

instance (c : Candle) : Decidable c.WellFormed :=
  inferInstanceAs
    (Decidable ((c.low ≤ c.open ∧ c.open ≤ c.high) ∧ c.low ≤ c.close ∧ c.close ≤ c.high))

/-- The market offered the price on the candle. -/
def Smc.Candle.Offers (c : Candle) (price : ℚ) : Prop := c.low ≤ price ∧ price ≤ c.high

instance (c : Candle) (price : ℚ) : Decidable (c.Offers price) :=
  inferInstanceAs (Decidable (c.low ≤ price ∧ price ≤ c.high))

/-- The candle lies beyond the level it hits: the whole of it past the stop, or short of the
stop and the whole of it past the target. -/
def JumpsOver (c : Candle) (stop target : ℚ) : Direction → Prop
  | .long => c.high < stop ∨ stop < c.low ∧ target < c.low
  | .short => stop < c.low ∨ c.high < stop ∧ c.high < target

instance (c : Candle) (stop target : ℚ) (side : Direction) :
    Decidable (JumpsOver c stop target side) :=
  match side with
  | .long => inferInstanceAs (Decidable (c.high < stop ∨ stop < c.low ∧ target < c.low))
  | .short => inferInstanceAs (Decidable (stop < c.low ∨ c.high < stop ∧ c.high < target))

/-- A level that is hit is offered, unless the candle lies beyond it. -/
theorem OpenTrade.offers_hitPrice_iff (trade : OpenTrade) {candle : Candle}
    (hrange : candle.low ≤ candle.high) :
    (∀ p ∈ trade.hitPrice candle, candle.Offers p) ↔
      ¬ JumpsOver candle trade.stop trade.target trade.direction := by
  unfold hitPrice JumpsOver Smc.Candle.Offers
  cases trade.direction with
  | long =>
    by_cases hstop : candle.low ≤ trade.stop
    · grind
    · by_cases htarget : trade.target ≤ candle.high <;> grind
  | short =>
    by_cases hstop : trade.stop ≤ candle.high
    · grind
    · by_cases htarget : candle.low ≤ trade.target <;> grind

namespace BacktestEngine

variable {analyze : Analysis} {e : BacktestEngine}

/-- The candle that comes does not jump over a level of the trade that is held. -/
def NoJump (s : List Candle × BacktestState) (candle : Candle) : Prop :=
  ∀ trade ∈ s.2.openTrade, ¬ JumpsOver candle trade.stop trade.target trade.direction

instance (s : List Candle × BacktestState) (candle : Candle) : Decidable (NoJump s candle) :=
  inferInstanceAs (Decidable (∀ trade ∈ s.2.openTrade,
    ¬ JumpsOver candle trade.stop trade.target trade.direction))

/-- What a turn records is offered, exactly if no level is jumped. -/
theorem offers_turn_iff (hcosts : e.costModel = {}) {candle : Candle}
    (hrange : candle.low ≤ candle.high) (s : List Candle × BacktestState) :
    (∀ p ∈ (s.2.fillBetween (e.turn analyze s candle).2).toList, candle.Offers p) ↔
      NoJump s candle := by
  have hlevels : ∀ trade ∈ s.2.openTrade, (∀ p ∈ trade.hitPrice candle, candle.Offers p) ↔
      ¬ JumpsOver candle trade.stop trade.target trade.direction := fun trade _ =>
    trade.offers_hitPrice_iff hrange
  rcases e.onCandle_cases analyze (s.1 ++ [candle]) candle s.2 with
    ⟨hmissed, hsame⟩ | ⟨trade, p, htrade, hhit, hclosed⟩ | ⟨signal, hnone, hsignal, hopened⟩
  · rw [turn, hsame, BacktestState.fillBetween_self]
    constructor
    · intro _ trade htrade
      apply (hlevels trade htrade).mp
      rw [hmissed trade htrade]
      simp
    · intro _
      simp
  · -- The zero cost model books the exit at the level.
    have hexit : (e.closedAt trade candle p).exitPrice = p := by
      simp only [closedAt, hcosts]
      exact (CostModel.zero_costs p 0 0 trade.direction).2.1
    have hiff := hlevels trade htrade
    rw [turn, hclosed, BacktestState.fillBetween_closed, hexit]
    simpa [NoJump, htrade, hhit] using hiff
  · -- An entry is gated on the range.
    have hentry : (e.openTrade signal candle s.2.equity).entryPrice = signal.entry := by
      simp only [openTrade, hcosts]
      exact (CostModel.zero_costs signal.entry 0 0 signal.side).1
    have hoffers : candle.Offers signal.entry := fillableSignal_range hsignal
    rw [turn, hopened, BacktestState.fillBetween_opened hnone, hentry]
    simp [NoJump, hnone, hoffers]

/-- **Backtest fills**: with the zero cost model, every entry and every exit that `run` records
is at a price of the candle on which it happens, if and only if no candle of the run jumps over
a level of the trade that it finds open. -/
theorem fills_offered_iff (analyze : Analysis) (e : BacktestEngine) (candles : List Candle)
    (hcosts : e.costModel = {}) (hcandles : ∀ c ∈ candles, c.WellFormed) :
    (((e.run analyze candles).trades.flatMap fun t =>
          [(t.openedAt, t.entryPrice), (t.closedAt, t.exitPrice)]) ++
        ((e.run analyze candles).openTrade.toList.map fun t => (t.openedAt, t.entryPrice)) =
      (e.fills analyze e.start candles).map fun fill => (fill.1.timestamp, fill.2)) ∧
    ((∀ fill ∈ e.fills analyze e.start candles, fill.1.Offers fill.2) ↔
      Each (e.turn analyze) NoJump e.start candles) := by
  refine ⟨e.run_recorded analyze candles, ?_⟩
  rw [fills, forall_emitted]
  apply each_congr (I := fun _ => True) (D := Smc.Candle.WellFormed)
  · exact fun _ _ _ _ => trivial
  · intro s candle _ hcandle
    exact offers_turn_iff hcosts (hcandle.1.1.trans hcandle.1.2) s
  · trivial
  · exact hcandles

/-- A candle that opens at its close. -/
def minuteCandle (minute : ℤ) (high low close : ℚ) : Candle :=
  { timestamp := minute * Timestamp.microsPerMinute
    «open» := close
    high := high
    low := low
    close := close }

/-- Buys at 100 on the third candle, with a stop at 98. -/
def buysThird : BacktestEngine := { strategy := { name := "third", timeframe := "1m" } }

/-- The setup of `buysThird`. -/
def thirdSetup : Analysis := fun _ visible =>
  { allSatisfied := visible.length = 3
    satisfied := []
    missing := []
    bias := some .bullish
    entryAndStop := fun _ => (some 100, some 98) }

/-- The fourth candle trades down through the stop. -/
def throughStop : List Candle :=
  [minuteCandle 0 101 99 100, minuteCandle 1 101 99 100, minuteCandle 2 101 99 100,
    minuteCandle 3 101 97 98]

theorem throughStop_offered :
    (buysThird.fills thirdSetup buysThird.start throughStop).map Prod.snd = [100, 98] ∧
      ∀ fill ∈ buysThird.fills thirdSetup buysThird.start throughStop, fill.1.Offers fill.2 := by
  refine ⟨by decide +kernel, ?_⟩
  exact (fills_offered_iff thirdSetup buysThird throughStop rfl (by decide +kernel)).2.mpr
    (by decide +kernel)

/-- The fourth candle opens below the stop and stays there. -/
def belowStop : List Candle :=
  [minuteCandle 0 101 99 100, minuteCandle 1 101 99 100, minuteCandle 2 101 99 100,
    minuteCandle 3 96 94 95]

/-- The exit is booked at 98, on a candle that never traded above 96. -/
theorem belowStop_not_offered :
    buysThird.costModel = {} ∧ (∀ c ∈ belowStop, c.WellFormed) ∧
      (buysThird.run thirdSetup belowStop).trades.map BacktestTradeRecord.exitPrice = [98] ∧
      ¬ ∀ fill ∈ buysThird.fills thirdSetup buysThird.start belowStop, fill.1.Offers fill.2 := by
  refine ⟨rfl, by decide +kernel, by decide +kernel, ?_⟩
  intro h
  have hexit : (minuteCandle 3 96 94 95, (98 : ℚ)) ∈
      buysThird.fills thirdSetup buysThird.start belowStop := by decide +kernel
  have hoffers : ¬ (minuteCandle 3 96 94 95).Offers 98 := by decide +kernel
  exact hoffers (h _ hexit)

end BacktestEngine

end SuperTrading
