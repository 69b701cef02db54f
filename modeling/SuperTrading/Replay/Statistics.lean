import SuperTrading.Backtest.Metrics
import SuperTrading.Logic.HighWater

/-!
# Replay Statistics

`compute_statistics` of `app/replay/statistics.py`, which looks for the drawdown in a loop of its
own. It finds the one that the report on a backtest finds, and that one is the true one.
-/

namespace SuperTrading

open Logic

/-! ## Section 1: The statistics -/

structure ReplayStatistics where
  startingBalance : ℚ
  endingBalance : ℚ
  netPnl : ℚ
  winRate : ℚ
  profitFactor : Option ℚ
  maxDrawdown : ℚ
  trades : ℕ
  averageR : Option ℚ
  bestTrade : Option ℚ
  worstTrade : Option ℚ
  deriving DecidableEq, Repr

/-- The locals of the loop over the P&Ls. -/
structure DrawdownLoop where
  equity : ℚ
  peak : ℚ
  maxDrawdown : ℚ := 0

def DrawdownLoop.step (s : DrawdownLoop) (pnl : ℚ) : DrawdownLoop :=
  let equity := s.equity + pnl
  let peak := max s.peak equity
  { equity := equity
    peak := peak
    maxDrawdown := max s.maxDrawdown (peak - equity) }

/-- The `max_drawdown` that the loop ends with. -/
def maxDrawdownOf (pnls : List ℚ) (startingBalance : ℚ) : ℚ :=
  let start : DrawdownLoop :=
    { equity := startingBalance
      peak := startingBalance }
  (pnls.foldl DrawdownLoop.step start).maxDrawdown

/-- `compute_statistics`. -/
def computeStatistics (closedTradePnls : List ℚ) (startingBalance : ℚ)
    (rMultiples : List ℚ := []) : ReplayStatistics :=
  let trades := closedTradePnls.length
  let netPnl := closedTradePnls.sum
  let wins := closedTradePnls.filter (0 < ·)
  let losses := closedTradePnls.filter (· < 0)
  let winRate : ℚ := if trades ≠ 0 then wins.length / trades else 0
  let grossProfit := wins.sum
  let grossLoss := |losses.sum|
  let profitFactor := if 0 < grossLoss then some (grossProfit / grossLoss) else none
  { startingBalance := startingBalance
    endingBalance := startingBalance + netPnl
    netPnl := netPnl
    winRate := round4 winRate
    profitFactor := profitFactor.map round4
    maxDrawdown := round4 (maxDrawdownOf closedTradePnls startingBalance)
    trades := trades
    averageR := (meanOf rMultiples).map round4
    bestTrade := closedTradePnls.max?
    worstTrade := closedTradePnls.min? }

/-! ## Section 2: The drawdown -/

theorem maxDrawdown_foldl_step (s : DrawdownLoop) (pnls : List ℚ) :
    (pnls.foldl DrawdownLoop.step s).maxDrawdown =
      greatestFall s.maxDrawdown s.peak (totals s.equity pnls) := by
  induction pnls generalizing s with
  | nil => rfl
  | cons pnl pnls ih => exact ih (s.step pnl)

theorem maxDrawdownOf_eq (pnls : List ℚ) (startingBalance : ℚ) :
    maxDrawdownOf pnls startingBalance =
      greatestFall 0 startingBalance (totals startingBalance pnls) :=
  maxDrawdown_foldl_step _ pnls

/-- The drawdown of a list of trades, by both reports. It is the greatest of the drawdown curve
and the greatest fall of the equity curve, which ends at the capital and the net P&L. And the
months of trades that all have one make up the net P&L. -/
theorem drawdown_true (sqrt : ℚ → ℚ) (trades : List MetricsTrade) (startingCapital : ℚ)
    (rMultiples : List ℚ) :
    let pnls := trades.map MetricsTrade.pnl
    let metrics := computeMetrics sqrt trades startingCapital
    let statistics := computeStatistics pnls startingCapital rMultiples
    ∃ d, IsGreatest { x | x ∈ metrics.drawdownCurve } d ∧ IsGreatest (Falls metrics.equityCurve) d ∧
      maxDrawdownOf pnls startingCapital = d ∧
      metrics.maxDrawdown = round4 d ∧ statistics.maxDrawdown = round4 d ∧
      metrics.equityCurve.getLast? = some (startingCapital + pnls.sum) ∧
      ((∀ t ∈ trades, t.closedAt.isSome) → metrics.monthlyReturns.values.sum = pnls.sum) := by
  intro pnls metrics statistics
  have hstatistics := maxDrawdownOf_eq pnls startingCapital
  refine ⟨greatestFall 0 startingCapital (totals startingCapital pnls), ?_, ?_, hstatistics, ?_, ?_,
    ?_, fun hclosed => ?_⟩
  · -- The curve of the drawdown is folded with `max` by both reports.
    rw [drawdownCurve_computeMetrics, greatestFall_eq_foldl]
    obtain ⟨hmem, hle⟩ := foldl_max_spec (belowPeak startingCapital (totals startingCapital pnls)) 0
    exact ⟨hmem, fun y hy => hle y hy⟩
  · -- Over the equity curve it is the greatest fall.
    rw [equityCurve_computeMetrics]
    exact isGreatest_greatestFall ..
  · rw [← maxOr_drawdownCurve sqrt]
    rfl
  · rw [← hstatistics]
    rfl
  · -- The curve ends at the capital and all P&L.
    rw [equityCurve_computeMetrics]
    exact getLast?_totals ..
  · exact (sum_foldl_addMonthly Dict.empty hclosed).trans (zero_add _)

/-- From 100 the equity goes to 130, 90, 150 and 120: the fall of 40 counts, not the last one. -/
theorem drawdown_true_of_two_months :
    let trades : List MetricsTrade :=
      [{ direction := .long, pnl := 30, closedAt := some ⟨2024, 3⟩ },
        { direction := .short, pnl := -40, closedAt := some ⟨2024, 3⟩ },
        { direction := .long, pnl := 60, closedAt := some ⟨2024, 4⟩ },
        { direction := .long, pnl := -30, closedAt := some ⟨2024, 4⟩ }]
    maxDrawdownOf (trades.map MetricsTrade.pnl) 100 = 40 ∧
      (computeMetrics id trades 100).monthlyReturns.values.sum = 20 := by
  intro trades
  obtain ⟨-, -, -, -, -, -, -, hmonths⟩ := drawdown_true id trades 100 []
  have hclosed : ∀ t ∈ trades, t.closedAt.isSome := by decide
  refine ⟨by decide +kernel, (hmonths hclosed).trans ?_⟩
  decide +kernel

end SuperTrading
