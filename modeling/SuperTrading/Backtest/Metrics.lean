import SuperTrading.Core.Types
import SuperTrading.Logic.Dict
import SuperTrading.Logic.Drawdown
import Mathlib.Tactic.Ring

/-!
# Backtest Metrics

`compute_metrics` of `app/backtest/metrics.py`: the report on a list of trades.
-/

namespace SuperTrading

open Logic

/-! ## Section 1: The report -/

/-- The parts of a `closed_at` that the report reads. -/
structure YearMonth where
  year : ℕ
  month : ℕ
  deriving DecidableEq, Repr

/-- The attributes of a trade that the report reads. -/
structure MetricsTrade where
  direction : Direction
  pnl : ℚ
  rMultiple : Option ℚ := none
  closedAt : Option YearMonth := none
  deriving DecidableEq, Repr

structure BacktestMetricsResult where
  totalReturn : ℚ
  netProfit : ℚ
  winRate : ℚ
  profitFactor : Option ℚ
  expectancy : Option ℚ
  maxDrawdown : ℚ
  sharpe : Option ℚ
  sortino : Option ℚ
  averageWin : Option ℚ
  averageLoss : Option ℚ
  averageR : Option ℚ
  totalTrades : ℕ
  longTrades : ℕ
  shortTrades : ℕ
  equityCurve : List ℚ
  drawdownCurve : List ℚ
  monthlyReturns : Dict String ℚ

/-- The format `:0{width}d`. -/
def zeroPadded (width n : ℕ) : String :=
  let digits := toString n
  String.ofList (List.replicate (width - digits.length) '0') ++ digits

/-- The key of a month, `2024-03`. -/
def YearMonth.key (m : YearMonth) : String :=
  zeroPadded 4 m.year ++ "-" ++ zeroPadded 2 m.month

/-- `max(values)` with a default for no values. -/
def maxOr (default : ℚ) (values : List ℚ) : ℚ := values.max?.getD default

/-- `sum(values) / len(values)`, where there are any. -/
def meanOf (values : List ℚ) : Option ℚ :=
  if values = [] then none else some (values.sum / values.length)

/-- `_std`, over a `math.sqrt`. -/
def std (sqrt : ℚ → ℚ) (values : List ℚ) : ℚ :=
  if values.length < 2 then 0
  else
    let mean := values.sum / values.length
    sqrt ((values.map fun v => (v - mean) ^ 2).sum / (values.length - 1))

/-- `_downside_deviation`. -/
def downsideDeviation (sqrt : ℚ → ℚ) (values : List ℚ) (target : ℚ := 0) : ℚ :=
  if values = [] then 0
  else sqrt ((values.map fun v => min (v - target) 0 ^ 2).sum / values.length)

/-! ## Section 2: The loops -/

/-- The locals of the loop over the P&Ls. -/
structure EquityLoop where
  equity : ℚ
  peak : ℚ
  equityCurve : List ℚ
  drawdownCurve : List ℚ

namespace EquityLoop

def start (startingCapital : ℚ) : EquityLoop :=
  { equity := startingCapital
    peak := startingCapital
    equityCurve := [startingCapital]
    drawdownCurve := [0] }

def step (s : EquityLoop) (pnl : ℚ) : EquityLoop :=
  let equity := s.equity + pnl
  let peak := max s.peak equity
  { equity := equity
    peak := peak
    equityCurve := s.equityCurve ++ [equity]
    drawdownCurve := s.drawdownCurve ++ [peak - equity] }

/-- The loop appends the running totals, and how far each lies below the peak. -/
theorem foldl_step (s : EquityLoop) (pnls : List ℚ) :
    (pnls.foldl step s).equityCurve = s.equityCurve ++ totals s.equity pnls ∧
      (pnls.foldl step s).drawdownCurve =
        s.drawdownCurve ++ belowPeak s.peak (totals s.equity pnls) := by
  induction pnls generalizing s with
  | nil => simp [totals, belowPeak]
  | cons pnl pnls ih =>
    obtain ⟨hequity, hdrawdown⟩ := ih (s.step pnl)
    rw [List.foldl_cons, hequity, hdrawdown]
    simp only [step, totals, belowPeak, List.append_assoc, List.singleton_append, and_self]

end EquityLoop

/-- One trade of the loop over the months. -/
def addMonthly (monthly : Dict String ℚ) (trade : MetricsTrade) : Dict String ℚ :=
  match trade.closedAt with
  | none => monthly
  | some closedAt =>
    monthly.set closedAt.key ((monthly.get? closedAt.key).getD 0 + trade.pnl)

/-- `compute_metrics`. -/
def computeMetrics (sqrt : ℚ → ℚ) (trades : List MetricsTrade) (startingCapital : ℚ) :
    BacktestMetricsResult :=
  let pnls := trades.map MetricsTrade.pnl
  let netProfit := pnls.sum
  let totalReturn := if startingCapital ≠ 0 then netProfit / startingCapital * 100 else 0
  let wins := pnls.filter (0 < ·)
  let losses := pnls.filter (· < 0)
  let winRate : ℚ := if trades ≠ [] then wins.length / trades.length else 0
  let grossProfit := wins.sum
  let grossLoss := |losses.sum|
  let profitFactor := if 0 < grossLoss then some (grossProfit / grossLoss) else none
  let averageWin := if wins ≠ [] then some (grossProfit / wins.length) else none
  let averageLoss := if losses ≠ [] then some (-grossLoss / losses.length) else none
  let expectancy := if trades ≠ [] then some (netProfit / trades.length) else none
  let averageR := meanOf (trades.filterMap MetricsTrade.rMultiple)
  let loop := pnls.foldl EquityLoop.step (EquityLoop.start startingCapital)
  let maxDrawdown := maxOr 0 loop.drawdownCurve
  let returnsPct := if startingCapital ≠ 0 then pnls.map (· / startingCapital) else []
  let ratio (deviation : ℚ) : Option ℚ :=
    (meanOf returnsPct).bind fun mean => if 0 < deviation then some (mean / deviation) else none
  { totalReturn := round4 totalReturn
    netProfit := round4 netProfit
    winRate := round4 winRate
    profitFactor := profitFactor.map round4
    expectancy := expectancy.map round4
    maxDrawdown := round4 maxDrawdown
    sharpe := (ratio (std sqrt returnsPct)).map round4
    sortino := (ratio (downsideDeviation sqrt returnsPct)).map round4
    averageWin := averageWin.map round4
    averageLoss := averageLoss.map round4
    averageR := averageR.map round4
    totalTrades := trades.length
    longTrades := trades.countP fun t => t.direction = .long
    shortTrades := trades.countP fun t => t.direction = .short
    equityCurve := loop.equityCurve
    drawdownCurve := loop.drawdownCurve
    monthlyReturns := trades.foldl addMonthly Dict.empty }

/-! ## Section 3: What the curves are -/

variable (sqrt : ℚ → ℚ) (trades : List MetricsTrade) (startingCapital : ℚ)

theorem equityCurve_computeMetrics :
    (computeMetrics sqrt trades startingCapital).equityCurve =
      startingCapital :: totals startingCapital (trades.map MetricsTrade.pnl) :=
  (EquityLoop.foldl_step (EquityLoop.start startingCapital) (trades.map MetricsTrade.pnl)).1

theorem drawdownCurve_computeMetrics :
    (computeMetrics sqrt trades startingCapital).drawdownCurve =
      0 :: belowPeak startingCapital (totals startingCapital (trades.map MetricsTrade.pnl)) :=
  (EquityLoop.foldl_step (EquityLoop.start startingCapital) (trades.map MetricsTrade.pnl)).2

/-- The greatest of the drawdowns. -/
theorem maxOr_drawdownCurve :
    maxOr 0 (computeMetrics sqrt trades startingCapital).drawdownCurve =
      greatestFall 0 startingCapital (totals startingCapital (trades.map MetricsTrade.pnl)) := by
  rw [drawdownCurve_computeMetrics, greatestFall_eq_foldl, maxOr, List.max?_cons',
    Option.getD_some]

/-- A trade with a month adds its P&L to the months. -/
theorem sum_addMonthly (monthly : Dict String ℚ) {trade : MetricsTrade}
    (h : trade.closedAt.isSome) :
    (addMonthly monthly trade).values.sum = monthly.values.sum + trade.pnl := by
  obtain ⟨closedAt, hclosed⟩ := Option.isSome_iff_exists.mp h
  have hset := Dict.sum_values_set monthly closedAt.key
    ((monthly.get? closedAt.key).getD 0 + trade.pnl) id
  rw [List.map_id, List.map_id] at hset
  simp only [addMonthly, hclosed]
  rw [hset]
  cases monthly.get? closedAt.key with
  | none => simp
  | some total =>
    simp only [Option.getD_some, Option.elim_some, id]
    ring

theorem sum_foldl_addMonthly (monthly : Dict String ℚ) {trades : List MetricsTrade}
    (h : ∀ t ∈ trades, t.closedAt.isSome) :
    (trades.foldl addMonthly monthly).values.sum =
      monthly.values.sum + (trades.map MetricsTrade.pnl).sum := by
  induction trades generalizing monthly with
  | nil => simp
  | cons trade trades ih =>
    have hhead := sum_addMonthly monthly (h trade List.mem_cons_self)
    have htail := ih (addMonthly monthly trade) fun t ht => h t (List.mem_cons_of_mem _ ht)
    rw [List.foldl_cons, htail, hhead, List.map_cons, List.sum_cons, add_assoc]

end SuperTrading
