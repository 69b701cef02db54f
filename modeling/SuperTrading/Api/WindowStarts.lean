import SuperTrading.Api.Stack
import SuperTrading.Brokers.Scripted
import SuperTrading.Paper.WindowRuns

/-!
# The Window of the Counters

`risk_window_starts` of `app/trading/persistence.py` names the window of the risk counters by
two midnights, from which the journal is summed. `_roll_risk_window` and `RiskWindow.roll` name
it by the date and the ISO week that a counter was last rolled to. While the clock only runs
forward, the two are one window.

- **Layer A**: the starts of the day and of the week
- **Layer B**: counting and summing
-/

namespace SuperTrading

open Logic

namespace Instant

/-! ## Layer A: The starts -/

/-- `risk_window_starts`. -/
def riskWindowStarts (now : Instant) : Instant × Instant :=
  let dayStart := now.date * microsPerDay
  (dayStart, dayStart - now.weekday * microsPerDay)

/-- The day's start less the days since Monday is the week's start. -/
theorem riskWindowStarts_eq (now : Instant) :
    riskWindowStarts now = (now.dayStart, now.weekStart) := by
  have hmonday : now.date - now.weekday = now.isoWeek * 7 := by
    simp only [weekday, ordinal, isoWeek]
    omega
  rw [riskWindowStarts, dayStart, weekStart, ← hmonday, Nat.sub_mul]

/-- The last days of 2020 and the first ones of 2021 are one week. -/
example :
    let wednesday : Instant := 737788 * microsPerDay
    let sunday : Instant := 737792 * microsPerDay
    (riskWindowStarts sunday).2 ≤ wednesday ∧ wednesday.isocalendar = (2020, 53) ∧
      sunday.isocalendar = (2020, 53) := by decide

end Instant

/-! ## Layer B: Counting and summing -/

/-- What is added to the counters at one time. -/
structure Increment where
  time : Instant
  trades : ℕ := 0
  pnl : ℚ := 0
  deriving DecidableEq, Repr

namespace Increment

/-- The trades with timestamps from a start on. -/
def tradesSince (increments : List Increment) (since : Instant) : ℕ :=
  ((increments.filter fun i => since ≤ i.time).map trades).sum

/-- The profit with timestamps from a start on. -/
def pnlSince (increments : List Increment) (since : Instant) : ℚ :=
  ((increments.filter fun i => since ≤ i.time).map pnl).sum

/-- What a sum by marks adds up, from the start of the last mark on. -/
theorem sum_entries {κ M : Type*} [LinearOrder κ] [AddMonoid M] {mark : Instant → κ} {k : κ}
    {start now : Instant} (hstart : ∀ t ≤ now, (start ≤ t ↔ mark t = k)) (amount : Increment → M)
    {increments : List Increment} (hpast : ∀ i ∈ increments, i.time ≤ now) :
    (((increments.map fun i => (mark i.time, amount i)).filter fun e => e.1 = k).map Prod.snd).sum =
      ((increments.filter fun i => start ≤ i.time).map amount).sum := by
  rw [List.filter_map, List.map_map]
  have hfilter : increments.filter ((fun e : κ × M => decide (e.1 = k)) ∘
      fun i => (mark i.time, amount i)) = increments.filter fun i => start ≤ i.time := by
    apply List.filter_congr
    intro i hi
    exact decide_eq_decide.mpr (hstart i.time (hpast i hi)).symm
  rw [hfilter]
  rfl

variable {κ M : Type*} [LinearOrder κ] {mark : Instant → κ} {now : Instant}
  {increments : List Increment}

/-- Marks that go with time come in the order of the increments. -/
theorem pairwise_entries (hmark : Monotone mark) (amount : Increment → M)
    (hascending : increments.Pairwise fun i j => i.time ≤ j.time) :
    (increments.map fun i => (mark i.time, amount i)).Pairwise fun e e' => e.1 ≤ e'.1 :=
  List.pairwise_map.mpr (hascending.imp fun h => hmark h)

theorem entries_le (hmark : Monotone mark) (amount : Increment → M)
    (hpast : ∀ i ∈ increments, i.time ≤ now) :
    ∀ e ∈ increments.map fun i => (mark i.time, amount i), e.1 ≤ mark now := by
  intro e he
  obtain ⟨i, hi, rfl⟩ := List.mem_map.mp he
  exact hmark (hpast i hi)

end Increment

namespace Stack

variable {β : Type}

/-- The window is rolled to the time of every increment. -/
def count (s : Stack β) (i : Increment) : Stack β :=
  let s := s.rollRiskWindow i.time
  { s with
    tradesToday := s.tradesToday + i.trades
    dailyPnl := s.dailyPnl + i.pnl
    weeklyPnl := s.weeklyPnl + i.pnl }

def dayGauge (s : Stack β) : Gauge ℕ (ℕ × ℚ) :=
  { mark := s.riskDay, total := (s.tradesToday, s.dailyPnl) }

def weekGauge (s : Stack β) : Gauge ℕ ℚ := { mark := s.riskWeek, total := s.weeklyPnl }

theorem dayGauge_rollRiskWindow (s : Stack β) (now : Instant) :
    (s.rollRiskWindow now).dayGauge = s.dayGauge.turn now.date := by
  cases hday : s.riskDay with
  | none => simp [dayGauge, rollRiskWindow, Gauge.turn, hday]
  | some day =>
    by_cases hsame : day = now.date
    · simp [dayGauge, rollRiskWindow, Gauge.turn, hday, hsame]
    · simp [dayGauge, rollRiskWindow, Gauge.turn, hday, hsame]

theorem weekGauge_rollRiskWindow (s : Stack β) (now : Instant) :
    (s.rollRiskWindow now).weekGauge = s.weekGauge.turn now.isoWeek := by
  cases hweek : s.riskWeek with
  | none => simp [weekGauge, rollRiskWindow, Gauge.turn, hweek]
  | some week =>
    by_cases hsame : week = now.isoWeek
    · simp [weekGauge, rollRiskWindow, Gauge.turn, hweek, hsame]
    · simp [weekGauge, rollRiskWindow, Gauge.turn, hweek, hsame]

theorem dayGauge_count (s : Stack β) (i : Increment) :
    (s.count i).dayGauge = (s.dayGauge.turn i.time.date).add (i.trades, i.pnl) := by
  rw [← dayGauge_rollRiskWindow]
  rfl

theorem weekGauge_count (s : Stack β) (i : Increment) :
    (s.count i).weekGauge = (s.weekGauge.turn i.time.isoWeek).add i.pnl := by
  rw [← weekGauge_rollRiskWindow]
  rfl

/-- What a gauge of the stack tells after the increments. -/
theorem total_counted {M : Type*} [AddMonoid M] {gauge : Stack β → Gauge ℕ M} {mark : Instant → ℕ}
    {amount : Increment → M}
    (hroll : ∀ s now, gauge (rollRiskWindow s now) = (gauge s).turn (mark now))
    (hcount : ∀ s i, gauge (count s i) = ((gauge s).turn (mark i.time)).add (amount i))
    (hmark : Monotone mark) {s : Stack β} (hs : gauge s = { total := 0 }) {start now : Instant}
    (hstart : ∀ t ≤ now, (start ≤ t ↔ mark t = mark now)) {increments : List Increment}
    (hascending : increments.Pairwise fun i j => i.time ≤ j.time)
    (hpast : ∀ i ∈ increments, i.time ≤ now) :
    (gauge ((increments.foldl count s).rollRiskWindow now)).total =
      ((increments.filter fun i => start ≤ i.time).map amount).sum := by
  -- The stack resets on any other mark. In the order of time every other mark is a later one.
  rw [hroll, Gauge.foldl_items hcount, hs, Gauge.total_turn,
    Increment.sum_entries hstart amount hpast]
  · exact Increment.pairwise_entries hmark amount hascending
  · exact Increment.entries_le hmark amount hpast

end Stack

namespace RiskWindow

/-- The window is rolled to the time of every increment. -/
def count (w : RiskWindow) (i : Increment) : RiskWindow :=
  run apply w [.roll i.time.timestamp, .trades i.trades, .daily i.pnl, .weekly i.pnl]

theorem dayGauge_count (w : RiskWindow) (i : Increment) :
    (w.count i).dayGauge = (w.dayGauge.reach i.time.timestamp.date).add (i.trades, i.pnl) := by
  simp only [count, run_cons, run_nil, dayGauge_apply]
  simp [RiskOp.dayMove, RiskOp.gaugeMove, RiskOp.tradesAdded, RiskOp.dailyAdded, Gauge.apply,
    Gauge.add, add_assoc]

theorem weekGauge_count (w : RiskWindow) (i : Increment) :
    (w.count i).weekGauge = (w.weekGauge.reach i.time.timestamp.isoWeek).add i.pnl := by
  simp only [count, run_cons, run_nil, weekGauge_apply]
  simp [RiskOp.weekMove, RiskOp.gaugeMove, RiskOp.weeklyAdded, Gauge.apply, Gauge.add]

/-- What a gauge of the window tells after the increments. -/
theorem total_counted {M : Type*} [AddMonoid M] {gauge : RiskWindow → Gauge ℤ M}
    {mark : Timestamp → ℤ} {amount : Increment → M}
    (hroll : ∀ w now, gauge (roll w now) = (gauge w).reach (mark now))
    (hcount : ∀ w i, gauge (count w i) = ((gauge w).reach (mark i.time.timestamp)).add (amount i))
    (hmark : Monotone fun t : Instant => mark t.timestamp) {w : RiskWindow}
    (hw : gauge w = { total := 0 }) {start now : Instant}
    (hstart : ∀ t ≤ now, (start ≤ t ↔ mark t.timestamp = mark now.timestamp))
    {increments : List Increment}
    (hascending : increments.Pairwise fun i j => i.time ≤ j.time)
    (hpast : ∀ i ∈ increments, i.time ≤ now) :
    (gauge ((increments.foldl count w).roll now.timestamp)).total =
      ((increments.filter fun i => start ≤ i.time).map amount).sum := by
  rw [hroll, Gauge.foldl_items hcount, hw, Gauge.total_reach,
    Increment.sum_entries hstart amount hpast]
  · exact Increment.pairwise_entries hmark amount hascending
  · exact Increment.entries_le hmark amount hpast

end RiskWindow

/-- **The window of the journal is the window of the counters.** Until now, the starts are reached
on the same date and in the same ISO week. So what increments in the order of their times add from
the starts on is what a new stack, or a new window, counts of them until now. -/
theorem riskWindowStarts_counted {β : Type} (engine : ExecutionEngine β) (userId : AccountId)
    (limits : RiskLimits) {now : Instant} {increments : List Increment}
    (hascending : increments.Pairwise fun i j => i.time ≤ j.time)
    (hpast : ∀ i ∈ increments, i.time ≤ now) :
    let dayStart := now.riskWindowStarts.1
    let weekStart := now.riskWindowStarts.2
    let fresh : Stack β := { toExecutionEngine := engine, userId := userId, limits := limits }
    let s := (increments.foldl Stack.count fresh).rollRiskWindow now
    let w := (increments.foldl RiskWindow.count {}).roll now.timestamp
    (∀ t ≤ now, (dayStart ≤ t ↔ t.date = now.date) ∧
      (weekStart ≤ t ↔ t.isocalendar = now.isocalendar)) ∧
    (s.tradesToday = Increment.tradesSince increments dayStart ∧
      s.dailyPnl = Increment.pnlSince increments dayStart ∧
      s.weeklyPnl = Increment.pnlSince increments weekStart) ∧
    w.tradesToday = Increment.tradesSince increments dayStart ∧
      w.dailyPnl = Increment.pnlSince increments dayStart ∧
      w.weeklyPnl = Increment.pnlSince increments weekStart := by
  rw [Instant.riskWindowStarts_eq]
  intro dayStart weekStart fresh s w
  have hday : ∀ t ≤ now, (now.dayStart ≤ t ↔ t.date = now.date) := fun t => Instant.dayStart_le_iff
  have hweek : ∀ t ≤ now, (now.weekStart ≤ t ↔ t.isoWeek = now.isoWeek) :=
    fun t => Instant.weekStart_le_iff
  -- Each window is a gauge that resets on its period, once for the stack and once for paper.
  refine ⟨?_, ?_, ?_⟩
  · exact fun t ht => ⟨hday t ht, (hweek t ht).trans (Instant.isocalendar_eq_iff t now).symm⟩
  · have hdaily := Stack.total_counted Stack.dayGauge_rollRiskWindow Stack.dayGauge_count
      Instant.date_mono (s := fresh) rfl hday hascending hpast
    have hweekly := Stack.total_counted Stack.weekGauge_rollRiskWindow Stack.weekGauge_count
      Instant.isoWeek_mono (s := fresh) rfl hweek hascending hpast
    rw [sum_map_prodMk] at hdaily
    exact ⟨congrArg Prod.fst hdaily, congrArg Prod.snd hdaily, hweekly⟩
  · -- The paper window reads the date and the week off the same instant.
    have hdaily := RiskWindow.total_counted RiskWindow.dayGauge_roll RiskWindow.dayGauge_count
      Instant.date_timestamp_mono (w := {}) rfl
      (fun t ht => (hday t ht).trans (Instant.date_timestamp_eq_iff t now).symm) hascending hpast
    have hweekly := RiskWindow.total_counted RiskWindow.weekGauge_roll RiskWindow.weekGauge_count
      Instant.isoWeek_timestamp_mono (w := {}) rfl
      (fun t ht => (hweek t ht).trans (Instant.isoWeek_timestamp_eq_iff t now).symm) hascending
      hpast
    rw [sum_map_prodMk] at hdaily
    exact ⟨congrArg Prod.fst hdaily, congrArg Prod.snd hdaily, hweekly⟩

/-- Just after a Monday began, what Sunday lost is out of the day and of the week. -/
theorem monday_counted :
    let sunday : Instant := 737792 * Instant.microsPerDay
    let monday : Instant := 737793 * Instant.microsPerDay
    let s : Stack ScriptedVenue := { broker := ({} : ScriptedVenue), userId := "user" }
    let increments : List Increment :=
      [{ time := sunday, trades := 1, pnl := -5 }, { time := monday, trades := 1, pnl := 3 }]
    let s := (increments.foldl Stack.count s).rollRiskWindow (monday + 1)
    s.tradesToday = 1 ∧ s.dailyPnl = 3 ∧ s.weeklyPnl = 3 := by
  intro sunday monday s increments
  have hordered : increments.Pairwise fun i j => i.time ≤ j.time := by decide
  have hpast : ∀ i ∈ increments, i.time ≤ monday + 1 := by decide
  obtain ⟨-, ⟨htrades, hdaily, hweekly⟩, -⟩ :=
    riskWindowStarts_counted s.toExecutionEngine s.userId s.limits hordered hpast
  exact ⟨htrades.trans (by decide), hdaily.trans (by decide +kernel),
    hweekly.trans (by decide +kernel)⟩

end SuperTrading
