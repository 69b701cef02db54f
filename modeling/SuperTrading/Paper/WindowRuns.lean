import SuperTrading.Logic.HighWater
import SuperTrading.Logic.Runs
import SuperTrading.Market.Clock
import SuperTrading.Paper.Engine

/-!
# Runs of a Risk Window

Engines with clocks of their own share one `RiskWindow`: each rolls it to the timestamp of its
candle, in whatever order the candles come, and counts its trades and its profit in it. The
window counts what came since the latest day, and since the latest week, was first reached.

- **Layer A**: the window as two gauges
- **Layer B**: all interleavings
-/

namespace SuperTrading

open Logic

/-! ## Layer A: The window as two gauges -/

/-- What an engine does to the window. -/
inductive RiskOp
  | roll (now : Timestamp)
  | trades (n : ℕ)
  | daily (pnl : ℚ)
  | weekly (pnl : ℚ)
  deriving DecidableEq, Repr

namespace RiskOp

/-- `trades_today += n`. -/
def tradesAdded : RiskOp → ℕ
  | trades n => n
  | _ => 0

/-- `daily_pnl += pnl`. -/
def dailyAdded : RiskOp → ℚ
  | daily pnl => pnl
  | _ => 0

/-- `weekly_pnl += pnl`. -/
def weeklyAdded : RiskOp → ℚ
  | weekly pnl => pnl
  | _ => 0

/-- The timestamps rolled to. -/
def rolled (ops : List RiskOp) : List Timestamp :=
  ops.filterMap fun
    | roll now => some now
    | _ => none

/-- What a counter sees of it that is kept from one mark to the next. -/
def gaugeMove {κ M : Type*} (mark : Timestamp → κ) (amount : RiskOp → M) : RiskOp → GaugeMove κ M
  | roll now => .reach (mark now)
  | op => .add (amount op)

/-- What the day's counters see of it. -/
def dayMove : RiskOp → GaugeMove ℤ (ℕ × ℚ) :=
  gaugeMove Timestamp.date fun op => (op.tradesAdded, op.dailyAdded)

/-- What the week's counter sees of it. -/
def weekMove : RiskOp → GaugeMove ℤ ℚ := gaugeMove Timestamp.isoWeek weeklyAdded

end RiskOp

namespace RiskWindow

def apply (w : RiskWindow) : RiskOp → RiskWindow
  | .roll now => w.roll now
  | .trades n => { w with tradesToday := w.tradesToday + n }
  | .daily pnl => { w with dailyPnl := w.dailyPnl + pnl }
  | .weekly pnl => { w with weeklyPnl := w.weeklyPnl + pnl }

def dayGauge (w : RiskWindow) : Gauge ℤ (ℕ × ℚ) :=
  { mark := w.riskDay, total := (w.tradesToday, w.dailyPnl) }

def weekGauge (w : RiskWindow) : Gauge ℤ ℚ := { mark := w.riskWeek, total := w.weeklyPnl }

theorem dayGauge_roll (w : RiskWindow) (now : Timestamp) :
    (w.roll now).dayGauge = w.dayGauge.reach now.date := by
  simp only [dayGauge, roll, Gauge.reach, add_zero]
  split <;> simp_all

theorem weekGauge_roll (w : RiskWindow) (now : Timestamp) :
    (w.roll now).weekGauge = w.weekGauge.reach now.isoWeek := by
  simp only [weekGauge, roll, Gauge.reach, add_zero]
  rfl

theorem dayGauge_apply (w : RiskWindow) (op : RiskOp) :
    (w.apply op).dayGauge = w.dayGauge.apply op.dayMove := by
  cases op with
  | roll now => exact w.dayGauge_roll now
  | _ =>
    simp [dayGauge, apply, RiskOp.dayMove, RiskOp.gaugeMove, RiskOp.tradesAdded, RiskOp.dailyAdded,
      Gauge.apply, Gauge.add]

theorem weekGauge_apply (w : RiskWindow) (op : RiskOp) :
    (w.apply op).weekGauge = w.weekGauge.apply op.weekMove := by
  cases op with
  | roll now => exact w.weekGauge_roll now
  | _ =>
    simp [weekGauge, apply, RiskOp.weekMove, RiskOp.gaugeMove, RiskOp.weeklyAdded, Gauge.apply,
      Gauge.add]

end RiskWindow

/-! ## Layer B: All interleavings -/

namespace RiskOp

variable {κ M : Type*} {mark : Timestamp → κ} {amount : RiskOp → M}

theorem reached_map_gaugeMove (ops : List RiskOp) :
    GaugeMove.reached (ops.map (gaugeMove mark amount)) = (rolled ops).map mark := by
  induction ops with
  | nil => rfl
  | cons op ops ih =>
    cases op <;> simpa [GaugeMove.reached, rolled, gaugeMove] using ih

theorem added_gaugeMove [Zero M] (hroll : ∀ now, amount (.roll now) = 0) (op : RiskOp) :
    (op.gaugeMove mark amount).added = amount op := by
  cases op with
  | roll now => exact (hroll now).symm
  | _ => rfl

/-- A move that reaches a mark is a roll to it. -/
theorem exists_roll_of_reach {ops : List RiskOp} {before after : List (GaugeMove κ M)} {k : κ}
    (h : ops.map (gaugeMove mark amount) = before ++ .reach k :: after) :
    ∃ before' now after', ops = before' ++ .roll now :: after' ∧ mark now = k ∧
      before'.map (gaugeMove mark amount) = before ∧
      after'.map (gaugeMove mark amount) = after := by
  obtain ⟨before', rest, rfl, hbefore, hrest⟩ := List.map_eq_append_iff.mp h
  obtain ⟨op, after', rfl, hop, hafter⟩ := List.map_eq_cons_iff.mp hrest
  cases op with
  | roll now =>
    injection hop with hmark
    exact ⟨before', now, after', rfl, hmark, hbefore, hafter⟩
  | _ => cases hop

end RiskOp

namespace RiskWindow

/-- `risk_week`: the ISO year and week that the number in the window stands for. -/
def riskIsoWeek (w : RiskWindow) : Option (ℤ × ℤ) :=
  w.riskWeek.map fun week => Logic.isocalendar (week * 7 - 3 + 719163)

theorem riskIsoWeek_eq {w : RiskWindow} {now : Timestamp} (h : w.riskWeek = some now.isoWeek) :
    w.riskIsoWeek = some now.isocalendar := by
  rw [riskIsoWeek, h, Option.map_some, Option.some_inj, Timestamp.isocalendar,
    Logic.isocalendar_eq_iff, Timestamp.weekNumber_ordinal]
  simp only [weekNumber]
  omega

/-- A part of the window that a gauge tells of, after any run that starts with a roll. -/
theorem exists_first_roll {M : Type*} [AddMonoid M] {mark : Timestamp → ℤ} {amount : RiskOp → M}
    {gauge : RiskWindow → Gauge ℤ M}
    (happly : ∀ w op, gauge (apply w op) = (gauge w).apply (op.gaugeMove mark amount))
    (hfresh : gauge {} = { total := 0 }) (hroll : ∀ now, amount (.roll now) = 0)
    (first : Timestamp) (ops : List RiskOp) :
    ∃ before now after, .roll first :: ops = before ++ .roll now :: after ∧
      (gauge (Logic.run apply {} (.roll first :: ops))).mark = some (mark now) ∧
      (∀ t ∈ RiskOp.rolled (.roll first :: ops), mark t ≤ mark now) ∧
      (∀ t ∈ RiskOp.rolled before, mark t < mark now) ∧
      (gauge (Logic.run apply {} (.roll first :: ops))).total = (after.map amount).sum := by
  have hrun : ∀ (ops : List RiskOp) (w : RiskWindow), gauge (Logic.run apply w ops) =
      (ops.map (RiskOp.gaugeMove mark amount)).foldl Gauge.apply (gauge w) := by
    intro ops
    induction ops with
    | nil => exact fun w => rfl
    | cons op ops ih =>
      intro w
      rw [Logic.run_cons, ih, happly]
      rfl
  -- The gauge knows the move that first reached its mark, and that move is a roll.
  obtain ⟨before, k, after, hsince⟩ := Gauge.exists_since (mark first)
    (ops.map (RiskOp.gaugeMove mark amount)) (M := M)
  have hmoves : (GaugeMove.reach (mark first) :: ops.map (RiskOp.gaugeMove mark amount)) =
      (RiskOp.roll first :: ops).map (RiskOp.gaugeMove mark amount) := rfl
  rw [hmoves, ← hfresh, ← hrun] at hsince
  obtain ⟨before', now, after', hsplit, rfl, rfl, rfl⟩ := RiskOp.exists_roll_of_reach hsince.split
  refine ⟨before', now, after', hsplit, hsince.mark, ?_, ?_, ?_⟩
  · have hlatest := hsince.latest
    rw [RiskOp.reached_map_gaugeMove] at hlatest
    exact fun t ht => hlatest _ (List.mem_map_of_mem ht)
  · have hfirst := hsince.first
    rw [RiskOp.reached_map_gaugeMove] at hfirst
    exact fun t ht => hfirst _ (List.mem_map_of_mem ht)
  · rw [hsince.total, List.map_map]
    congr 1
    exact List.map_congr_left fun op _ => RiskOp.added_gaugeMove hroll op

/-- **A shared window under any clocks**: after every run that starts with a roll of a fresh
window, the day and the ISO week are the latest that were rolled to, and the counters are what
came since the first roll that reached them. -/
theorem run_counts (first : Timestamp) (ops : List RiskOp) :
    let all := .roll first :: ops
    let w := Logic.run apply {} all
    (∃ before now after, all = before ++ .roll now :: after ∧ w.riskDay = some now.date ∧
      (∀ t ∈ RiskOp.rolled all, t.date ≤ now.date) ∧
      (∀ t ∈ RiskOp.rolled before, t.date < now.date) ∧
      w.tradesToday = (after.map RiskOp.tradesAdded).sum ∧
      w.dailyPnl = (after.map RiskOp.dailyAdded).sum) ∧
    ∃ before now after, all = before ++ .roll now :: after ∧ w.riskIsoWeek = some now.isocalendar ∧
      (∀ t ∈ RiskOp.rolled all, toLex t.isocalendar ≤ toLex now.isocalendar) ∧
      (∀ t ∈ RiskOp.rolled before, toLex t.isocalendar < toLex now.isocalendar) ∧
      w.weeklyPnl = (after.map RiskOp.weeklyAdded).sum := by
  intro all w
  -- Each window is a gauge on its own period.
  constructor
  · obtain ⟨before, now, after, hsplit, hday, hlatest, hfirst, htotal⟩ :=
      exists_first_roll dayGauge_apply rfl (fun _ => rfl) first ops
    rw [sum_map_prodMk] at htotal
    exact ⟨before, now, after, hsplit, hday, hlatest, hfirst, congrArg Prod.fst htotal,
      congrArg Prod.snd htotal⟩
  · obtain ⟨before, now, after, hsplit, hweek, hlatest, hfirst, htotal⟩ :=
      exists_first_roll weekGauge_apply rfl (fun _ => rfl) first ops
    refine ⟨before, now, after, hsplit, riskIsoWeek_eq hweek, ?_, ?_, htotal⟩
    · exact fun t ht => (Timestamp.isocalendar_le_iff t now).mpr (hlatest t ht)
    · exact fun t ht => (Timestamp.isocalendar_lt_iff t now).mpr (hfirst t ht)

end RiskWindow

end SuperTrading
