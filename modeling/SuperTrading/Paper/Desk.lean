import SuperTrading.Paper.OneCandle

/-!
# Engines at One Desk

One or several `PaperTradingEngine`s over one broker and one position book, called in any
order. The book is keyed by account and symbol, so an engine may find, and close, a position
that another one opened. What the code relies on is a bracket: an entry puts the stop on the
losing side of its price and the target on the winning side, and no call moves any of them.

- **Layer A**: the desk, and what one call does to it
- **Layer B**: brackets
- **Layer C**: what an entry risks
- **Layer D**: what an exit reports
-/

namespace SuperTrading

open SuperTrading.Logic
open Smc (Candle)

/-! ## Layer A: The desk -/

/-- The engines, by name, and what they share. An engine counts in a risk window of its own
or in that of another. -/
structure PaperDesk (ι : Type) where
  engines : ι → PaperTradingEngine
  broker : MockBroker
  positionManager : PositionManager := {}
  windows : ι → RiskWindow := fun _ => {}
  windowOf : ι → ι := id

/-- A candle for one of the engines. -/
structure DeskCall (ι : Type) where
  engine : ι
  env : PaperEnv := {}
  candle : Candle

namespace PaperDesk

variable {ι : Type} [DecidableEq ι]

/-- The account as an engine sees it. -/
def account (d : PaperDesk ι) (i : ι) : PaperAccount :=
  { broker := d.broker
    positionManager := d.positionManager
    riskWindow := d.windows (d.windowOf i) }

/-- The position of an engine, whoever opened it. -/
def position (d : PaperDesk ι) (i : ι) : Option PositionRecord :=
  (d.engines i).position (d.account i)

def store (d : PaperDesk ι) (i : ι) (e : PaperTradingEngine) (a : PaperAccount) : PaperDesk ι :=
  { d with
    engines := Function.update d.engines i e
    broker := a.broker
    positionManager := a.positionManager
    windows := Function.update d.windows (d.windowOf i) a.riskWindow }

@[simp] theorem engines_store (d : PaperDesk ι) (i : ι) (e : PaperTradingEngine)
    (a : PaperAccount) : (d.store i e a).engines i = e :=
  Function.update_self ..

@[simp] theorem account_store (d : PaperDesk ι) (i : ι) (e : PaperTradingEngine)
    (a : PaperAccount) : (d.store i e a).account i = a := by
  simp [account, store]

variable (analyze : ι → Analysis)

/-- A call of `on_candle`: what it returns, if it does, and the desk behind it. -/
def onCandle (d : PaperDesk ι) (call : DeskCall ι) : Option PaperTradeOutcome × PaperDesk ι :=
  let e := d.engines call.engine
  let a := d.account call.engine
  match e.onCandle (analyze call.engine) a call.env call.candle with
  | .ok (outcome, e, a) => (some outcome, d.store call.engine e a)
  | .error _ =>
    let left := e.abandoned (analyze call.engine) a call.env call.candle
    (none, d.store call.engine left.1 left.2)

def step (d : PaperDesk ι) (call : DeskCall ι) : PaperDesk ι := (d.onCandle analyze call).2

/-- How a call can end, and the position of its engine behind it. -/
inductive Ends (d : PaperDesk ι) (call : DeskCall ι) :
    Option PaperTradeOutcome → Option PositionRecord → Prop
  | raised (after : Option PositionRecord) :
      (d.position call.engine).any PositionRecord.isOpen = false →
      after.any PositionRecord.isOpen = false → Ends d call none after
  | kept (p : PositionRecord) (outcome : PaperTradeOutcome) :
      d.position call.engine = some p → p.isOpen = true →
      PaperTradingEngine.trigger p call.candle = none → outcome.exitReason = none →
      Ends d call (some outcome) (some (p.marked call.candle.close))
  | closed (p : PositionRecord) (level : ℚ) (reason : ExitReason) (outcome : PaperTradeOutcome) :
      d.position call.engine = some p → p.isOpen = true →
      PaperTradingEngine.trigger p call.candle = some (level, reason) →
      (d.engines call.engine).ExitGoesOut p call.candle → outcome.exitReason = some reason →
      outcome.closedPositionPnl =
        some (((p.marked call.candle.close).closed level).realizedPnl - p.realizedPnl) →
      Ends d call (some outcome) (some ((p.marked call.candle.close).closed level))
  | refused (p : PositionRecord) (level : ℚ) (reason : ExitReason) (outcome : PaperTradeOutcome) :
      d.position call.engine = some p → p.isOpen = true →
      PaperTradingEngine.trigger p call.candle = some (level, reason) →
      ¬ (d.engines call.engine).ExitGoesOut p call.candle → outcome.exitReason = some reason →
      outcome.closedPositionPnl = some 0 →
      Ends d call (some outcome) (some (p.marked call.candle.close))
  | entered (signal : Signal) (outcome : PaperTradeOutcome) :
      (d.position call.engine).any PositionRecord.isOpen = false →
      (d.engines call.engine).Takes (analyze call.engine) (d.account call.engine) call.env
        call.candle signal →
      outcome.exitReason = none →
      Ends d call (some outcome)
        (some ((d.engines call.engine).entered (d.account call.engine) signal))
  | passed (outcome : PaperTradeOutcome) (after : Option PositionRecord) :
      (d.position call.engine).any PositionRecord.isOpen = false → outcome.exitReason = none →
      after.any PositionRecord.isOpen = false → Ends d call (some outcome) after

/-- What a call leaves as it was. -/
structure Around (d : PaperDesk ι) (call : DeskCall ι) (d' : PaperDesk ι) : Prop where
  plain : d'.broker.Plain
  engines : ∀ i, ∃ candles orders, d'.engines i = { d.engines i with
    candles := candles
    orderManager := orders }
  others : ∀ accountId symbol,
    ((d.engines call.engine).accountId, (d.engines call.engine).symbol) ≠ (accountId, symbol) →
      d'.positionManager.get accountId symbol = d.positionManager.get accountId symbol

variable {analyze : ι → Analysis} {d : PaperDesk ι}

/-- The desk behind a call that leaves the engine and the account so. -/
theorem around_store (call : DeskCall ι) {e : PaperTradingEngine} {a : PaperAccount}
    (hengine : ∃ candles orders, e = { d.engines call.engine with
      candles := candles
      orderManager := orders })
    (h : PaperTradingEngine.Elsewhere (d.engines call.engine) (d.account call.engine) a) :
    Around d call (d.store call.engine e a) ∧
      (d.store call.engine e a).position call.engine = (d.engines call.engine).position a := by
  obtain ⟨candles, orders, rfl⟩ := hengine
  refine ⟨⟨h.plain, fun i => ?_, h.others⟩, ?_⟩
  · by_cases hi : i = call.engine
    · subst hi
      exact ⟨candles, orders, Function.update_self ..⟩
    · exact ⟨(d.engines i).candles, (d.engines i).orderManager, Function.update_of_ne hi ..⟩
  · rw [position, engines_store, account_store]
    rfl

/-- **What one call does**, told once. -/
theorem onCandle_ends (h : d.broker.Plain) (call : DeskCall ι) :
    Around d call (d.step analyze call) ∧
      Ends analyze d call (d.onCandle analyze call).1
        ((d.step analyze call).position call.engine) := by
  set e := d.engines call.engine with he
  set a := d.account call.engine with ha
  have hplain : a.broker.Plain := h
  -- A call that returns: the desk stores what it returned.
  have hreturns : ∀ {outcome e' a'},
      e.onCandle (analyze call.engine) a call.env call.candle = .ok (outcome, e', a') →
      PaperTradingEngine.Elsewhere e a a' →
      Around d call (d.step analyze call) ∧ (d.onCandle analyze call).1 = some outcome ∧
        (d.step analyze call).position call.engine = e.position a' := by
    intro outcome e' a' hcall helse
    have hstep : d.onCandle analyze call = (some outcome, d.store call.engine e' a') := by
      unfold onCandle
      dsimp only
      rw [← he, ← ha, hcall]
    obtain ⟨orders, hengine⟩ := PaperTradingEngine.onCandle_engine hcall
    obtain ⟨haround, hposition⟩ := around_store call ⟨_, orders, hengine⟩ helse
    rw [step, hstep]
    exact ⟨haround, rfl, hposition⟩
  cases hheld : (e.position a).any PositionRecord.isOpen with
  -- An open position is closed at a level, or kept.
  | true =>
    obtain ⟨p, hp, hopen⟩ := (Option.any_eq_true ..).mp hheld
    cases hhit : PaperTradingEngine.trigger p call.candle with
    | none =>
      obtain ⟨a', hcall, helse, hafter⟩ :=
        PaperTradingEngine.onCandle_hold (analyze call.engine) call.env hplain hp hopen hhit
      obtain ⟨haround, hreturned, hposition⟩ := hreturns hcall helse
      rw [hreturned, hposition, hafter]
      exact ⟨haround, .kept p _ hp hopen hhit rfl⟩
    | some hit =>
      obtain ⟨level, reason⟩ := hit
      obtain ⟨outcome, e', a', hcall, helse, -, -, hreason, hends⟩ :=
        PaperTradingEngine.onCandle_hit (analyze call.engine) call.env hplain hp hopen hhit
      obtain ⟨haround, hreturned, hposition⟩ := hreturns hcall helse
      rw [hreturned, hposition]
      refine ⟨haround, ?_⟩
      -- The exit goes out, or its key is known and the order with it.
      by_cases hgoes : e.ExitGoesOut p call.candle
      · rw [if_pos hgoes] at hends
        rw [hends.1]
        exact .closed p level reason outcome hp hopen hhit hgoes hreason hends.2.1
      · rw [if_neg hgoes] at hends
        rw [hends.1]
        exact .refused p level reason outcome hp hopen hhit hgoes hreason hends.2
  | false =>
    -- A flat one raises, enters, or passes.
    rcases PaperTradingEngine.onCandle_flat (analyze call.engine) call.env call.candle hplain
      hheld with ⟨-, message, hcall⟩ | ⟨outcome, e', a', hcall, hflat⟩
    · have hstep : d.onCandle analyze call = (none, d.store call.engine
          (e.abandoned (analyze call.engine) a call.env call.candle).1
          (e.abandoned (analyze call.engine) a call.env call.candle).2) := by
        unfold onCandle
        dsimp only
        rw [← he, ← ha, hcall]
      obtain ⟨helse, hstays⟩ := PaperTradingEngine.abandoned_elsewhere (analyze call.engine)
        call.env call.candle hplain hheld
      have horders := e.abandoned_engine (analyze call.engine) a call.env call.candle
      obtain ⟨haround, hposition⟩ := around_store call ⟨_, horders⟩ helse
      rw [step, hstep, hposition]
      exact ⟨haround, .raised _ hheld hstays⟩
    · obtain ⟨haround, hreturned, hposition⟩ := hreturns hcall hflat.elsewhere
      rw [hreturned, hposition]
      refine ⟨haround, ?_⟩
      cases hfilled : outcome.entryFilled with
      | true =>
        obtain ⟨signal, htakes, hafter⟩ := hflat.entered hfilled
        rw [hafter]
        exact .entered signal outcome hheld htakes hflat.noExit
      | false => exact .passed outcome _ hheld hflat.noExit (hflat.stayed hfilled).2

end PaperDesk

/-! ## Layer B: Brackets -/

/-- What the label of an exit says of its P&L. -/
def ExitReason.Says : ExitReason → ℚ → Prop
  | .stopLoss, pnl => pnl < 0
  | .takeProfit, pnl => 0 < pnl

instance (reason : ExitReason) (pnl : ℚ) : Decidable (reason.Says pnl) :=
  match reason with
  | .stopLoss => inferInstanceAs (Decidable (pnl < 0))
  | .takeProfit => inferInstanceAs (Decidable (0 < pnl))

namespace PositionRecord

variable {p : PositionRecord}

/-- The stop is on the losing side of the average price, and the target on the winning
side. -/
def Guarded (p : PositionRecord) : Prop :=
  0 < p.averagePrice ∧ ∃ stop ∈ p.stop, ∃ target ∈ p.target,
    0 < p.quantity ∧ stop < p.averagePrice ∧ p.averagePrice < target ∨
      p.quantity < 0 ∧ p.averagePrice < stop ∧ target < p.averagePrice

/-- What an exit at a price realizes. -/
theorem closed_realizedPnl (hopen : p.isOpen = true) (price : ℚ) :
    (p.closed price).realizedPnl = p.realizedPnl + (price - p.averagePrice) * p.quantity := by
  have hne : p.quantity ≠ 0 := of_decide_eq_true hopen
  rcases lt_or_gt_of_ne hne with hneg | hpos
  · have hside : ¬ 0 < p.quantity := not_lt.mpr hneg.le
    simp [closed, PositionManager.fillRecord, isLong, hside, hne, abs_of_neg hneg, hneg]
    ring
  · have hside : ¬ p.quantity < 0 := not_lt.mpr hpos.le
    simp [closed, PositionManager.fillRecord, isLong, hne, abs_of_pos hpos, hpos, hside]
    ring

/-- The level a candle hits is one of the bracket, and the candle traded through it. -/
theorem trigger_cases {candle : Candle} {level : ℚ} {reason : ExitReason}
    (hhit : PaperTradingEngine.trigger p candle = some (level, reason)) :
    (reason = .stopLoss ∧ p.stop = some level ∧
        if p.isLong then candle.low ≤ level else level ≤ candle.high) ∨
      (reason = .takeProfit ∧ p.target = some level ∧
        if p.isLong then level ≤ candle.high else candle.low ≤ level) := by
  unfold PaperTradingEngine.trigger at hhit
  dsimp only at hhit
  split at hhit
  · rename_i stop _ hstop
    obtain ⟨rfl, rfl⟩ := Prod.mk.inj (Option.some.inj hhit)
    obtain ⟨hsome, htraded⟩ := Option.filter_eq_some_iff.mp hstop
    exact Or.inl ⟨rfl, hsome, by split_ifs at htraded ⊢ <;> simpa using htraded⟩
  · rename_i target _ htarget
    obtain ⟨rfl, rfl⟩ := Prod.mk.inj (Option.some.inj hhit)
    obtain ⟨hsome, htraded⟩ := Option.filter_eq_some_iff.mp htarget
    exact Or.inr ⟨rfl, hsome, by split_ifs at htraded ⊢ <;> simpa using htraded⟩
  · cases hhit

/-- **The level a candle hits.** On a candle of positive prices it is a price, the stop a
losing one and the target a winning one. -/
theorem Guarded.level (h : p.Guarded) {candle : Candle} (hlow : 0 < candle.low) {level : ℚ}
    {reason : ExitReason} (hhit : PaperTradingEngine.trigger p candle = some (level, reason)) :
    0 < level ∧ reason.Says ((level - p.averagePrice) * p.quantity) := by
  obtain ⟨haverage, stop, hstop, target, htarget, hside⟩ := h
  rcases trigger_cases hhit with ⟨rfl, hlevel, htraded⟩ | ⟨rfl, hlevel, htraded⟩
  · obtain rfl := Option.some.inj (hstop.symm.trans hlevel)
    rcases hside with ⟨hlong, hlosing, -⟩ | ⟨hshort, hlosing, -⟩
    · have hisLong : p.isLong = true := decide_eq_true hlong
      rw [if_pos hisLong] at htraded
      exact ⟨by linarith, mul_neg_of_neg_of_pos (by linarith) hlong⟩
    · exact ⟨by linarith, mul_neg_of_pos_of_neg (by linarith) hshort⟩
  · obtain rfl := Option.some.inj (htarget.symm.trans hlevel)
    rcases hside with ⟨hlong, -, hwinning⟩ | ⟨hshort, -, hwinning⟩
    · exact ⟨by linarith, mul_pos (by linarith) hlong⟩
    · have hisLong : ¬ p.isLong = true := by simp [isLong, hshort.le]
      rw [if_neg hisLong] at htraded
      exact ⟨by linarith, mul_pos_of_neg_of_neg (by linarith) hshort⟩

end PositionRecord

/-- The side a signal trades on gives the quantity its sign. -/
theorem PaperTradingEngine.entered_guarded {e : PaperTradingEngine} {a : PaperAccount}
    {signal : Signal} {key : String} (h : e.Executes key signal.entry (e.entryQuantity a signal)) :
    (e.entered a signal).Guarded := by
  obtain ⟨-, hentry, hqty⟩ := h
  refine ⟨hentry, signal.stop, rfl, signal.target, rfl, ?_⟩
  rcases signal.side_bracketed with ⟨hside, hbracket⟩ | ⟨hside, hbracket⟩
  · refine Or.inl ⟨?_, hbracket⟩
    simpa [entered, hside] using hqty
  · refine Or.inr ⟨?_, hbracket⟩
    simpa [entered, hside] using hqty

namespace PaperDesk

variable {ι : Type} [DecidableEq ι] {analyze : ι → Analysis} {d : PaperDesk ι}

/-- A broker without mishaps, and every open position has its bracket. -/
structure Guarded (d : PaperDesk ι) : Prop where
  plain : d.broker.Plain
  guarded : ∀ accountId symbol p, d.positionManager.get accountId symbol = some p →
    p.isOpen = true → p.Guarded

/-- **One call keeps every bracket.** -/
theorem Guarded.step (h : d.Guarded) (call : DeskCall ι) : (d.step analyze call).Guarded := by
  obtain ⟨haround, hends⟩ := @onCandle_ends ι _ analyze d h.plain call
  refine ⟨haround.plain, fun accountId symbol q hq hopen => ?_⟩
  by_cases hkey : ((d.engines call.engine).accountId, (d.engines call.engine).symbol) =
      (accountId, symbol)
  · obtain ⟨rfl, rfl⟩ := Prod.mk.inj hkey
    -- The position of the engine that was called, by how the call ended.
    have hposition : (d.step analyze call).position call.engine = some q := by
      obtain ⟨candles, orders, hengine⟩ := haround.engines call.engine
      rw [position, PaperTradingEngine.position, hengine]
      exact hq
    generalize (d.onCandle analyze call).1 = outcome at hends
    rw [hposition] at hends
    cases hends with
    | raised _ _ hflat =>
      rw [Option.any_some, hopen] at hflat
      cases hflat
    | kept p _ hp hheld => exact h.guarded _ _ p hp hheld
    | closed p => simp at hopen
    | refused p _ _ _ hp hheld => exact h.guarded _ _ p hp hheld
    | entered signal _ _ htakes =>
      exact PaperTradingEngine.entered_guarded (htakes.executes h.plain)
    | passed _ _ _ _ hflat =>
      rw [Option.any_some, hopen] at hflat
      cases hflat
  · exact h.guarded accountId symbol q ((haround.others accountId symbol hkey).symm.trans hq) hopen

end PaperDesk

/-! ## Layer C: What an entry risks -/

namespace PaperDesk

variable {ι : Type} [DecidableEq ι] {analyze : ι → Analysis} {d : PaperDesk ι}

theorem plain_run (h : d.broker.Plain) (calls : List (DeskCall ι)) :
    (run (step analyze) d calls).broker.Plain :=
  invariant_run (I := fun d : PaperDesk ι => d.broker.Plain)
    (fun _ call hd => (onCandle_ends hd call).1.plain) calls h

/-- **What an entry risks.** In any run of the desk, a call that finds its engine's position
flat and leaves it open has risked no more than the smaller share of the cash, inside its
bracket and inside the candle. -/
theorem entry_risk_capped (h : d.broker.Plain) (calls : List (DeskCall ι)) (call : DeskCall ι)
    {p : PositionRecord}
    (hflat : ((run (step analyze) d calls).position call.engine).any PositionRecord.isOpen = false)
    (hp : (step analyze (run (step analyze) d calls) call).position call.engine = some p)
    (hopen : p.isOpen = true) :
    let before := run (step analyze) d calls
    let e := before.engines call.engine
    ∃ stop ∈ p.stop, ∃ target ∈ p.target,
      |p.averagePrice - stop| * |p.quantity| ≤
          min e.strategy.risk.riskPercent e.limits.riskPerTradePct / 100 *
            before.broker.getAccount.balance ∧
        (0 < p.quantity ∧ stop < p.averagePrice ∧ p.averagePrice < target ∨
          p.quantity < 0 ∧ p.averagePrice < stop ∧ target < p.averagePrice) ∧
        call.candle.low ≤ p.averagePrice ∧ p.averagePrice ≤ call.candle.high := by
  intro before e
  have hplain : before.broker.Plain := plain_run h calls
  obtain ⟨-, hends⟩ := @onCandle_ends ι _ analyze before hplain call
  generalize (before.onCandle analyze call).1 = outcome at hends
  rw [hp] at hends
  -- Only an entry takes a position from flat to open.
  cases hends with
  -- Flat afterwards.
  | raised _ _ hnone =>
    rw [Option.any_some, hopen] at hnone
    cases hnone
  -- Open before.
  | kept p _ hbefore hheld =>
    rw [hbefore, Option.any_some, hheld] at hflat
    cases hflat
  | closed p _ _ _ hbefore hheld =>
    rw [hbefore, Option.any_some, hheld] at hflat
    cases hflat
  | refused p _ _ _ hbefore hheld =>
    rw [hbefore, Option.any_some, hheld] at hflat
    cases hflat
  | passed _ _ _ _ hnone =>
    rw [Option.any_some, hopen] at hnone
    cases hnone
  -- The entry: the sizing risks the share, and the signal brackets the price.
  | entered signal _ _ htakes =>
    have hexecutes := htakes.executes hplain
    obtain ⟨-, stop, hstop, target, htarget, hside⟩ :=
      PaperTradingEngine.entered_guarded hexecutes
    obtain rfl : signal.stop = stop := Option.some.inj hstop
    refine ⟨_, hstop, target, htarget, ?_, hside, fillableSignal_range htakes.1⟩
    have hsize : |signal.side.signed (e.entryQuantity (before.account call.engine) signal)| =
        e.entryQuantity (before.account call.engine) signal := by
      rw [Direction.abs_signed, abs_of_pos hexecutes.2.2]
    show |signal.entry - signal.stop| * |signal.side.signed _| ≤ _
    rw [hsize]
    exact RiskEngine.calculatePositionSize_risk hexecutes.2.2

/-- Engines that start on a fresh account. -/
def new (engines : ι → PaperTradingEngine) (startingBalance : ℚ) : PaperDesk ι :=
  { engines := engines, broker := MockBroker.new startingBalance }

/-- One engine, alone at its desk. -/
def buyer : PaperDesk Unit :=
  new (fun _ => { strategy := PaperSession.buyTheThird, symbol := "NIFTY" }) 100000

/-- A call of the one engine: a candle that closes at 100 and falls to a low. -/
def candleTo (timestamp : Timestamp) (low : ℚ) : DeskCall Unit :=
  { engine := ()
    candle := { timestamp := timestamp, «open» := 100, high := 101, low := low, close := 100 } }

/-- The third candle is bought at 100, in a size that loses 500 of 100000 at 98. -/
theorem entry_risk_capped_buyer :
    let before := run (step fun _ => PaperSession.thirdCandle) buyer [candleTo 0 99, candleTo 1 99]
    let after := step (fun _ => PaperSession.thirdCandle) before (candleTo 2 99)
    ∃ p, after.position () = some p ∧ p.quantity = 250 ∧ ∃ stop ∈ p.stop, ∃ target ∈ p.target,
      |p.averagePrice - stop| * |p.quantity| ≤
          min (1 / 2) (1 / 2) / 100 * before.broker.getAccount.balance ∧
        (0 < p.quantity ∧ stop < p.averagePrice ∧ p.averagePrice < target ∨
          p.quantity < 0 ∧ p.averagePrice < stop ∧ target < p.averagePrice) ∧
        99 ≤ p.averagePrice ∧ p.averagePrice ≤ 101 := by
  intro before after
  have hp : after.position () = some
      { accountId := "paper-account"
        symbol := "NIFTY"
        quantity := 250
        averagePrice := 100
        stop := some 98
        target := some 104 } := by decide +kernel
  exact ⟨_, hp, rfl, @entry_risk_capped Unit _ (fun _ => PaperSession.thirdCandle) buyer
    (MockBroker.plain_new 100000 0) [candleTo 0 99, candleTo 1 99] (candleTo 2 99) _
    (by decide +kernel) hp (by decide +kernel)⟩

/-! ## Layer D: What an exit reports -/

variable (analyze)

/-- The label of an exit tells the truth: the position is flat, and the P&L has its sign. -/
def Truthful (d : PaperDesk ι) (call : DeskCall ι) : Prop :=
  ∀ outcome ∈ (d.onCandle analyze call).1, ∀ reason ∈ outcome.exitReason,
    ((d.step analyze call).position call.engine).any PositionRecord.isOpen = false ∧
      ∃ pnl ∈ outcome.closedPositionPnl, reason.Says pnl

/-- Where the candle hits a level of the open position, the engine that sees it has no order
under the candle's close key. -/
def NewCloseKey (d : PaperDesk ι) (call : DeskCall ι) : Prop :=
  ∀ p ∈ d.position call.engine, p.isOpen = true →
    (PaperTradingEngine.trigger p call.candle).isSome = true →
      (d.engines call.engine).orderManager.lookup ((d.engines call.engine).closeKey call.candle) =
        none

instance (d : PaperDesk ι) (call : DeskCall ι) : Decidable (d.Truthful analyze call) :=
  inferInstanceAs (Decidable (∀ outcome ∈ _, ∀ reason ∈ _, _ ∧ ∃ pnl ∈ _, _))

instance (d : PaperDesk ι) (call : DeskCall ι) : Decidable (d.NewCloseKey call) :=
  inferInstanceAs (Decidable (∀ p ∈ _, _ → _ → _))

variable {analyze}

/-- **One exit.** A guarded position that a candle hits is closed at the level, with the sign
of the label, exactly when the close key is new. -/
theorem Guarded.truthful_iff (h : d.Guarded) {call : DeskCall ι} (hpriced : call.candle.Priced) :
    d.Truthful analyze call ↔ d.NewCloseKey call := by
  obtain ⟨-, hends⟩ := @onCandle_ends ι _ analyze d h.plain call
  have hlow : 0 < call.candle.low := hpriced.2.2.1
  unfold Truthful NewCloseKey
  -- A call that finds the position flat reports no exit.
  have hquiet : (d.position call.engine).any PositionRecord.isOpen = false →
      ∀ p ∈ d.position call.engine, ¬ p.isOpen = true := by
    intro hflat p hp hopen
    rw [Option.mem_def.mp hp, Option.any_some, hopen] at hflat
    cases hflat
  generalize (d.onCandle analyze call).1 = returned at hends
  generalize ((d.step analyze call).position call.engine) = after at hends
  cases hends with
  -- A call that raised returned nothing.
  | raised _ hflat =>
    constructor
    · intro _ p hp hopen
      exact absurd hopen (hquiet hflat p hp)
    · intro _ outcome houtcome
      cases houtcome
  | kept p outcome hp hopen hmiss hreason => simp [hp, hmiss, hreason]
  -- The exit went out, so its key was new, and the label has the sign of the P&L.
  | closed p level reason outcome hp hopen hhit hgoes hreason hpnl =>
    obtain ⟨hkey, hclosed⟩ := hgoes _ hhit
    obtain ⟨-, hsays⟩ := (h.guarded _ _ p hp hopen).level hlow hhit
    have hrealized : ((p.marked call.candle.close).closed level).realizedPnl - p.realizedPnl =
        (level - p.averagePrice) * p.quantity := by
      rw [PositionRecord.closed_realizedPnl (p := p.marked call.candle.close) hopen]
      exact add_sub_cancel_left ..
    simp [hp, hclosed, hreason, hpnl, hrealized, hsays]
  -- The exit did not go out though it was hit, so its key was known.
  | refused p level reason outcome hp hopen hhit hstays hreason hpnl =>
    obtain ⟨hlevel, -⟩ := (h.guarded _ _ p hp hopen).level hlow hhit
    have hknown : ¬ (d.engines call.engine).orderManager.lookup
        ((d.engines call.engine).closeKey call.candle) = none := by
      intro hnone
      apply hstays
      rintro hit hsome
      obtain rfl : (level, reason) = hit := Option.some.inj (hhit.symm.trans hsome)
      exact ⟨hlevel, hnone⟩
    simp [hp, hhit, hopen, hknown, hreason]
  -- An entry and a pass report no exit.
  | entered signal outcome hflat _ hreason =>
    constructor
    · intro _ p hp hopen
      exact absurd hopen (hquiet hflat p hp)
    · intro _ outcome houtcome reason hsome
      cases houtcome
      cases hreason.symm.trans hsome
  | passed outcome _ hflat hreason =>
    constructor
    · intro _ p hp hopen
      exact absurd hopen (hquiet hflat p hp)
    · intro _ outcome houtcome reason hsome
      cases houtcome
      cases hreason.symm.trans hsome

/-- No position is open yet. -/
structure Fresh (d : PaperDesk ι) : Prop where
  plain : d.broker.Plain
  flat : ∀ accountId symbol,
    (d.positionManager.get accountId symbol).any PositionRecord.isOpen = false

omit [DecidableEq ι] in
theorem Fresh.guarded (h : d.Fresh) : d.Guarded where
  plain := h.plain
  guarded accountId symbol p hp hopen := by
    have hflat := h.flat accountId symbol
    rw [hp, Option.any_some, hopen] at hflat
    cases hflat

theorem buyer_fresh : buyer.Fresh where
  plain := MockBroker.plain_new 100000 0
  flat _ _ := rfl

/-- An analysis that would buy on every candle, at 100 with a stop at 98. -/
def everyCandle : Analysis := fun _ _ =>
  { allSatisfied := true
    satisfied := []
    missing := []
    bias := some .bullish
    entryAndStop := fun _ => (some 100, some 98) }

end PaperDesk

end SuperTrading
