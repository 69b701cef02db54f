import SuperTrading.Workers.Grounded

/-!
# A Pass Under a Halt

A pass of the worker calls `_process` for each eligible strategy and instrument, up to the
first call that raises. A halted account enters nothing in it, and a position that is open
when the pass starts is closed in it as in the same pass without the halt: the two passes
agree on the position until it is closed, whatever the entries of the one do elsewhere. But
for one thing: an entry of nothing into a position of nothing raises, and ends the pass.

- **Layer A**: what a call leaves of its mark, and when it raises
- **Layer B**: the pass
- **Layer C**: the halt enters nothing
- **Layer D**: two passes side by side
-/

namespace SuperTrading

open SuperTrading.Logic
open Smc (Candle)

namespace AutoTradeSupervisor

variable {s : AutoTradeSupervisor}

theorem supported_of_proceed {key : EngineKey} {timeframe : String} {latest : Candle}
    {isOpen : Bool}
    {env : PassEnv} (h : s.verdict key timeframe latest isOpen env = .proceed) :
    (timeframeToMinutes timeframe).toOption ≠ none := by
  cases hminutes : timeframeToMinutes timeframe with
  | ok minutes => exact Option.some_ne_none minutes
  | error =>
    rw [verdict, hminutes] at h
    by_cases hseen : s.lastCandleSeen.get? key = some latest.timestamp <;> simp [hseen] at h

/-- A halt stops a candle on its way to a flat position. -/
theorem verdict_halted {key : EngineKey} {timeframe : String} {latest : Candle} {env : PassEnv}
    (hhalt : env.entriesAllowed = false) : s.verdict key timeframe latest false env ≠ .proceed := by
  unfold verdict
  by_cases hseen : s.lastCandleSeen.get? key = some latest.timestamp
  · simp [hseen]
  · rw [if_neg hseen]
    cases timeframeToMinutes timeframe with
    | error => simp
    | ok minutes =>
      dsimp only
      rw [if_pos (⟨hhalt, rfl⟩ : env.entriesAllowed = false ∧ false = false)]
      split_ifs <;> simp

/-- A call that has the lock is never deferred, and stops at a mark of its own candle. -/
theorem verdict_locked (key : EngineKey) (timeframe : String) (latest : Candle) (isOpen : Bool)
    {env : PassEnv} (hlock : env.lock = .acquired) :
    s.verdict key timeframe latest isOpen env ≠ .deferred ∧
      (s.verdict key timeframe latest isOpen env = .seen ↔
        s.lastCandleSeen.get? key = some latest.timestamp) := by
  unfold verdict
  rw [hlock]
  by_cases hseen : s.lastCandleSeen.get? key = some latest.timestamp
  · simp [hseen]
  · rw [if_neg hseen]
    cases timeframeToMinutes timeframe with
    | error => simp [hseen]
    | ok minutes =>
      dsimp only
      split_ifs <;> simp [hseen]

/-- The mark of a call that has the lock: the candle is seen, however it goes on. -/
theorem lastCandleSeen_process (analyze : Analysis) (candles : List Candle) (userId : AccountId)
    (row : StrategyRow) (instrument : Instrument) {env : PassEnv} (hlock : env.lock = .acquired) :
    (s.process analyze candles userId row instrument env).1.lastCandleSeen =
      candles.getLast?.elim s.lastCandleSeen fun latest =>
        if s.lastCandleSeen.get? ⟨userId, row.id, instrument.id⟩ = some latest.timestamp then
          s.lastCandleSeen
        else s.lastCandleSeen.set ⟨userId, row.id, instrument.id⟩ latest.timestamp := by
  unfold process
  cases candles.getLast? with
  | none => rfl
  | some latest =>
    dsimp only [Option.elim]
    rw [verdict_refreshed]
    obtain ⟨hdeferred, hseen⟩ := verdict_locked (s := s) ⟨userId, row.id, instrument.id⟩
      row.definition.timeframe latest (((s.engine ⟨userId, row.id, instrument.id⟩ row instrument
        env).position (s.account userId env)).any PositionRecord.isOpen) hlock
    -- With the lock, every verdict but `seen` marks the candle.
    cases hv : s.verdict ⟨userId, row.id, instrument.id⟩ row.definition.timeframe latest
        (((s.engine ⟨userId, row.id, instrument.id⟩ row instrument env).position
          (s.account userId env)).any PositionRecord.isOpen) env with
    | seen => exact (if_pos (hseen.mp hv)).symm
    | deferred => exact absurd hv hdeferred
    | unsupported | stale | halted | proceed =>
      refine (if_neg fun hmark => ?_).symm
      cases hv.symm.trans (hseen.mpr hmark)

/-- A halt does not stop a candle on its way to an open position. -/
theorem verdict_open (key : EngineKey) (timeframe : String) (latest : Candle) {env env' : PassEnv}
    {s' : AutoTradeSupervisor} (hseen : s'.lastCandleSeen = s.lastCandleSeen)
    (hnow : env'.paper.now = env.paper.now) (hlock : env.lock = .acquired)
    (hlock' : env'.lock = .acquired) :
    s'.verdict key timeframe latest true env' = s.verdict key timeframe latest true env := by
  unfold verdict
  rw [hseen, hnow, hlock, hlock']
  simp only [Bool.true_eq_false, and_false, if_false]

end AutoTradeSupervisor

namespace WorkerWorld

variable {master : InstrumentMaster} {analyze : Analysis} {w w' : WorkerWorld} {call : ProcessCall}
  {row : StrategyRow}

/-! ## Layer A: What a call leaves of its mark, and when it raises -/

instance (e : PaperTradingEngine) (a : PaperAccount) : Decidable (e.RaisesOnNothing a) :=
  inferInstanceAs (Decidable ((∃ p ∈ a.broker.positions.get? e.symbol, p.quantity = 0) ∧
    ¬ (0 < e.limits.riskPerTradePct ∧ ∀ cap ∈ e.limits.maxPositionSize, 0 < cap)))

variable (master analyze) in
/-- A call that feeds its candle to a flat position does not enter nothing into nothing. -/
def Quiet (w : WorkerWorld) (call : ProcessCall) (row : StrategyRow) : Prop :=
  ∀ latest ∈ (w.storedOf call row).getLast?, w.Feeds master call row latest →
    w.isHeld call.userId (master.symbolOf call.instrumentId) = false →
      (w.seededOf master call row).WantsEntry analyze latest →
        ¬ (w.engineOf master call row).RaisesOnNothing (w.accountOf call)

instance (w : WorkerWorld) (call : ProcessCall) (row : StrategyRow) :
    Decidable (w.Quiet master analyze call row) :=
  inferInstanceAs (Decidable (∀ latest ∈ (w.storedOf call row).getLast?,
    w.Feeds master call row latest → _ → _ → ¬ _))

/-- No write fails, so none raises. -/
theorem journal_returns (hwrites : call.writeFails = none) (w : WorkerWorld) (row : StrategyRow)
    (instrument : Instrument) (before after : Option PositionRecord) (latest : Candle)
    (outcome : PaperTradeOutcome) :
    (w.journal call row instrument before after latest outcome).2 = false := by
  rw [journal_eq hwrites]
  dsimp only
  split
  · unfold journalClose
    rw [hwrites]
    rfl
  · rfl

/-- A call that reaches `on_candle` returns; else it raises on an unsupported timeframe. -/
theorem processCall_returns (analyze : Analysis) (hsound : w.Sound master)
    (hreads : call.readFails = false) (hwrites : call.writeFails = none)
    (hquiet : w.Quiet master analyze call row) :
    (w.processCall master analyze call row).2 = (w.storedOf call row).getLast?.any
      (w.unsupported (keyOf call row) row.definition.timeframe) := by
  by_cases hfeeds : ∃ latest, w.Feeds master call row latest
  · obtain ⟨latest, hfeeds⟩ := hfeeds
    have hraised : (w.passEnv master call row).raised = none :=
      if_neg fun hread => Bool.false_ne_true (hreads.symm.trans hread.1)
    obtain ⟨-, hposition, -⟩ := hsound.seededOf call row
    -- `on_candle` raises on an entry only, and a quiet call wants none that raises.
    have hcall : ∃ outcome engine account, (w.seededOf master call row).onCandle analyze
        (w.accountOf call) (w.callEnv call).paper latest = .ok (outcome, engine, account) := by
      -- Open, the call closes it or keeps it; neither raises.
      cases hheld : w.isHeld call.userId (master.symbolOf call.instrumentId) with
      | true =>
        obtain ⟨p, hp, hopen⟩ := (Option.any_eq_true ..).mp hheld
        cases hhit : PaperTradingEngine.trigger p latest with
        | none =>
          obtain ⟨account, hcall, -⟩ := PaperTradingEngine.onCandle_hold analyze
            (w.callEnv call).paper (hsound.accountOf call) (hposition.trans hp) hopen hhit
          exact ⟨_, _, account, hcall⟩
        | some hit =>
          obtain ⟨outcome, engine, account, hcall, -⟩ := PaperTradingEngine.onCandle_hit analyze
            (w.callEnv call).paper (hsound.accountOf call) (hposition.trans hp) hopen hhit
          exact ⟨outcome, engine, account, hcall⟩
      | false =>
        have hflat : ((w.seededOf master call row).position (w.accountOf call)).any
            PositionRecord.isOpen = false := by
          rw [hposition]
          exact hheld
        -- Flat, it would raise on an entry of nothing, which a quiet call does not want.
        rcases PaperTradingEngine.onCandle_flat analyze (w.callEnv call).paper latest
          (hsound.accountOf call) hflat with
          ⟨hnothing, message, hraises⟩ | ⟨outcome, engine, account, hcall, -⟩
        · have hwants := PaperTradingEngine.wantsEntry_of_error hflat hraises
          obtain ⟨candles, hseeded⟩ := AutoTradeSupervisor.seeded_eq (w.engineOf master call row)
            (w.storedOf call row)
          rw [seededOf, hseeded] at hnothing
          exact absurd hnothing (hquiet latest hfeeds.1 hfeeds hheld hwants)
        · exact ⟨outcome, engine, account, hcall⟩
    obtain ⟨outcome, engine, account, hcall⟩ := hcall
    obtain ⟨-, -, hjournal⟩ := returned analyze hfeeds hraised hcall
    have hsupported : w.unsupported (keyOf call row) row.definition.timeframe latest = false := by
      have hminutes := AutoTradeSupervisor.supported_of_proceed hfeeds.2
      simp [unsupported, hminutes]
    rw [hjournal, journal_returns hwrites, hfeeds.1, Option.any_some, hsupported]
  · -- A call that does not reach `on_candle`.
    obtain ⟨engine, -, -, hcall⟩ := stopped analyze hfeeds
    rw [hcall]

end WorkerWorld

/-! ## Layer B: The pass -/

/-- How a position was closed: the price and the P&L that `on_candle` reports, and the trade
that is journaled. -/
structure Closing where
  exitPrice : Option ℚ
  pnl : Option ℚ
  trade : Option AutoTradeRow
  deriving DecidableEq, Repr

/-- A pass of `run_once` on its way: the world, whether a call has raised, and the closings so
far, each with its position. -/
structure Pass where
  world : WorkerWorld
  raised : Bool := false
  closings : List ((AccountId × Symbol) × Closing) := []

/-- The trade lock is free, and the database answers. -/
structure ProcessCall.Unhindered (call : ProcessCall) : Prop where
  lock : call.lock = .acquired
  reads : call.readFails = false
  writes : call.writeFails = none

instance (call : ProcessCall) : Decidable call.Unhindered :=
  decidable_of_iff (call.lock = .acquired ∧ call.readFails = false ∧ call.writeFails = none)
    ⟨fun ⟨lock, reads, writes⟩ => ⟨lock, reads, writes⟩, fun h => ⟨h.lock, h.reads, h.writes⟩⟩

/-- The call with the user's entries allowed, or not. -/
def ProcessCall.allowing (call : ProcessCall) (userId : AccountId) (entriesAllowed : Bool) :
    ProcessCall :=
  if call.userId = userId then { call with entriesAllowed := entriesAllowed } else call

namespace Pass

variable (master : InstrumentMaster) (analyze : Analysis) (userId : AccountId)
  (entriesAllowed : Bool)

/-- The closing of the position that a call is about, if the call closes it. -/
def closing (w : WorkerWorld) (call : ProcessCall) (row : StrategyRow) : Option Closing :=
  let symbol := master.symbolOf call.instrumentId
  let after := (w.processCall master analyze call row).1
  if w.isHeld call.userId symbol = true ∧ after.isHeld call.userId symbol = false then
    match w.fedBy master analyze call row with
    | some ⟨_, _, .ok outcome⟩ =>
      some ⟨outcome.exitPrice, outcome.closedPositionPnl, after.db.trades.getLast?⟩
    | _ => none
  else none

/-- The next call of the pass, unless one has raised. -/
def step (s : Pass) (c : ProcessCall × StrategyRow) : Pass :=
  if s.raised then s
  else
    let call := c.1.allowing userId entriesAllowed
    let after := s.world.processCall master analyze call c.2
    { world := after.1
      raised := after.2
      closings := s.closings ++ (closing master analyze s.world call c.2).toList.map
        fun closing => ((call.userId, master.symbolOf call.instrumentId), closing) }

/-- The first closing of a position. -/
def closed (s : Pass) (userId : AccountId) (symbol : Symbol) : Option Closing :=
  (s.closings.find? fun c => c.1 = (userId, symbol)).map Prod.snd

/-- The call that comes next enters nothing into no position of nothing. -/
def Quiet (s : Pass) (c : ProcessCall × StrategyRow) : Prop :=
  s.raised = false → s.world.Quiet master analyze (c.1.allowing userId entriesAllowed) c.2

instance (s : Pass) (c : ProcessCall × StrategyRow) :
    Decidable (s.Quiet master analyze userId entriesAllowed c) :=
  inferInstanceAs (Decidable (_ → _))

end Pass

namespace ProcessCall

variable (call : ProcessCall) (userId : AccountId) (entriesAllowed : Bool)

/-- Only the flag differs. -/
theorem allowing_eq : ∃ flag, call.allowing userId entriesAllowed =
    { call with entriesAllowed := flag } := by
  unfold allowing
  split_ifs
  · exact ⟨entriesAllowed, rfl⟩
  · exact ⟨call.entriesAllowed, rfl⟩

end ProcessCall

/-! ## Layer C: The halt enters nothing -/

namespace WorkerWorld

variable {master : InstrumentMaster} {analyze : Analysis} {w w' : WorkerWorld} {call : ProcessCall}
  {row : StrategyRow}

/-- A halted call feeds no flat position. -/
theorem Sound.not_feeds (h : w.Sound master) (hhalt : call.entriesAllowed = false)
    (hflat : w.isHeld call.userId (master.symbolOf call.instrumentId) = false) (latest : Candle) :
    ¬ w.Feeds master call row latest := by
  rintro ⟨-, hproceed⟩
  rw [h.position] at hproceed
  rw [isHeld] at hflat
  rw [hflat] at hproceed
  exact AutoTradeSupervisor.verdict_halted hhalt hproceed

/-- A halted call enters nothing, and neither does a call of another user for this one. -/
theorem Grounded.halted (analyze : Analysis) (h : w.Grounded master)
    (hwrites : call.writeFails = none) {userId : AccountId}
    (hhalt : call.userId = userId → call.entriesAllowed = false) (row : StrategyRow) :
    ((w.processCall master analyze call row).1.entries.filter fun mark => mark.userId = userId) =
        (w.entries.filter fun mark => mark.userId = userId) ∧
      ∀ symbol, (w.processCall master analyze call row).1.isHeld userId symbol = true →
        w.isHeld userId symbol = true := by
  obtain ⟨frame, kind⟩ := call_effect analyze h.sound h.rows row fun _ _ => hwrites
  set w' := (w.processCall master analyze call row).1
  have helse : ∀ symbol, (call.userId, master.symbolOf call.instrumentId) ≠ (userId, symbol) →
      w'.isHeld userId symbol = true → w.isHeld userId symbol = true := by
    intro symbol hne hheld
    rwa [isHeld, frame.others _ _ hne] at hheld
  -- Of the position that the call is about, it is another user's, or the call is halted.
  have hself : ∀ {latest}, w.Feeds master call row latest →
      w.isHeld call.userId (master.symbolOf call.instrumentId) = false → call.userId ≠ userId :=
    fun hfeeds hflat huser => h.sound.not_feeds (hhalt huser) hflat _ hfeeds
  have hheld : ∀ symbol, (w'.isHeld call.userId (master.symbolOf call.instrumentId) = true →
      call.userId = userId →
        w.isHeld call.userId (master.symbolOf call.instrumentId) = true) →
      w'.isHeld userId symbol = true → w.isHeld userId symbol = true := by
    intro symbol hcall hafter
    by_cases heq : (call.userId, master.symbolOf call.instrumentId) = (userId, symbol)
    · obtain ⟨huser, hsymbol⟩ := Prod.mk.inj heq
      rw [← huser, ← hsymbol] at hafter ⊢
      exact hcall hafter huser
    · exact helse symbol heq hafter
  cases kind with
  -- What is held afterwards was held before, unless the call entered.
  | idle hsame _ hunwritten =>
    refine ⟨by rw [hunwritten.entries], fun symbol => hheld symbol fun hafter _ => ?_⟩
    rwa [isHeld, hsame] at hafter
  | kept p _ _ hp hopen _ _ _ hunwritten =>
    exact ⟨by rw [hunwritten.entries], fun symbol => hheld symbol fun _ _ =>
      isHeld_of_open hp hopen⟩
  | exited p _ _ _ _ _ _ _ hp hopen _ _ _ _ _ _ hentries =>
    exact ⟨by rw [hentries], fun symbol => hheld symbol fun _ _ => isHeld_of_open hp hopen⟩
  -- Only an entry is marked, and this one is another user's.
  | entered p latest hfeeds hflat _ _ _ _ _ hentries =>
    have huser := hself hfeeds hflat
    refine ⟨?_, fun symbol => hheld symbol fun _ hself => absurd hself huser⟩
    have hother : ¬ (w.markOf call row latest).userId = userId := huser
    rw [hentries, List.filter_append, List.filter_singleton]
    simp [hother]
  | passed latest hfeeds hflat _ _ _ hentries =>
    have huser := hself hfeeds hflat
    exact ⟨by rw [hentries], fun symbol => hheld symbol fun _ hself => absurd hself huser⟩

/-! ## Layer D: Two passes side by side -/

/-- The mark of a call that has the lock. -/
theorem seen_processCall (hlock : call.lock = .acquired) :
    (w.processCall master analyze call row).1.supervisor.lastCandleSeen =
      (w.storedOf call row).getLast?.elim w.supervisor.lastCandleSeen fun latest =>
        if w.supervisor.lastCandleSeen.get? (keyOf call row) = some latest.timestamp then
          w.supervisor.lastCandleSeen
        else w.supervisor.lastCandleSeen.set (keyOf call row) latest.timestamp := by
  rw [supervisor_processCall]
  exact AutoTradeSupervisor.lastCandleSeen_process analyze (w.storedOf call row) call.userId row
    (master.instrument call.instrumentId) hlock

/-- Two passes that are at the same call. -/
structure InStep (w₁ w₂ : WorkerWorld) : Prop where
  clock : w₁.clock = w₂.clock
  strategies : w₁.strategies = w₂.strategies
  loaded : w₁.loaded = w₂.loaded
  series : w₁.series = w₂.series
  seen : w₁.supervisor.lastCandleSeen = w₂.supervisor.lastCandleSeen

variable (master) in
/-- And they agree on an open position, and on what a call reads to close it. -/
structure Alike (userId : AccountId) (instrumentId : String) (w₁ w₂ : WorkerWorld) : Prop
    extends InStep w₁ w₂ where
  held : w₁.held userId (master.symbolOf instrumentId) =
    w₂.held userId (master.symbolOf instrumentId)
  isHeld : w₁.isHeld userId (master.symbolOf instrumentId) = true
  orders : ∀ strategyId key, ((w₁.ordersOf ⟨userId, strategyId, instrumentId⟩).lookup key).isSome ↔
    ((w₂.ordersOf ⟨userId, strategyId, instrumentId⟩).lookup key).isSome
  entry : ∀ strategyId, w₁.registry.entry ⟨userId, strategyId, instrumentId⟩ =
    w₂.registry.entry ⟨userId, strategyId, instrumentId⟩

/-- A call with the halt and without: neither waits for the lock, and nothing fails. -/
structure SameCall (call₁ call₂ : ProcessCall) : Prop where
  same : ∃ flag, call₂ = { call₁ with entriesAllowed := flag }
  free₁ : call₁.Unhindered
  free₂ : call₂.Unhindered

section OpenPosition

variable {p : PositionRecord} {latest : Candle}

theorem feeds_unique {latest' : Candle} (h : w.Feeds master call row latest)
    (h' : w.Feeds master call row latest') : latest = latest' :=
  Option.some.inj (h.1.symm.trans h'.1)

/-- A call that feeds nothing leaves an open position. -/
theorem Grounded.open_idle (analyze : Analysis) (h : w.Grounded master)
    (hwrites : call.writeFails = none) (hno : ¬ ∃ latest, w.Feeds master call row latest) :
    (w.processCall master analyze call row).1.held call.userId (master.symbolOf call.instrumentId) =
        w.held call.userId (master.symbolOf call.instrumentId) ∧
      (w.processCall master analyze call row).1.registry = w.registry ∧
      (w.processCall master analyze call row).1.ordersOf (keyOf call row) =
        w.ordersOf (keyOf call row) := by
  obtain ⟨-, kind⟩ := call_effect analyze h.sound h.rows row fun _ _ => hwrites
  cases kind with
  | idle hheld _ hunwritten horders => exact ⟨hheld, hunwritten.registry, horders hno⟩
  | kept _ latest hfeeds => exact absurd ⟨latest, hfeeds⟩ hno
  | exited _ _ latest _ _ _ _ hfeeds => exact absurd ⟨latest, hfeeds⟩ hno
  | entered _ latest hfeeds => exact absurd ⟨latest, hfeeds⟩ hno
  | passed latest hfeeds => exact absurd ⟨latest, hfeeds⟩ hno

/-- A candle that hits no level marks it. -/
theorem Grounded.open_kept (analyze : Analysis) (h : w.Grounded master)
    (hwrites : call.writeFails = none) (hfeeds : w.Feeds master call row latest)
    (hp : w.held call.userId (master.symbolOf call.instrumentId) = some p) (hopen : p.isOpen = true)
    (hmiss : PaperTradingEngine.trigger p latest = none) :
    (w.processCall master analyze call row).1.held call.userId (master.symbolOf call.instrumentId) =
        some (p.marked latest.close) ∧
      (w.processCall master analyze call row).1.registry = w.registry ∧
      (w.processCall master analyze call row).1.ordersOf (keyOf call row) =
        w.ordersOf (keyOf call row) := by
  obtain ⟨-, kind⟩ := call_effect analyze h.sound h.rows row fun _ _ => hwrites
  have hheld := isHeld_of_open hp hopen
  -- The kinds of a call that found no position are ruled out.
  cases kind with
  | idle _ _ _ _ hflat => cases (hflat latest hfeeds).symm.trans hheld
  | kept q latest' hfeeds' hq _ _ hafter _ hunwritten horders =>
    obtain rfl := feeds_unique hfeeds hfeeds'
    obtain rfl := Option.some.inj (hp.symm.trans hq)
    exact ⟨hafter, hunwritten.registry, horders⟩
  | exited q _ latest' _ _ _ _ hfeeds' hq _ hhit =>
    obtain rfl := feeds_unique hfeeds hfeeds'
    obtain rfl := Option.some.inj (hp.symm.trans hq)
    cases hmiss.symm.trans hhit
  | entered _ _ _ hflat => cases hflat.symm.trans hheld
  | passed _ _ hflat => cases hflat.symm.trans hheld

/-- A candle that hits a level closes it, and reports and journals how; or the exit is
refused, and the position stays. -/
theorem Grounded.open_hit (analyze : Analysis) (h : w.Grounded master)
    (hwrites : call.writeFails = none) (hfeeds : w.Feeds master call row latest)
    (hp : w.held call.userId (master.symbolOf call.instrumentId) = some p) (hopen : p.isOpen = true)
    {level : ℚ} {reason : ExitReason}
    (hhit : PaperTradingEngine.trigger p latest = some (level, reason)) :
    if (w.engineOf master call row).ExitGoesOut p latest then
      ∃ outcome : PaperTradeOutcome, outcome.exitPrice = some level ∧
        Pass.closing master analyze w call row =
          some ⟨some level,
            some (((p.marked latest.close).closed level).realizedPnl - p.realizedPnl),
            some (w.tradeOf master call row p latest outcome
              (((p.marked latest.close).closed level).realizedPnl - p.realizedPnl))⟩
    else
      (w.processCall master analyze call row).1.held call.userId
          (master.symbolOf call.instrumentId) = some (p.marked latest.close) ∧
        (w.processCall master analyze call row).1.registry = w.registry.pop (ownerKey call row p) ∧
        ∀ key, (((w.processCall master analyze call row).1.ordersOf (keyOf call row)).lookup
            key).isSome ↔
          key = (w.engineOf master call row).closeKey latest ∨
            ((w.ordersOf (keyOf call row)).lookup key).isSome := by
  obtain ⟨-, kind⟩ := call_effect analyze h.sound h.rows row fun _ _ => hwrites
  have hheld := isHeld_of_open hp hopen
  cases kind with
  -- A call that reaches the open position and hits its level is none of the other kinds.
  | idle _ _ _ _ hflat => cases (hflat latest hfeeds).symm.trans hheld
  | kept q latest' hfeeds' hq _ hmiss =>
    obtain rfl := feeds_unique hfeeds hfeeds'
    obtain rfl := Option.some.inj (hp.symm.trans hq)
    cases hmiss.symm.trans hhit
  | exited q p' latest' level' reason' outcome pnl hfeeds' hq _ hhit' hcloses hrefused hafter hdb
      hregistry _ _ _ horders hfed hreported =>
    obtain rfl := feeds_unique hfeeds hfeeds'
    obtain rfl := Option.some.inj (hp.symm.trans hq)
    obtain ⟨rfl, rfl⟩ := Prod.mk.inj (Option.some.inj (hhit.symm.trans hhit'))
    split_ifs with hgoes
    · -- The order goes out, so that the position is flat and its trade is the last of the journal.
      obtain ⟨rfl, rfl, hprice⟩ := hcloses hgoes
      obtain ⟨engine, hfed⟩ := hfed
      have hflat : (w.processCall master analyze call row).1.isHeld call.userId
          (master.symbolOf call.instrumentId) = false := by
        rw [isHeld, hafter, Option.any_some, PositionRecord.closed_isOpen]
      refine ⟨outcome, hprice, (if_pos ⟨hheld, hflat⟩).trans ?_⟩
      rw [hfed, hdb]
      simp only [hprice, hreported, List.getLast?_concat]
    · obtain rfl := hrefused hgoes
      exact ⟨hafter, hregistry, horders⟩
  | entered _ _ _ hflat => cases hflat.symm.trans hheld
  | passed _ _ hflat => cases hflat.symm.trans hheld

end OpenPosition

section Alike

variable {w₁ w₂ : WorkerWorld} {call₁ call₂ : ProcessCall} {userId : AccountId}
  {instrumentId : String}

theorem InStep.storedOf (h : InStep w₁ w₂) (hcall : SameCall call₁ call₂) (row : StrategyRow) :
    w₁.storedOf call₁ row = w₂.storedOf call₂ row := by
  obtain ⟨⟨flag, rfl⟩, -, -⟩ := hcall
  unfold WorkerWorld.storedOf AutoTradeWorld.stored
  rw [h.series]

/-- Both calls raise, or neither does. -/
theorem InStep.raised (analyze : Analysis) (h : InStep w₁ w₂) (hcall : SameCall call₁ call₂)
    (hground₁ : w₁.Grounded master) (hground₂ : w₂.Grounded master)
    (hquiet₁ : w₁.Quiet master analyze call₁ row) (hquiet₂ : w₂.Quiet master analyze call₂ row) :
    (w₁.processCall master analyze call₁ row).2 = (w₂.processCall master analyze call₂ row).2 := by
  have hstored := h.storedOf hcall row
  obtain ⟨⟨flag, rfl⟩, hfree₁, hfree₂⟩ := hcall
  rw [processCall_returns analyze hground₁.sound hfree₁.reads hfree₁.writes hquiet₁,
    processCall_returns analyze hground₂.sound hfree₂.reads hfree₂.writes hquiet₂, hstored]
  congr 1
  funext latest
  unfold unsupported
  rw [h.seen]
  rfl

/-- Behind the call, the passes are at the next one. -/
theorem InStep.call_step (h : InStep w₁ w₂) (hcall : SameCall call₁ call₂)
    (hframe₁ : CallFrame master w₁ call₁ row (w₁.processCall master analyze call₁ row).1)
    (hframe₂ : CallFrame master w₂ call₂ row (w₂.processCall master analyze call₂ row).1) :
    InStep (w₁.processCall master analyze call₁ row).1
      (w₂.processCall master analyze call₂ row).1 := by
  have hstored := h.storedOf hcall row
  obtain ⟨⟨flag, rfl⟩, hfree₁, hfree₂⟩ := hcall
  refine ⟨?_, ?_, ?_, ?_, ?_⟩
  · rw [hframe₁.clock, hframe₂.clock, h.clock]
  · rw [hframe₁.strategies, hframe₂.strategies, h.strategies]
  · rw [hframe₁.loaded, hframe₂.loaded, h.loaded]
  · rw [hframe₁.series, hframe₂.series, h.series]
  · rw [seen_processCall hfree₁.lock, seen_processCall hfree₂.lock, hstored, h.seen]
    rfl

/-- A call about something else leaves the position, and what its close reads. -/
theorem Alike.elsewhere (analyze : Analysis) (h : Alike master userId instrumentId w₁ w₂)
    (hcall : SameCall call₁ call₂) (hground₁ : w₁.Grounded master) (hground₂ : w₂.Grounded master)
    (row : StrategyRow)
    (hne : (call₁.userId, call₁.instrumentId) ≠ (userId, instrumentId)) :
    Alike master userId instrumentId (w₁.processCall master analyze call₁ row).1
      (w₂.processCall master analyze call₂ row).1 := by
  obtain ⟨hframe₁, hkind₁⟩ := call_effect analyze hground₁.sound hground₁.rows row
    fun _ _ => hcall.free₁.writes
  obtain ⟨hframe₂, hkind₂⟩ := call_effect analyze hground₂.sound hground₂.rows row
    fun _ _ => hcall.free₂.writes
  have hstep := h.toInStep.call_step hcall hframe₁ hframe₂
  have hne₂ : (call₂.userId, call₂.instrumentId) ≠ (userId, instrumentId) := by
    obtain ⟨⟨flag, rfl⟩, -, -⟩ := hcall
    exact hne
  -- Another user or instrument has other engines.
  have hkey : ∀ {call : ProcessCall}, (call.userId, call.instrumentId) ≠ (userId, instrumentId) →
      ∀ strategyId, (⟨userId, strategyId, instrumentId⟩ : EngineKey) ≠ keyOf call row :=
    fun hne strategyId heq => hne (Prod.ext (congrArg EngineKey.userId heq).symm
      (congrArg EngineKey.instrumentId heq).symm)
  have hheld₁ := hframe₁.others userId (master.symbolOf instrumentId) (master.key_ne hne)
  have hheld₂ := hframe₂.others userId (master.symbolOf instrumentId) (master.key_ne hne₂)
  refine ⟨hstep, ?_, ?_, fun strategyId key => ?_, fun strategyId => ?_⟩
  · rw [hheld₁, hheld₂, h.held]
  · rw [WorkerWorld.isHeld, hheld₁]
    exact h.isHeld
  · rw [hframe₁.orders _ (hkey hne strategyId), hframe₂.orders _ (hkey hne₂ strategyId)]
    exact h.orders strategyId key
  · rw [hkind₁.entry hne, hkind₂.entry hne₂]
    exact h.entry strategyId

/-- Both calls feed the candle to the open position, or neither does. -/
theorem Alike.feeds (h : Alike master call₁.userId call₁.instrumentId w₁ w₂)
    (hcall : SameCall call₁ call₂) (hground₁ : w₁.Grounded master) (hground₂ : w₂.Grounded master)
    (latest : Candle) : w₁.Feeds master call₁ row latest ↔ w₂.Feeds master call₂ row latest := by
  have hstored := h.toInStep.storedOf hcall row
  have hopen₁ : ((w₁.engineOf master call₁ row).position (w₁.accountOf call₁)).any
      PositionRecord.isOpen = true := by
    rw [hground₁.sound.position]
    exact h.isHeld
  have hopen₂ : ((w₂.engineOf master call₂ row).position (w₂.accountOf call₂)).any
      PositionRecord.isOpen = true := by
    obtain ⟨⟨flag, rfl⟩, -, -⟩ := hcall
    rw [hground₂.sound.position, ← h.held]
    exact h.isHeld
  have hlock₁ : (w₁.callEnv call₁).lock = .acquired := hcall.free₁.lock
  have hlock₂ : (w₂.callEnv call₂).lock = .acquired := hcall.free₂.lock
  have hnow : (w₁.callEnv call₁).paper.now = (w₂.callEnv call₂).paper.now := by
    obtain ⟨⟨flag, rfl⟩, -, -⟩ := hcall
    show w₁.clock + call₁.elapsed = w₂.clock + call₁.elapsed
    rw [h.clock]
  have hkey : keyOf call₁ row = keyOf call₂ row := by
    obtain ⟨⟨flag, rfl⟩, -, -⟩ := hcall
    rfl
  -- On an open position the verdict does not read whether entries are allowed.
  unfold Feeds
  rw [hopen₁, hopen₂, hstored, hkey,
    AutoTradeSupervisor.verdict_open (keyOf call₂ row) row.definition.timeframe latest h.seen hnow
      hlock₂ hlock₁]

/-- The exit of the one goes out exactly if that of the other does. -/
theorem Alike.exitGoesOut (h : Alike master call₁.userId call₁.instrumentId w₁ w₂)
    (hcall : SameCall call₁ call₂) (hground₁ : w₁.Grounded master) (hground₂ : w₂.Grounded master)
    (row : StrategyRow) (p : PositionRecord) (latest : Candle) :
    (w₁.engineOf master call₁ row).closeKey latest =
        (w₂.engineOf master call₂ row).closeKey latest ∧
      ((w₁.engineOf master call₁ row).ExitGoesOut p latest ↔
        (w₂.engineOf master call₂ row).ExitGoesOut p latest) := by
  obtain ⟨⟨flag, rfl⟩, -, -⟩ := hcall
  set call₂ : ProcessCall := { call₁ with entriesAllowed := flag } with hcall₂
  have hruns₁ : (w₁.engineOf master call₁ row).Runs (keyOf call₁ row) _ := hground₁.sound.engineOf
  have hruns₂ : (w₂.engineOf master call₂ row).Runs (keyOf call₂ row) _ := hground₂.sound.engineOf
  have hclose : (w₁.engineOf master call₁ row).closeKey latest =
      (w₂.engineOf master call₂ row).closeKey latest := by
    unfold PaperTradingEngine.closeKey
    rw [hruns₁.accountId, hruns₁.symbol, hruns₂.accountId, hruns₂.symbol]
    rfl
  refine ⟨hclose, ?_⟩
  -- Both know the same keys, so that the exit is new to both or to neither.
  have horders : ∀ key, (w₁.engineOf master call₁ row).orderManager.lookup key = none ↔
      (w₂.engineOf master call₂ row).orderManager.lookup key = none := by
    intro key
    rw [orderManager_engineOf, orderManager_engineOf, ← Option.not_isSome_iff_eq_none,
      ← Option.not_isSome_iff_eq_none]
    exact not_congr (h.orders row.id key)
  unfold PaperTradingEngine.ExitGoesOut
  rw [hclose]
  exact forall₂_congr fun hit _ => and_congr Iff.rfl (horders _)

/-- The two journal the same trade. -/
theorem Alike.tradeOf (h : Alike master call₁.userId call₁.instrumentId w₁ w₂)
    (hcall : SameCall call₁ call₂) (row : StrategyRow) (p : PositionRecord) (latest : Candle)
    {outcome₁ outcome₂ : PaperTradeOutcome} (hprice : outcome₁.exitPrice = outcome₂.exitPrice)
    (pnl : ℚ) :
    w₁.tradeOf master call₁ row p latest outcome₁ pnl =
      w₂.tradeOf master call₂ row p latest outcome₂ pnl := by
  obtain ⟨⟨flag, rfl⟩, -, -⟩ := hcall
  have hentry := h.entry (p.strategyId.getD row.id)
  have howner : w₁.ownerRow row (p.strategyId.getD row.id) =
      w₂.ownerRow row (p.strategyId.getD row.id) := by
    unfold WorkerWorld.ownerRow
    rw [h.loaded, h.strategies]
  have hopenedAt : w₁.registry.openedAt.get? (ownerKey call₁ row p) =
    w₂.registry.openedAt.get? (ownerKey call₁ row p) := congrArg Prod.fst hentry
  have hopenedVersion : w₁.registry.openedVersion.get? (ownerKey call₁ row p) =
    w₂.registry.openedVersion.get? (ownerKey call₁ row p) := congrArg Prod.snd hentry
  unfold WorkerWorld.tradeOf autoTradeRow
  rw [howner, hopenedAt, hopenedVersion, hprice]
  rfl

/-- **A call about the position** leaves the two alike, or closes it in both, in one way. -/
theorem Alike.own (analyze : Analysis) (h : Alike master call₁.userId call₁.instrumentId w₁ w₂)
    (hcall : SameCall call₁ call₂) (hground₁ : w₁.Grounded master) (hground₂ : w₂.Grounded master)
    (row : StrategyRow) :
    Alike master call₁.userId call₁.instrumentId (w₁.processCall master analyze call₁ row).1
        (w₂.processCall master analyze call₂ row).1 ∨
      ∃ c, Pass.closing master analyze w₁ call₁ row = some c ∧
        Pass.closing master analyze w₂ call₂ row = some c := by
  obtain ⟨p, hp, hopen⟩ := (Option.any_eq_true ..).mp h.isHeld
  have hp₂ : w₂.held call₁.userId (master.symbolOf call₁.instrumentId) = some p :=
    h.held.symm.trans hp
  have hframe₁ := (call_effect analyze hground₁.sound hground₁.rows row
    fun _ _ => hcall.free₁.writes).1
  have hframe₂ := (call_effect analyze hground₂.sound hground₂.rows row
    fun _ _ => hcall.free₂.writes).1
  have hstep := h.toInStep.call_step hcall hframe₁ hframe₂
  have hfeeds : ∀ latest, w₁.Feeds master call₁ row latest ↔ w₂.Feeds master call₂ row latest :=
    h.feeds hcall hground₁ hground₂
  have hexits := h.exitGoesOut hcall hground₁ hground₂ row p
  have hwrites₁ := hcall.free₁.writes
  have hwrites₂ := hcall.free₂.writes
  have htrade : ∀ latest {outcome₁ outcome₂ : PaperTradeOutcome},
      outcome₁.exitPrice = outcome₂.exitPrice → ∀ pnl,
        w₁.tradeOf master call₁ row p latest outcome₁ pnl =
          w₂.tradeOf master call₂ row p latest outcome₂ pnl := h.tradeOf hcall row p
  obtain ⟨flag, rfl⟩ := hcall.same
  set call₂ : ProcessCall := { call₁ with entriesAllowed := flag } with hcall₂
  -- Where the position stays, the call may have used keys and popped an entry, but the same.
  have hstays : ∀ p' : PositionRecord, p'.isOpen = true →
      (w₁.processCall master analyze call₁ row).1.held call₁.userId
        (master.symbolOf call₁.instrumentId) = some p' →
      (w₂.processCall master analyze call₂ row).1.held call₂.userId
        (master.symbolOf call₂.instrumentId) = some p' →
      (∀ key, (((w₁.processCall master analyze call₁ row).1.ordersOf (keyOf call₁ row)).lookup
          key).isSome ↔
        (((w₂.processCall master analyze call₂ row).1.ordersOf (keyOf call₂ row)).lookup
          key).isSome) →
      (∀ key, w₁.registry.entry key = w₂.registry.entry key →
        (w₁.processCall master analyze call₁ row).1.registry.entry key =
          (w₂.processCall master analyze call₂ row).1.registry.entry key) →
      Alike master call₁.userId call₁.instrumentId (w₁.processCall master analyze call₁ row).1
        (w₂.processCall master analyze call₂ row).1 := by
    intro p' hopen' hheld₁ hheld₂ horders hentry
    refine ⟨hstep, hheld₁.trans hheld₂.symm, isHeld_of_open hheld₁ hopen', fun strategyId key => ?_,
      fun strategyId => hentry _ (h.entry strategyId)⟩
    by_cases hkey : (⟨call₁.userId, strategyId, call₁.instrumentId⟩ : EngineKey) = keyOf call₁ row
    · rw [hkey]
      exact horders key
    · rw [hframe₁.orders _ hkey, hframe₂.orders _ hkey]
      exact h.orders strategyId key
  -- The call feeds the position in both passes, or in neither.
  by_cases hfed : ∃ latest, w₁.Feeds master call₁ row latest
  · obtain ⟨latest, hfed₁⟩ := hfed
    have hfed₂ := (hfeeds latest).mp hfed₁
    -- No level is hit: both mark it, and use no key.
    cases hhit : PaperTradingEngine.trigger p latest with
    | none =>
      obtain ⟨hheld₁, hregistry₁, horders₁⟩ :=
        hground₁.open_kept analyze hwrites₁ hfed₁ hp hopen hhit
      obtain ⟨hheld₂, hregistry₂, horders₂⟩ :=
        hground₂.open_kept analyze hwrites₂ hfed₂ hp₂ hopen hhit
      refine Or.inl (hstays (p.marked latest.close) hopen hheld₁ hheld₂ (fun key => ?_)
        fun key hkey => ?_)
      · rw [horders₁, horders₂]
        exact h.orders row.id key
      · rw [hregistry₁, hregistry₂, hkey]
    | some hit =>
      obtain ⟨level, reason⟩ := hit
      have hends₁ := hground₁.open_hit analyze hwrites₁ hfed₁ hp hopen hhit
      have hends₂ := hground₂.open_hit analyze hwrites₂ hfed₂ hp₂ hopen hhit
      obtain ⟨hclose, hgoes⟩ := hexits latest
      -- The exit goes out in both, at one price.
      split_ifs at hends₁ with hgoes₁
      · rw [if_pos (hgoes.mp hgoes₁)] at hends₂
        obtain ⟨outcome₁, hprice₁, hclosing₁⟩ := hends₁
        obtain ⟨outcome₂, hprice₂, hclosing₂⟩ := hends₂
        rw [← htrade latest (hprice₁.trans hprice₂.symm)] at hclosing₂
        exact Or.inr ⟨_, hclosing₁, hclosing₂⟩
      · -- It is refused in both, with the same key used.
        rw [if_neg (mt hgoes.mpr hgoes₁)] at hends₂
        obtain ⟨hheld₁, hregistry₁, horders₁⟩ := hends₁
        obtain ⟨hheld₂, hregistry₂, horders₂⟩ := hends₂
        refine Or.inl (hstays (p.marked latest.close) hopen hheld₁ hheld₂ (fun key => ?_)
          fun key hkey => ?_)
        · rw [horders₁, horders₂, hclose]
          exact or_congr Iff.rfl (h.orders row.id key)
        · rw [hregistry₁, hregistry₂, EntryRegistry.entry_pop, EntryRegistry.entry_pop, hkey]
          rfl
  · obtain ⟨hheld₁, hregistry₁, horders₁⟩ := hground₁.open_idle analyze hwrites₁ hfed
    obtain ⟨hheld₂, hregistry₂, horders₂⟩ := hground₂.open_idle analyze hwrites₂
      fun ⟨latest, hfed₂⟩ => hfed ⟨latest, (hfeeds latest).mpr hfed₂⟩
    refine Or.inl (hstays p hopen (hheld₁.trans hp) (hheld₂.trans hp₂) (fun key => ?_)
      fun key hkey => ?_)
    · rw [horders₁, horders₂]
      exact h.orders row.id key
    · rw [hregistry₁, hregistry₂, hkey]

end Alike

end WorkerWorld

namespace ProcessCall

variable {call : ProcessCall}

theorem Unhindered.allowing (h : call.Unhindered) (userId : AccountId) (entriesAllowed : Bool) :
    (call.allowing userId entriesAllowed).Unhindered := by
  obtain ⟨flag, hcall⟩ := call.allowing_eq userId entriesAllowed
  rw [hcall]
  exact ⟨h.lock, h.reads, h.writes⟩

theorem allowing_same (h : call.Unhindered) (userId : AccountId) :
    WorkerWorld.SameCall (call.allowing userId false) (call.allowing userId true) := by
  refine ⟨?_, h.allowing userId false, h.allowing userId true⟩
  obtain ⟨flag, hcall⟩ := call.allowing_eq userId false
  obtain ⟨flag', hcall'⟩ := call.allowing_eq userId true
  exact ⟨flag', by rw [hcall, hcall']⟩

end ProcessCall

namespace Pass

variable {master : InstrumentMaster} {analyze : Analysis} {userId : AccountId}
  {entriesAllowed : Bool} {s s₁ s₂ : Pass} {c : ProcessCall × StrategyRow}

theorem step_raised (hraised : s.raised = true) :
    s.step master analyze userId entriesAllowed c = s := if_pos hraised

theorem step_call (master : InstrumentMaster) (analyze : Analysis) (userId : AccountId)
    (entriesAllowed : Bool) (c : ProcessCall × StrategyRow) (hraised : s.raised = false) :
    (s.step master analyze userId entriesAllowed c).world =
        (s.world.processCall master analyze (c.1.allowing userId entriesAllowed) c.2).1 ∧
      (s.step master analyze userId entriesAllowed c).raised =
        (s.world.processCall master analyze (c.1.allowing userId entriesAllowed) c.2).2 := by
  have hnot : ¬ s.raised = true := by simp [hraised]
  unfold step
  rw [if_neg hnot]
  exact ⟨rfl, rfl⟩

/-- A pass only adds closings. -/
theorem closed_step (master : InstrumentMaster) (analyze : Analysis) (userId : AccountId)
    (entriesAllowed : Bool) (c : ProcessCall × StrategyRow) (hraised : s.raised = false)
    (userId' : AccountId) (symbol : Symbol) :
    (s.step master analyze userId entriesAllowed c).closed userId' symbol =
      (s.closed userId' symbol).or
        (if ((c.1.allowing userId entriesAllowed).userId,
            master.symbolOf (c.1.allowing userId entriesAllowed).instrumentId) =
              (userId', symbol) then
          closing master analyze s.world (c.1.allowing userId entriesAllowed) c.2 else none) := by
  have hnot : ¬ s.raised = true := by simp [hraised]
  unfold step
  rw [if_neg hnot]
  unfold closed
  dsimp only
  rw [List.find?_append]
  -- The first closing found is the one that counts.
  cases s.closings.find? (fun c => decide (c.1 = (userId', symbol))) with
  | some found => rfl
  | none =>
    cases closing master analyze s.world (c.1.allowing userId entriesAllowed) c.2 with
    | none => split_ifs <;> rfl
    | some closing =>
      rw [Option.none_or, Option.toList_some, List.map_singleton, List.find?_singleton]
      split_ifs <;> simp_all

variable (master) in
/-- The two passes agree on the first closing of the position; and until there is one, on the
position, and whether they are still on their way. -/
structure Related (userId : AccountId) (instrumentId : String) (s₁ s₂ : Pass) : Prop where
  ground₁ : s₁.world.Grounded master
  ground₂ : s₂.world.Grounded master
  closed : s₁.closed userId (master.symbolOf instrumentId) =
    s₂.closed userId (master.symbolOf instrumentId)
  alike : s₁.closed userId (master.symbolOf instrumentId) = none →
    s₁.raised = s₂.raised ∧ s₁.world.Alike master userId instrumentId s₂.world

/-- A call behind which the position is open has not closed it. -/
theorem closing_of_held {w : WorkerWorld} {call : ProcessCall} {row : StrategyRow}
    (h : (w.processCall master analyze call row).1.isHeld call.userId
      (master.symbolOf call.instrumentId) = true) : closing master analyze w call row = none :=
  if_neg fun hclosed => Bool.false_ne_true (hclosed.2.symm.trans h)

/-- A call keeps the pass grounded. -/
theorem grounded_step (analyze : Analysis) (userId : AccountId) (entriesAllowed : Bool)
    (h : s.world.Grounded master) (c : ProcessCall × StrategyRow) :
    (s.step master analyze userId entriesAllowed c).world.Grounded master := by
  unfold step
  split_ifs
  · exact h
  · exact h.processCall analyze _ _

/-- **A call of the two passes** keeps them related. -/
theorem Related.step {instrumentId : String} (analyze : Analysis)
    (h : Related master userId instrumentId s₁ s₂) (hfree : c.1.Unhindered)
    (hquiet₁ : s₁.Quiet master analyze userId false c)
    (hquiet₂ : s₂.Quiet master analyze userId true c) :
    Related master userId instrumentId (s₁.step master analyze userId false c)
      (s₂.step master analyze userId true c) := by
  have hground₁ := grounded_step analyze userId false h.ground₁ c
  have hground₂ := grounded_step analyze userId true h.ground₂ c
  set symbol := master.symbolOf instrumentId with hsymbol
  -- A closing stays the first.
  have hkept : ∀ (s : Pass) (entriesAllowed : Bool) {closing : Closing},
      s.closed userId symbol = some closing →
        (s.step master analyze userId entriesAllowed c).closed userId symbol = some closing := by
    intro s entriesAllowed closing hclosed
    cases hraised : s.raised with
    | true => rwa [step_raised hraised]
    | false => rw [closed_step _ _ _ _ _ hraised, hclosed, Option.some_or]
  -- It has been closed in both passes already.
  cases hclosed : s₁.closed userId symbol with
  | some closing =>
    have hclosed₁ := hkept s₁ false hclosed
    have hclosed₂ := hkept s₂ true (h.closed.symm.trans hclosed)
    exact ⟨hground₁, hground₂, hclosed₁.trans hclosed₂.symm, fun hnone => by
      cases hclosed₁.symm.trans hnone⟩
  | none =>
    obtain ⟨hraised, halike⟩ := h.alike hclosed
    -- A pass that has raised makes no further call.
    cases hraised₁ : s₁.raised with
    | true =>
      rw [step_raised hraised₁, step_raised (hraised ▸ hraised₁)]
      exact h
    | false =>
      have hraised₂ : s₂.raised = false := hraised ▸ hraised₁
      have hcall := ProcessCall.allowing_same hfree userId
      have hreturns := halike.toInStep.raised analyze hcall h.ground₁ h.ground₂ (hquiet₁ hraised₁)
        (hquiet₂ hraised₂)
      obtain ⟨hworld₁, hreturns₁⟩ := step_call master analyze userId false c hraised₁
      obtain ⟨hworld₂, hreturns₂⟩ := step_call master analyze userId true c hraised₂
      have hclosed₁ := closed_step master analyze userId false c hraised₁ userId symbol
      have hclosed₂ := closed_step master analyze userId true c hraised₂ userId symbol
      rw [hclosed, Option.none_or] at hclosed₁
      rw [← h.closed, hclosed, Option.none_or] at hclosed₂
      set call₁ := c.1.allowing userId false with hcall₁
      set call₂ := c.1.allowing userId true with hcall₂
      have habout : call₂.userId = call₁.userId ∧ call₂.instrumentId = call₁.instrumentId := by
        obtain ⟨flag, hsame⟩ := hcall.same
        rw [hsame]
        exact ⟨rfl, rfl⟩
      rw [habout.1, habout.2] at hclosed₂
      -- The call is about the position, or about another.
      by_cases hown : (call₁.userId, call₁.instrumentId) = (userId, instrumentId)
      · obtain ⟨huser, hinstrument⟩ := Prod.mk.inj hown
        have hkey : (call₁.userId, master.symbolOf call₁.instrumentId) = (userId, symbol) := by
          rw [huser, hinstrument]
        have halike' : s₁.world.Alike master call₁.userId call₁.instrumentId s₂.world := by
          rw [huser, hinstrument]
          exact halike
        rw [if_pos hkey] at hclosed₁ hclosed₂
        rcases halike'.own analyze hcall h.ground₁ h.ground₂ c.2 with
          hstays | ⟨closing, hcloses₁, hcloses₂⟩
        · have hheld₂ : (s₂.world.processCall master analyze call₂ c.2).1.isHeld call₂.userId
              (master.symbolOf call₂.instrumentId) = true := by
            rw [habout.1, habout.2, WorkerWorld.isHeld, ← hstays.held]
            exact hstays.isHeld
          rw [closing_of_held hstays.isHeld] at hclosed₁
          rw [closing_of_held hheld₂] at hclosed₂
          refine ⟨hground₁, hground₂, hclosed₁.trans hclosed₂.symm, fun _ => ⟨?_, ?_⟩⟩
          · rw [hreturns₁, hreturns₂, hreturns]
          · rw [hworld₁, hworld₂, ← huser, ← hinstrument]
            exact hstays
        · rw [hcloses₁] at hclosed₁
          rw [hcloses₂] at hclosed₂
          exact ⟨hground₁, hground₂, hclosed₁.trans hclosed₂.symm, fun hnone => by
            cases hclosed₁.symm.trans hnone⟩
      · have hne : (call₁.userId, master.symbolOf call₁.instrumentId) ≠ (userId, symbol) :=
          master.key_ne hown
        rw [if_neg hne] at hclosed₁ hclosed₂
        refine ⟨hground₁, hground₂, hclosed₁.trans hclosed₂.symm, fun _ => ⟨?_, ?_⟩⟩
        · rw [hreturns₁, hreturns₂, hreturns]
        · rw [hworld₁, hworld₂]
          exact halike.elsewhere analyze hcall h.ground₁ h.ground₂ c.2 hown

/-- The two passes start from the same state. -/
theorem related_start {w : WorkerWorld} {instrumentId : String} (h : w.Grounded master)
    (hopen : w.isHeld userId (master.symbolOf instrumentId) = true) :
    Related master userId instrumentId { world := w } { world := w } where
  ground₁ := h
  ground₂ := h
  closed := by rfl
  alike _ :=
    ⟨by rfl,
      { clock := rfl
        strategies := rfl
        loaded := rfl
        series := rfl
        seen := rfl
        held := rfl
        isHeld := hopen
        orders := fun _ _ => Iff.rfl
        entry := fun _ => rfl }⟩

variable (master) in
/-- The user has no entry and no position that was not there before. -/
structure NothingNew (userId : AccountId) (w : WorkerWorld) (s : Pass) : Prop where
  grounded : s.world.Grounded master
  entries : (s.world.entries.filter fun mark => mark.userId = userId) =
    w.entries.filter fun mark => mark.userId = userId
  held : ∀ symbol, s.world.isHeld userId symbol = true → w.isHeld userId symbol = true

/-- One call of a pass with the user halted. -/
theorem NothingNew.step (analyze : Analysis) {userId : AccountId} {w : WorkerWorld} {s : Pass}
    (h : NothingNew master userId w s) {c : ProcessCall × StrategyRow} (hfree : c.1.Unhindered) :
    NothingNew master userId w (s.step master analyze userId false c) := by
  cases hraised : s.raised with
  | true =>
    rw [step_raised hraised]
    exact h
  | false =>
    have hfree' := hfree.allowing userId false
    -- The pass halts the entries of this user only.
    have hhalt : (c.1.allowing userId false).userId = userId →
        (c.1.allowing userId false).entriesAllowed = false := by
      unfold ProcessCall.allowing
      split_ifs with huser
      · exact fun _ => rfl
      · exact fun hself => absurd hself huser
    obtain ⟨hentries, hheld⟩ := h.grounded.halted analyze hfree'.writes hhalt c.2
    refine ⟨grounded_step analyze userId false h.grounded c, ?_, ?_⟩
    · rw [(step_call master analyze userId false c hraised).1]
      exact hentries.trans h.entries
    · rw [(step_call master analyze userId false c hraised).1]
      exact fun symbol hsymbol => h.held symbol (hheld symbol hsymbol)

/-- A pass with the user halted enters nothing for the user, and opens no position. -/
theorem halted_opens_nothing (analyze : Analysis) (userId : AccountId) {w : WorkerWorld}
    (h : w.Grounded master) {calls : List (ProcessCall × StrategyRow)}
    (hfree : ∀ c ∈ calls, c.1.Unhindered) :
    NothingNew master userId w (run (step master analyze userId false) { world := w } calls) := by
  have hall : Each (step master analyze userId false) (fun _ _ => True) { world := w } calls :=
    each_of_forall (fun _ _ => trivial) _ _
  have hcalls : Each (step master analyze userId false) (fun _ c => c.1.Unhindered ∧ True)
      { world := w } calls := hall.and_mem hfree
  have hstart : NothingNew master userId w { world := w } := ⟨h, rfl, fun _ hheld => hheld⟩
  have hstep : ∀ (s : Pass) (c : ProcessCall × StrategyRow), NothingNew master userId w s →
      c.1.Unhindered ∧ True → NothingNew master userId w (s.step master analyze userId false c) :=
    fun s c hs hc => hs.step analyze hc.1
  exact (throughout_of_each hstep hstart hcalls).last

/-- **A halt stops entries and not exits.** From any state that the worker gets to, the pass
with the user's account halted opens no position for the user, and closes each position
that is open at its start as the same pass without the halt does, if no call of the two
enters nothing into a position of nothing. -/
theorem halt_keeps_exits (master : InstrumentMaster) (analyze : Analysis) (userId : AccountId)
    {w : WorkerWorld} (hreach : w.Reachable master analyze)
    {calls : List (ProcessCall × StrategyRow)} (hfree : ∀ c ∈ calls, c.1.Unhindered)
    (hquiet : Each (step master analyze userId false)
        (Quiet master analyze userId false) { world := w } calls ∧
      Each (step master analyze userId true)
        (Quiet master analyze userId true) { world := w } calls) :
    let halted := run (step master analyze userId false) { world := w } calls
    let allowed := run (step master analyze userId true) { world := w } calls
    (halted.world.entries.filter fun mark => mark.userId = userId) =
        (w.entries.filter fun mark => mark.userId = userId) ∧
      (∀ symbol, halted.world.isHeld userId symbol = true → w.isHeld userId symbol = true) ∧
      ∀ instrumentId, w.isHeld userId (master.symbolOf instrumentId) = true →
        halted.closed userId (master.symbolOf instrumentId) =
          allowed.closed userId (master.symbolOf instrumentId) := by
  have hground := WorkerWorld.grounded_of_reachable hreach
  have hhalted := halted_opens_nothing analyze userId hground hfree
  refine ⟨hhalted.entries, hhalted.held, fun instrumentId hopen => ?_⟩
  -- The two passes stay related on a held position, call by call.
  have hstart : Related master userId instrumentId { world := w } { world := w } :=
    related_start hground hopen
  have hcalls₁ : Each (step master analyze userId false)
      (fun s c => c.1.Unhindered ∧ s.Quiet master analyze userId false c) { world := w } calls :=
    hquiet.1.and_mem hfree
  have hcalls₂ : Each (step master analyze userId true)
      (fun s c => c.1.Unhindered ∧ s.Quiet master analyze userId true c) { world := w } calls :=
    hquiet.2.and_mem hfree
  have hstep : ∀ s₁ s₂ c, Related master userId instrumentId s₁ s₂ →
      c.1.Unhindered ∧ s₁.Quiet master analyze userId false c →
      c.1.Unhindered ∧ s₂.Quiet master analyze userId true c →
      Related master userId instrumentId (s₁.step master analyze userId false c)
        (s₂.step master analyze userId true c) :=
    fun s₁ s₂ c hs hc₁ hc₂ => hs.step analyze hc₁.1 hc₁.2 hc₂.2
  exact (run_related_each hstep hstart hcalls₁ hcalls₂).closed

open WorkerWorld (selfNamed longFromThirdBar epoch fresh)

/-- A bar of one minute around 100. -/
def barOn (instrumentId : String) (minute : ℕ) (low : ℚ) : WorkerEvent :=
  .arrive instrumentId "1m"
    { timestamp := minute * Timestamp.microsPerMinute
      «open» := 100
      high := 101
      low := low
      close := 100 }

/-- A call for the user `u`, who risks so much on a trade. -/
def callOn (instrumentId : String) (seconds : ℕ) (riskPerTradePct : ℚ) : ProcessCall where
  userId := "u"
  strategyId := "s"
  instrumentId := instrumentId
  elapsed := seconds * 1000000
  settings := ⟨riskPerTradePct, 2, 10, 5⟩

/-- `B` is entered at 1 %. The user then goes down to what the column rounds to 0 %, `A` is
entered with nothing, and the next bar of `B` hits its stop. -/
def enteredWithNothing : List WorkerEvent :=
  [.edit "s" { name := "s", timeframe := "1m" }, .load "s",
    barOn "A" 0 99, barOn "A" 1 99, barOn "A" 2 99, barOn "B" 0 99, barOn "B" 1 99, barOn "B" 2 99,
    .process (callOn "B" 210 1), .process (callOn "A" 10 0), barOn "A" 3 99, barOn "B" 3 97]

def behindNothing : WorkerWorld :=
  run (WorkerWorld.step selfNamed longFromThirdBar) (fresh {} epoch) enteredWithNothing

/-- The next pass: `A`, and behind it `B`. -/
def nextPass (riskPerTradePct : ℚ) : List (ProcessCall × StrategyRow) :=
  let row : StrategyRow := ⟨"s", 1, { name := "s", timeframe := "1m" }⟩
  [(callOn "A" 60 riskPerTradePct, row), (callOn "B" 0 riskPerTradePct, row)]

theorem behindNothing_reachable :
    behindNothing.Reachable selfNamed longFromThirdBar ∧
      behindNothing.isHeld "u" (selfNamed.symbolOf "B") = true ∧
      ∀ riskPerTradePct, ∀ c ∈ nextPass riskPerTradePct, c.1.Unhindered := by
  refine ⟨⟨epoch, enteredWithNothing, rfl⟩, by decide +kernel, fun riskPerTradePct c hc => ?_⟩
  rcases List.mem_pair.mp hc with rfl | rfl <;> exact ⟨rfl, rfl, rfl⟩

/-- At 1 %, the pass that is not halted enters `A` once more; both close `B` at its stop. -/
theorem halt_keeps_exits_nextPass :
    let halted := run (step selfNamed longFromThirdBar "u" false) { world := behindNothing }
      (nextPass 1)
    let allowed := run (step selfNamed longFromThirdBar "u" true) { world := behindNothing }
      (nextPass 1)
    (halted.closed "u" "B").isSome ∧ halted.world.entries ≠ allowed.world.entries ∧
      halted.closed "u" "B" = allowed.closed "u" "B" := by
  obtain ⟨hreach, hheld, hfree⟩ := behindNothing_reachable
  exact ⟨by decide +kernel, by decide +kernel,
    (halt_keeps_exits selfNamed longFromThirdBar "u" hreach
    (hfree 1) ⟨by decide +kernel, by decide +kernel⟩).2.2 "B" hheld⟩

/-- At 0 %, the pass that is not halted enters nothing into the nothing of `A`, raises, and
does not get to `B`. -/
theorem nextPass_raises :
    behindNothing.Reachable selfNamed longFromThirdBar ∧
      (∀ c ∈ nextPass 0, c.1.Unhindered) ∧
      behindNothing.isHeld "u" (selfNamed.symbolOf "B") = true ∧
      (run (step selfNamed longFromThirdBar "u" false) { world := behindNothing }
          (nextPass 0)).closed "u" "B" ≠
        (run (step selfNamed longFromThirdBar "u" true) { world := behindNothing }
          (nextPass 0)).closed "u" "B" := by
  obtain ⟨hreach, hheld, hfree⟩ := behindNothing_reachable
  exact ⟨hreach, hfree 0, hheld, by decide +kernel⟩

end Pass

end SuperTrading
