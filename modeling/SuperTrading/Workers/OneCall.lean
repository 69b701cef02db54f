import SuperTrading.Workers.OpenRows

/-!
# What One Call Does

Every way a call of `_process` can change the books, the rows and the registries of the
auto-trader, for the position it is about and for all others. The invariants of whole runs
are read off this case analysis.

- **Layer A**: the supervisor
- **Layer B**: what a call finds
- **Layer C**: what a call leaves
-/

namespace SuperTrading

open SuperTrading.Logic
open Smc (Candle)

/-! ## Layer A: The supervisor -/

/-- The engine of a key: it trades the key's user, strategy and symbol, and caps no size. -/
structure PaperTradingEngine.Runs (e : PaperTradingEngine) (key : EngineKey) (symbol : Symbol) :
    Prop where
  accountId : e.accountId = key.userId
  symbol : e.symbol = symbol
  strategyId : e.strategyId = some key.strategyId
  uncapped : e.limits.maxPositionSize = none

theorem PaperTradingEngine.Runs.of_engine {e e' : PaperTradingEngine} {key : EngineKey}
    {symbol : Symbol} (h : e.Runs key symbol) (hsame : ∃ candles orders, e' = { e with
      candles := candles
      orderManager := orders }) : e'.Runs key symbol := by
  obtain ⟨candles, orders, rfl⟩ := hsame
  exact ⟨h.accountId, h.symbol, h.strategyId, h.uncapped⟩

theorem PaperTradingEngine.Runs.position_eq {e : PaperTradingEngine} {key : EngineKey}
    {symbol : Symbol} (h : e.Runs key symbol) (a : PaperAccount) :
    e.position a = a.positionManager.get key.userId symbol := by
  unfold PaperTradingEngine.position
  rw [h.accountId, h.symbol]

/-- A flat record is not marked. -/
theorem PaperTradingEngine.get_observed {e : PaperTradingEngine} {a : PaperAccount}
    (h : a.broker.Plain) (hflat : (e.position a).any PositionRecord.isOpen = false)
    (candle : Candle) (accountId : AccountId) (symbol : Symbol) :
    (e.observed a candle).positionManager.get accountId symbol =
      a.positionManager.get accountId symbol := by
  by_cases heq : (e.accountId, e.symbol) = (accountId, symbol)
  · obtain ⟨rfl, rfl⟩ := Prod.mk.inj heq
    refine (position_observed candle).trans ?_
    show _ = e.position a
    cases hp : e.position a with
    | none => rfl
    | some p =>
      rw [hp, Option.any_some] at hflat
      rw [Option.map_some, hflat]
      rfl
  · exact (observed_elsewhere h candle).others accountId symbol heq

namespace AutoTradeSupervisor

variable {s : AutoTradeSupervisor} {row : StrategyRow} {instrument : Instrument} {env : PassEnv}

/-- Built, given an edited strategy or kept, an engine is that of its key. -/
theorem runs_engine {key : EngineKey} (hid : row.id = key.strategyId)
    (h : ∀ e, s.engines.get? key = some e → e.Runs key instrument.symbol) :
    (s.engine key row instrument env).Runs key instrument.symbol := by
  unfold engine
  cases hget : s.engines.get? key with
  | none => exact ⟨rfl, rfl, congrArg some hid, rfl⟩
  | some e =>
    obtain ⟨haccount, hsymbol, hstrategy, -⟩ := h e hget
    dsimp only
    split_ifs <;> exact ⟨haccount, hsymbol, hstrategy, rfl⟩

/-- The orders of an engine are those of the one in memory. -/
theorem orderManager_engine (key : EngineKey) : (s.engine key row instrument env).orderManager =
    (s.engines.get? key).elim {} PaperTradingEngine.orderManager := by
  unfold engine
  cases s.engines.get? key with
  | none => rfl
  | some e =>
    dsimp only
    split_ifs <;> rfl

/-- The verdict is that of the supervisor that the call found. -/
theorem verdict_refreshed (key : EngineKey) (engine : PaperTradingEngine) (account : PaperAccount)
    (timeframe : String) (latest : Candle) (isOpen : Bool) :
    (s.refreshed key row engine account).verdict key timeframe latest isOpen env =
      s.verdict key timeframe latest isOpen env := rfl

/-- A call of `_process` that nothing stops feeds the newest candle. -/
theorem process_proceed {analyze : Analysis} {s : AutoTradeSupervisor} {candles : List Candle}
    {userId : AccountId} {row : StrategyRow} {instrument : Instrument} {env : PassEnv}
    {latest : Candle} {outcome : Except String PaperTradeOutcome} {engine : PaperTradingEngine}
    {account : PaperAccount} (hlast : candles.getLast? = some latest)
    (hproceed : s.verdict ⟨userId, row.id, instrument.id⟩ row.definition.timeframe latest
      (((s.engine ⟨userId, row.id, instrument.id⟩ row instrument env).position
        (s.account userId env)).any PositionRecord.isOpen) env = .proceed)
    (hfeed : feed analyze
      (seeded (s.engine ⟨userId, row.id, instrument.id⟩ row instrument env) candles)
      (s.account userId env) env latest = (outcome, engine, account)) :
    s.process analyze candles userId row instrument env =
      ({ s.refreshed ⟨userId, row.id, instrument.id⟩ row engine account with
          lastCandleSeen :=
            s.lastCandleSeen.set ⟨userId, row.id, instrument.id⟩ latest.timestamp },
        some ⟨latest, engine, outcome⟩) := by
  unfold process
  -- The verdict is of the engine and the account as the call refreshed them.
  rw [hlast]
  dsimp only
  rw [verdict_refreshed, hproceed]
  dsimp only
  rw [hfeed]
  simp only [refreshed, Dict.set_set]

/-- A call of `_process` that something stops leaves the engine, seeded or not, and the
account in memory. -/
theorem process_stopped (analyze : Analysis) (s : AutoTradeSupervisor) (candles : List Candle)
    (userId : AccountId) (row : StrategyRow) (instrument : Instrument) (env : PassEnv)
    (hstops : ∀ latest ∈ candles.getLast?,
      s.verdict ⟨userId, row.id, instrument.id⟩ row.definition.timeframe latest
        (((s.engine ⟨userId, row.id, instrument.id⟩ row instrument env).position
          (s.account userId env)).any PositionRecord.isOpen) env ≠ .proceed) :
    let key : EngineKey := ⟨userId, row.id, instrument.id⟩
    let engine := s.engine key row instrument env
    ∃ engine' lastCandleSeen, (engine' = engine ∨ engine' = seeded engine candles) ∧
      s.process analyze candles userId row instrument env =
        ({ s.refreshed key row engine' (s.account userId env) with
            lastCandleSeen := lastCandleSeen }, none) := by
  intro key engine
  unfold process
  cases hlast : candles.getLast? with
  | none => exact ⟨engine, s.lastCandleSeen, Or.inl rfl, rfl⟩
  | some latest =>
    dsimp only
    rw [verdict_refreshed]
    cases hv : s.verdict key row.definition.timeframe latest
        ((engine.position (s.account userId env)).any PositionRecord.isOpen) env with
    | seen => exact ⟨engine, s.lastCandleSeen, Or.inl rfl, rfl⟩
    | unsupported => exact ⟨engine, _, Or.inl rfl, rfl⟩
    | stale => exact ⟨engine, _, Or.inl rfl, rfl⟩
    | halted =>
      -- The engine was seeded before the halt was found, and keeps its candles.
      refine ⟨seeded engine candles, s.lastCandleSeen.set key latest.timestamp, Or.inr rfl, ?_⟩
      simp only [refreshed, Dict.set_set]
      rfl
    | deferred =>
      refine ⟨seeded engine candles, s.lastCandleSeen, Or.inr rfl, ?_⟩
      simp only [refreshed, Dict.set_set]
      rfl
    | proceed => exact absurd hv (hstops latest hlast)

/-- Seeding changes the candles only. -/
theorem seeded_eq (engine : PaperTradingEngine) (stored : List Candle) :
    ∃ candles, seeded engine stored = { engine with candles := candles } := by
  unfold seeded
  split_ifs
  · exact ⟨_, rfl⟩
  · exact ⟨engine.candles, rfl⟩

end AutoTradeSupervisor

/-! ## Layer B: What a call finds -/

namespace WorkerWorld

variable {master : InstrumentMaster} {analyze : Analysis} {w : WorkerWorld} {call : ProcessCall}
  {row : StrategyRow}

/-- The book of a user: the one in memory, or the one the rows rebuild. -/
def book (w : WorkerWorld) (userId : AccountId) : PositionManager :=
  ((w.supervisor.accounts.get? userId).getD (w.db.restoredAccount userId w.clock)).positionManager

/-- The user's record of a symbol. -/
def held (w : WorkerWorld) (userId : AccountId) (symbol : Symbol) : Option PositionRecord :=
  (w.book userId).get userId symbol

def isHeld (w : WorkerWorld) (userId : AccountId) (symbol : Symbol) : Bool :=
  (w.held userId symbol).any PositionRecord.isOpen

theorem isHeld_of_open {userId : AccountId} {symbol : Symbol} {p : PositionRecord}
    (hp : w.held userId symbol = some p) (hopen : p.isOpen = true) :
    w.isHeld userId symbol = true := by
  rw [isHeld, hp]
  exact hopen

/-- The orders of the engine of a key; one that is not built yet has none. -/
def ordersOf (w : WorkerWorld) (key : EngineKey) : OrderManager :=
  (w.supervisor.engines.get? key).elim {} PaperTradingEngine.orderManager

/-- Without an account in memory, what is held is what the open rows say. -/
theorem held_of_rows {userId : AccountId} (h : w.supervisor.accounts.get? userId = none)
    (symbol : Symbol) : w.held userId symbol =
      (w.db.openRows userId symbol).getLast?.map fun row => row.toPositionRow.restored userId := by
  unfold held book
  rw [h]
  exact AutoTradeDb.get_restored ..

theorem held_of_account {userId : AccountId} {account : PaperAccount}
    (h : w.supervisor.accounts.get? userId = some account) (symbol : Symbol) :
    w.held userId symbol = account.positionManager.get userId symbol := by
  unfold held book
  rw [h]
  rfl

variable (master) in
/-- The call feeds this candle: nothing stops it on the way to `on_candle`. -/
def Feeds (w : WorkerWorld) (call : ProcessCall) (row : StrategyRow) (latest : Candle) : Prop :=
  (w.storedOf call row).getLast? = some latest ∧
    w.supervisor.verdict (keyOf call row) row.definition.timeframe latest
      (((w.engineOf master call row).position (w.accountOf call)).any PositionRecord.isOpen)
      (w.callEnv call) = .proceed

variable (master) in
/-- Every engine in memory is that of its key, and every broker is plain. -/
structure Sound (w : WorkerWorld) : Prop where
  engines : ∀ key e, w.supervisor.engines.get? key = some e →
    e.Runs key (master.symbolOf key.instrumentId)
  brokers : ∀ userId account, w.supervisor.accounts.get? userId = some account →
    account.broker.Plain

theorem Sound.congr {w' : WorkerWorld} (h : w.Sound master) (hsame : w'.supervisor = w.supervisor) :
    w'.Sound master := by
  refine ⟨fun key e he => h.engines key e ?_,
    fun userId account haccount => h.brokers userId account ?_⟩
  · rwa [← hsame]
  · rwa [← hsame]

/-- A process that starts has built nothing yet. -/
theorem sound_started (hstarted : w.supervisor = {}) : w.Sound master := by
  refine ⟨fun key e he => ?_, fun userId account haccount => ?_⟩
  · rw [hstarted] at he
    cases he
  · rw [hstarted] at haccount
    cases haccount

theorem restored_plain (db : AutoTradeDb) (userId : AccountId) (now : Instant) :
    (db.restoredAccount userId now).broker.Plain := ⟨rfl, rfl, rfl, rfl⟩

/-- The book does not depend on when it is rebuilt. -/
theorem restored_book (db : AutoTradeDb) (userId : AccountId) (now : Instant) :
    (db.restoredAccount userId now).positionManager = PositionManager.restore {}
      ((db.positionsOf userId).loadOpenPositions userId .paper autoSourceKey) := rfl

theorem book_accountOf (w : WorkerWorld) (call : ProcessCall) :
    (w.accountOf call).positionManager = w.book call.userId := by
  unfold accountOf book AutoTradeSupervisor.account callEnv
  cases w.supervisor.accounts.get? call.userId with
  | none => simp only [Option.getD_none, restored_book]
  | some account => simp only [Option.getD_some]

theorem Sound.engineOf (h : w.Sound master) :
    (w.engineOf master call row).Runs (keyOf call row) (master.symbolOf call.instrumentId) :=
  AutoTradeSupervisor.runs_engine rfl (h.engines (keyOf call row))

theorem Sound.accountOf (h : w.Sound master) (call : ProcessCall) :
    (w.accountOf call).broker.Plain := by
  unfold WorkerWorld.accountOf AutoTradeSupervisor.account
  cases haccount : w.supervisor.accounts.get? call.userId with
  | none => exact restored_plain ..
  | some account => exact h.brokers _ _ haccount

/-- The position that a call looks at is the user's record of the symbol. -/
theorem Sound.position (h : w.Sound master) :
    (w.engineOf master call row).position (w.accountOf call) =
      w.held call.userId (master.symbolOf call.instrumentId) := by
  have hruns : (w.engineOf master call row).Runs (keyOf call row)
    (master.symbolOf call.instrumentId) := h.engineOf
  unfold PaperTradingEngine.position held
  rw [book_accountOf, hruns.accountId, hruns.symbol]
  rfl

/-! ## Layer C: What a call leaves -/

end WorkerWorld

namespace EntryRegistry

variable (r : EntryRegistry) (key key' : EngineKey)

/-- What the registries hold of a key. -/
def entry : Option Timestamp × Option ℕ := (r.openedAt.get? key, r.openedVersion.get? key)

theorem entry_stamp (openedAt : Timestamp) (version : ℕ) :
    (r.stamp key openedAt version).entry key' =
      if key = key' then (some openedAt, some version) else r.entry key' := by
  unfold entry stamp
  rw [Dict.get?_set, Dict.get?_set]
  split_ifs <;> rfl

theorem entry_pop : (r.pop key).entry key' = if key = key' then (none, none) else r.entry key' := by
  unfold entry pop
  rw [Dict.get?_erase, Dict.get?_erase]
  split_ifs <;> rfl

end EntryRegistry

namespace WorkerWorld

variable {master : InstrumentMaster} {analyze : Analysis} {w : WorkerWorld} {call : ProcessCall}
  {row : StrategyRow}

/-- The registries and the watcher's notes are as they were. -/
structure Unwritten (w w' : WorkerWorld) : Prop where
  registry : w'.registry = w.registry
  entries : w'.entries = w.entries
  opener : w'.opener = w.opener
  journaled : w'.journaled = w.journaled

variable (master) in
/-- What a call leaves beside the position it is about. -/
structure CallFrame (w : WorkerWorld) (call : ProcessCall) (row : StrategyRow) (w' : WorkerWorld) :
    Prop where
  sound : w'.Sound master
  clock : w'.clock = w.clock + call.elapsed
  starts : w'.starts = w.starts
  strategies : w'.strategies = w.strategies
  loaded : w'.loaded = w.loaded
  series : w'.series = w.series
  orders : ∀ key, key ≠ keyOf call row → w'.ordersOf key = w.ordersOf key
  others : ∀ userId symbol, (call.userId, master.symbolOf call.instrumentId) ≠ (userId, symbol) →
    w'.held userId symbol = w.held userId symbol

/-- Under which key a close looks for its entry. -/
def ownerKey (call : ProcessCall) (row : StrategyRow) (p : PositionRecord) : EngineKey :=
  ⟨call.userId, p.strategyId.getD row.id, call.instrumentId⟩

variable (master) in
/-- The trade that a close journals. -/
def tradeOf (w : WorkerWorld) (call : ProcessCall) (row : StrategyRow) (p : PositionRecord)
    (latest : Candle) (outcome : PaperTradeOutcome) (pnl : ℚ) : AutoTradeRow :=
  let owner := w.ownerRow row (p.strategyId.getD row.id)
  autoTradeRow call.userId (master.instrument call.instrumentId) row.definition.timeframe p outcome
    pnl owner ((w.registry.openedVersion.get? (ownerKey call row p)).getD owner.version)
    ((w.registry.openedAt.get? (ownerKey call row p)).getD latest.timestamp) latest.timestamp

/-- The entry that a watcher writes down. -/
def markOf (w : WorkerWorld) (call : ProcessCall) (row : StrategyRow) (latest : Candle) :
    EntryMark :=
  { userId := call.userId
    strategyId := row.id
    version := row.version
    openedAt := latest.timestamp
    filledAt := w.clock + call.elapsed
    starts := w.starts }

variable (master analyze) in
/-- **The ways a call can go** for the position it is about, if all its writes are committed:
nothing is fed, or the open position is kept, or a level of it is hit, or a flat one is
entered, or left flat. -/
inductive CallKind (w : WorkerWorld) (call : ProcessCall) (row : StrategyRow) (w' : WorkerWorld) :
    Prop
  | idle
      (held : w'.held call.userId (master.symbolOf call.instrumentId) =
        w.held call.userId (master.symbolOf call.instrumentId))
      (db : w'.db = w.db)
      (unwritten : Unwritten w w')
      (orders : (¬ ∃ latest, w.Feeds master call row latest) →
        w'.ordersOf (keyOf call row) = w.ordersOf (keyOf call row))
      (flat : ∀ latest, w.Feeds master call row latest →
        w.isHeld call.userId (master.symbolOf call.instrumentId) = false)
  | kept (p : PositionRecord) (latest : Candle)
      (feeds : w.Feeds master call row latest)
      (before : w.held call.userId (master.symbolOf call.instrumentId) = some p)
      (isOpen : p.isOpen = true)
      (miss : PaperTradingEngine.trigger p latest = none)
      (after : w'.held call.userId (master.symbolOf call.instrumentId) =
        some (p.marked latest.close))
      (db : w'.db = w.db.persistPosition call.userId w'.clock (p.marked latest.close))
      (unwritten : Unwritten w w')
      (orders : w'.ordersOf (keyOf call row) = w.ordersOf (keyOf call row))
  | exited (p p' : PositionRecord) (latest : Candle) (level : ℚ) (reason : ExitReason)
      (outcome : PaperTradeOutcome) (pnl : ℚ)
      (feeds : w.Feeds master call row latest)
      (before : w.held call.userId (master.symbolOf call.instrumentId) = some p)
      (isOpen : p.isOpen = true)
      (hit : PaperTradingEngine.trigger p latest = some (level, reason))
      (closes : (w.engineOf master call row).ExitGoesOut p latest →
        p' = (p.marked latest.close).closed level ∧ pnl = p'.realizedPnl - p.realizedPnl ∧
          outcome.exitPrice = some level)
      (refused : ¬ (w.engineOf master call row).ExitGoesOut p latest → p' = p.marked latest.close)
      (after : w'.held call.userId (master.symbolOf call.instrumentId) = some p')
      (db : w'.db = { w.db.persistPosition call.userId w'.clock p' with
        trades := w.db.trades ++ [w.tradeOf master call row p latest outcome pnl] })
      (registry : w'.registry = w.registry.pop (ownerKey call row p))
      (entries : w'.entries = w.entries)
      (opener : w'.opener = w.opener)
      (journaled : w'.journaled = w.journaled ++
        [(w.opener.get? (call.userId, master.symbolOf call.instrumentId),
          w.tradeOf master call row p latest outcome pnl)])
      (orders : ∀ key, ((w'.ordersOf (keyOf call row)).lookup key).isSome ↔
        key = (w.engineOf master call row).closeKey latest ∨
          ((w.ordersOf (keyOf call row)).lookup key).isSome)
      (fed : ∃ engine, w.fedBy master analyze call row = some ⟨latest, engine, .ok outcome⟩)
      (reported : outcome.closedPositionPnl = some pnl)
  | entered (p : PositionRecord) (latest : Candle)
      (feeds : w.Feeds master call row latest)
      (before : w.isHeld call.userId (master.symbolOf call.instrumentId) = false)
      (after : w'.held call.userId (master.symbolOf call.instrumentId) = some p)
      (isOpen : p.isOpen = true)
      (strategyId : p.strategyId = some row.id)
      (db : w'.db = w.db.persistPosition call.userId w'.clock p)
      (registry : w'.registry = w.registry.stamp (keyOf call row) latest.timestamp row.version)
      (entries : w'.entries = w.entries ++ [w.markOf call row latest])
      (opener : w'.opener =
        w.opener.set (call.userId, master.symbolOf call.instrumentId) (w.markOf call row latest))
      (journaled : w'.journaled = w.journaled)
  | passed (latest : Candle)
      (feeds : w.Feeds master call row latest)
      (before : w.isHeld call.userId (master.symbolOf call.instrumentId) = false)
      (after : w'.isHeld call.userId (master.symbolOf call.instrumentId) = false)
      (db : w'.db = (w'.held call.userId (master.symbolOf call.instrumentId)).elim w.db fun p =>
        w.db.persistPosition call.userId w'.clock p)
      (registry : w'.registry = w.registry ∨
        w'.registry = w.registry.stamp (keyOf call row) latest.timestamp row.version)
      (entries : w'.entries = w.entries)
      (opener : w'.opener = w.opener)
      (journaled : w'.journaled = w.journaled)

/-- A call stamps and pops keys of its user and instrument. -/
theorem CallKind.entry {w' : WorkerWorld} (h : CallKind master analyze w call row w')
    {key : EngineKey}
    (hne : (call.userId, call.instrumentId) ≠ (key.userId, key.instrumentId)) :
    w'.registry.entry key = w.registry.entry key := by
  -- A key of another user or instrument is none that the call writes.
  have hother : ∀ strategyId, (⟨call.userId, strategyId, call.instrumentId⟩ : EngineKey) ≠ key :=
    fun strategyId heq => hne (heq ▸ rfl)
  cases h with
  | idle _ _ hunwritten => rw [hunwritten.registry]
  | kept _ _ _ _ _ _ _ _ hunwritten => rw [hunwritten.registry]
  | exited _ _ _ _ _ _ _ _ _ _ _ _ _ _ _ hregistry =>
    rw [hregistry, EntryRegistry.entry_pop]
    exact if_neg (hother _)
  | entered _ _ _ _ _ _ _ _ hregistry =>
    rw [hregistry, EntryRegistry.entry_stamp]
    exact if_neg (hother _)
  | passed _ _ _ _ _ hregistry =>
    rcases hregistry with hregistry | hregistry
    · rw [hregistry]
    · rw [hregistry, EntryRegistry.entry_stamp]
      exact if_neg (hother _)

/-- A filled entry is written down for its own position. -/
theorem CallKind.opener {w' : WorkerWorld} (h : CallKind master analyze w call row w')
    {userId : AccountId}
    {symbol : Symbol} (hne : (call.userId, master.symbolOf call.instrumentId) ≠ (userId, symbol)) :
    w'.opener.get? (userId, symbol) = w.opener.get? (userId, symbol) := by
  cases h with
  | idle _ _ hunwritten => rw [hunwritten.opener]
  | kept _ _ _ _ _ _ _ _ hunwritten => rw [hunwritten.opener]
  | exited _ _ _ _ _ _ _ _ _ _ _ _ _ _ _ _ _ hopener => rw [hopener]
  | entered _ _ _ _ _ _ _ _ _ _ hopener => rw [hopener, Dict.get?_set_of_ne _ hne]
  | passed _ _ _ _ _ _ _ hopener => rw [hopener]

/-- A position never has two open rows. -/
theorem CallKind.rows {w' : WorkerWorld} (h : CallKind master analyze w call row w')
    (hone : ∀ userId symbol, (w.db.openRows userId symbol).length ≤ 1) (userId : AccountId)
    (symbol : Symbol) : (w'.db.openRows userId symbol).length ≤ 1 := by
  have hpersist := AutoTradeDb.openRows_persistPosition_le hone call.userId
  cases h with
  | idle _ hdb => exact hdb ▸ hone userId symbol
  | kept _ _ _ _ _ _ _ hdb => exact hdb ▸ hpersist ..
  | exited _ _ _ _ _ _ _ _ _ _ _ _ _ _ hdb => exact hdb ▸ hpersist ..
  | entered _ _ _ _ _ _ _ hdb => exact hdb ▸ hpersist ..
  | passed _ _ _ _ hdb =>
    rw [hdb]
    cases w'.held call.userId (master.symbolOf call.instrumentId) with
    | none => exact hone userId symbol
    | some p => exact hpersist ..

theorem symbol_of_held {userId : AccountId} {symbol : Symbol} {p : PositionRecord}
    (h : w.held userId symbol = some p) : p.symbol = symbol :=
  (PositionManager.key_of_get h).2

/-- The open rows of other positions stay as they are. -/
theorem CallKind.rows_elsewhere {w' : WorkerWorld} (h : CallKind master analyze w call row w')
    (hone : ∀ userId symbol, (w.db.openRows userId symbol).length ≤ 1) {userId : AccountId}
    {symbol : Symbol} (hne : (call.userId, master.symbolOf call.instrumentId) ≠ (userId, symbol)) :
    w'.db.openRows userId symbol = w.db.openRows userId symbol := by
  have hpersist : ∀ now p, w'.held call.userId (master.symbolOf call.instrumentId) = some p →
      (w.db.persistPosition call.userId now p).openRows userId symbol =
        w.db.openRows userId symbol := by
    intro now p hp
    rw [AutoTradeDb.openRows_persistPosition (hone _ _), symbol_of_held hp, if_neg hne]
  cases h with
  | idle _ hdb => rw [hdb]
  | kept _ _ _ _ _ _ hafter hdb => exact hdb ▸ hpersist _ _ hafter
  | exited _ _ _ _ _ _ _ _ _ _ _ _ _ hafter hdb => exact hdb ▸ hpersist _ _ hafter
  | entered _ _ _ _ hafter _ _ hdb => exact hdb ▸ hpersist _ _ hafter
  | passed _ _ _ _ hdb =>
    rw [hdb]
    cases hafter : w'.held call.userId (master.symbolOf call.instrumentId) with
    | none => rfl
    | some p => exact hpersist _ _ hafter

/-- What the world is around the supervisor once `_process` has passed through it. -/
structure Processed (w : WorkerWorld) (call : ProcessCall) (row : StrategyRow)
    (engine : PaperTradingEngine) (account : PaperAccount) (w' : WorkerWorld) : Prop where
  supervisor : ∃ lastCandleSeen, w'.supervisor =
    { w.supervisor.refreshed (keyOf call row) row engine account with
      lastCandleSeen := lastCandleSeen }
  clock : w'.clock = w.clock + call.elapsed
  starts : w'.starts = w.starts
  strategies : w'.strategies = w.strategies
  loaded : w'.loaded = w.loaded
  series : w'.series = w.series

variable {w' : WorkerWorld} {engine : PaperTradingEngine} {account : PaperAccount}

/-- What is held by the user of a call is what the account in memory holds. -/
theorem Processed.held (h : Processed w call row engine account w') (symbol : Symbol) :
    w'.held call.userId symbol = account.positionManager.get call.userId symbol := by
  obtain ⟨seen, hsupervisor⟩ := h.supervisor
  refine held_of_account ?_ symbol
  rw [hsupervisor]
  exact Dict.get?_set_self ..

/-- The orders behind a call are those of the engine that it leaves. -/
theorem Processed.ordersOf (h : Processed w call row engine account w') (key : EngineKey) :
    w'.ordersOf key = if keyOf call row = key then engine.orderManager else w.ordersOf key := by
  obtain ⟨seen, hsupervisor⟩ := h.supervisor
  have hget : w'.supervisor.engines.get? key =
      if keyOf call row = key then some engine else w.supervisor.engines.get? key := by
    rw [hsupervisor]
    exact Dict.get?_set ..
  unfold WorkerWorld.ordersOf
  rw [hget]
  split_ifs <;> rfl

/-- The frame of a call, from what it leaves of the engine, the account and the rows. -/
theorem Processed.frame (h : Processed w call row engine account w') (hsound : w.Sound master)
    (hruns : engine.Runs (keyOf call row) (master.symbolOf call.instrumentId))
    (hplain : account.broker.Plain)
    (hothers : ∀ userId symbol,
      (call.userId, master.symbolOf call.instrumentId) ≠ (userId, symbol) →
        account.positionManager.get userId symbol = (w.book call.userId).get userId symbol)
    (hrows : ∀ userId symbol, call.userId ≠ userId →
      w'.db.openRows userId symbol = w.db.openRows userId symbol) :
    CallFrame master w call row w' := by
  obtain ⟨seen, hsupervisor⟩ := h.supervisor
  have haccounts : ∀ userId, w'.supervisor.accounts.get? userId =
      if call.userId = userId then some account else w.supervisor.accounts.get? userId := by
    intro userId
    rw [hsupervisor]
    exact Dict.get?_set ..
  refine ⟨⟨?_, ?_⟩, h.clock, h.starts, h.strategies, h.loaded, h.series,
    fun key hkey => (h.ordersOf key).trans (if_neg hkey.symm), ?_⟩
  · -- The engines: the call's own runs for its key, and the others are as they were.
    intro key e he
    rw [hsupervisor] at he
    have he' : (w.supervisor.engines.set (keyOf call row) engine).get? key = some e := he
    rw [Dict.get?_set] at he'
    split at he'
    · rename_i heq
      cases he'
      exact heq ▸ hruns
    · exact hsound.engines key e he'
  · -- The accounts likewise.
    intro userId a ha
    rw [haccounts] at ha
    split at ha
    · cases ha
      exact hplain
    · exact hsound.brokers userId a ha
  · -- And so are the positions of any other user or symbol.
    intro userId symbol hne
    by_cases huser : call.userId = userId
    · subst huser
      rw [h.held, hothers _ _ hne]
      rfl
    · -- Another user's book is where it was, or is rebuilt from the same rows.
      cases hget : w.supervisor.accounts.get? userId with
      | some a =>
        have hget' : w'.supervisor.accounts.get? userId = some a := by
          rw [haccounts, if_neg huser, hget]
        rw [held_of_account hget, held_of_account hget']
      | none =>
        have hget' : w'.supervisor.accounts.get? userId = none := by
          rw [haccounts, if_neg huser, hget]
        rw [held_of_rows hget, held_of_rows hget', hrows userId symbol huser]

/-- What is journaled is beside the supervisor. -/
theorem Processed.written {w₁ : WorkerWorld} (h : Processed w call row engine account w₁)
    (hsame : ∃ db registry entries opener journaled, w' = { w₁ with
      db := db
      registry := registry
      entries := entries
      opener := opener
      journaled := journaled }) : Processed w call row engine account w' := by
  obtain ⟨db, registry, entries, opener, journaled, rfl⟩ := hsame
  exact ⟨h.supervisor, h.clock, h.starts, h.strategies, h.loaded, h.series⟩

/-- The world behind `_process`, before anything is journaled. -/
theorem processed {fed : Option AutoTradeSupervisor.FedCandle}
    {lastCandleSeen : Dict EngineKey Timestamp}
    (h : w.supervisor.process analyze (w.storedOf call row) call.userId row
      (master.instrument call.instrumentId) (w.passEnv master call row) =
        ({ w.supervisor.refreshed (keyOf call row) row engine account with
            lastCandleSeen := lastCandleSeen }, fed)) :
    Processed w call row engine account (w.unwritten master analyze call row) where
  supervisor := ⟨lastCandleSeen, congrArg Prod.fst h⟩
  clock := rfl
  starts := rfl
  strategies := rfl
  loaded := rfl
  series := rfl

/-- The writes of a candle, all of them committed. -/
theorem journal_eq (hwrites : call.writeFails = none) (w : WorkerWorld) (row : StrategyRow)
    (instrument : Instrument) (before after : Option PositionRecord) (latest : Candle)
    (outcome : PaperTradeOutcome) :
    w.journal call row instrument before after latest outcome =
      let w := { w with
        db := after.elim w.db fun position => w.db.persistPosition call.userId w.clock position
        registry :=
          if outcome.orderCreated then
            w.registry.stamp ⟨call.userId, row.id, instrument.id⟩ latest.timestamp row.version
          else w.registry }
      match before, outcome.closedPositionPnl with
      | some position, some pnl => w.journalClose call row instrument position latest outcome pnl
      | _, _ => (w, false) := by
  unfold journal
  simp only [hwrites, reduceCtorEq, and_false, if_false]
  split_ifs <;> rfl

/-- A call whose `on_candle` returns, as the writes behind it. -/
theorem processCall_ok {latest : Candle} {outcome : PaperTradeOutcome}
    (hfed : w.fedBy master analyze call row = some ⟨latest, engine, .ok outcome⟩)
    (h : Processed w call row engine account (w.unwritten master analyze call row)) :
    w.processCall master analyze call row =
      ((w.unwritten master analyze call row).watched call row (master.instrument call.instrumentId)
        latest outcome).journal call row (master.instrument call.instrumentId)
          (((w.engineOf master call row).position (w.accountOf call)).filter PositionRecord.isOpen)
          (engine.position account) latest outcome := by
  obtain ⟨seen, hsupervisor⟩ := h.supervisor
  have haccount : (w.unwritten master analyze call row).supervisor.accounts.get? call.userId =
      some account := by
    rw [hsupervisor]
    exact Dict.get?_set_self ..
  unfold processCall
  rw [hfed]
  dsimp only
  rw [haccount, Option.bind_some]

variable (master) in
/-- The engine that a fed candle finds. -/
def seededOf (w : WorkerWorld) (call : ProcessCall) (row : StrategyRow) : PaperTradingEngine :=
  AutoTradeSupervisor.seeded (w.engineOf master call row) (w.storedOf call row)

theorem orderManager_engineOf (w : WorkerWorld) (call : ProcessCall) (row : StrategyRow) :
    (w.engineOf master call row).orderManager = w.ordersOf (keyOf call row) :=
  AutoTradeSupervisor.orderManager_engine ..

/-- Seeding leaves the orders, and under which key a close is sent. -/
theorem orders_seededOf (master : InstrumentMaster) (w : WorkerWorld) (call : ProcessCall)
    (row : StrategyRow) :
    (w.seededOf master call row).orderManager = w.ordersOf (keyOf call row) ∧
      (w.seededOf master call row).closeKey = (w.engineOf master call row).closeKey := by
  obtain ⟨candles, hseeded⟩ := AutoTradeSupervisor.seeded_eq (w.engineOf master call row)
    (w.storedOf call row)
  unfold WorkerWorld.seededOf
  rw [hseeded]
  exact ⟨orderManager_engineOf w call row, rfl⟩

/-- A call that feeds its candle, as what that leaves. -/
theorem fed {latest : Candle} {outcome : Except String PaperTradeOutcome}
    (hfeeds : w.Feeds master call row latest)
    (hfeed : AutoTradeSupervisor.feed analyze (w.seededOf master call row) (w.accountOf call)
      (w.passEnv master call row) latest = (outcome, engine, account)) :
    Processed w call row engine account (w.unwritten master analyze call row) ∧
      w.fedBy master analyze call row = some ⟨latest, engine, outcome⟩ := by
  have hprocess : w.supervisor.process analyze (w.storedOf call row) call.userId row
      (master.instrument call.instrumentId) (w.passEnv master call row) = _ :=
    AutoTradeSupervisor.process_proceed hfeeds.1 hfeeds.2 hfeed
  exact ⟨processed hprocess, congrArg Prod.snd hprocess⟩

/-- A call whose `on_candle` returns. -/
theorem returned (analyze : Analysis) {latest : Candle} {outcome : PaperTradeOutcome}
    (hfeeds : w.Feeds master call row latest) (hraised : (w.passEnv master call row).raised = none)
    (hcall : (w.seededOf master call row).onCandle analyze (w.accountOf call)
      (w.callEnv call).paper latest = .ok (outcome, engine, account)) :
    w.fedBy master analyze call row = some ⟨latest, engine, .ok outcome⟩ ∧
      Processed w call row engine account (w.unwritten master analyze call row) ∧
      w.processCall master analyze call row =
        ((w.unwritten master analyze call row).watched call row
          (master.instrument call.instrumentId) latest outcome).journal call row
            (master.instrument call.instrumentId)
              (((w.engineOf master call row).position (w.accountOf call)).filter
                PositionRecord.isOpen)
              (engine.position account) latest outcome := by
  have hfeed : AutoTradeSupervisor.feed analyze (w.seededOf master call row) (w.accountOf call)
      (w.passEnv master call row) latest = (.ok outcome, engine, account) := by
    -- The environment of the pass differs from that of the call in what raises.
    have hcall' : (w.seededOf master call row).onCandle analyze (w.accountOf call)
      (w.passEnv master call row).paper latest = .ok (outcome, engine, account) := hcall
    rw [AutoTradeSupervisor.feed, hraised, hcall']
  obtain ⟨hprocessed, hfed⟩ := fed hfeeds hfeed
  exact ⟨hfed, hprocessed, processCall_ok hfed hprocessed⟩

/-- The engine that is fed is that of the key, with its orders. -/
theorem Sound.seededOf (h : w.Sound master) (call : ProcessCall) (row : StrategyRow) :
    (w.seededOf master call row).Runs (keyOf call row) (master.symbolOf call.instrumentId) ∧
      (w.seededOf master call row).position (w.accountOf call) =
        w.held call.userId (master.symbolOf call.instrumentId) ∧
      ∀ p latest, (w.seededOf master call row).ExitGoesOut p latest ↔
        (w.engineOf master call row).ExitGoesOut p latest := by
  obtain ⟨candles, hseeded⟩ := AutoTradeSupervisor.seeded_eq (w.engineOf master call row)
    (w.storedOf call row)
  unfold WorkerWorld.seededOf
  rw [hseeded]
  exact ⟨h.engineOf.of_engine ⟨_, _, rfl⟩, h.position, fun _ _ => Iff.rfl⟩

/-- A call that writes nothing leaves everything but the supervisor. -/
theorem call_idle (hsound : w.Sound master)
    (hruns : engine.Runs (keyOf call row) (master.symbolOf call.instrumentId))
    (hplain : account.broker.Plain)
    (hbook : ∀ userId symbol, account.positionManager.get userId symbol =
      (w.book call.userId).get userId symbol)
    (horders : (¬ ∃ latest, w.Feeds master call row latest) →
      engine.orderManager = w.ordersOf (keyOf call row))
    (hflat : ∀ latest, w.Feeds master call row latest →
      w.isHeld call.userId (master.symbolOf call.instrumentId) = false)
    (h : Processed w call row engine account (w.unwritten master analyze call row)) :
    CallFrame master w call row (w.unwritten master analyze call row) ∧
      CallKind master analyze w call row (w.unwritten master analyze call row) :=
  ⟨h.frame hsound hruns hplain (fun _ _ _ => hbook ..) fun _ _ _ => rfl,
    .idle ((h.held _).trans (hbook ..)) rfl ⟨rfl, rfl, rfl, rfl⟩
      (fun hno => (h.ordersOf _).trans ((if_pos rfl).trans (horders hno))) hflat⟩

/-- What a call leaves elsewhere is what the book has there. -/
theorem Sound.others (h : w.Sound master) {account : PaperAccount}
    (helse : PaperTradingEngine.Elsewhere (w.seededOf master call row) (w.accountOf call) account) :
    ∀ userId symbol, (call.userId, master.symbolOf call.instrumentId) ≠ (userId, symbol) →
      account.positionManager.get userId symbol = (w.book call.userId).get userId symbol := by
  intro userId symbol hne
  obtain ⟨hruns, -, -⟩ := h.seededOf call row
  rw [helse.others userId symbol (by rwa [hruns.accountId, hruns.symbol]), book_accountOf]

/-- An engine that holds a position does not raise. -/
theorem Sound.not_raised (h : w.Sound master) {p : PositionRecord}
    (hheld : w.held call.userId (master.symbolOf call.instrumentId) = some p)
    (hopen : p.isOpen = true) : (w.passEnv master call row).raised = none := by
  refine if_neg ?_
  rintro ⟨-, hflat⟩
  rw [h.position, hheld, Option.any_some, hopen] at hflat
  cases hflat

/-- What a read that fails leaves: the candle is marked, and nothing else was done. -/
theorem raised_passEnv {latest : Candle} (hfeeds : w.Feeds master call row latest)
    {orders : OrderManager} {account : PaperAccount}
    (hraised : (w.passEnv master call row).raised = some (orders, account)) :
    account = (w.engineOf master call row).observed (w.accountOf call) latest := by
  unfold passEnv at hraised
  dsimp only at hraised
  split_ifs at hraised
  rw [hfeeds.1] at hraised
  exact (Prod.mk.inj (Option.some.inj hraised)).2.symm

/-- A call whose `on_candle` raises on a flat position writes nothing. -/
theorem call_raised (hsound : w.Sound master) {latest : Candle}
    (hfeeds : w.Feeds master call row latest)
    (hflat : w.isHeld call.userId (master.symbolOf call.instrumentId) = false) {message : String}
    (hfeed : AutoTradeSupervisor.feed analyze (w.seededOf master call row) (w.accountOf call)
      (w.passEnv master call row) latest = (.error message, engine, account))
    (hruns : engine.Runs (keyOf call row) (master.symbolOf call.instrumentId))
    (hplain : account.broker.Plain)
    (hbook : ∀ userId symbol, account.positionManager.get userId symbol =
      (w.book call.userId).get userId symbol) :
    CallFrame master w call row (w.processCall master analyze call row).1 ∧
      CallKind master analyze w call row (w.processCall master analyze call row).1 := by
  obtain ⟨hprocessed, hfed⟩ := fed hfeeds hfeed
  have hcall : w.processCall master analyze call row =
      (w.unwritten master analyze call row, true) := by
    unfold processCall
    rw [hfed]
  rw [hcall]
  exact call_idle hsound hruns hplain hbook (fun hno => absurd ⟨latest, hfeeds⟩ hno)
    (fun _ _ => hflat) hprocessed

section Calls

variable (analyze : Analysis) (hsound : w.Sound master)
  (hrows : ∀ p now userId symbol, call.userId ≠ userId →
    (w.db.persistPosition call.userId now p).openRows userId symbol = w.db.openRows userId symbol)
  (hwrites : call.writeFails = none) {latest : Candle} (hfeeds : w.Feeds master call row latest)

include hsound hrows hwrites hfeeds

/-- The call that finds the position open, on a candle that hits no level of it. -/
theorem call_kept {p : PositionRecord}
    (hheld : w.held call.userId (master.symbolOf call.instrumentId) = some p)
    (hopen : p.isOpen = true) (hmiss : PaperTradingEngine.trigger p latest = none) :
    CallFrame master w call row (w.processCall master analyze call row).1 ∧
      CallKind master analyze w call row (w.processCall master analyze call row).1 := by
  obtain ⟨hruns, hposition, -⟩ := hsound.seededOf call row
  obtain ⟨account, hcall, helse, hafter⟩ := PaperTradingEngine.onCandle_hold analyze
    (w.callEnv call).paper (hsound.accountOf call) (hposition.trans hheld) hopen hmiss
  set engine : PaperTradingEngine := { w.seededOf master call row with
    candles := (w.seededOf master call row).candles ++ [latest] }
  -- No order goes out, so that the mirror of the marked position is all that is written.
  obtain ⟨hfed, hprocessed, hjournal⟩ :=
    returned analyze hfeeds (hsound.not_raised hheld hopen) hcall
  have hheld' : account.positionManager.get call.userId (master.symbolOf call.instrumentId) =
      some (p.marked latest.close) := (hruns.position_eq account).symm.trans hafter
  have hwritten : (w.processCall master analyze call row).1 =
      { w.unwritten master analyze call row with
        db :=
          w.db.persistPosition call.userId (w.clock + call.elapsed) (p.marked latest.close) } := by
    have hbefore : ((w.engineOf master call row).position (w.accountOf call)).filter
        PositionRecord.isOpen = some p := by
      rw [hsound.position, hheld, Option.filter_some, if_pos hopen]
    have hrecord : engine.position account = some (p.marked latest.close) := hafter
    rw [hjournal, journal_eq hwrites, hbefore, hrecord]
    rfl
  have hprocessed' : Processed w call row engine account
      (w.processCall master analyze call row).1 := by
    rw [hwritten]
    exact hprocessed.written ⟨_, _, _, _, _, rfl⟩
  have hrows' := hrows (p.marked latest.close) (w.clock + call.elapsed)
  refine ⟨hprocessed'.frame hsound (hruns.of_engine ⟨_, _, rfl⟩) helse.plain
      (hsound.others helse) ?_,
    .kept p latest hfeeds hheld hopen hmiss ((hprocessed'.held _).trans hheld') ?_ ?_
      ((hprocessed'.ordersOf _).trans ((if_pos rfl).trans (orders_seededOf master w call row).1))⟩
  all_goals rw [hwritten]
  · exact hrows'
  · rfl
  · exact ⟨rfl, rfl, rfl, rfl⟩

/-- The call that finds the position open, on a candle that hits a level of it. -/
theorem call_exited {p : PositionRecord}
    (hheld : w.held call.userId (master.symbolOf call.instrumentId) = some p)
    (hopen : p.isOpen = true) {level : ℚ} {reason : ExitReason}
    (hhit : PaperTradingEngine.trigger p latest = some (level, reason)) :
    CallFrame master w call row (w.processCall master analyze call row).1 ∧
      CallKind master analyze w call row (w.processCall master analyze call row).1 := by
  obtain ⟨hruns, hposition, hexits⟩ := hsound.seededOf call row
  obtain ⟨outcome, engine, account, hcall, helse, ⟨hengine, hkeys⟩, hcreated, -, hends⟩ :=
    PaperTradingEngine.onCandle_hit analyze (w.callEnv call).paper (hsound.accountOf call)
      (hposition.trans hheld) hopen hhit
  obtain ⟨hfed, hprocessed, hjournal⟩ :=
    returned analyze hfeeds (hsound.not_raised hheld hopen) hcall
  have hruns' : engine.Runs (keyOf call row) (master.symbolOf call.instrumentId) :=
    hruns.of_engine (hengine.elim fun _ heq => ⟨_, _, heq⟩)
  -- An engine keeps its account and its symbol, so its position is the seeded engine's.
  have hsame : engine.position account = (w.seededOf master call row).position account :=
    (hruns'.position_eq account).trans (hruns.position_eq account).symm
  -- The exit closes the position at the level, or is refused and leaves it marked.
  have hends' : ∃ p' pnl, (w.seededOf master call row).position account = some p' ∧
      outcome.closedPositionPnl = some pnl ∧
      ((w.engineOf master call row).ExitGoesOut p latest →
        p' = (p.marked latest.close).closed level ∧ pnl = p'.realizedPnl - p.realizedPnl ∧
          outcome.exitPrice = some level) ∧
      (¬ (w.engineOf master call row).ExitGoesOut p latest → p' = p.marked latest.close) := by
    by_cases hgoes : (w.engineOf master call row).ExitGoesOut p latest
    · rw [if_pos ((hexits p latest).mpr hgoes)] at hends
      obtain ⟨hafter, hpnl, hprice⟩ := hends
      exact ⟨_, _, hafter, hpnl, fun _ => ⟨rfl, rfl, hprice⟩, fun hno => absurd hgoes hno⟩
    · rw [if_neg (mt (hexits p latest).mp hgoes)] at hends
      obtain ⟨hafter, hpnl⟩ := hends
      exact ⟨_, _, hafter, hpnl, fun h => absurd h hgoes, fun _ => rfl⟩
  obtain ⟨p', pnl, hafter, hpnl, hcloses, hrefused⟩ := hends'
  set trade := w.tradeOf master call row p latest outcome pnl with htrade
  -- Either way the position and a trade are written, and the entry of the registry is popped.
  have hwritten : (w.processCall master analyze call row).1 =
      { w.unwritten master analyze call row with
        db := { w.db.persistPosition call.userId (w.clock + call.elapsed) p' with
          trades := w.db.trades ++ [trade] }
        registry := w.registry.pop (ownerKey call row p)
        journaled := w.journaled ++
          [(w.opener.get? (call.userId, master.symbolOf call.instrumentId), trade)] } := by
    have hbefore : ((w.engineOf master call row).position (w.accountOf call)).filter
        PositionRecord.isOpen = some p := by
      rw [hsound.position, hheld, Option.filter_some, if_pos hopen]
    have hwatched : (w.unwritten master analyze call row).watched call row
        (master.instrument call.instrumentId) latest outcome =
          w.unwritten master analyze call row := by
      simp [watched, PaperTradeOutcome.entryFilled, hcreated]
    rw [hjournal, journal_eq hwrites, hbefore, hsame, hafter, hwatched, hpnl, hcreated,
      ← AutoTradeDb.trades_persistPosition w.db call.userId (w.clock + call.elapsed) p']
    dsimp only
    unfold journalClose
    rw [hwrites]
    rfl
  have hprocessed' : Processed w call row engine account
      (w.processCall master analyze call row).1 := by
    rw [hwritten]
    exact hprocessed.written ⟨_, _, _, _, _, rfl⟩
  refine ⟨hprocessed'.frame hsound hruns' helse.plain (hsound.others helse) ?_,
    .exited p p' latest level reason outcome pnl hfeeds hheld hopen hhit hcloses hrefused ?_ ?_
      ?_ ?_
      ?_ ?_ (fun key => ?_) ⟨engine, hfed⟩ hpnl⟩
  · -- The rows of others, the position, and the fields that were written, one by one.
    rw [hwritten]
    exact hrows _ _
  · rw [hprocessed'.held, ← hafter, hruns.position_eq account]
    rfl
  · rw [hwritten]
    rfl
  · rw [hwritten]
  · rw [hwritten]
    rfl
  · rw [hwritten]
    rfl
  · rw [hwritten]
  · obtain ⟨horders, hclose⟩ := orders_seededOf master w call row
    rw [hprocessed'.ordersOf, if_pos rfl, hkeys, horders, hclose]

/-- The call that finds the position open. -/
theorem call_open {p : PositionRecord}
    (hheld : w.held call.userId (master.symbolOf call.instrumentId) = some p)
    (hopen : p.isOpen = true) :
    CallFrame master w call row (w.processCall master analyze call row).1 ∧
      CallKind master analyze w call row (w.processCall master analyze call row).1 := by
  cases hhit : PaperTradingEngine.trigger p latest with
  | none => exact call_kept analyze hsound hrows hwrites hfeeds hheld hopen hhit
  | some hit => exact call_exited analyze hsound hrows hwrites hfeeds hheld hopen hhit

omit hrows in
/-- The watched row is stamped for an order, and the position is written if there is one. -/
theorem written_unheld (hflat : w.isHeld call.userId (master.symbolOf call.instrumentId) = false)
    (hraised : (w.passEnv master call row).raised = none) {outcome : PaperTradeOutcome}
    {engine : PaperTradingEngine} {account : PaperAccount}
    (hcall : (w.seededOf master call row).onCandle analyze (w.accountOf call)
      (w.callEnv call).paper latest = .ok (outcome, engine, account)) :
    (w.processCall master analyze call row).1 =
      { (w.unwritten master analyze call row).watched call row
          (master.instrument call.instrumentId) latest outcome with
        db := (engine.position account).elim w.db fun p =>
          w.db.persistPosition call.userId (w.clock + call.elapsed) p
        registry :=
          if outcome.orderCreated then
            w.registry.stamp (keyOf call row) latest.timestamp row.version
          else w.registry } := by
  obtain ⟨-, -, hjournal⟩ := returned analyze hfeeds hraised hcall
  have hbefore : ((w.engineOf master call row).position (w.accountOf call)).filter
      PositionRecord.isOpen = none := by
    rw [hsound.position]
    cases hp : w.held call.userId (master.symbolOf call.instrumentId) with
    | none => rfl
    | some p => simpa [isHeld, hp, Option.filter] using hflat
  -- What the watcher notes is none of what the journal reads.
  have hsplit : ∃ entries opener, (w.unwritten master analyze call row).watched call row
      (master.instrument call.instrumentId) latest outcome =
        { w.unwritten master analyze call row with
          entries := entries
          opener := opener } := by
    rw [WorkerWorld.watched]
    split_ifs <;> exact ⟨_, _, rfl⟩
  obtain ⟨entries, opener, hsplit⟩ := hsplit
  rw [hjournal, journal_eq hwrites, hbefore, hsplit]
  rfl

/-- The call that finds the position flat, and whose `on_candle` returns. -/
theorem call_unheld (hflat : w.isHeld call.userId (master.symbolOf call.instrumentId) = false)
    (hraised : (w.passEnv master call row).raised = none) {outcome : PaperTradeOutcome}
    {engine : PaperTradingEngine} {account : PaperAccount}
    (hcall : (w.seededOf master call row).onCandle analyze (w.accountOf call)
      (w.callEnv call).paper latest = .ok (outcome, engine, account))
    (hends : PaperTradingEngine.Flat (w.seededOf master call row) (w.accountOf call)
      ((w.seededOf master call row).Takes analyze (w.accountOf call) (w.callEnv call).paper latest)
      outcome account) :
    CallFrame master w call row (w.processCall master analyze call row).1 ∧
      CallKind master analyze w call row (w.processCall master analyze call row).1 := by
  obtain ⟨helse, hpnl, -, hentered, hstayed⟩ := hends
  obtain ⟨hruns, -, -⟩ := hsound.seededOf call row
  obtain ⟨-, hprocessed, -⟩ := returned analyze hfeeds hraised hcall
  obtain ⟨orders, hengine⟩ := PaperTradingEngine.onCandle_engine hcall
  have hruns' : engine.Runs (keyOf call row) (master.symbolOf call.instrumentId) :=
    hruns.of_engine ⟨_, _, hengine⟩
  have hsame : engine.position account = (w.seededOf master call row).position account :=
    (hruns'.position_eq account).trans (hruns.position_eq account).symm
  set watched := (w.unwritten master analyze call row).watched call row
    (master.instrument call.instrumentId) latest outcome with hwatched
  have hwritten := written_unheld analyze hsound hwrites hfeeds hflat hraised hcall
  rw [← hwatched] at hwritten
  -- The writes are of the database and the registries, so the supervisor is as the call left it.
  have hprocessed' : Processed w call row engine account
      (w.processCall master analyze call row).1 := by
    rw [hwritten, hwatched, WorkerWorld.watched]
    split_ifs <;> exact hprocessed.written ⟨_, _, _, _, _, rfl⟩
  have hheld : (w.processCall master analyze call row).1.held call.userId
      (master.symbolOf call.instrumentId) = (w.seededOf master call row).position account :=
    (hprocessed'.held _).trans (hruns.position_eq account).symm
  refine ⟨hprocessed'.frame hsound hruns' helse.plain (hsound.others helse) ?_, ?_⟩
  · -- The one row written is of the caller.
    rw [hwritten]
    intro userId symbol hne
    cases engine.position account with
    | none => rfl
    | some p => exact hrows _ _ userId symbol hne
  -- The position is open after the call exactly if an entry filled.
  cases hfilled : outcome.entryFilled with
  | true =>
    obtain ⟨signal, htakes, hp⟩ := hentered hfilled
    set p := (w.seededOf master call row).entered (w.accountOf call) signal
    have hopen : p.isOpen = true := htakes.isOpen (hsound.accountOf call)
    have hcreated : outcome.orderCreated = true := (Bool.and_eq_true_iff.mp hfilled).1
    refine .entered p latest hfeeds hflat (hheld.trans hp) hopen hruns.strategyId ?_ ?_ ?_ ?_ ?_
    all_goals rw [hwritten, hwatched, WorkerWorld.watched, if_pos hfilled]
    · rw [hsame, hp]
      rfl
    · exact if_pos hcreated
    all_goals rfl
  | false =>
    have hnot : ¬ outcome.entryFilled = true := by simp [hfilled]
    refine .passed latest hfeeds hflat ?_ ?_ ?_ ?_ ?_ ?_
    · rw [isHeld, hheld]
      exact (hstayed hfilled).2
    · rw [hheld, ← hsame, hwritten, hwatched, WorkerWorld.watched, if_neg hnot]
      rfl
    · -- An order that did not fill is stamped all the same.
      rw [hwritten]
      by_cases hcreated : outcome.orderCreated = true
      · exact Or.inr (if_pos hcreated)
      · exact Or.inl (if_neg hcreated)
    all_goals rw [hwritten, hwatched, WorkerWorld.watched, if_neg hnot]
    all_goals rfl

/-- The call that finds the position flat. -/
theorem call_flat (hflat : w.isHeld call.userId (master.symbolOf call.instrumentId) = false) :
    CallFrame master w call row (w.processCall master analyze call row).1 ∧
      CallKind master analyze w call row (w.processCall master analyze call row).1 := by
  have hplain := hsound.accountOf call
  have hbook := book_accountOf w call
  obtain ⟨hruns, hposition, -⟩ := hsound.seededOf call row
  cases hraised : (w.passEnv master call row).raised with
  | some raised =>
    obtain ⟨orders, account⟩ := raised
    -- A read of the database fails before the entry.
    have hread := raised_passEnv hfeeds hraised
    have hfeed : AutoTradeSupervisor.feed analyze (w.seededOf master call row) (w.accountOf call)
        (w.passEnv master call row) latest = (.error "raised", { w.seededOf master call row with
          candles := (w.seededOf master call row).candles ++ [latest]
          orderManager := orders }, account) := by
      rw [AutoTradeSupervisor.feed, hraised]
    have helse : PaperTradingEngine.Elsewhere (w.engineOf master call row) (w.accountOf call) _ :=
      PaperTradingEngine.observed_elsewhere hplain latest
    refine call_raised hsound hfeeds hflat hfeed (hruns.of_engine ⟨_, _, rfl⟩)
      (hread ▸ helse.plain) fun userId symbol => ?_
    rw [hread, PaperTradingEngine.get_observed hplain (hsound.position ▸ hflat), hbook]
  | none =>
    have hflat' : ((w.seededOf master call row).position (w.accountOf call)).any
        PositionRecord.isOpen = false := by
      rw [hposition]
      exact hflat
    rcases PaperTradingEngine.onCandle_flat analyze (w.callEnv call).paper latest hplain
      hflat' with ⟨-, message, hcall⟩ | ⟨outcome, engine, account, hcall, hends⟩
    · -- The engine itself raises: an order of nothing is on its way, and no position moved.
      have hcall' : (w.seededOf master call row).onCandle analyze (w.accountOf call)
        (w.passEnv master call row).paper latest = .error message := hcall
      obtain ⟨orders, hengine⟩ := (w.seededOf master call row).abandoned_engine analyze
        (w.accountOf call) (w.passEnv master call row).paper latest
      have hfeed : AutoTradeSupervisor.feed analyze (w.seededOf master call row) (w.accountOf call)
          (w.passEnv master call row) latest = (.error message, { w.seededOf master call row with
            candles := (w.seededOf master call row).candles ++ [latest]
            orderManager := orders },
            ((w.seededOf master call row).abandoned analyze (w.accountOf call)
              (w.passEnv master call row).paper latest).2) := by
        rw [AutoTradeSupervisor.feed, hraised, hcall', ← hengine]
      have helse := (PaperTradingEngine.abandoned_elsewhere analyze
        (w.passEnv master call row).paper latest hplain hflat').1
      refine call_raised hsound hfeeds hflat hfeed (hruns.of_engine ⟨_, _, rfl⟩) helse.plain
        fun userId symbol => ?_
      rw [PaperTradingEngine.abandoned_positionManager,
        PaperTradingEngine.get_observed hplain hflat', hbook]
    · exact call_unheld analyze hsound hrows hwrites hfeeds hflat hraised hcall hends

end Calls

/-- A call that something stops on the way leaves the engine, and writes nothing. -/
theorem stopped (analyze : Analysis) (hstops : ¬ ∃ latest, w.Feeds master call row latest) :
    ∃ engine, (engine = w.engineOf master call row ∨ engine = w.seededOf master call row) ∧
      Processed w call row engine (w.accountOf call) (w.unwritten master analyze call row) ∧
      w.processCall master analyze call row =
        (w.unwritten master analyze call row, (w.storedOf call row).getLast?.any
          (w.unsupported (keyOf call row) row.definition.timeframe)) := by
  obtain ⟨engine, seen, hengine, hprocess⟩ := AutoTradeSupervisor.process_stopped analyze
    w.supervisor (w.storedOf call row) call.userId row (master.instrument call.instrumentId)
    (w.passEnv master call row) fun latest hlast hproceed => hstops ⟨latest, hlast, hproceed⟩
  refine ⟨engine, hengine, processed hprocess, ?_⟩
  unfold processCall
  rw [show w.fedBy master analyze call row = none from congrArg Prod.snd hprocess]

/-- **What one call does.** -/
theorem call_effect (analyze : Analysis) (hsound : w.Sound master)
    (hone : ∀ userId symbol, (w.db.openRows userId symbol).length ≤ 1)
    (row : StrategyRow)
    (hwrites : ∀ latest, w.Feeds master call row latest → call.writeFails = none) :
    CallFrame master w call row (w.processCall master analyze call row).1 ∧
      CallKind master analyze w call row (w.processCall master analyze call row).1 := by
  -- A write of the user's own rows leaves those of the other users.
  have hrows : ∀ p now userId symbol, call.userId ≠ userId →
      (w.db.persistPosition call.userId now p).openRows userId symbol =
        w.db.openRows userId symbol := by
    intro p now userId symbol hne
    rw [AutoTradeDb.openRows_persistPosition (hone _ _), if_neg fun heq =>
      hne (congrArg Prod.fst heq)]
  by_cases hfeeds : ∃ latest, w.Feeds master call row latest
  · obtain ⟨latest, hfeeds⟩ := hfeeds
    have hwrites' := hwrites latest hfeeds
    cases hheld : w.isHeld call.userId (master.symbolOf call.instrumentId) with
    | true =>
      obtain ⟨p, hp, hopen⟩ := (Option.any_eq_true ..).mp hheld
      exact call_open analyze hsound hrows hwrites' hfeeds hp hopen
    | false => exact call_flat analyze hsound hrows hwrites' hfeeds hheld
  · obtain ⟨engine, hengine, hprocessed, hcall⟩ := stopped analyze hfeeds
    have hruns : engine.Runs (keyOf call row) (master.symbolOf call.instrumentId) ∧
        engine.orderManager = w.ordersOf (keyOf call row) := by
      rcases hengine with rfl | rfl
      · exact ⟨hsound.engineOf, orderManager_engineOf w call row⟩
      · exact ⟨(hsound.seededOf call row).1, (orders_seededOf master w call row).1⟩
    rw [hcall]
    exact call_idle hsound hruns.1 (hsound.accountOf call) (fun _ _ => by rw [book_accountOf])
      (fun _ => hruns.2) (fun latest hlatest => absurd ⟨latest, hlatest⟩ hfeeds) hprocessed

end WorkerWorld

end SuperTrading
