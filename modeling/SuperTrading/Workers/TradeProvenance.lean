import SuperTrading.Workers.OneCall

/-!
# Where a Journaled Trade Came From

A journaled trade names the strategy, the version and the candle of the entry that opened
its position, in every run of one worker process whose exits all go out. An exit that is
refused closes nothing, but pops the registries that the real close would have read.

- **Layer A**: what each event leaves
- **Layer B**: the entry of an open position is on file
- **Layer C**: runs
-/

namespace SuperTrading

open SuperTrading.Logic
open Smc (Candle)

/-- No restart, and no write that fails. -/
def WorkerEvent.InOneProcess : WorkerEvent → Prop
  | .process call => call.writeFails = none
  | .restart _ => False
  | _ => True

instance (event : WorkerEvent) : Decidable event.InOneProcess :=
  match event with
  | .process call => inferInstanceAs (Decidable (call.writeFails = none))
  | .restart _ => isFalse id
  | .arrive .. => isTrue trivial
  | .edit .. => isTrue trivial
  | .load .. => isTrue trivial

namespace WorkerWorld

variable {master : InstrumentMaster} {analyze : Analysis} {w w' : WorkerWorld} {call : ProcessCall}
  {row : StrategyRow}

/-! ## Layer A: What each event leaves -/

/-- A worker process that starts on the rows of earlier ones. -/
def fresh (db : AutoTradeDb) (clock : Instant) : WorkerWorld :=
  { db := db
    clock := clock }

/-- What is held depends on the accounts in memory and on the rows. -/
theorem held_congr (haccounts : w'.supervisor.accounts = w.supervisor.accounts)
    (hdb : w'.db = w.db) : w'.held = w.held := by
  funext userId symbol
  cases hget : w.supervisor.accounts.get? userId with
  | none => rw [held_of_rows hget, held_of_rows (haccounts ▸ hget), hdb]
  | some account => rw [held_of_account hget, held_of_account (haccounts ▸ hget)]

instance (latest : Candle) : Decidable (w.Feeds master call row latest) :=
  inferInstanceAs (Decidable (_ ∧ _))

variable (master) in
/-- `C` holds of the candle that the event feeds, if it feeds one. -/
def EachFed (w : WorkerWorld) (event : WorkerEvent)
    (C : ProcessCall → StrategyRow → Candle → Prop) : Prop :=
  match event with
  | .process call =>
    ∀ row ∈ w.loaded.get? call.strategyId,
      ∀ latest ∈ (w.storedOf call row).getLast?, w.Feeds master call row latest → C call row latest
  | _ => True

instance (event : WorkerEvent) (C : ProcessCall → StrategyRow → Candle → Prop)
    [∀ call row latest, Decidable (C call row latest)] : Decidable (w.EachFed master event C) :=
  match event with
  | .process call =>
    inferInstanceAs (Decidable (∀ row ∈ w.loaded.get? call.strategyId,
      ∀ latest ∈ (w.storedOf call row).getLast?, w.Feeds master call row latest →
        C call row latest))
  | .arrive .. => isTrue trivial
  | .edit .. => isTrue trivial
  | .load .. => isTrue trivial
  | .restart _ => isTrue trivial

variable (master) in
/-- A fed candle that hits a level of an open position sends an exit out. -/
def ExitsGoOut (w : WorkerWorld) (event : WorkerEvent) : Prop :=
  w.EachFed master event fun call row latest =>
    ∀ p ∈ w.held call.userId (master.symbolOf call.instrumentId), p.isOpen = true →
      (w.engineOf master call row).ExitGoesOut p latest

instance (event : WorkerEvent) : Decidable (w.ExitsGoOut master event) :=
  inferInstanceAs (Decidable (w.EachFed master event _))

/-- A row is stored under its own id, and the pass has read it from there. -/
structure StrategiesKept (w : WorkerWorld) : Prop where
  stored : ∀ id row, w.strategies.get? id = some row → row.id = id
  loaded : ∀ id row, w.loaded.get? id = some row → row.id = id ∧ (w.strategies.get? id).isSome

/-- Strategies are written under their own ids, and none is deleted. -/
theorem StrategiesKept.edit (h : w.StrategiesKept) (master : InstrumentMaster) (analyze : Analysis)
    (strategyId : String) (definition : StrategyDefinition) :
    (w.step master analyze (.edit strategyId definition)).StrategiesKept ∧
      ∀ id, (w.strategies.get? id).isSome →
        ((w.step master analyze (.edit strategyId definition)).strategies.get? id).isSome := by
  set version := (w.strategies.get? strategyId).elim 1 fun row => row.version + 1 with hversion
  have hget : ∀ id, (w.step master analyze (.edit strategyId definition)).strategies.get? id =
      if strategyId = id then some ⟨strategyId, version, definition⟩ else w.strategies.get? id :=
    fun id => Dict.get?_set ..
  -- An edit replaces a strategy and removes none.
  have hkept : ∀ id, (w.strategies.get? id).isSome →
      ((w.step master analyze (.edit strategyId definition)).strategies.get? id).isSome := by
    intro id hstored
    rw [hget]
    split_ifs
    · rfl
    · exact hstored
  refine ⟨⟨fun id row hrow => ?_, fun id row hrow => ?_⟩, hkept⟩
  · rw [hget] at hrow
    split_ifs at hrow with hid
    · cases hrow
      exact hid
    · exact h.stored id row hrow
  · obtain ⟨hid, hstored⟩ := h.loaded id row hrow
    exact ⟨hid, hkept id hstored⟩

/-- A pass reads what is stored. -/
theorem step_load (master : InstrumentMaster) (analyze : Analysis) (w : WorkerWorld)
    (strategyId : String) : w.step master analyze (.load strategyId) =
      { w with
        loaded := (w.strategies.get? strategyId).elim (w.loaded.erase strategyId)
          (w.loaded.set strategyId) } := by
  cases hstored : w.strategies.get? strategyId <;>
    simp only [step, AutoTradeWorld.step, hstored, Option.elim]

theorem StrategiesKept.load (h : w.StrategiesKept) (master : InstrumentMaster) (analyze : Analysis)
    (strategyId : String) : (w.step master analyze (.load strategyId)).StrategiesKept := by
  rw [step_load]
  refine ⟨h.stored, fun id row hrow => ?_⟩
  dsimp only at hrow
  cases hstored : w.strategies.get? strategyId with
  | none =>
    rw [hstored, Option.elim_none, Dict.get?_erase] at hrow
    split_ifs at hrow
    exact h.loaded id row hrow
  | some stored =>
    rw [hstored, Option.elim_some, Dict.get?_set] at hrow
    split_ifs at hrow with hid
    · cases hrow
      subst hid
      exact ⟨h.stored _ _ hstored, Option.isSome_iff_exists.mpr ⟨_, hstored⟩⟩
    · exact h.loaded id row hrow

/-! ## Layer B: The entry of an open position is on file -/

variable (master) in
/-- The entry that the watcher wrote down last for a position is its entry: the position
carries its strategy, and the registries hold its candle and its version. -/
structure OnFile (w : WorkerWorld) (userId : AccountId) (instrumentId : String)
    (p : PositionRecord) (mark : EntryMark) : Prop where
  opener : w.opener.get? (userId, master.symbolOf instrumentId) = some mark
  entry : w.registry.entry ⟨userId, mark.strategyId, instrumentId⟩ =
    (some mark.openedAt, some mark.version)
  strategy : p.strategyId = some mark.strategyId
  stored : (w.strategies.get? mark.strategyId).isSome

/-- Every journaled trade names the entry that opened its position. -/
def TradesSourced (w : WorkerWorld) : Prop :=
  ∀ entry ∈ w.journaled, ∃ mark ∈ entry.1, entry.2.strategyId = mark.strategyId ∧
    entry.2.strategyVersion = mark.version ∧ entry.2.openedAt = mark.openedAt

instance (w : WorkerWorld) : Decidable w.TradesSourced :=
  inferInstanceAs (Decidable (∀ entry ∈ w.journaled, ∃ mark ∈ entry.1, _ ∧ _))

variable (master) in
/-- The entry of every open position is on file. -/
structure Attributed (w : WorkerWorld) : Prop where
  sound : w.Sound master
  rows : ∀ userId symbol, (w.db.openRows userId symbol).length ≤ 1
  strategies : w.StrategiesKept
  onFile : ∀ userId instrumentId p, w.held userId (master.symbolOf instrumentId) = some p →
    p.isOpen = true → ∃ mark, OnFile master w userId instrumentId p mark
  sourced : w.TradesSourced

/-- The row that a close finds is that of the strategy on the position. -/
theorem StrategiesKept.ownerRow (h : w.StrategiesKept) {ownerId : String}
    (hstored : (w.strategies.get? ownerId).isSome) : (w.ownerRow row ownerId).id = ownerId := by
  unfold WorkerWorld.ownerRow
  split_ifs with hid
  · exact hid.symm
  · cases hloaded : w.loaded.get? ownerId with
    | some owner => exact (h.loaded _ _ hloaded).1
    | none =>
      obtain ⟨owner, howner⟩ := Option.isSome_iff_exists.mp hstored
      rw [howner]
      exact h.stored _ _ howner

/-- A call leaves the entries of other positions on file. -/
theorem Attributed.elsewhere (h : w.Attributed master) (frame : CallFrame master w call row w')
    (kind : CallKind master analyze w call row w') {userId : AccountId} {instrumentId : String}
    (hne : (call.userId, call.instrumentId) ≠ (userId, instrumentId)) {p : PositionRecord}
    (hp : w'.held userId (master.symbolOf instrumentId) = some p) (hopen : p.isOpen = true) :
    ∃ mark, OnFile master w' userId instrumentId p mark := by
  have hne' := master.key_ne hne
  rw [frame.others _ _ hne'] at hp
  obtain ⟨mark, hopener, hentry, hstrategy, hstored⟩ := h.onFile userId instrumentId p hp hopen
  exact ⟨mark, (kind.opener hne').trans hopener, (kind.entry hne).trans hentry, hstrategy,
    frame.strategies ▸ hstored⟩

/-- **A call keeps positions attributed and trades sourced.** -/
theorem Attributed.processCall (analyze : Analysis) (h : w.Attributed master)
    (hrow : w.loaded.get? call.strategyId = some row) (hwrites : call.writeFails = none)
    (hgoes : ∀ latest, w.Feeds master call row latest →
      ∀ p, w.held call.userId (master.symbolOf call.instrumentId) = some p → p.isOpen = true →
        (w.engineOf master call row).ExitGoesOut p latest) :
    (w.processCall master analyze call row).1.Attributed master := by
  obtain ⟨frame, kind⟩ := call_effect analyze h.sound h.rows row fun _ _ => hwrites
  set w' := (w.processCall master analyze call row).1
  have hstrategies : w'.StrategiesKept :=
    ⟨frame.strategies ▸ h.strategies.stored, frame.loaded ▸ frame.strategies ▸ h.strategies.loaded⟩
  -- It is enough to look at the position that the call is about.
  have hself : (∀ p, w'.held call.userId (master.symbolOf call.instrumentId) = some p →
      p.isOpen = true → ∃ mark, OnFile master w' call.userId call.instrumentId p mark) →
      ∀ userId instrumentId p, w'.held userId (master.symbolOf instrumentId) = some p →
        p.isOpen = true → ∃ mark, OnFile master w' userId instrumentId p mark := by
    intro hself userId instrumentId p hp hopen
    by_cases heq : (call.userId, call.instrumentId) = (userId, instrumentId)
    · obtain ⟨rfl, rfl⟩ := Prod.mk.inj heq
      exact hself p hp hopen
    · exact h.elsewhere frame kind heq hp hopen
  have hcall : (∀ p, w'.held call.userId (master.symbolOf call.instrumentId) = some p →
      p.isOpen = true → ∃ mark, OnFile master w' call.userId call.instrumentId p mark) ∧
      w'.TradesSourced := by
    cases kind with
    | idle hheld _ hunwritten =>
      refine ⟨fun p hp hopen => ?_,
        fun entry hentry => h.sourced entry (hunwritten.journaled ▸ hentry)⟩
      obtain ⟨mark, hopener, hentry, hstrategy, hstored⟩ := h.onFile _ _ p (hheld ▸ hp) hopen
      exact ⟨mark, hunwritten.opener ▸ hopener, hunwritten.registry ▸ hentry, hstrategy,
        frame.strategies ▸ hstored⟩
    | kept p latest _ hp hopen _ hafter _ hunwritten =>
      refine ⟨fun q hq _ => ?_, fun entry hentry => h.sourced entry (hunwritten.journaled ▸ hentry)⟩
      obtain ⟨mark, hopener, hentry, hstrategy, hstored⟩ := h.onFile _ _ p hp hopen
      obtain rfl := Option.some.inj (hafter.symm.trans hq)
      exact ⟨mark, hunwritten.opener ▸ hopener, hunwritten.registry ▸ hentry, hstrategy,
        frame.strategies ▸ hstored⟩
    | exited p p' latest level _ outcome pnl hfeeds hp hopen _ hcloses _ hafter _ _ _ _
      hjournaled =>
      obtain ⟨hclosed, -⟩ := hcloses (hgoes latest hfeeds p hp hopen)
      refine ⟨fun q hq hopen' => ?_, fun entry hentry => ?_⟩
      · -- The exit leaves nothing open.
        obtain rfl := Option.some.inj (hafter.symm.trans hq)
        rw [hclosed, PositionRecord.closed_isOpen] at hopen'
        cases hopen'
      · rw [hjournaled] at hentry
        rcases List.mem_append.mp hentry with hold | hnew
        · exact h.sourced entry hold
        · obtain rfl := List.mem_singleton.mp hnew
          obtain ⟨mark, hopener, hfile, hstrategy, hstored⟩ := h.onFile _ _ p hp hopen
          have hkey : ownerKey call row p = ⟨call.userId, mark.strategyId, call.instrumentId⟩ := by
            rw [ownerKey, hstrategy, Option.getD_some]
          have howner : (w.ownerRow row (p.strategyId.getD row.id)).id = mark.strategyId := by
            rw [hstrategy, Option.getD_some]
            exact h.strategies.ownerRow hstored
          have hopenedAt : w.registry.openedAt.get? (ownerKey call row p) = some mark.openedAt :=
            hkey ▸ congrArg Prod.fst hfile
          have hopenedVersion : w.registry.openedVersion.get? (ownerKey call row p) =
            some mark.version := hkey ▸ congrArg Prod.snd hfile
          refine ⟨mark, hopener, howner, ?_, ?_⟩
          · show (w.registry.openedVersion.get? (ownerKey call row p)).getD _ = mark.version
            rw [hopenedVersion, Option.getD_some]
          · show (w.registry.openedAt.get? (ownerKey call row p)).getD _ = mark.openedAt
            rw [hopenedAt, Option.getD_some]
    | entered p latest _ _ hafter _ hstrategy _ hregistry _ hopener hjournaled =>
      refine ⟨fun q hq _ => ?_, fun entry hentry => h.sourced entry (hjournaled ▸ hentry)⟩
      obtain rfl := Option.some.inj (hafter.symm.trans hq)
      obtain ⟨hid, hstored⟩ := h.strategies.loaded _ row hrow
      refine ⟨w.markOf call row latest, ?_, ?_, hstrategy, ?_⟩
      · rw [hopener, Dict.get?_set_self]
      · rw [hregistry, EntryRegistry.entry_stamp]
        exact if_pos rfl
      · rw [frame.strategies]
        show (w.strategies.get? row.id).isSome
        rw [hid]
        exact hstored
    | passed _ _ _ hflat _ _ _ _ hjournaled =>
      refine ⟨fun p hp hopen => ?_, fun entry hentry => h.sourced entry (hjournaled ▸ hentry)⟩
      cases (isHeld_of_open hp hopen).symm.trans hflat
  exact ⟨frame.sound, kind.rows h.rows, hstrategies, hself hcall.1, hcall.2⟩

/-! ## Layer C: Runs -/

/-- A worker that starts without open positions has nothing to attribute. -/
theorem attributed_fresh {db : AutoTradeDb} {clock : Instant}
    (hflat : ∀ userId symbol, db.openRows userId symbol = []) :
    (fresh db clock).Attributed master where
  sound := sound_started rfl
  rows userId symbol := by
    rw [show (fresh db clock).db.openRows userId symbol = [] from hflat userId symbol]
    exact Nat.zero_le 1
  strategies := ⟨fun _ _ hrow => (nomatch hrow), fun _ _ hrow => (nomatch hrow)⟩
  onFile userId instrumentId p hp _ := by
    rw [held_of_rows rfl,
      show (fresh db clock).db.openRows userId (master.symbolOf instrumentId) = []
      from hflat ..] at hp
    cases hp
  sourced := fun _ hentry => nomatch hentry

/-- Bars, edits and what a pass reads of them are beside what the worker holds. -/
theorem Attributed.beside (h : w.Attributed master)
    (hbeside : ∃ strategies loaded series, w' = { w with
      strategies := strategies
      loaded := loaded
      series := series })
    (hstrategies : w'.StrategiesKept)
    (hkept : ∀ id, (w.strategies.get? id).isSome → (w'.strategies.get? id).isSome) :
    w'.Attributed master := by
  have hheld : w'.held = w.held := by
    obtain ⟨strategies, loaded, series, rfl⟩ := hbeside
    exact held_congr rfl rfl
  obtain ⟨strategies, loaded, series, rfl⟩ := hbeside
  refine ⟨h.sound.congr rfl, h.rows, hstrategies, fun userId instrumentId p hp hopen => ?_,
    h.sourced⟩
  rw [hheld] at hp
  obtain ⟨mark, hopener, hentry, hstrategy, hstored⟩ := h.onFile userId instrumentId p hp hopen
  exact ⟨mark, hopener, hentry, hstrategy, hkept _ hstored⟩

/-- Every event keeps positions attributed and trades sourced. -/
theorem Attributed.step (h : w.Attributed master) {event : WorkerEvent}
    (hevent : event.InOneProcess ∧ w.ExitsGoOut master event) :
    (w.step master analyze event).Attributed master := by
  obtain ⟨hone, hgoes⟩ := hevent
  cases event with
  | arrive instrumentId timeframe candle =>
    -- Candles, edits and loads come beside the rows, and write none of them.
    exact h.beside ⟨w.strategies, w.loaded, _, rfl⟩ ⟨h.strategies.stored, h.strategies.loaded⟩
      fun _ hstored => hstored
  | edit strategyId definition =>
    obtain ⟨hstrategies, hkept⟩ := h.strategies.edit master analyze strategyId definition
    exact h.beside ⟨_, w.loaded, w.series, rfl⟩ hstrategies hkept
  | load strategyId =>
    exact h.beside ⟨w.strategies, _, w.series, step_load master analyze w strategyId⟩
      (h.strategies.load master analyze strategyId) fun id hstored => by
        rw [step_load]
        exact hstored
  | process call =>
    cases hrow : w.loaded.get? call.strategyId with
    | none => simpa only [WorkerWorld.step, hrow] using h
    | some row =>
      simp only [WorkerWorld.step, hrow]
      exact h.processCall analyze hrow hone fun latest hfeeds p hp hopen =>
        hgoes row hrow latest hfeeds.1 hfeeds p hp hopen
  | restart => exact absurd hone id

/-- **A journaled trade names the entry that opened its position**, however strategies are
edited in between, if every exit goes out. -/
theorem trades_sourced (master : InstrumentMaster) (analyze : Analysis) {db : AutoTradeDb}
    {clock : Instant} (hflat : ∀ userId symbol, db.openRows userId symbol = [])
    {events : List WorkerEvent}
    (hevents : Each (step master analyze)
      (fun w event => event.InOneProcess ∧ w.ExitsGoOut master event)
      (fresh db clock) events) :
    Throughout (step master analyze) TradesSourced (fresh db clock) events :=
  (throughout_of_each (fun _ _ h hevent => h.step hevent) (attributed_fresh hflat) hevents).mono
    fun _ h => h.sourced

/-- From the third bar on, a long entry at 100 with its stop at 98. -/
def longFromThirdBar : Analysis := fun _ visible =>
  { allSatisfied := 3 ≤ visible.length
    satisfied := []
    missing := []
    bias := some .bullish
    entryAndStop := fun _ => (some 100, some 98) }

def selfNamed : InstrumentMaster := ⟨id, Function.injective_id⟩

/-- A bar around 100, some minutes into 1970. -/
def barOf (timeframe : String) (minute : ℕ) (low : ℚ) : WorkerEvent :=
  .arrive "NIFTY" timeframe
    { timestamp := minute * Timestamp.microsPerMinute
      «open» := 100
      high := 101
      low := low
      close := 100 }

/-- A call for the user `u`, some seconds after the last one. -/
def callAfter (seconds : ℕ) : WorkerEvent :=
  .process
    { userId := "u"
      strategyId := "s"
      instrumentId := "NIFTY"
      elapsed := seconds * 1000000
      settings := ⟨1, 2, 10, 5⟩ }

/-- The start of 1970. -/
def epoch : Instant := 719162 * Instant.microsPerDay

/-- An entry on the third bar, and an exit on the fourth. -/
def enteredAndStopped : List WorkerEvent :=
  [.edit "s" { name := "s", timeframe := "1m" }, .load "s",
    barOf "1m" 0 99, barOf "1m" 1 99, barOf "1m" 2 99, callAfter 210, barOf "1m" 3 97, callAfter 60]

theorem trades_sourced_enteredAndStopped :
    (run (step selfNamed longFromThirdBar) (fresh {} epoch)
        enteredAndStopped).journaled.length = 1 ∧
      Throughout (step selfNamed longFromThirdBar) TradesSourced (fresh {} epoch)
        enteredAndStopped :=
  ⟨by decide +kernel,
    trades_sourced selfNamed longFromThirdBar (fun _ _ => rfl) (by decide +kernel)⟩

/-- It is entered once more, and edited to bars of three minutes. The bar that hits the stop
bears the time of the bar of the first exit, and so does its key: the order is refused as
already placed, the registries are popped, and the close three bars later finds them empty. -/
def stoppedTwice : List WorkerEvent :=
  enteredAndStopped ++ [barOf "1m" 4 99, callAfter 60,
    .edit "s" { name := "s", timeframe := "3m" }, .load "s",
    barOf "3m" 3 97, callAfter 60, barOf "3m" 6 97, callAfter 180]

theorem stoppedTwice_unsourced : (∀ event ∈ stoppedTwice, event.InOneProcess) ∧
    ¬ Throughout (step selfNamed longFromThirdBar) TradesSourced (fresh {} epoch) stoppedTwice := by
  refine ⟨by decide, fun hsourced => ?_⟩
  have hlast :
      ¬ (run (step selfNamed longFromThirdBar) (fresh {} epoch) stoppedTwice).TradesSourced := by
    decide +kernel
  exact hlast hsourced.last

end WorkerWorld

end SuperTrading
