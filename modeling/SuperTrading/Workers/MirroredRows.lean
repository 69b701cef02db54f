import SuperTrading.Api.PaperRows
import SuperTrading.Workers.Grounded

/-!
# The Rows of the Auto-Trader

The worker mirrors the record of a position behind every candle that `on_candle` returns on. A
user has a row for each filled entry as long as every such candle writes a row for a position
that it enters, and none where it enters nothing: a flat record that is left flat gets a row.

- **Layer A**: what one call writes
- **Layer B**: runs
- **Layer C**: both callers of `persist_position`
-/

namespace SuperTrading

open SuperTrading.Logic
open Smc (Candle)

/-! ## Layer A: What one call writes -/

namespace AutoTradeDb

theorem persistPosition_eq_upsert (db : AutoTradeDb) (userId : AccountId) (now : Instant)
    (p : PositionRecord) : (db.persistPosition userId now p).positions =
      upsert (isOpenRow userId p.symbol)
        (fun old => { old with toPositionRow := Db.positionRow p .paper autoSourceKey })
        (mirror userId now p) db.positions := by
  unfold persistPosition
  dsimp only
  split
  · rename_i hany
    exact (upsert_of_any hany).symm
  · rename_i hnone
    exact (upsert_of_none (Bool.eq_false_iff.mpr hnone)).symm

/-- The rows of a user grow where the position has no open one. -/
theorem countP_user_persistPosition (db : AutoTradeDb) (userId : AccountId) (now : Instant)
    (p : PositionRecord) (userId' : AccountId) :
    ((db.persistPosition userId now p).positions.countP fun row => row.userId = userId') =
      (db.positions.countP fun row => row.userId = userId') +
        if db.openRows userId p.symbol = [] ∧ userId = userId' then 1 else 0 := by
  have hcount := @countP_upsert AutoPositionRow (isOpenRow userId p.symbol)
    (fun old => { old with toPositionRow := Db.positionRow p .paper autoSourceKey })
    (mirror userId now p) db.positions (fun row => decide (row.userId = userId')) fun _ _ => rfl
  rw [persistPosition_eq_upsert]
  refine hcount.trans (congrArg _ (if_congr ?_ rfl rfl))
  rw [openRows, List.filter_eq_nil_iff, List.any_eq_false, decide_eq_true_eq]
  rfl

end AutoTradeDb

namespace WorkerWorld

variable {master : InstrumentMaster} {analyze : Analysis} {w w' : WorkerWorld} {call : ProcessCall}
  {row : StrategyRow}

/-- The call of `on_candle` behind a fed candle. -/
theorem fedBy_ok {latest : Candle} {engine : PaperTradingEngine} {outcome : PaperTradeOutcome}
    (hfed : w.fedBy master analyze call row = some ⟨latest, engine, .ok outcome⟩) :
    w.Feeds master call row latest ∧ (w.passEnv master call row).raised = none ∧
      ∃ account, (w.seededOf master call row).onCandle analyze (w.accountOf call)
        (w.callEnv call).paper latest = .ok (outcome, engine, account) := by
  by_cases hfeeds : ∃ candle, w.Feeds master call row candle
  · obtain ⟨candle, hfeeds⟩ := hfeeds
    rcases hfeed : AutoTradeSupervisor.feed analyze (w.seededOf master call row)
      (w.accountOf call) (w.passEnv master call row) candle with ⟨answer, engine', account⟩
    obtain ⟨-, hfed'⟩ := fed hfeeds hfeed
    cases hfed'.symm.trans hfed
    refine ⟨hfeeds, ?_⟩
    -- Of the ways to feed a candle only one answers.
    unfold AutoTradeSupervisor.feed at hfeed
    split at hfeed
    · rename_i hraised hcall
      cases hfeed
      exact ⟨hraised, account, hcall⟩
    · cases hfeed
    · cases hfeed
  · obtain ⟨_, _, -, hprocess⟩ := AutoTradeSupervisor.process_stopped analyze
      w.supervisor (w.storedOf call row) call.userId row (master.instrument call.instrumentId)
      (w.passEnv master call row) fun latest hlast hproceed => hfeeds ⟨latest, hlast, hproceed⟩
    have hnone : w.fedBy master analyze call row = none := congrArg Prod.snd hprocess
    cases hnone.symm.trans hfed

variable (master analyze) in
/-- Does the candle enter a position? -/
def CallEnters (w : WorkerWorld) (call : ProcessCall) (row : StrategyRow) (latest : Candle) :
    Prop :=
  w.isHeld call.userId (master.symbolOf call.instrumentId) = false ∧
    (w.seededOf master call row).Enters analyze (w.accountOf call) (w.callEnv call).paper latest

instance (latest : Candle) : Decidable (w.CallEnters master analyze call row latest) :=
  inferInstanceAs (Decidable (_ ∧ _))

/-- The positions rows of a user. -/
def rowsOf (w : WorkerWorld) (userId : AccountId) : ℕ :=
  w.db.positions.countP fun row => row.userId = userId

/-- The positions that were opened for a user. -/
def openedOf (w : WorkerWorld) (userId : AccountId) : ℕ :=
  w.entries.countP fun mark => mark.userId = userId

theorem watched_entries (w : WorkerWorld) (call : ProcessCall) (row : StrategyRow)
    (instrument : Instrument) (latest : Candle) (outcome : PaperTradeOutcome) (userId : AccountId) :
    ((w.watched call row instrument latest outcome).entries.countP fun mark =>
        mark.userId = userId) =
      (w.entries.countP fun mark => mark.userId = userId) +
        if outcome.entryFilled = true ∧ call.userId = userId then 1 else 0 := by
  unfold watched
  split_ifs <;> simp_all

/-- **The counts behind a call whose `on_candle` returns**: the user has an entry more where one
is filled, and a row more where a record without an open row is written. -/
theorem counts_returned (hsound : w.Sound master) {latest : Candle} {engine : PaperTradingEngine}
    {outcome : PaperTradeOutcome}
    (hfed : w.fedBy master analyze call row = some ⟨latest, engine, .ok outcome⟩)
    (userId : AccountId) :
    (w.processCall master analyze call row).1.openedOf userId = w.openedOf userId +
        (if w.CallEnters master analyze call row latest ∧ call.userId = userId then 1 else 0) ∧
      (w.processCall master analyze call row).1.rowsOf userId = w.rowsOf userId +
        if call.writeFails ≠ some .position ∧
          ((w.held call.userId (master.symbolOf call.instrumentId)).isSome ∨
            w.CallEnters master analyze call row latest) ∧
          w.db.openRows call.userId (master.symbolOf call.instrumentId) = [] ∧
          call.userId = userId then 1 else 0 := by
  obtain ⟨hfeeds, hraised, account, hcall⟩ := fedBy_ok hfed
  obtain ⟨hruns, hheld, -⟩ := hsound.seededOf call row
  obtain ⟨-, -, hjournal⟩ := returned analyze hfeeds hraised hcall
  obtain ⟨hmoves, -⟩ := PaperTradingEngine.onCandle_moves (hsound.accountOf call) hcall
  have hfilled := PaperTradingEngine.onCandle_filled (hsound.accountOf call) hcall
  obtain ⟨orders, hengine⟩ := PaperTradingEngine.onCandle_engine hcall
  have hruns' : engine.Runs (keyOf call row) (master.symbolOf call.instrumentId) :=
    hruns.of_engine ⟨_, _, hengine⟩
  have hsame : engine.position account = (w.seededOf master call row).position account :=
    (hruns'.position_eq account).trans (hruns.position_eq account).symm
  rw [← hsame, hheld] at hmoves
  rw [hheld] at hfilled
  obtain ⟨-, hentries, hpositions⟩ :=
    journal_positions ((w.unwritten master analyze call row).watched
    call row (master.instrument call.instrumentId) latest outcome) call row
      (master.instrument call.instrumentId)
        (((w.engineOf master call row).position (w.accountOf call)).filter PositionRecord.isOpen)
        (engine.position account) latest outcome
  rw [hjournal]
  constructor
  -- An entry is marked where the outcome reports it filled, whatever is written behind it.
  · unfold openedOf
    rw [hentries, watched_entries]
    refine congrArg _ (if_congr (and_congr_left' ?_) rfl rfl)
    exact hfilled
  · unfold rowsOf
    rw [hpositions, (watched_frame ..).2.1, (watched_frame ..).2.2]
    by_cases hfails : call.writeFails = some .position
    · rw [if_pos hfails, if_neg fun hall => hall.1 hfails]
      rfl
    rw [if_neg hfails]
    -- There is a record to write where there was one, or where the candle enters.
    have hsome := hmoves.isSome_iff
    cases hafter : engine.position account with
    | none =>
      rw [hafter] at hsome
      have hnot := (not_congr hsome).mp (by simp)
      rw [if_neg fun hboth => hnot hboth.2.1]
      rfl
    | some p =>
      rw [hafter] at hsome
      have hsymbol : p.symbol = master.symbolOf call.instrumentId :=
        (PositionManager.key_of_get ((hruns'.position_eq account).symm.trans hafter)).2
      rw [Option.elim_some, AutoTradeDb.countP_user_persistPosition, hsymbol]
      refine congrArg _ (if_congr ?_ rfl rfl)
      have hwritten := hsome.mp rfl
      exact ⟨fun hboth => ⟨hfails, hwritten, hboth⟩, fun hall => hall.2.2⟩

/-- A call whose `on_candle` does not return writes nothing. -/
theorem processCall_unreturned
    (hnone : ∀ fed, w.fedBy master analyze call row = some fed → fed.outcome.isOk = false) :
    (w.processCall master analyze call row).1 = w.unwritten master analyze call row := by
  unfold processCall
  dsimp only
  split
  · rfl
  · rename_i latest engine outcome hfed
    cases outcome with
    | error _ => rfl
    | ok _ => cases hnone _ hfed

/-! ## Layer B: Runs -/

/-- Every user has a row for each position that was opened. -/
def RowEach (w : WorkerWorld) : Prop := ∀ userId, w.rowsOf userId = w.openedOf userId

variable (master analyze) in
/-- A call whose candle enters a position writes it, into a row of its own; any other writes over
an open row, or has no record to write, or fails to write it. -/
def CallWritesOnce (w : WorkerWorld) (call : ProcessCall) (row : StrategyRow) (latest : Candle) :
    Prop :=
  if w.CallEnters master analyze call row latest then
    call.writeFails ≠ some .position ∧
      w.db.openRows call.userId (master.symbolOf call.instrumentId) = []
  else
    call.writeFails = some .position ∨
      w.held call.userId (master.symbolOf call.instrumentId) = none ∨
      w.db.openRows call.userId (master.symbolOf call.instrumentId) ≠ []

instance (latest : Candle) : Decidable (w.CallWritesOnce master analyze call row latest) :=
  inferInstanceAs (Decidable (ite _ _ _))

variable (master analyze) in
/-- So does the call of the event, if its `on_candle` returns. -/
def WritesOnce (w : WorkerWorld) (event : WorkerEvent) : Prop :=
  match event with
  | .process call =>
    ∀ row ∈ w.loaded.get? call.strategyId, ∀ fed ∈ w.fedBy master analyze call row,
      fed.outcome.isOk = true → w.CallWritesOnce master analyze call row fed.latest
  | _ => True

instance (event : WorkerEvent) : Decidable (w.WritesOnce master analyze event) :=
  match event with
  | .process call =>
    inferInstanceAs (Decidable (∀ row ∈ w.loaded.get? call.strategyId,
      ∀ fed ∈ w.fedBy master analyze call row, fed.outcome.isOk = true →
        w.CallWritesOnce master analyze call row fed.latest))
  | .arrive .. => isTrue trivial
  | .edit .. => isTrue trivial
  | .load .. => isTrue trivial
  | .restart _ => isTrue trivial

/-- A call that returns keeps a row for each position if and only if it writes once. -/
theorem RowEach.returned_iff (h : w.RowEach) (hground : w.Grounded master) {latest : Candle}
    {engine : PaperTradingEngine} {outcome : PaperTradeOutcome}
    (hfed : w.fedBy master analyze call row = some ⟨latest, engine, .ok outcome⟩) :
    (w.processCall master analyze call row).1.RowEach ↔
      w.CallWritesOnce master analyze call row latest := by
  have hcounts := counts_returned hground.sound hfed
  unfold CallWritesOnce
  constructor
  -- Only the counts of the call's own user move, so these decide.
  · intro hrow
    have hself := hrow call.userId
    rw [(hcounts call.userId).1, (hcounts call.userId).2, h call.userId] at hself
    split_ifs with henters
    · by_contra hnot
      simp only [henters, or_true, and_true, true_and, if_true] at hself
      rw [if_neg hnot] at hself
      omega
    · by_contra hwritten
      push Not at hwritten
      obtain ⟨hwrites, hheld, hrows⟩ := hwritten
      have hsome := Option.isSome_iff_ne_none.mpr hheld
      rw [if_pos ⟨hwrites, Or.inl hsome, hrows, rfl⟩, if_neg fun hboth => henters hboth.1] at hself
      omega
  · intro honce userId
    rw [(hcounts userId).1, (hcounts userId).2, h userId]
    refine congrArg _ (if_congr ?_ rfl rfl)
    split_ifs at honce with henters
    · simp [henters, honce.1, honce.2]
    · simp only [henters, or_false, false_and, iff_false]
      rintro ⟨hwrites, hsome, hrows, -⟩
      rcases honce with hfails | hnone | hopen
      · exact hwrites hfails
      · simp [hnone] at hsome
      · exact hopen hrows

theorem RowEach.processCall_iff (h : w.RowEach) (hground : w.Grounded master) (analyze : Analysis)
    (call : ProcessCall) (row : StrategyRow) :
    (w.processCall master analyze call row).1.RowEach ↔
      ∀ fed ∈ w.fedBy master analyze call row, fed.outcome.isOk = true →
        w.CallWritesOnce master analyze call row fed.latest := by
  by_cases hreturns : ∃ fed ∈ w.fedBy master analyze call row, fed.outcome.isOk = true
  · obtain ⟨⟨latest, engine, outcome⟩, hfed, hok⟩ := hreturns
    cases outcome with
    | error _ => cases hok
    | ok outcome =>
      rw [h.returned_iff hground hfed]
      refine ⟨fun honce fed hmem _ => ?_, fun hall => hall _ hfed hok⟩
      cases Option.some.inj (hmem.symm.trans hfed)
      exact honce
  · have hunwritten := @processCall_unreturned master analyze w call row fun fed hfed => by
      by_contra hok
      exact hreturns ⟨fed, hfed, by simpa using hok⟩
    rw [hunwritten]
    exact iff_of_true h fun fed hmem hok => absurd ⟨fed, hmem, hok⟩ hreturns

/-- Events beside the calls write nothing. -/
theorem RowEach.step_iff (h : w.RowEach) (hground : w.Grounded master) (analyze : Analysis)
    (event : WorkerEvent) :
    (w.step master analyze event).RowEach ↔ w.WritesOnce master analyze event := by
  cases event with
  | arrive => exact iff_of_true h trivial
  | edit => exact iff_of_true h trivial
  | load strategyId =>
    rw [step_load]
    exact iff_of_true h trivial
  | process call =>
    -- A strategy that is not loaded is not called.
    cases hrow : w.loaded.get? call.strategyId with
    | none =>
      refine iff_of_true (by simpa only [step, hrow] using h) fun row hmem => ?_
      cases hrow.symm.trans hmem
    | some row =>
      simp only [step, hrow, h.processCall_iff hground analyze call row]
      refine ⟨fun hall row' hmem => ?_, fun hall => hall row hrow⟩
      cases Option.some.inj (hmem.symm.trans hrow)
      exact hall
  | restart => exact iff_of_true h trivial

/-- **A run of the worker has a row for each position that was opened, if and only if every call
writes once.** -/
theorem rowEach_iff (master : InstrumentMaster) (analyze : Analysis) (clock : Instant)
    (events : List WorkerEvent) :
    Throughout (step master analyze) RowEach (fresh {} clock) events ↔
      Each (step master analyze) (fun w event => w.WritesOnce master analyze event)
        (fresh {} clock) events := by
  have hstart : (fresh {} clock).RowEach := fun _ => rfl
  have hkeeps : ∀ (w : WorkerWorld) event, w.Grounded master →
      (w.step master analyze event).Grounded master := fun w event hw => hw.step analyze event
  exact @throughout_iff_each _ _ (step master analyze) RowEach (fun w => w.Grounded master) _
    (fun w event hw _ _ => hkeeps w event hw)
    (fun w event hw hrow => RowEach.step_iff hrow hw analyze event) _ _ (Grounded.fresh clock)
    hstart

end WorkerWorld

/-! ## Layer C: Both callers -/

/-- A candle of a minute of 1970, for the first session. -/
def paperCandle (minute : ℕ) (low high : ℚ) (hlow : 0 < low ∧ low < maxMoney)
    (hhigh : 0 < high ∧ high < maxMoney) : PaperEvent :=
  .candle "u" 0
    { candle :=
        { timestamp := minute * Timestamp.microsPerMinute
          «open» := low
          high := high
          low := low
          close := low }
      open_range := hlow
      high_range := hhigh
      low_range := hlow
      close_range := hlow
      volume_range := (by decide +kernel : (0 : ℚ) ≤ 0 ∧ (0 : ℚ) < maxMoney) }
    {}

/-- An entry on the third candle, its stop on the fourth, and a candle that does not reach the
entry. -/
def paperIdleAfterStop : List PaperEvent :=
  [.create "u" { strategyId := "s", symbol := "NIFTY" }
      { strategy := fun id => some ⟨"u", id, 1, .ok { name := "s", timeframe := "1m" }⟩
        instrument := some },
    paperCandle 0 99 101 (by decide +kernel) (by decide +kernel),
    paperCandle 1 99 101 (by decide +kernel) (by decide +kernel),
    paperCandle 2 99 101 (by decide +kernel) (by decide +kernel),
    paperCandle 3 97 101 (by decide +kernel) (by decide +kernel),
    paperCandle 4 97 98 (by decide +kernel) (by decide +kernel)]

/-- The same of the auto-trader. -/
def idleAfterStop : List WorkerEvent :=
  WorkerWorld.enteredAndStopped ++
    [.arrive "NIFTY" "1m"
        { timestamp := 4 * Timestamp.microsPerMinute
          «open» := 97
          high := 98
          low := 97
          close := 97 },
      WorkerWorld.callAfter 60]

def flatRecord : PositionRecord :=
  { accountId := "u"
    symbol := "NIFTY" }

end SuperTrading
