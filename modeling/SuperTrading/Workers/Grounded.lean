import SuperTrading.Workers.TradeProvenance

/-!
# What Every Run of the Worker Keeps

Whichever write fails, and however often the process starts again: the supervisor stays sound,
and no position gets a second open row. What is journaled behind the write of the position is
beside both.

- **Layer A**: what the journal leaves
- **Layer B**: calls, events and runs
-/

namespace SuperTrading

open SuperTrading.Logic
open Smc (Candle)

namespace WorkerWorld

variable {master : InstrumentMaster} {analyze : Analysis} {w w' : WorkerWorld} {call : ProcessCall}
  {row : StrategyRow}

/-! ## Layer A: What the journal leaves -/

/-- The writes behind that of the position leave the positions as they are. -/
structure Beside (w w' : WorkerWorld) : Prop where
  supervisor : w'.supervisor = w.supervisor
  entries : w'.entries = w.entries
  positions : w'.db.positions = w.db.positions

theorem Beside.trans {w₁ w₂ w₃ : WorkerWorld} (h : Beside w₁ w₂) (h' : Beside w₂ w₃) :
    Beside w₁ w₃ :=
  ⟨h'.supervisor.trans h.supervisor, h'.entries.trans h.entries, h'.positions.trans h.positions⟩

theorem beside_journalClose (w : WorkerWorld) (call : ProcessCall) (row : StrategyRow)
    (instrument : Instrument) (position : PositionRecord) (latest : Candle)
    (outcome : PaperTradeOutcome) (pnl : ℚ) :
    Beside w (w.journalClose call row instrument position latest outcome pnl).1 := by
  unfold journalClose
  dsimp only
  split_ifs <;> exact ⟨rfl, rfl, rfl⟩

/-- Behind a position that is written, the rest of the journal leaves it as it is. -/
theorem beside_journal (w : WorkerWorld) (call : ProcessCall) (row : StrategyRow)
    (instrument : Instrument) (before : Option PositionRecord) {after : Option PositionRecord}
    (latest : Candle) (outcome : PaperTradeOutcome)
    (hwrites : ¬ (after.isSome ∧ call.writeFails = some .position)) :
    Beside { w with
        db := after.elim w.db fun p => w.db.persistPosition call.userId w.clock p }
      (w.journal call row instrument before after latest outcome).1 := by
  unfold journal
  rw [if_neg hwrites]
  dsimp only
  split
  · exact ⟨rfl, rfl, rfl⟩
  split
  · split_ifs <;> exact ⟨rfl, rfl, rfl⟩
  split
  · refine Beside.trans ?_ (beside_journalClose ..)
    split_ifs <;> exact ⟨rfl, rfl, rfl⟩
  · split_ifs <;> exact ⟨rfl, rfl, rfl⟩

/-- What the journal writes of the positions, and what it leaves. -/
theorem journal_positions (w : WorkerWorld) (call : ProcessCall) (row : StrategyRow)
    (instrument : Instrument) (before after : Option PositionRecord) (latest : Candle)
    (outcome : PaperTradeOutcome) :
    let written := (w.journal call row instrument before after latest outcome).1
    written.supervisor = w.supervisor ∧ written.entries = w.entries ∧
      written.db.positions = if call.writeFails = some .position then w.db.positions
        else (after.elim w.db fun p => w.db.persistPosition call.userId w.clock p).positions := by
  intro written
  by_cases hfails : after.isSome ∧ call.writeFails = some .position
  · have hwritten : written = w := by
      show (w.journal call row instrument before after latest outcome).1 = w
      unfold journal
      rw [if_pos hfails]
    rw [hwritten, if_pos hfails.2]
    exact ⟨rfl, rfl, rfl⟩
  · have hbeside : Beside _ written :=
      beside_journal w call row instrument before latest outcome hfails
    refine ⟨hbeside.supervisor, hbeside.entries, hbeside.positions.trans ?_⟩
    split_ifs with hposition
    · -- There was nothing to write.
      have hnone : after = none := by simpa [hposition] using hfails
      rw [hnone]
      rfl
    · rfl

/-- What is noted of an entry is beside the rows and the supervisor. -/
theorem watched_frame (w : WorkerWorld) (call : ProcessCall) (row : StrategyRow)
    (instrument : Instrument) (latest : Candle) (outcome : PaperTradeOutcome) :
    let watched := w.watched call row instrument latest outcome
    watched.supervisor = w.supervisor ∧ watched.db = w.db ∧ watched.clock = w.clock := by
  unfold WorkerWorld.watched
  split_ifs <;> exact ⟨rfl, rfl, rfl⟩

/-- What is written behind a call is beside the supervisor. -/
theorem supervisor_processCall (w : WorkerWorld) (call : ProcessCall) (row : StrategyRow) :
    (w.processCall master analyze call row).1.supervisor =
      (w.unwritten master analyze call row).supervisor := by
  unfold processCall
  dsimp only
  split
  · rfl
  split
  · rfl
  · exact (journal_positions ..).1.trans (watched_frame ..).1

/-- The positions behind a call are those before it, or those with one record written. -/
theorem positions_processCall (w : WorkerWorld) (call : ProcessCall) (row : StrategyRow) :
    (w.processCall master analyze call row).1.db.positions = w.db.positions ∨
      ∃ p, (w.processCall master analyze call row).1.db.positions =
        (w.db.persistPosition call.userId (w.clock + call.elapsed) p).positions := by
  unfold processCall
  dsimp only
  split
  · exact Or.inl rfl
  split
  · exact Or.inl rfl
  · rename_i latest engine _ outcome _
    obtain ⟨-, -, hpositions⟩ := journal_positions
      ((w.unwritten master analyze call row).watched call row (master.instrument call.instrumentId)
        latest outcome) call row (master.instrument call.instrumentId)
      (((w.engineOf master call row).position (w.accountOf call)).filter PositionRecord.isOpen)
      (((w.unwritten master analyze call row).supervisor.accounts.get? call.userId).bind
        engine.position) latest outcome
    obtain ⟨-, hdb, hclock⟩ := (w.unwritten master analyze call row).watched_frame call row
      (master.instrument call.instrumentId) latest outcome
    -- The journal writes at most the one position that the engine has.
    rw [hpositions, hdb, hclock]
    split_ifs
    · exact Or.inl rfl
    · cases ((w.unwritten master analyze call row).supervisor.accounts.get? call.userId).bind
        engine.position with
      | none => exact Or.inl rfl
      | some p => exact Or.inr ⟨p, rfl⟩

/-! ## Layer B: Calls, events and runs -/

variable (master) in
/-- What holds in every state of every run, failures and restarts included. -/
structure Grounded (w : WorkerWorld) : Prop where
  sound : w.Sound master
  rows : ∀ userId symbol, (w.db.openRows userId symbol).length ≤ 1

/-- **A call keeps to its rows**, whichever of its writes fails. -/
theorem Grounded.processCall (h : w.Grounded master) (analyze : Analysis) (call : ProcessCall)
    (row : StrategyRow) : (w.processCall master analyze call row).1.Grounded master := by
  constructor
  · -- What is written does not touch the supervisor: it is that of the call without failures.
    obtain ⟨frame, -⟩ := @call_effect master w { call with writeFails := none } analyze h.sound
      h.rows row fun _ _ => rfl
    refine frame.sound.congr ?_
    rw [supervisor_processCall, supervisor_processCall]
    rfl
  · intro userId symbol
    have hopen : ∀ db db' : AutoTradeDb, db'.positions = db.positions →
        db'.openRows userId symbol = db.openRows userId symbol :=
      fun db db' hsame => congrArg (List.filter _) hsame
    rcases positions_processCall w call row with hsame | ⟨p, hsame⟩
    · rw [hopen _ _ hsame]
      exact h.rows userId symbol
    · rw [hopen _ _ hsame]
      exact AutoTradeDb.openRows_persistPosition_le h.rows ..

theorem Grounded.step (h : w.Grounded master) (analyze : Analysis) (event : WorkerEvent) :
    (w.step master analyze event).Grounded master := by
  cases event with
  | arrive => exact ⟨h.sound.congr rfl, h.rows⟩
  | edit => exact ⟨h.sound.congr rfl, h.rows⟩
  | load strategyId =>
    rw [step_load]
    exact ⟨h.sound.congr rfl, h.rows⟩
  | process call =>
    cases hrow : w.loaded.get? call.strategyId with
    | none => simpa only [WorkerWorld.step, hrow] using h
    | some row =>
      simp only [WorkerWorld.step, hrow]
      exact h.processCall analyze call row
  | restart => exact ⟨sound_started rfl, h.rows⟩

theorem Grounded.fresh (clock : Instant) : (fresh {} clock).Grounded master :=
  ⟨sound_started rfl, fun _ _ => Nat.zero_le 1⟩

variable (master analyze) in
/-- A state that a run of the worker gets to. -/
def Reachable (w : WorkerWorld) : Prop :=
  ∃ clock events, w = run (step master analyze) (fresh {} clock) events

theorem grounded_of_reachable (h : w.Reachable master analyze) : w.Grounded master := by
  obtain ⟨clock, events, rfl⟩ := h
  exact invariant_run (I := Grounded master) (fun w event hw => hw.step analyze event) events
    (Grounded.fresh clock)

end WorkerWorld

end SuperTrading
