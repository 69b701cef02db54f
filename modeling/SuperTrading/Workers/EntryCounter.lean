import SuperTrading.Workers.TradeProvenance

/-!
# The Counter of Entries After a Restart

A worker that starts counts the entries of the day from the journal, by the day a trade
was opened, and from the open rows, by the day a row was created. The sum is what the
engines have filled that day as long as every entry is in one of the two, under its own
day. A close whose entry the registry has forgotten is journaled as opened by the closing
candle: on a later day than its entry, it is counted on the wrong one.

- **Layer A**: the tally, and what one call makes of it
- **Layer B**: runs
-/

namespace SuperTrading

open SuperTrading.Logic
open Smc (Candle)

/-! ## Layer A: The tally -/

/-- Was the entry filled on this day? -/
def EntryMark.filledOn (userId : AccountId) (day : ℤ) (mark : EntryMark) : Bool :=
  decide (mark.userId = userId ∧ mark.filledAt.timestamp.date = day)

/-- Is it a trade of the worker, opened on this day? -/
def AutoTradeRow.openedOn (userId : AccountId) (day : ℤ) (row : AutoTradeRow) : Bool :=
  decide (row.userId = userId ∧ row.source = autoTradeSource ∧ row.openedAt.date = day)

/-- Is it an open row of the worker, created on this day? -/
def AutoPositionRow.openFrom (userId : AccountId) (day : ℤ) (row : AutoPositionRow) : Bool :=
  decide (row.userId = userId ∧ row.sourceKey = autoSourceKey ∧ row.isOpen = true ∧
    row.createdAt.timestamp.date = day)

namespace AutoTradeDb

variable {db : AutoTradeDb} {userId userId' : AccountId} {symbol : Symbol} {p : PositionRecord}

theorem openFrom_mirror (createdAt : Instant) (day : ℤ) :
    (mirror userId createdAt p).openFrom userId' day = decide (userId = userId' ∧ p.isOpen = true ∧
      createdAt.timestamp.date = day) := by
  simp [AutoPositionRow.openFrom, mirror, Db.positionRow]

theorem openFrom_of_isOpenRow {row : AutoPositionRow} (h : isOpenRow userId symbol row = true)
    (day : ℤ) : row.openFrom userId' day = decide (userId = userId' ∧
      row.createdAt.timestamp.date = day) := by
  obtain ⟨huser, -, -, hsource, hopen⟩ := isOpenRow_iff.mp h
  simp [AutoPositionRow.openFrom, huser, hsource, hopen]

/-- A write over the one open row keeps it counted while the position is open. -/
theorem countP_overwrite {row : AutoPositionRow} (hrow : db.openRows userId p.symbol = [row])
    (now : Instant) (userId' : AccountId) (day : ℤ) :
    (db.persistPosition userId now p).positions.countP (AutoPositionRow.openFrom userId' day) +
        (if userId = userId' ∧ row.createdAt.timestamp.date = day then 1 else 0) =
      db.positions.countP (AutoPositionRow.openFrom userId' day) +
        if userId = userId' ∧ p.isOpen = true ∧ row.createdAt.timestamp.date = day then 1
        else 0 := by
  have hone : (db.openRows userId p.symbol).length ≤ 1 := by rw [hrow]; exact le_refl 1
  have hopen : isOpenRow userId p.symbol row = true :=
    (List.mem_filter.mp (hrow ▸ List.mem_singleton.mpr rfl : row ∈ db.openRows userId p.symbol)).2
  have hcount := countP_persistPosition hone now (AutoPositionRow.openFrom userId' day)
  rw [hrow] at hcount
  simpa [List.countP_singleton, openFrom_mirror, openFrom_of_isOpenRow hopen] using hcount

/-- A write where there is no open row adds one, if the position is open. -/
theorem countP_insert (hrows : db.openRows userId p.symbol = []) (now : Instant)
    (userId' : AccountId) (day : ℤ) :
    (db.persistPosition userId now p).positions.countP (AutoPositionRow.openFrom userId' day) =
      db.positions.countP (AutoPositionRow.openFrom userId' day) +
        if userId = userId' ∧ p.isOpen = true ∧ now.timestamp.date = day then 1 else 0 := by
  have hone : (db.openRows userId p.symbol).length ≤ 1 := by rw [hrows]; exact Nat.zero_le 1
  have hcount := countP_persistPosition hone now (AutoPositionRow.openFrom userId' day)
  rw [hrows] at hcount
  simpa [List.countP_singleton, openFrom_mirror] using hcount

end AutoTradeDb

namespace WorkerWorld

variable {master : InstrumentMaster} {analyze : Analysis} {w w' : WorkerWorld} {call : ProcessCall}
  {row : StrategyRow}

/-- What a worker that starts now counts for a user is what was filled today. -/
def EntriesSurvive (w : WorkerWorld) : Prop :=
  ∀ userId, (w.db.restoredAccount userId w.clock).riskWindow.tradesToday =
    w.entries.countP fun mark => mark.userId = userId ∧ mark.filledAt.date = w.clock.date

variable (master) in
/-- Every entry is counted under its day: by its open row, which the registry agrees with, or
by its trade. -/
structure Counted (w : WorkerWorld) : Prop where
  sound : w.Sound master
  rows : ∀ userId symbol, (w.db.openRows userId symbol).length ≤ 1
  openRow : ∀ userId instrumentId p, w.held userId (master.symbolOf instrumentId) = some p →
    p.isOpen = true → ∃ row, w.db.openRows userId (master.symbolOf instrumentId) = [row] ∧
      ∀ strategyId, ∀ openedAt ∈
        (w.registry.entry ⟨userId, p.strategyId.getD strategyId, instrumentId⟩).1,
          openedAt.date = row.createdAt.timestamp.date
  tally : ∀ userId day, w.entries.countP (EntryMark.filledOn userId day) =
    w.db.trades.countP (AutoTradeRow.openedOn userId day) +
      w.db.positions.countP (AutoPositionRow.openFrom userId day)
  tradesPast : ∀ row ∈ w.db.trades, row.openedAt.date ≤ w.clock.timestamp.date
  rowsPast : ∀ row ∈ w.db.positions, row.createdAt ≤ w.clock

/-- **The tally is what a fresh worker counts.** -/
theorem Counted.survive (h : w.Counted master) : w.EntriesSurvive := by
  intro userId
  have htally := h.tally userId w.clock.timestamp.date
  -- The day of the clock, counted in three places: trades, open rows and entries.
  have htrades : (w.db.trades.countP fun row => row.userId = userId ∧ row.source = autoTradeSource ∧
      w.clock.dayStart.timestamp ≤ row.openedAt) =
        w.db.trades.countP (AutoTradeRow.openedOn userId w.clock.timestamp.date) := by
    apply List.countP_congr
    intro row hrow
    simp only [AutoTradeRow.openedOn, decide_eq_true_eq,
      Instant.dayStart_timestamp_le_iff (h.tradesPast row hrow)]
  have hrows : (w.db.positions.countP fun row =>
      row.userId = userId ∧ row.sourceKey = autoSourceKey ∧
      row.isOpen ∧ w.clock.dayStart ≤ row.createdAt) =
        w.db.positions.countP (AutoPositionRow.openFrom userId w.clock.timestamp.date) := by
    apply List.countP_congr
    intro row hrow
    simp only [AutoPositionRow.openFrom, decide_eq_true_eq,
      Instant.dayStart_le_iff (h.rowsPast row hrow), ← Instant.date_timestamp_eq_iff]
  have hentries : (w.entries.countP fun mark => mark.userId = userId ∧
      mark.filledAt.date = w.clock.date) =
        w.entries.countP (EntryMark.filledOn userId w.clock.timestamp.date) := by
    apply List.countP_congr
    intro mark _
    simp only [EntryMark.filledOn, decide_eq_true_eq, Instant.date_timestamp_eq_iff]
  rw [hentries, htally, ← htrades, ← hrows]
  rfl

variable (master) in
/-- The candle that a call feeds is of the day on the clock. -/
def OwnDay (w : WorkerWorld) (event : WorkerEvent) : Prop :=
  w.EachFed master event fun call _ latest =>
    latest.timestamp.date = Timestamp.date (Instant.timestamp (w.clock + call.elapsed))

instance (event : WorkerEvent) : Decidable (w.OwnDay master event) :=
  inferInstanceAs (Decidable (w.EachFed master event _))

variable (master) in
/-- The writes of a call that feeds a candle count each entry once: a flat position has no
open row; an exit goes out, and one that the registry has no entry for falls on the day of
the row. -/
def CountsOnce (w : WorkerWorld) (event : WorkerEvent) : Prop :=
  w.EachFed master event fun call row latest =>
    call.writeFails = none ∧
      (w.isHeld call.userId (master.symbolOf call.instrumentId) = false →
        w.db.openRows call.userId (master.symbolOf call.instrumentId) = []) ∧
      ∀ p ∈ w.held call.userId (master.symbolOf call.instrumentId), p.isOpen = true →
        (w.engineOf master call row).ExitGoesOut p latest ∧
          (PaperTradingEngine.trigger p latest = none ∨
            (w.registry.openedAt.get? (ownerKey call row p)).isSome ∨
              ∀ old ∈ w.db.openRows call.userId (master.symbolOf call.instrumentId),
                old.createdAt.date = Instant.date (w.clock + call.elapsed))

instance (event : WorkerEvent) : Decidable (w.CountsOnce master event) :=
  inferInstanceAs (Decidable (w.EachFed master event _))

/-- The rows of other positions, and what the registry holds of them. -/
theorem Counted.elsewhere (h : w.Counted master) (frame : CallFrame master w call row w')
    (kind : CallKind master analyze w call row w')
    {userId : AccountId} {instrumentId : String}
    (hne : (call.userId, call.instrumentId) ≠ (userId, instrumentId)) {p : PositionRecord}
    (hp : w'.held userId (master.symbolOf instrumentId) = some p) (hopen : p.isOpen = true) :
    ∃ row, w'.db.openRows userId (master.symbolOf instrumentId) = [row] ∧
      ∀ strategyId, ∀ openedAt ∈
        (w'.registry.entry ⟨userId, p.strategyId.getD strategyId, instrumentId⟩).1,
          openedAt.date = row.createdAt.timestamp.date := by
  have hne' := master.key_ne hne
  rw [frame.others _ _ hne'] at hp
  obtain ⟨row, hrow, hentry⟩ := h.openRow userId instrumentId p hp hopen
  refine ⟨row, (kind.rows_elsewhere h.rows hne').trans hrow,
    fun strategyId openedAt hopenedAt => ?_⟩
  rw [kind.entry hne] at hopenedAt
  exact hentry strategyId openedAt hopenedAt

variable (master) in
/-- What a call has to see to: the row of the position it is about, and the tally. -/
structure CallCounted (w' : WorkerWorld) (call : ProcessCall) : Prop where
  openRow : ∀ p, w'.held call.userId (master.symbolOf call.instrumentId) = some p →
    p.isOpen = true →
      ∃ row, w'.db.openRows call.userId (master.symbolOf call.instrumentId) = [row] ∧
        ∀ strategyId, ∀ openedAt ∈
          (w'.registry.entry ⟨call.userId, p.strategyId.getD strategyId, call.instrumentId⟩).1,
            openedAt.date = row.createdAt.timestamp.date
  tally : ∀ userId day, w'.entries.countP (EntryMark.filledOn userId day) =
    w'.db.trades.countP (AutoTradeRow.openedOn userId day) +
      w'.db.positions.countP (AutoPositionRow.openFrom userId day)
  tradesPast : ∀ row ∈ w'.db.trades, row.openedAt.date ≤ w'.clock.timestamp.date
  rowsPast : ∀ row ∈ w'.db.positions, row.createdAt ≤ w'.clock

section Kinds

variable {latest : Candle} {p : PositionRecord}

theorem Counted.tradesPast_of_le (h : w.Counted master) (hle : w.clock ≤ w'.clock) :
    ∀ row ∈ w.db.trades, row.openedAt.date ≤ w'.clock.timestamp.date :=
  fun row hrow => (h.tradesPast row hrow).trans (Instant.date_timestamp_mono hle)

theorem Counted.rowsPast_persistPosition (h : w.Counted master) (hle : w.clock ≤ w'.clock)
    (p : PositionRecord) :
    ∀ row ∈ (w.db.persistPosition call.userId w'.clock p).positions, row.createdAt ≤ w'.clock :=
  AutoTradeDb.createdAt_persistPosition (h.rows _ _) fun row hrow => (h.rowsPast row hrow).trans hle

/-- A kept position is written over its row. -/
theorem Counted.kept (h : w.Counted master) (hle : w.clock ≤ w'.clock)
    (hp : w.held call.userId (master.symbolOf call.instrumentId) = some p) (hopen : p.isOpen = true)
    (hafter : w'.held call.userId (master.symbolOf call.instrumentId) =
      some (p.marked latest.close))
    (hdb : w'.db = w.db.persistPosition call.userId w'.clock (p.marked latest.close))
    (hunwritten : Unwritten w w') : w'.CallCounted master call := by
  obtain ⟨old, hold, hentry⟩ := h.openRow _ _ p hp hopen
  have hsymbol := symbol_of_held hafter
  have hmarked : (p.marked latest.close).isOpen = true := hopen
  constructor
  · intro q hq _
    obtain rfl := Option.some.inj (hafter.symm.trans hq)
    rw [hdb, hunwritten.registry]
    exact ⟨_, AutoTradeDb.openRows_overwrite hsymbol hold hopen _, hentry⟩
  · intro userId day
    -- The open row is overwritten and keeps the time it was created at.
    have hcount := AutoTradeDb.countP_overwrite (hsymbol ▸ hold) w'.clock userId day
    simp only [hmarked, true_and] at hcount
    rw [hdb, hunwritten.entries, AutoTradeDb.trades_persistPosition, h.tally,
      Nat.add_right_cancel hcount]
  · rw [hdb, AutoTradeDb.trades_persistPosition]
    exact h.tradesPast_of_le hle
  · rw [hdb]
    exact h.rowsPast_persistPosition hle _

/-- A closed position is written over its row, and its trade takes the row's place in the
tally. -/
theorem Counted.exited (h : w.Counted master) (hle : w.clock ≤ w'.clock) {old : AutoPositionRow}
    (hold : w.db.openRows call.userId (master.symbolOf call.instrumentId) = [old]) {level : ℚ}
    (hafter : w'.held call.userId (master.symbolOf call.instrumentId) =
      some ((p.marked latest.close).closed level))
    {outcome : PaperTradeOutcome} {pnl : ℚ}
    (hdb : w'.db = { w.db.persistPosition call.userId w'.clock
        ((p.marked latest.close).closed level) with
      trades := w.db.trades ++ [w.tradeOf master call row p latest outcome pnl] })
    (hentries : w'.entries = w.entries)
    (hday : (w.tradeOf master call row p latest outcome pnl).openedAt.date =
      old.createdAt.timestamp.date) : w'.CallCounted master call := by
  have hsymbol := symbol_of_held hafter
  have hpast : old.createdAt ≤ w'.clock := by
    have hmem : old ∈ w.db.openRows call.userId (master.symbolOf call.instrumentId) := by
      rw [hold]
      exact List.mem_singleton.mpr rfl
    exact (h.rowsPast old (List.mem_of_mem_filter hmem)).trans hle
  constructor
  · -- Nothing is open any more.
    intro q hq hopen
    obtain rfl := Option.some.inj (hafter.symm.trans hq)
    rw [PositionRecord.closed_isOpen] at hopen
    cases hopen
  · intro userId day
    have hcount := AutoTradeDb.countP_overwrite (hsymbol ▸ hold) w'.clock userId day
    have hopened : (w.tradeOf master call row p latest outcome pnl).openedOn userId day =
        decide (call.userId = userId ∧ old.createdAt.timestamp.date = day) := by
      rw [AutoTradeRow.openedOn, hday]
      simp [tradeOf, autoTradeRow]
    -- The row that is no longer open is the trade that is journaled.
    simp only [PositionRecord.closed_isOpen, Bool.false_eq_true, false_and, and_false, if_false,
      add_zero] at hcount
    rw [hdb, hentries]
    simp only [List.countP_append, List.countP_singleton, hopened, decide_eq_true_eq]
    rw [h.tally, ← hcount]
    omega
  · -- The trade was opened before now, as its row was.
    rw [hdb]
    intro row hrow
    rcases List.mem_append.mp hrow with hrow | hrow
    · exact h.tradesPast_of_le hle row hrow
    · obtain rfl := List.mem_singleton.mp hrow
      exact hday ▸ Instant.date_timestamp_mono hpast
  · rw [hdb]
    exact h.rowsPast_persistPosition hle _

/-- An entered position gets a row of its own, as its entry gets a stamp. -/
theorem Counted.entered (h : w.Counted master) (hclock : w'.clock = w.clock + call.elapsed)
    (hrows : w.db.openRows call.userId (master.symbolOf call.instrumentId) = [])
    (hday : latest.timestamp.date = Timestamp.date (Instant.timestamp (w.clock + call.elapsed)))
    (hafter : w'.held call.userId (master.symbolOf call.instrumentId) = some p)
    (hopen : p.isOpen = true) (hstrategy : p.strategyId = some row.id)
    (hdb : w'.db = w.db.persistPosition call.userId w'.clock p)
    (hregistry : w'.registry = w.registry.stamp (keyOf call row) latest.timestamp row.version)
    (hentries : w'.entries = w.entries ++ [w.markOf call row latest]) :
    w'.CallCounted master call := by
  have hle : w.clock ≤ w'.clock := hclock ▸ Nat.le_add_right ..
  have hsymbol := symbol_of_held hafter
  constructor
  · intro q hq _
    obtain rfl := Option.some.inj (hafter.symm.trans hq)
    rw [hdb, hregistry]
    refine ⟨_, AutoTradeDb.openRows_insert hsymbol hrows hopen _, ?_⟩
    intro strategyId openedAt hopened
    rw [hstrategy, Option.getD_some, EntryRegistry.entry_stamp, keyOf, if_pos rfl] at hopened
    obtain rfl := Option.some.inj hopened
    exact hday.trans (congrArg _ (congrArg _ hclock.symm))
  · intro userId day
    have hcount := AutoTradeDb.countP_insert (hsymbol ▸ hrows) w'.clock userId day
    have hfilled : (w.markOf call row latest).filledOn userId day =
        decide (call.userId = userId ∧ w'.clock.timestamp.date = day) := by
      rw [EntryMark.filledOn, hclock]
      rfl
    -- One more entry, and one more open row of the same day.
    simp only [hopen, true_and] at hcount
    rw [hdb, hentries, AutoTradeDb.trades_persistPosition]
    simp only [List.countP_append, List.countP_singleton, hfilled, decide_eq_true_eq]
    rw [h.tally, hcount]
    omega
  · rw [hdb, AutoTradeDb.trades_persistPosition]
    exact h.tradesPast_of_le hle
  · rw [hdb]
    exact h.rowsPast_persistPosition hle _

/-- A position left flat is written as one that is closed, if it is written at all. -/
theorem Counted.passed (h : w.Counted master) (hle : w.clock ≤ w'.clock)
    (hrows : w.db.openRows call.userId (master.symbolOf call.instrumentId) = [])
    (hflat : w'.isHeld call.userId (master.symbolOf call.instrumentId) = false)
    (hdb : w'.db = (w'.held call.userId (master.symbolOf call.instrumentId)).elim w.db fun p =>
      w.db.persistPosition call.userId w'.clock p)
    (hentries : w'.entries = w.entries) : w'.CallCounted master call := by
  have hclosed : ∀ p, w'.held call.userId (master.symbolOf call.instrumentId) = some p →
      p.isOpen = false := by
    intro p hp
    simpa [isHeld, hp] using hflat
  cases hafter : w'.held call.userId (master.symbolOf call.instrumentId) with
  | none =>
    rw [hafter, Option.elim_none] at hdb
    constructor
    · intro p hp
      rw [hafter] at hp
      cases hp
    · rw [hdb, hentries]
      exact h.tally
    · exact hdb ▸ h.tradesPast_of_le hle
    · exact hdb ▸ fun row hrow => (h.rowsPast row hrow).trans hle
  | some p =>
    -- A flat position is written, which opens no row.
    rw [hafter, Option.elim_some] at hdb
    constructor
    · intro q hq hopen
      cases (hclosed q hq).symm.trans hopen
    · intro userId day
      have hcount := AutoTradeDb.countP_insert (symbol_of_held hafter ▸ hrows) w'.clock userId day
      simp only [hclosed p hafter, Bool.false_eq_true, false_and, and_false, if_false,
        add_zero] at hcount
      rw [hdb, hentries, AutoTradeDb.trades_persistPosition, hcount]
      exact h.tally userId day
    · rw [hdb, AutoTradeDb.trades_persistPosition]
      exact h.tradesPast_of_le hle
    · rw [hdb]
      exact h.rowsPast_persistPosition hle _

end Kinds

/-- **A call keeps every entry counted once.** -/
theorem Counted.processCall (analyze : Analysis) (h : w.Counted master)
    (hday : ∀ latest, w.Feeds master call row latest →
      latest.timestamp.date = Timestamp.date (Instant.timestamp (w.clock + call.elapsed)))
    (hwrites : ∀ latest, w.Feeds master call row latest → call.writeFails = none)
    (hflat : ∀ latest, w.Feeds master call row latest →
      w.isHeld call.userId (master.symbolOf call.instrumentId) = false →
        w.db.openRows call.userId (master.symbolOf call.instrumentId) = [])
    (hexit : ∀ latest, w.Feeds master call row latest →
      ∀ p, w.held call.userId (master.symbolOf call.instrumentId) = some p → p.isOpen = true →
        (w.engineOf master call row).ExitGoesOut p latest ∧
          (PaperTradingEngine.trigger p latest = none ∨
            (w.registry.openedAt.get? (ownerKey call row p)).isSome ∨
              ∀ old ∈ w.db.openRows call.userId (master.symbolOf call.instrumentId),
                old.createdAt.date = Instant.date (w.clock + call.elapsed))) :
    (w.processCall master analyze call row).1.Counted master := by
  obtain ⟨frame, kind⟩ := call_effect analyze h.sound h.rows row hwrites
  set w' := (w.processCall master analyze call row).1
  have hle : w.clock ≤ w'.clock := frame.clock ▸ Nat.le_add_right ..
  have hcall : w'.CallCounted master call := by
    cases kind with
    -- Nothing is written, and the position is as it was.
    | idle hheld hdb hunwritten =>
      constructor
      · rw [hdb, hunwritten.registry, hheld]
        exact h.openRow call.userId call.instrumentId
      · rw [hdb, hunwritten.entries]
        exact h.tally
      · exact hdb ▸ h.tradesPast_of_le hle
      · exact hdb ▸ fun row hrow => (h.rowsPast row hrow).trans hle
    -- Marked only, so its row is kept.
    | kept p latest _ hp hopen _ hafter hdb hunwritten =>
      exact h.kept hle hp hopen hafter hdb hunwritten
    | exited p p' latest level _ outcome pnl hfeeds hp hopen hhit hcloses _ hafter hdb _ hentries =>
      obtain ⟨hgoes, hregistered⟩ := hexit latest hfeeds p hp hopen
      obtain ⟨rfl, -⟩ := hcloses hgoes
      obtain ⟨old, hold, hentry⟩ := h.openRow _ _ p hp hopen
      refine h.exited hle hold hafter hdb hentries ?_
      -- The trade is counted on the day of the row that it replaces.
      show ((w.registry.openedAt.get? (ownerKey call row p)).getD latest.timestamp).date = _
      cases hopened : w.registry.openedAt.get? (ownerKey call row p) with
      | some openedAt => exact hentry row.id openedAt hopened
      | none =>
        rw [hhit, hopened, hold] at hregistered
        have hcreated : old.createdAt.date = Instant.date (w.clock + call.elapsed) := by
          simpa using hregistered
        exact (hday latest hfeeds).trans ((Instant.date_timestamp_eq_iff _ _).mpr hcreated).symm
    -- A new row is counted on the day of the call.
    | entered p latest hfeeds hbefore hafter hopen hstrategy hdb hregistry hentries =>
      exact h.entered frame.clock (hflat latest hfeeds hbefore) (hday latest hfeeds) hafter hopen
        hstrategy hdb hregistry hentries
    | passed latest hfeeds hbefore hflat' hdb _ hentries =>
      exact h.passed hle (hflat latest hfeeds hbefore) hflat' hdb hentries
  refine ⟨frame.sound, kind.rows h.rows, fun userId instrumentId p hp hopen => ?_, hcall.tally,
    hcall.tradesPast, hcall.rowsPast⟩
  -- The position of the call, or one of the others.
  by_cases heq : (call.userId, call.instrumentId) = (userId, instrumentId)
  · obtain ⟨rfl, rfl⟩ := Prod.mk.inj heq
    exact hcall.openRow p hp hopen
  · exact h.elsewhere frame kind heq hp hopen

/-! ## Layer B: Runs -/

theorem counted_fresh (clock : Instant) : (fresh {} clock).Counted master where
  sound := sound_started rfl
  rows _ _ := Nat.zero_le 1
  openRow userId instrumentId p hp _ := by
    rw [held_of_rows rfl] at hp
    cases hp
  tally _ _ := rfl
  tradesPast _ hrow := (nomatch hrow)
  rowsPast _ hrow := (nomatch hrow)

/-- Bars, edits and what a pass reads of them are not counted. -/
theorem Counted.beside (h : w.Counted master)
    (hbeside : ∃ strategies loaded series, w' = { w with
      strategies := strategies
      loaded := loaded
      series := series }) : w'.Counted master := by
  have hheld : w'.held = w.held := by
    obtain ⟨strategies, loaded, series, rfl⟩ := hbeside
    exact held_congr rfl rfl
  obtain ⟨strategies, loaded, series, rfl⟩ := hbeside
  exact ⟨h.sound.congr rfl, h.rows,
    fun userId instrumentId p hp => h.openRow userId instrumentId p (hheld ▸ hp), h.tally,
    h.tradesPast, h.rowsPast⟩

/-- A new process finds the rows as they were, and knows no entry. -/
theorem Counted.restart (h : w.Counted master) (elapsed : ℕ) :
    (w.step master analyze (.restart elapsed)).Counted master := by
  have hle : w.clock ≤ w.clock + elapsed := Nat.le_add_right ..
  refine ⟨sound_started rfl, h.rows,
    fun userId instrumentId p hp _ => ?_, h.tally,
    fun row hrow => (h.tradesPast row hrow).trans (Instant.date_timestamp_mono hle),
    fun row hrow => (h.rowsPast row hrow).trans hle⟩
  rw [held_of_rows rfl] at hp
  obtain ⟨row, hlast, -⟩ := Option.map_eq_some_iff.mp hp
  have hone := h.rows userId (master.symbolOf instrumentId)
  have hrows : (w.step master analyze (.restart elapsed)).db.openRows userId
    (master.symbolOf instrumentId) = w.db.openRows userId (master.symbolOf instrumentId) := rfl
  rw [hrows] at hlast ⊢
  refine ⟨row, ?_, fun strategyId openedAt hopened => (nomatch hopened)⟩
  -- There is one open row at most, so that the last one is the first.
  cases hopen : w.db.openRows userId (master.symbolOf instrumentId) with
  | nil => simp [hopen] at hlast
  | cons first rest =>
    rw [hopen] at hone hlast
    have hrest : rest = [] := by simpa using hone
    subst hrest
    obtain rfl := Option.some.inj hlast
    rfl

/-- Every event keeps every entry counted once. -/
theorem Counted.step (h : w.Counted master) {event : WorkerEvent}
    (hevent : w.OwnDay master event ∧ w.CountsOnce master event) :
    (w.step master analyze event).Counted master := by
  obtain ⟨hday, honce⟩ := hevent
  cases event with
  | arrive => exact h.beside ⟨w.strategies, w.loaded, _, rfl⟩
  | edit => exact h.beside ⟨_, w.loaded, w.series, rfl⟩
  | load strategyId =>
    exact h.beside ⟨w.strategies, _, w.series, step_load master analyze w strategyId⟩
  | process call =>
    cases hrow : w.loaded.get? call.strategyId with
    | none => simpa only [WorkerWorld.step, hrow] using h
    | some row =>
      simp only [WorkerWorld.step, hrow]
      exact h.processCall analyze (fun latest hfeeds => hday row hrow latest hfeeds.1 hfeeds)
        (fun latest hfeeds => (honce row hrow latest hfeeds.1 hfeeds).1)
        (fun latest hfeeds => (honce row hrow latest hfeeds.1 hfeeds).2.1)
        (fun latest hfeeds => (honce row hrow latest hfeeds.1 hfeeds).2.2)
  | restart elapsed => exact h.restart elapsed

/-- **A worker that starts counts what was filled today**, in every run whose fed candles are
of the day on the clock, if every write counts its entry once. -/
theorem entries_survive (master : InstrumentMaster) (analyze : Analysis) {clock : Instant}
    {events : List WorkerEvent}
    (hdays : Each (step master analyze)
      (fun w event => w.OwnDay master event ∧ w.CountsOnce master event)
      (fresh {} clock) events) :
    Throughout (step master analyze) EntriesSurvive (fresh {} clock) events :=
  (throughout_of_each (fun _ _ h hevent => h.step hevent) (counted_fresh clock) hdays).mono
    fun _ h => h.survive

/-- An entry is filled, the worker starts again, and an entry that follows the stop is
filled: both of one day. -/
def restartedOnce : List WorkerEvent :=
  [.edit "s" { name := "s", timeframe := "1m" }, .load "s",
    barOf "1m" 0 99, barOf "1m" 1 99, barOf "1m" 2 99, callAfter 210, .restart 10, .load "s",
    barOf "1m" 3 97, callAfter 50, barOf "1m" 4 99, callAfter 60]

theorem entries_survive_restartedOnce :
    (run (step selfNamed longFromThirdBar) (fresh {} epoch) restartedOnce).entries.length = 2 ∧
      Throughout (step selfNamed longFromThirdBar) EntriesSurvive (fresh {} epoch) restartedOnce :=
  ⟨by decide +kernel, entries_survive selfNamed longFromThirdBar (by decide +kernel)⟩

/-- An entry a minute before midnight, a restart, and the stop a minute after: the trade is
journaled as opened by the bar that closed it. -/
def overMidnight : List WorkerEvent :=
  [.edit "s" { name := "s", timeframe := "1m" }, .load "s",
    barOf "1m" 1436 99, barOf "1m" 1437 99, barOf "1m" 1438 99, callAfter 86370, .restart 60,
    .load "s", barOf "1m" 1440 97, callAfter 60]

theorem overMidnight_miscounted :
    Each (step selfNamed longFromThirdBar) (OwnDay selfNamed) (fresh {} epoch) overMidnight ∧
      ¬ Throughout (step selfNamed longFromThirdBar) EntriesSurvive (fresh {} epoch)
        overMidnight := by
  refine ⟨by decide +kernel, fun hsurvive => ?_⟩
  -- One entry is counted of a day that saw none filled.
  have hlast :
      ¬ (((run (step selfNamed longFromThirdBar) (fresh {} epoch) overMidnight).db.restoredAccount
      "u" (run (step selfNamed longFromThirdBar) (fresh {} epoch)
        overMidnight).clock).riskWindow.tradesToday =
        (run (step selfNamed longFromThirdBar) (fresh {} epoch)
          overMidnight).entries.countP fun mark =>
          mark.userId = "u" ∧ mark.filledAt.date =
            (run (step selfNamed longFromThirdBar) (fresh {} epoch) overMidnight).clock.date) := by
    decide +kernel
  exact hlast (hsurvive.last "u")

end WorkerWorld

end SuperTrading
