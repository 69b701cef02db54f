import SuperTrading.Workers.AutoTrade

/-!
# The Series the Auto-Trader Analyses

An engine's candle list is seeded from the stored series once, and from then on takes
the newest stored bar of each pass that gets to `on_candle`. It is the stored series as
long as each such pass finds one new bar, of the timeframe the list was begun with.

- **World**: stored series, strategy rows, passes, and what a watcher of the calls writes down
- **A call**: what `_process` makes of an engine's list
- **Runs**: the list of every call is the stored series
-/

namespace SuperTrading

open SuperTrading.Logic
open Smc (Candle)

/-! ## Section 1: The world -/

/-- The stored candles of an instrument in a timeframe. -/
structure CandleSeries where
  candles : List Candle := []
  ascending : candles.Pairwise fun a b => a.timestamp < b.timestamp := by simp

/-- A closed bar is stored behind the others; one that is not newer does not come. -/
def CandleSeries.append (series : CandleSeries) (candle : Candle) : CandleSeries :=
  if h : ∀ old ∈ series.candles, old.timestamp < candle.timestamp then
    { candles := series.candles ++ [candle]
      ascending := List.pairwise_append.mpr ⟨series.ascending, by simp, by simpa using h⟩ }
  else series

/-- A call of `on_candle`: the list it analyses, the candle it was given, and the stored
series of the strategy's timeframe. -/
structure FeedRecord where
  analysed : List Candle
  latest : Candle
  stored : List Candle
  deriving DecidableEq

/-- The list is the stored series up to the candle. -/
def FeedRecord.Whole (f : FeedRecord) : Prop :=
  f.analysed = f.stored.filter fun c => c.timestamp ≤ f.latest.timestamp

instance (f : FeedRecord) : Decidable f.Whole :=
  inferInstanceAs
    (Decidable (f.analysed = f.stored.filter fun c => c.timestamp ≤ f.latest.timestamp))

/-- A pass reads the strategy rows once and works on what it read. `feeds` and `begun`
are for the watcher: the calls of `on_candle`, and the timeframe under which an engine's
list was begun. -/
structure AutoTradeWorld where
  supervisor : AutoTradeSupervisor := {}
  strategies : Dict String StrategyRow := Dict.empty
  loaded : Dict String StrategyRow := Dict.empty
  series : Dict (String × String) CandleSeries := Dict.empty
  feeds : List FeedRecord := []
  begun : Dict EngineKey String := Dict.empty

inductive AutoTradeEvent
  | arrive (instrumentId timeframe : String) (candle : Candle)
  /-- `POST` and `PUT /strategies`: every edit bumps the version. -/
  | edit (strategyId : String) (definition : StrategyDefinition)
  | load (strategyId : String)
  | process (userId : AccountId) (strategyId : String) (instrument : Instrument) (env : PassEnv)

namespace AutoTradeWorld

def stored (w : AutoTradeWorld) (instrumentId timeframe : String) : CandleSeries :=
  (w.series.get? (instrumentId, timeframe)).getD {}

/-- The candle list of an engine; one that is not built yet has none. -/
def listOf (s : AutoTradeSupervisor) (key : EngineKey) : List Candle :=
  (s.engines.get? key).elim [] PaperTradingEngine.candles

variable (analyze : Analysis)

/-- One call of `_process`, on a strategy as the pass read it. -/
def process (w : AutoTradeWorld) (userId : AccountId) (row : StrategyRow) (instrument : Instrument)
    (env : PassEnv) : AutoTradeWorld :=
  let key : EngineKey := ⟨userId, row.id, instrument.id⟩
  let timeframe := row.definition.timeframe
  let stored := (w.stored instrument.id timeframe).candles
  let (supervisor, fed) := w.supervisor.process analyze stored userId row instrument env
  { w with
    supervisor := supervisor
    feeds := w.feeds ++ (fed.map fun fed => ⟨fed.engine.candles, fed.latest, stored⟩).toList
    begun := if listOf w.supervisor key = [] then w.begun.set key timeframe else w.begun }

def step (w : AutoTradeWorld) : AutoTradeEvent → AutoTradeWorld
  | .arrive instrumentId timeframe candle =>
    let series := (w.stored instrumentId timeframe).append candle
    { w with series := w.series.set (instrumentId, timeframe) series }
  | .edit strategyId definition =>
    let version := (w.strategies.get? strategyId).elim 1 fun row => row.version + 1
    { w with strategies := w.strategies.set strategyId ⟨strategyId, version, definition⟩ }
  | .load strategyId =>
    match w.strategies.get? strategyId with
    | some row => { w with loaded := w.loaded.set strategyId row }
    | none => { w with loaded := w.loaded.erase strategyId }
  | .process userId strategyId instrument env =>
    match w.loaded.get? strategyId with
    | some row => w.process analyze userId row instrument env
    | none => w

/-- How far a call gets: none of the returns of `_process` stops it. -/
def Proceeds (w : AutoTradeWorld) (userId : AccountId) (row : StrategyRow)
    (instrument : Instrument) (env : PassEnv) : Prop :=
  let s := w.supervisor
  let key : EngineKey := ⟨userId, row.id, instrument.id⟩
  let isOpen := ((s.engine key row instrument env).position (s.account userId env)).any
    PositionRecord.isOpen
  ∃ latest ∈ (w.stored instrument.id row.definition.timeframe).candles.getLast?,
    s.verdict key row.definition.timeframe latest isOpen env = .proceed

/-- The stored bars that an engine's list has not reached. -/
def newBars (list stored : List Candle) : List Candle :=
  stored.filter fun c => list.getLast?.all fun last => last.timestamp < c.timestamp

/-- A call that feeds an engine with a list finds the list begun under the strategy's
timeframe, and one stored bar behind it. -/
def OneNewBar (w : AutoTradeWorld) : AutoTradeEvent → Prop
  | .process userId strategyId instrument env =>
    ∀ row ∈ w.loaded.get? strategyId,
      let key : EngineKey := ⟨userId, row.id, instrument.id⟩
      let stored := (w.stored instrument.id row.definition.timeframe).candles
      w.Proceeds userId row instrument env → listOf w.supervisor key ≠ [] →
        w.begun.get? key = some row.definition.timeframe ∧
          (newBars (listOf w.supervisor key) stored).length = 1
  | _ => True

instance (w : AutoTradeWorld) (userId : AccountId) (row : StrategyRow) (instrument : Instrument)
    (env : PassEnv) : Decidable (w.Proceeds userId row instrument env) :=
  inferInstanceAs (Decidable (∃ latest ∈
    (w.stored instrument.id row.definition.timeframe).candles.getLast?, _ =
      AutoTradeSupervisor.Verdict.proceed))

instance (w : AutoTradeWorld) (event : AutoTradeEvent) : Decidable (w.OneNewBar event) :=
  match event with
  | .process userId strategyId instrument env =>
    inferInstanceAs (Decidable (∀ row ∈ w.loaded.get? strategyId,
      w.Proceeds userId row instrument env → _ → _ ∧ _))
  | .arrive .. => isTrue trivial
  | .edit .. => isTrue trivial
  | .load .. => isTrue trivial

end AutoTradeWorld

/-! ## Section 2: What a call makes of a list -/

namespace AutoTradeSupervisor

open AutoTradeWorld (listOf)

variable {analyze : Analysis} {s : AutoTradeSupervisor} {key : EngineKey} {row : StrategyRow}
  {instrument : Instrument} {env : PassEnv}

/-- The list after seeding. -/
def seededList (list stored : List Candle) : List Candle :=
  if list = [] then stored.dropLast else list

/-- Building an engine, swapping its strategy and its limits leave its list. -/
theorem engine_candles : (s.engine key row instrument env).candles = listOf s key := by
  unfold engine listOf
  cases s.engines.get? key with
  | none => rfl
  | some engine =>
    dsimp only
    split <;> rfl

theorem seeded_candles (engine : PaperTradingEngine) (stored : List Candle) :
    (seeded engine stored).candles = seededList engine.candles stored := by
  unfold seeded seededList
  split <;> rfl

/-- Whether the call returns or raises, its candle is appended. -/
theorem feed_candles (engine : PaperTradingEngine) (account : PaperAccount) (latest : Candle) :
    (feed analyze engine account env latest).2.1.candles = engine.candles ++ [latest] := by
  unfold feed
  cases env.raised with
  | some left => rfl
  | none =>
    cases hcall : engine.onCandle analyze account env.paper latest with
    | error message =>
      obtain ⟨orders, hleft⟩ := engine.abandoned_engine analyze account env.paper latest
      exact congrArg PaperTradingEngine.candles hleft
    | ok r =>
      obtain ⟨outcome, engine', account'⟩ := r
      obtain ⟨orders, rfl⟩ := PaperTradingEngine.onCandle_engine hcall
      rfl

theorem listOf_set (s : AutoTradeSupervisor) (key key' : EngineKey) (engine : PaperTradingEngine) :
    ((s.engines.set key engine).get? key').elim [] PaperTradingEngine.candles =
      if key = key' then engine.candles else listOf s key' := by
  rw [Dict.get?_set]
  split <;> rfl

/-- What a call does to the lists: other engines keep theirs; its own is kept, seeded,
or seeded and fed, the last exactly when nothing stops the call. -/
structure ProcessEffect (s : AutoTradeSupervisor) (key : EngineKey) (stored : List Candle)
    (proceeds : Prop) (after : AutoTradeSupervisor × Option FedCandle) : Prop where
  others : ∀ key', key ≠ key' → listOf after.1 key' = listOf s key'
  own : after.2 = none ∧
      (listOf after.1 key = listOf s key ∨
        listOf after.1 key = seededList (listOf s key) stored) ∨
    proceeds ∧ ∃ latest ∈ stored.getLast?, ∃ fed, after.2 = some fed ∧ fed.latest = latest ∧
      fed.engine.candles = seededList (listOf s key) stored ++ [latest] ∧
      listOf after.1 key = fed.engine.candles

theorem process_effect (stored : List Candle) (userId : AccountId) :
    let key : EngineKey := ⟨userId, row.id, instrument.id⟩
    let isOpen := ((s.engine key row instrument env).position (s.account userId env)).any
      PositionRecord.isOpen
    ProcessEffect s key stored
      (∃ latest ∈ stored.getLast?,
        s.verdict key row.definition.timeframe latest isOpen env = .proceed)
      (s.process analyze stored userId row instrument env) := by
  intro key isOpen
  -- Storing the refreshed engine back changes no list.
  have hsame : ∀ key', (((s.engines.set key (s.engine key row instrument env)).get? key').elim []
      PaperTradingEngine.candles) = listOf s key' := by
    intro key'
    rw [listOf_set, engine_candles]
    split
    · rename_i heq
      rw [heq]
    · rfl
  have hset : ∀ engine key', listOf { s with
      engines := (s.engines.set key (s.engine key row instrument env)).set key engine } key' =
        if key = key' then engine.candles else listOf s key' := by
    intro engine key'
    show (Dict.get? (Dict.set _ key engine) key').elim _ _ = _
    rw [Dict.set_set, listOf_set]
  unfold process
  cases hlast : stored.getLast? with
  | none => exact ⟨fun key' _ => hsame key', Or.inl ⟨rfl, Or.inl (hsame key)⟩⟩
  | some latest =>
    dsimp only
    have hverdict : (s.refreshed key row (s.engine key row instrument env)
        (s.account userId env)).verdict key row.definition.timeframe latest isOpen env =
          s.verdict key row.definition.timeframe latest isOpen env := rfl
    have hseeded : listOf { s with
        engines := (s.engines.set key (s.engine key row instrument env)).set key
          (seeded (s.engine key row instrument env) stored) } key =
            seededList (listOf s key) stored := by
      rw [hset, if_pos rfl, seeded_candles, engine_candles]
    rw [hverdict]
    -- Only a call that gets to its verdict seeds the engine, and only the last one feeds it.
    cases hv : s.verdict key row.definition.timeframe latest isOpen env with
    | seen => exact ⟨fun key' _ => hsame key', Or.inl ⟨rfl, Or.inl (hsame key)⟩⟩
    | unsupported => exact ⟨fun key' _ => hsame key', Or.inl ⟨rfl, Or.inl (hsame key)⟩⟩
    | stale => exact ⟨fun key' _ => hsame key', Or.inl ⟨rfl, Or.inl (hsame key)⟩⟩
    | halted =>
      exact ⟨fun key' hne => (hset _ key').trans (if_neg hne), Or.inl ⟨rfl, Or.inr hseeded⟩⟩
    | deferred =>
      exact ⟨fun key' hne => (hset _ key').trans (if_neg hne), Or.inl ⟨rfl, Or.inr hseeded⟩⟩
    | proceed =>
      refine ⟨fun key' hne => (hset _ key').trans (if_neg hne), Or.inr ⟨⟨latest, rfl, hv⟩, latest,
        hlast, _, rfl, rfl, ?_, (hset _ key).trans (if_pos rfl)⟩⟩
      show (feed _ _ _ _ _).2.1.candles = _
      rw [feed_candles, seeded_candles, engine_candles]

end AutoTradeSupervisor

/-! ## Section 3: Runs -/

namespace AutoTradeWorld

open AutoTradeSupervisor (seededList)

variable {analyze : Analysis} {w : AutoTradeWorld}

/-- An engine's list is the start of the stored series it was begun with, and the calls so
far analysed the stored series. -/
structure OnSeries (w : AutoTradeWorld) : Prop where
  lists : ∀ key, listOf w.supervisor key ≠ [] → ∃ timeframe,
    w.begun.get? key = some timeframe ∧
      listOf w.supervisor key <+: (w.stored key.instrumentId timeframe).candles
  feeds : ∀ f ∈ w.feeds, f.Whole

/-- Up to its last candle, a series is itself. -/
theorem filter_le_latest {series : CandleSeries} {latest : Candle}
    (h : series.candles.getLast? = some latest) :
    series.candles.filter (fun c => c.timestamp ≤ latest.timestamp) = series.candles := by
  obtain ⟨before, hsplit⟩ := List.getLast?_eq_some_iff.mp h
  have hascending := series.ascending
  rw [hsplit, List.pairwise_append] at hascending
  rw [List.filter_eq_self]
  intro c hc
  rw [hsplit, List.mem_append, List.mem_singleton] at hc
  rcases hc with hc | rfl
  · exact decide_eq_true (hascending.2.2 c hc latest List.mem_cons_self).le
  · exact decide_eq_true le_rfl

/-- A start of an ascending series with one new bar behind it is the series without it. -/
theorem append_latest {list : List Candle} {series : CandleSeries} {latest : Candle}
    (hlist : list ≠ []) (hstart : list <+: series.candles)
    (hnew : (newBars list series.candles).length = 1)
    (hlatest : series.candles.getLast? = some latest) : list ++ [latest] = series.candles := by
  obtain ⟨rest, hrest⟩ := hstart
  obtain ⟨last, hlast⟩ := Option.ne_none_iff_exists'.mp (mt List.getLast?_eq_none_iff.mp hlist)
  obtain ⟨before, rfl⟩ := List.getLast?_eq_some_iff.mp hlast
  have hascending := series.ascending
  rw [← hrest, List.pairwise_append, List.pairwise_append] at hascending
  obtain ⟨⟨-, -, hbefore⟩, -, hbehind⟩ := hascending
  -- What is behind the last bar of the list is new, and nothing else is.
  have hfilter : newBars (before ++ [last]) series.candles = rest := by
    rw [newBars, hlast, ← hrest, List.filter_append]
    have hold : (before ++ [last]).filter
        (fun c => (some last).all fun last => decide (last.timestamp < c.timestamp)) = [] := by
      rw [List.filter_eq_nil_iff]
      intro c hc
      rw [List.mem_append, List.mem_singleton] at hc
      rcases hc with hc | rfl
      · simpa using (hbefore c hc last List.mem_cons_self).le
      · simp
    have hbeyond : rest.filter
        (fun c => (some last).all fun last => decide (last.timestamp < c.timestamp)) = rest := by
      rw [List.filter_eq_self]
      intro c hc
      simpa using hbehind last (by simp) c hc
    rw [hold, hbeyond, List.nil_append]
  rw [hfilter] at hnew
  obtain ⟨c, rfl⟩ := List.length_eq_one_iff.mp hnew
  rw [← hrest, List.getLast?_append] at hlatest
  simp only [List.getLast?_singleton, Option.some_or, Option.some.injEq] at hlatest
  rw [← hrest, hlatest]

/-- Seeding an empty list and feeding it gives the series. -/
theorem dropLast_append {stored : List Candle} {latest : Candle}
    (h : stored.getLast? = some latest) : stored.dropLast ++ [latest] = stored := by
  obtain ⟨before, rfl⟩ := List.getLast?_eq_some_iff.mp h
  rw [List.dropLast_concat]

theorem stored_arrive (instrumentId timeframe instrumentId' timeframe' : String)
    (candle : Candle) : (w.stored instrumentId' timeframe').candles <+:
      ((step analyze w (.arrive instrumentId timeframe candle)).stored instrumentId'
        timeframe').candles := by
  unfold step stored
  dsimp only
  rw [Dict.get?_set]
  split
  · rename_i heq
    obtain ⟨rfl, rfl⟩ := Prod.mk.inj heq
    rw [Option.getD_some]
    unfold CandleSeries.append
    split
    · exact List.prefix_append ..
    · exact List.prefix_refl _
  · exact List.prefix_refl _

/-- A call that the run's condition allows. -/
theorem OnSeries.process (h : w.OnSeries) {userId : AccountId} {row : StrategyRow}
    {instrument : Instrument} {env : PassEnv}
    (hnew : w.Proceeds userId row instrument env →
      listOf w.supervisor ⟨userId, row.id, instrument.id⟩ ≠ [] →
        w.begun.get? ⟨userId, row.id, instrument.id⟩ = some row.definition.timeframe ∧
          (newBars (listOf w.supervisor ⟨userId, row.id, instrument.id⟩)
            (w.stored instrument.id row.definition.timeframe).candles).length = 1) :
    (w.process analyze userId row instrument env).OnSeries := by
  set key : EngineKey := ⟨userId, row.id, instrument.id⟩ with hkey
  set series := w.stored instrument.id row.definition.timeframe with hseries
  obtain ⟨hothers, hown⟩ : AutoTradeSupervisor.ProcessEffect w.supervisor key series.candles
      (w.Proceeds userId row instrument env)
      (w.supervisor.process analyze series.candles userId row instrument env) :=
    AutoTradeSupervisor.process_effect series.candles userId
  set after := w.supervisor.process analyze series.candles userId row instrument env with hafter
  -- A fed list is the series: seeded in front of the candle, or one bar short of it.
  have hfed : w.Proceeds userId row instrument env → ∀ latest ∈ series.candles.getLast?,
      seededList (listOf w.supervisor key) series.candles ++ [latest] = series.candles := by
    intro hproceeds latest hlatest
    by_cases hlist : listOf w.supervisor key = []
    · rw [seededList, if_pos hlist]
      exact dropLast_append hlatest
    · obtain ⟨hbegun, hone⟩ := hnew hproceeds hlist
      obtain ⟨timeframe, hbegun', hstart⟩ := h.lists key hlist
      cases hbegun.symm.trans hbegun'
      rw [seededList, if_neg hlist]
      exact append_latest hlist hstart hone hlatest
  constructor
  · -- The list of the call's own key: empty before, so it starts the series, or it was started.
    intro key' hnonempty
    by_cases hne : key = key'
    · subst hne
      show ∃ timeframe, (if listOf w.supervisor key = [] then
          w.begun.set key row.definition.timeframe else w.begun).get? key = some timeframe ∧
        listOf after.1 key <+: (w.stored instrument.id timeframe).candles
      by_cases hlist : listOf w.supervisor key = []
      · refine ⟨row.definition.timeframe, by simp [hlist], ?_⟩
        rcases hown with ⟨-, hkept | hseeded⟩ |
          ⟨hproceeds, latest, hlatest, fed, -, -, hcandles, hnow⟩
        · rw [hkept, hlist]
          exact List.nil_prefix
        · rw [hseeded, seededList, if_pos hlist]
          exact List.dropLast_prefix _
        · rw [hnow, hcandles, hfed hproceeds latest hlatest]
      · obtain ⟨timeframe, hbegun, hstart⟩ := h.lists key hlist
        refine ⟨timeframe, by simp [hlist, hbegun], ?_⟩
        rcases hown with ⟨-, hkept | hseeded⟩ |
          ⟨hproceeds, latest, hlatest, fed, -, -, hcandles, hnow⟩
        · rw [hkept]
          exact hstart
        · rw [hseeded, seededList, if_neg hlist]
          exact hstart
        · cases (hnew hproceeds hlist).1.symm.trans hbegun
          rw [hnow, hcandles, hfed hproceeds latest hlatest]
    · -- The lists of other keys.
      have hlist : listOf after.1 key' = listOf w.supervisor key' := hothers key' hne
      have hlist' : listOf w.supervisor key' ≠ [] := hlist ▸ hnonempty
      obtain ⟨timeframe, hbegun, hstart⟩ := h.lists key' hlist'
      refine ⟨timeframe, ?_, ?_⟩
      · show (if listOf w.supervisor key = [] then
          w.begun.set key row.definition.timeframe else w.begun).get? key' = _
        split
        · rw [Dict.get?_set_of_ne _ hne, hbegun]
        · exact hbegun
      · show listOf after.1 key' <+: _
        rw [hlist]
        exact hstart
  · -- A feed is of before, or it is the call's own, which is whole.
    intro f hf
    have hf' : f ∈ w.feeds ++ (after.2.map fun fed =>
        (⟨fed.engine.candles, fed.latest, series.candles⟩ : FeedRecord)).toList := hf
    rcases List.mem_append.mp hf' with hold | hlast
    · exact h.feeds f hold
    · rcases hown with ⟨hnone, -⟩ | ⟨hproceeds, latest, hlatest, fed, hsome, rfl, hcandles, -⟩
      · simp [hnone] at hlast
      · rw [hsome] at hlast
        simp only [Option.map_some, Option.toList_some, List.mem_singleton] at hlast
        subst hlast
        unfold FeedRecord.Whole
        dsimp only
        rw [hcandles, hfed hproceeds _ hlatest, filter_le_latest hlatest]

/-- One event that the run's condition allows. -/
theorem OnSeries.step (h : w.OnSeries) {event : AutoTradeEvent} (hnew : w.OneNewBar event) :
    (step analyze w event).OnSeries := by
  cases event with
  | arrive instrumentId timeframe candle =>
    refine ⟨fun key hlist => ?_, h.feeds⟩
    obtain ⟨timeframe', hbegun, hstart⟩ := h.lists key hlist
    exact ⟨timeframe', hbegun, hstart.trans (stored_arrive ..)⟩
  | edit strategyId definition => exact ⟨h.lists, h.feeds⟩
  | load strategyId =>
    unfold AutoTradeWorld.step
    dsimp only
    split <;> exact ⟨h.lists, h.feeds⟩
  | process userId strategyId instrument env =>
    unfold AutoTradeWorld.step
    dsimp only
    cases hrow : w.loaded.get? strategyId with
    | none => exact h
    | some row => exact h.process (hnew row hrow)

/-- **The auto-trader analyses the stored series**, in every run in which each call that
feeds an engine with a list finds one new bar, of the timeframe the list was begun with:
the list of every call of `on_candle`, its candle included, is the stored series of the
strategy's timeframe up to that candle. -/
theorem feeds_whole (analyze : Analysis) (events : List AutoTradeEvent)
    (h : Each (step analyze) OneNewBar {} events) :
    Throughout (step analyze) (fun w => ∀ f ∈ w.feeds, f.Whole) {} events := by
  have hempty : OnSeries {} := ⟨fun key hlist => absurd rfl hlist, fun f hf => by cases hf⟩
  have hrun : Throughout (step analyze) OnSeries {} events :=
    throughout_of_each (fun w event hw hC => hw.step hC) hempty h
  exact hrun.mono fun w hw => hw.feeds

/-! ### Runs -/

def noSetup : Analysis := fun _ _ =>
  { allSatisfied := false
    satisfied := []
    missing := []
    bias := none
    entryAndStop := fun _ => (none, none) }

/-- The minute bars of 1970-01-01. -/
def minuteBar (n : ℕ) : AutoTradeEvent :=
  .arrive "NIFTY" "1m"
    { timestamp := n * Timestamp.microsPerMinute
      «open» := 100
      high := 101
      low := 99
      close := 100 }

/-- A pass at 00:03 that nothing stops. -/
def passOnce : AutoTradeEvent :=
  .process "u" "s" ⟨"NIFTY", "NIFTY"⟩
    { paper := { now := 719162 * Instant.microsPerDay + 180000000 }
      settings := ⟨1, 2, 10, 5⟩
      restored := { broker := MockBroker.new 100000 } }

def onboarding : List AutoTradeEvent :=
  [.edit "s" { name := "s", timeframe := "1m" }, .load "s", minuteBar 0, minuteBar 1, passOnce]

/-- One new bar between two passes. -/
theorem one_bar_whole : Throughout (step noSetup) (fun w => ∀ f ∈ w.feeds, f.Whole) {}
    (onboarding ++ [minuteBar 2, passOnce]) :=
  feeds_whole noSetup _ (by decide +kernel)

/-- Two new bars between two passes: the first of them is missing from the list. -/
theorem two_bars_gap :
    ¬ ∀ f ∈ (run (step noSetup) {} (onboarding ++ [minuteBar 2, minuteBar 3, passOnce])).feeds,
      f.Whole := by
  decide +kernel

example : (run (step noSetup) {} (onboarding ++ [minuteBar 2, passOnce])).feeds.length = 2 := by
  decide +kernel

end AutoTradeWorld

end SuperTrading
