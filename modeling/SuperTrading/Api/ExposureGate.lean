import SuperTrading.Api.Options
import SuperTrading.Brokers.Scripted
import SuperTrading.Trading.PositionRoundTrip

/-!
# What the Exposure Gates Count

An account has one balance, and three places measure its exposure: `POST /orders`,
`POST /options/execute` and the auto-trading engine. Each adds its own book, which holds the
positions of its own source and execution mode, to the other source's rows of any mode. The
rows that no gate on one side counts are those of its own source in another mode.

- **Layer A**: the rows of a source, and what each side counts of them
- **Layer B**: when a side counts all of a source
- **Layer C**: the three gates
-/

namespace SuperTrading

open SuperTrading.Logic

/-! ## Layer A: The rows of a source -/

namespace Db

/-- The open rows of a source, in every mode. -/
def sourceRows (db : Db) (sourceKey : String) : List PositionRow :=
  db.positions.filter fun row => row.sourceKey = sourceKey ∧ row.isOpen

/-- The open rows of the account: those of every source that its balance backs. -/
def accountRows (db : Db) : List PositionRow :=
  db.positions.filter fun row => row.sourceKey ∈ accountBackedSourceKeys ∧ row.isOpen

/-- The sizes of some rows, added up. -/
def grossNotional (rows : List PositionRow) : ℚ := (rows.map fun row => |row.notional|).sum

/-- What an engine counts of a row of its own source: nothing if it is of another mode. -/
def countedAsOwn (executionMode : ExecutionMode) (row : PositionRow) : ℚ :=
  if row.executionMode = executionMode then |row.quantity| * row.averagePrice else 0

/-- What an engine counts of its own source. -/
def ownExposure (db : Db) (executionMode : ExecutionMode) (sourceKey : String) : ℚ :=
  ((db.sourceRows sourceKey).map (countedAsOwn executionMode)).sum

/-- What the other engine counts of a source: the rows netted by symbol. -/
def nettedExposure (db : Db) (sourceKey : String) : ℚ :=
  ((Dict.tally ((db.sourceRows sourceKey).map fun row =>
    (row.symbol, row.notional))).values.map fun v => |v|).sum

/-- The rows of the account are those of its two sources. -/
theorem grossNotional_accountRows (db : Db) :
    grossNotional db.accountRows =
      grossNotional (db.sourceRows manualSourceKey) +
        grossNotional (db.sourceRows autoSourceKey) := by
  unfold accountRows sourceRows grossNotional
  have hne : manualSourceKey ≠ autoSourceKey := by decide
  induction db.positions with
  | nil => simp
  | cons row rows ih =>
    by_cases hopen : row.isOpen = true
    · by_cases hmanual : row.sourceKey = manualSourceKey
      · have hauto : row.sourceKey ≠ autoSourceKey := hmanual ▸ hne
        simp [hopen, hmanual, hne, accountBackedSourceKeys] at ih ⊢
        linarith
      · by_cases hauto : row.sourceKey = autoSourceKey
        · simp [hopen, hauto, hne.symm, accountBackedSourceKeys] at ih ⊢
          linarith
        · simpa [hopen, hmanual, hauto, accountBackedSourceKeys] using ih
    · simpa [hopen] using ih

/-- What one engine reads of the rows elsewhere is the other source's rows. -/
theorem loadElsewhere_eq (db : Db) {own other : String}
    (hsources : ∀ key, (key ∈ accountBackedSourceKeys ∧ key ≠ own) ↔ key = other) :
    db.loadOpenPositionNotionalsElsewhere own =
      .tally ((db.sourceRows other).map fun row => (row.symbol, row.notional)) := by
  unfold loadOpenPositionNotionalsElsewhere sourceRows
  congr 2
  apply List.filter_congr
  intro row _
  rw [decide_eq_decide, ← and_assoc]
  exact and_congr_left fun _ => hsources row.sourceKey

/-- There are two sources, and each is elsewhere to the other. -/
theorem sources_elsewhere (key : String) :
    ((key ∈ accountBackedSourceKeys ∧ key ≠ manualSourceKey) ↔ key = autoSourceKey) ∧
      ((key ∈ accountBackedSourceKeys ∧ key ≠ autoSourceKey) ↔ key = manualSourceKey) := by
  have hne : manualSourceKey ≠ autoSourceKey := by decide
  by_cases hmanual : key = manualSourceKey
  · simp [hmanual, hne, accountBackedSourceKeys]
  · by_cases hauto : key = autoSourceKey <;>
      simp [hmanual, hauto, hne.symm, accountBackedSourceKeys]

/-- The exposure of a restored book: what it counts of the rows of its source. -/
theorem grossExposure_restored {db : Db} {executionMode : ExecutionMode} {sourceKey : String}
    (hone : db.OneOpenRow executionMode sourceKey) (accountId : AccountId)
    (elsewhere : List (Symbol × ℚ)) :
    grossExposure ((PositionManager.restore {} (db.loadOpenPositions accountId executionMode
        sourceKey)).openPositions accountId) elsewhere =
      db.ownExposure executionMode sourceKey + (elsewhere.map fun e => |e.2|).sum := by
  rw [hone.openPositions_restore]
  unfold grossExposure loadOpenPositions ownExposure sourceRows
  congr 1
  -- A row of another mode adds nothing to either sum, nor does one without a quantity.
  induction db.positions with
  | nil => rfl
  | cons row rows ih =>
    by_cases hrow : row.sourceKey = sourceKey ∧ row.isOpen = true
    · by_cases hmode : row.executionMode = executionMode
      · by_cases hquantity : row.quantity = 0
        · simpa [hrow.1, hrow.2, hmode, hquantity, PositionRecord.isOpen, countedAsOwn] using ih
        · simpa [hrow.1, hrow.2, hmode, hquantity, PositionRecord.isOpen, countedAsOwn] using ih
      · simpa [hrow.1, hrow.2, hmode, countedAsOwn] using ih
    · rw [not_and_or] at hrow
      rcases hrow with hsource | hclosed
      · simpa [hsource] using ih
      · simpa [hclosed] using ih

/-! ## Layer B: When all of a source is counted -/

/-- Every open row of a source that has a notional is of this mode, at a positive price. -/
def Counted (db : Db) (executionMode : ExecutionMode) (sourceKey : String) : Prop :=
  ∀ row ∈ db.sourceRows sourceKey, row.notional ≠ 0 →
    row.executionMode = executionMode ∧ 0 < row.averagePrice

instance (db : Db) (executionMode : ExecutionMode) (sourceKey : String) :
    Decidable (db.Counted executionMode sourceKey) :=
  inferInstanceAs (Decidable (∀ row ∈ db.sourceRows sourceKey, row.notional ≠ 0 →
    row.executionMode = executionMode ∧ 0 < row.averagePrice))

theorem countedAsOwn_le (executionMode : ExecutionMode) (row : PositionRow) :
    countedAsOwn executionMode row ≤ |row.notional| := by
  unfold countedAsOwn PositionRow.notional
  split
  · rw [abs_mul]
    exact mul_le_mul_of_nonneg_left (le_abs_self _) (abs_nonneg _)
  · exact abs_nonneg _

/-- A row counts in full exactly if it has no notional, or is of the mode at a positive price. -/
theorem countedAsOwn_eq (executionMode : ExecutionMode) (row : PositionRow) :
    countedAsOwn executionMode row = |row.notional| ↔
      (row.notional ≠ 0 → row.executionMode = executionMode ∧ 0 < row.averagePrice) := by
  unfold countedAsOwn PositionRow.notional
  by_cases hquantity : row.quantity = 0
  · simp [hquantity]
  by_cases hmode : row.executionMode = executionMode
  · rw [if_pos hmode, abs_mul]
    have hpos : 0 < |row.quantity| := abs_pos.mpr hquantity
    constructor
    · intro heq hne
      -- Equal products with a positive factor: the price is its own absolute value.
      have hprice : row.averagePrice = |row.averagePrice| := mul_left_cancel₀ hpos.ne' heq
      refine ⟨hmode, lt_of_le_of_ne ?_ fun h => hne (by rw [← h, mul_zero])⟩
      rw [hprice]
      exact abs_nonneg _
    · intro hcounted
      by_cases hprice : row.averagePrice = 0
      · simp [hprice]
      · rw [abs_of_pos (hcounted (mul_ne_zero hquantity hprice)).2]
  · rw [if_neg hmode]
    constructor
    · intro hzero hne
      exact absurd (abs_eq_zero.mp hzero.symm) hne
    · intro hcounted
      by_contra hne
      exact hmode (hcounted fun hzero => hne (by rw [hzero, abs_zero])).1

/-- Where no term is larger, sums are no smaller only if every term is the same. -/
theorem sum_le_sum_iff {α : Type} {f g : α → ℚ} (hle : ∀ x, f x ≤ g x) (l : List α) :
    (l.map g).sum ≤ (l.map f).sum ↔ ∀ x ∈ l, f x = g x := by
  induction l with
  | nil => simp
  | cons x l ih =>
    have hsum : (l.map f).sum ≤ (l.map g).sum := List.sum_le_sum fun x _ => hle x
    rw [List.map_cons, List.map_cons, List.sum_cons, List.sum_cons, List.forall_mem_cons, ← ih]
    constructor
    · intro h
      exact ⟨le_antisymm (hle x) (by linarith), by linarith [hle x]⟩
    · rintro ⟨hx, hl⟩
      linarith

/-- An engine's own book counts its source in full exactly if every row of it is counted. -/
theorem own_complete_iff (db : Db) (executionMode : ExecutionMode) (sourceKey : String) :
    grossNotional (db.sourceRows sourceKey) ≤ db.ownExposure executionMode sourceKey ↔
      db.Counted executionMode sourceKey := by
  unfold grossNotional ownExposure Counted
  rw [sum_le_sum_iff (countedAsOwn_le executionMode)]
  exact forall₂_congr fun row _ => countedAsOwn_eq executionMode row

/-- Netting by symbol loses nothing of a source whose rows are all of one mode. -/
theorem Counted.nettedExposure_eq {db : Db} {executionMode : ExecutionMode} {sourceKey : String}
    (h : db.Counted executionMode sourceKey) (hone : db.OneOpenRow executionMode sourceKey) :
    db.nettedExposure sourceKey = grossNotional (db.sourceRows sourceKey) := by
  have hmode : db.openRows executionMode sourceKey =
      (db.sourceRows sourceKey).filter fun row => row.executionMode = executionMode := by
    unfold openRows sourceRows
    rw [List.filter_filter]
    apply List.filter_congr
    intro row _
    simp
  have hsymbols : (db.sourceRows sourceKey).Pairwise fun row row' =>
      decide (row.executionMode = executionMode) = true →
      decide (row'.executionMode = executionMode) = true → row.symbol ≠ row'.symbol := by
    rw [← List.pairwise_filter, ← hmode]
    exact List.pairwise_map.mp hone.nodup
  rw [nettedExposure, Dict.sum_abs_tally]
  · rw [List.map_map]
    rfl
  · rw [List.pairwise_map]
    refine hsymbols.imp_of_mem fun {row row'} hrow hrow' hdistinct hsymbol => ?_
    -- Two rows of one symbol are not both of the mode, so one has no notional.
    by_contra hboth
    rw [not_or] at hboth
    exact hdistinct (decide_eq_true (h row hrow hboth.1).1)
      (decide_eq_true (h row' hrow' hboth.2).1) hsymbol

theorem ownExposure_le (db : Db) (executionMode : ExecutionMode) (sourceKey : String) :
    db.ownExposure executionMode sourceKey ≤ grossNotional (db.sourceRows sourceKey) :=
  List.sum_le_sum fun row _ => countedAsOwn_le executionMode row

theorem nettedExposure_le (db : Db) (sourceKey : String) :
    db.nettedExposure sourceKey ≤ grossNotional (db.sourceRows sourceKey) := by
  refine (Dict.sum_abs_tally_le _).trans (le_of_eq ?_)
  rw [List.map_map]
  rfl

end Db

/-! ## Layer C: The three gates -/

/-- `POST /orders`, `POST /options/execute` and the auto-trading engine each measure an
exposure of at least the sizes of all open rows of the account. -/
structure ExposureComplete {β : Type} [Broker β] (db : Db) (s : Stack β) (e : PaperTradingEngine)
    (a : PaperAccount) : Prop where
  orders : ∀ (env : CallEnv) (r : PlaceOrderRequest) (ltp : ℚ),
    env.elsewhere = (db.loadOpenPositionNotionalsElsewhere manualSourceKey).entries →
    Db.grossNotional db.accountRows ≤ ((s.prepared env r).tradeProposal env r ltp).currentExposure
  options : ∀ (env : OptionsEnv) (legs : List ResolvedLeg) (payoff : PayoffResult),
    env.elsewhere = (db.loadOpenPositionNotionalsElsewhere manualSourceKey).entries →
    Db.grossNotional db.accountRows ≤
      ((s.rollRiskWindow env.now).optionsProposal env legs payoff).currentExposure
  autoTrading : ∀ (env : PaperEnv) (signal : Signal),
    env.elsewhere = (db.loadOpenPositionNotionalsElsewhere autoSourceKey).entries →
    Db.grossNotional db.accountRows ≤ (e.proposal a env signal).currentExposure

/-- **Exposure gates.** For every set of open rows and with each book restored from its own,
all three exposures are complete exactly if every manual row with a notional is of the
stack's mode, every auto row with one is PAPER, and none is at a negative price. -/
theorem exposureComplete_iff {β : Type} [Broker β] {db : Db}
    (hunique : ∀ executionMode sourceKey, db.OneOpenRow executionMode sourceKey) {s : Stack β}
    (hstack : s.positionManager = PositionManager.restore {}
      (db.loadOpenPositions s.userId (executionModeFor β) manualSourceKey))
    {e : PaperTradingEngine} {a : PaperAccount}
    (hauto : a.positionManager = PositionManager.restore {}
      (db.loadOpenPositions e.accountId .paper autoSourceKey)) :
    ExposureComplete db s e a ↔
      db.Counted (executionModeFor β) manualSourceKey ∧ db.Counted .paper autoSourceKey := by
  have hprepared : ∀ env r, (s.prepared env r).positionManager = s.positionManager ∧
      (s.prepared env r).userId = s.userId := by
    intro env r
    unfold Stack.prepared Stack.seedQuote
    split <;> exact ⟨rfl, rfl⟩
  -- What a book counts of its own, and what it reads of the other source.
  have hmanual : ∀ elsewhere,
      elsewhere = (db.loadOpenPositionNotionalsElsewhere manualSourceKey).entries →
      grossExposure (s.positionManager.openPositions s.userId) elsewhere =
        db.ownExposure (executionModeFor β) manualSourceKey + db.nettedExposure autoSourceKey := by
    rintro elsewhere rfl
    rw [hstack, Db.grossExposure_restored (hunique _ _),
      Db.loadElsewhere_eq db fun key => (Db.sources_elsewhere key).1, Db.nettedExposure,
      Dict.values, List.map_map]
    rfl
  have hpaper : ∀ elsewhere,
      elsewhere = (db.loadOpenPositionNotionalsElsewhere autoSourceKey).entries →
      grossExposure (a.positionManager.openPositions e.accountId) elsewhere =
        db.ownExposure .paper autoSourceKey + db.nettedExposure manualSourceKey := by
    rintro elsewhere rfl
    rw [hauto, Db.grossExposure_restored (hunique _ _),
      Db.loadElsewhere_eq db fun key => (Db.sources_elsewhere key).2, Db.nettedExposure,
      Dict.values, List.map_map]
    rfl
  have horders : ∀ (env : CallEnv) (r : PlaceOrderRequest) (ltp : ℚ),
      env.elsewhere = (db.loadOpenPositionNotionalsElsewhere manualSourceKey).entries →
      ((s.prepared env r).tradeProposal env r ltp).currentExposure =
        db.ownExposure (executionModeFor β) manualSourceKey + db.nettedExposure autoSourceKey := by
    intro env r ltp helsewhere
    rw [← hmanual _ helsewhere, ← (hprepared env r).1, ← (hprepared env r).2]
    rfl
  have hmanualOwn := db.ownExposure_le (executionModeFor β) manualSourceKey
  have hautoOwn := db.ownExposure_le .paper autoSourceKey
  have hmanualNetted := db.nettedExposure_le manualSourceKey
  have hautoNetted := db.nettedExposure_le autoSourceKey
  have htotal := db.grossNotional_accountRows
  constructor
  · intro h
    -- Neither part of an exposure exceeds its source, so a complete sum has complete parts.
    have hmanualSum := h.orders { now := 0, elsewhere := _ } (.market "" .long 2 1) 0 rfl
    rw [horders _ _ _ rfl, htotal] at hmanualSum
    have hautoSum : Db.grossNotional db.accountRows ≤ _ := h.autoTrading { elsewhere := _ }
      { direction := .bullish
        entry := 2
        stop := 1
        target := 3
        riskReward := 1
        bracketed := ⟨by norm_num, by norm_num⟩ } rfl
    replace hautoSum := hautoSum.trans_eq (hpaper _ rfl)
    rw [htotal] at hautoSum
    constructor
    · exact (db.own_complete_iff _ _).mp (by linarith)
    · exact (db.own_complete_iff _ _).mp (by linarith)
  · rintro ⟨hcountedManual, hcountedAuto⟩
    have hmanualAll := (db.own_complete_iff _ _).mpr hcountedManual
    have hautoAll := (db.own_complete_iff _ _).mpr hcountedAuto
    have hmanualTally := hcountedManual.nettedExposure_eq (hunique _ _)
    have hautoTally := hcountedAuto.nettedExposure_eq (hunique _ _)
    refine ⟨fun env r ltp helsewhere => ?_, fun env legs payoff helsewhere => ?_,
      fun env signal helsewhere => ?_⟩
    · rw [horders env r ltp helsewhere]
      linarith
    · refine le_trans ?_ (hmanual _ helsewhere).ge
      linarith
    · refine le_trans ?_ (hpaper _ helsewhere).ge
      linarith

/-- One open row of the manual stack, taken on while no broker was connected. -/
def paperHolding : Db :=
  { positions :=
      [{ symbol := "ACME"
         executionMode := .paper
         sourceKey := manualSourceKey
         quantity := 100
         averagePrice := 100
         stop := none
         target := none
         protectiveOrderId := none
         unrealizedPnl := 0
         realizedPnl := 0
         isOpen := true }] }

/-- The auto-trading engine of the same user. -/
def autoEngine : PaperTradingEngine :=
  { strategy := { name := "", timeframe := "" }
    symbol := "ACME"
    accountId := "user" }

/-- Its account, as a starting worker restores it. -/
def autoAccount (db : Db) : PaperAccount :=
  { broker := { balance := 100000, startingBalance := 100000 }
    positionManager :=
      PositionManager.restore {} (db.loadOpenPositions "user" .paper autoSourceKey) }

/-- After a broker is connected, the stack counts 0 of the 10000 held in paper mode. -/
theorem exposure_misses_other_mode :
    ¬ ExposureComplete paperHolding (Stack.build "user" ({} : ScriptedVenue) paperHolding 0)
      autoEngine (autoAccount paperHolding) := by
  intro h
  have hcounted := h.orders { now := 0, elsewhere := _ } (.market "ACME" .long 100 95) 100 rfl
  revert hcounted
  decide +kernel

theorem exposureComplete_iff_paper :
    ExposureComplete paperHolding
      (Stack.build "user" ({ balance := 100000, startingBalance := 100000 } : MockBroker)
        paperHolding 0) autoEngine (autoAccount paperHolding) := by
  have hunique : ∀ executionMode sourceKey, paperHolding.OneOpenRow executionMode sourceKey :=
    fun _ _ _ => List.length_filter_le _ _
  exact (exposureComplete_iff hunique rfl rfl).mpr ⟨by decide +kernel, by decide +kernel⟩

end SuperTrading
