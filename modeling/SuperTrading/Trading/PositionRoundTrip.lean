import SuperTrading.Paper.Engine
import SuperTrading.Trading.Persistence

/-!
# The Risk Inputs of Restored Positions

A position row has no column for the strategy that holds the position. What the paper
engine computes of a restored book is what it computed of the original, apart from the
allocation of each strategy, which is 0.

- **Layer A**: restoring a list of positions
- **Layer B**: what the rows hold after the positions are persisted
- **Layer C**: the risk inputs of the restored book
-/

namespace SuperTrading

open SuperTrading.Logic

/-! ## Layer A: Restoring -/

namespace PositionManager

variable {accountId : AccountId} {positions : List PositionRecord}

theorem positions_restore (positions : List PositionRecord) :
    (restore {} positions).positions =
      Dict.index (fun p : PositionRecord => (p.accountId, p.symbol)) positions := by
  have hgen : ∀ (positions : List PositionRecord) (m : PositionManager),
      (m.restore positions).positions =
        positions.foldl (fun d p => d.set (p.accountId, p.symbol) p) m.positions := by
    intro positions
    induction positions with
    | nil => intro m; rfl
    | cons p positions ih => exact fun m => ih (m.put p)
  exact hgen positions {}

/-- A book restored of positions in symbols of their own holds the open ones as open. -/
theorem openPositions_restore (haccount : ∀ p ∈ positions, p.accountId = accountId)
    (hsymbols : (positions.map PositionRecord.symbol).Nodup) :
    (restore {} positions).openPositions accountId = positions.filter PositionRecord.isOpen := by
  have hkeys : (positions.map fun p => (p.accountId, p.symbol)).Nodup := by
    have hsnd : (positions.map fun p => (p.accountId, p.symbol)).map Prod.snd =
        positions.map PositionRecord.symbol := by simp
    exact .of_map Prod.snd (hsnd ▸ hsymbols)
  unfold openPositions
  rw [positions_restore, Dict.entries_index hkeys, List.filter_map, List.map_map]
  have hfilter : positions.filter ((fun e : (AccountId × Symbol) × PositionRecord =>
      decide (e.1.1 = accountId ∧ e.2.isOpen = true)) ∘ fun p => ((p.accountId, p.symbol), p)) =
        positions.filter PositionRecord.isOpen := by
    apply List.filter_congr
    intro p hp
    simp [haccount p hp]
  rw [hfilter]
  exact List.map_id _

/-- The entries that `openPositions` lists, each under its own account and symbol. -/
theorem mem_open_entries {m : PositionManager} {e : (AccountId × Symbol) × PositionRecord}
    (h : e ∈ m.positions.entries.filter fun e => e.1.1 = accountId ∧ e.2.isOpen) :
    e = ((accountId, e.2.symbol), e.2) ∧ m.get accountId e.2.symbol = some e.2 ∧
      e.2.isOpen = true := by
  obtain ⟨key, p⟩ := e
  obtain ⟨hmem, hcondition⟩ := List.mem_filter.mp h
  obtain ⟨haccount, hopen⟩ := of_decide_eq_true hcondition
  have hget : m.positions.get? key = some p := m.positions.mem_entries_iff.mp hmem
  have hkey := m.stored key p hget
  subst hkey
  dsimp only at haccount
  subst haccount
  exact ⟨rfl, hget, hopen⟩

theorem mem_openPositions {m : PositionManager} {p : PositionRecord} :
    p ∈ m.openPositions accountId ↔
      m.get accountId p.symbol = some p ∧ p.isOpen = true := by
  constructor
  · intro h
    obtain ⟨e, he, rfl⟩ := List.mem_map.mp h
    exact (mem_open_entries he).2
  · rintro ⟨hget, hopen⟩
    refine List.mem_map.mpr ⟨((accountId, p.symbol), p), List.mem_filter.mpr ⟨?_, ?_⟩, rfl⟩
    · exact m.positions.mem_entries_iff.mpr hget
    · exact decide_eq_true ⟨rfl, hopen⟩

/-- The open positions of an account are in symbols of their own. -/
theorem nodup_openPositions (m : PositionManager) (accountId : AccountId) :
    ((m.openPositions accountId).map PositionRecord.symbol).Nodup := by
  unfold openPositions
  rw [List.map_map]
  apply List.Nodup.map_on
  · intro e he e' he' hsymbol
    obtain ⟨heq, hget, -⟩ := mem_open_entries he
    obtain ⟨heq', hget', -⟩ := mem_open_entries he'
    -- One symbol has one record.
    have hrecord : e.2 = e'.2 := by
      rw [show e.2.symbol = e'.2.symbol from hsymbol, hget'] at hget
      exact (Option.some.inj hget).symm
    rw [heq, heq', hrecord]
  · exact (List.Nodup.of_map _ m.positions.nodup).filter _

end PositionManager

/-! ## Layer B: The rows of persisted positions -/

/-- Overwriting the rows of one kind is not seen among rows that are of neither kind. -/
theorem filter_overwrite_of_not {α : Type} {isRow other : α → Bool} {new : α}
    (hother : ∀ old, isRow old = true → other old = false) (hnew : other new = false)
    (rows : List α) :
    (rows.map fun old => if isRow old then new else old).filter other = rows.filter other := by
  induction rows with
  | nil => rfl
  | cons old rows ih =>
    cases hold : isRow old with
    | true => simp [hold, hnew, hother old hold, ih]
    | false => cases hkeep : other old <;> simp [hold, hkeep, ih]

/-- Overwriting the rows of one kind leaves as many of the kind, all new, or none. -/
theorem filter_overwrite_self {α : Type} {isRow : α → Bool} {new : α} (rows : List α) :
    (rows.map fun old => if isRow old then new else old).filter isRow =
      if isRow new then (rows.filter isRow).map fun _ => new else [] := by
  induction rows with
  | nil => simp
  | cons old rows ih =>
    cases hold : isRow old <;> cases hnew : isRow new <;> simp_all

namespace Db

variable {executionMode : ExecutionMode} {sourceKey : String}

/-- The open rows of a symbol in an engine's book. -/
def openRowsOf (db : Db) (executionMode : ExecutionMode) (sourceKey : String) (symbol : Symbol) :
    List PositionRow :=
  db.positions.filter (isOpenRowOf symbol executionMode sourceKey)

/-- `uq_open_position_per_source`, for one engine's book. -/
def OneOpenRow (db : Db) (executionMode : ExecutionMode) (sourceKey : String) : Prop :=
  ∀ symbol, (db.openRowsOf executionMode sourceKey symbol).length ≤ 1

theorem isOpenRowOf_iff {symbol : Symbol} {row : PositionRow} :
    isOpenRowOf symbol executionMode sourceKey row = true ↔
      row.symbol = symbol ∧ row.executionMode = executionMode ∧ row.sourceKey = sourceKey ∧
        row.isOpen = true :=
  decide_eq_true_iff

theorem isOpenRowOf_positionRow (p : PositionRecord) (symbol : Symbol) :
    isOpenRowOf symbol executionMode sourceKey (positionRow p executionMode sourceKey) =
      (decide (p.symbol = symbol) && p.isOpen) := by
  simp [isOpenRowOf, positionRow]

/-- A write leaves the mirror of an open position as its symbol's one open row, none of a
flat one, and the open rows of other symbols as they were. -/
theorem openRowsOf_persistPosition {db : Db} {p : PositionRecord}
    (hone : (db.openRowsOf executionMode sourceKey p.symbol).length ≤ 1) (symbol : Symbol) :
    (db.persistPosition p executionMode sourceKey).openRowsOf executionMode sourceKey symbol =
      if p.symbol = symbol then
        if p.isOpen then [positionRow p executionMode sourceKey] else []
      else db.openRowsOf executionMode sourceKey symbol := by
  have hnew : ∀ symbol, isOpenRowOf symbol executionMode sourceKey
      (positionRow p executionMode sourceKey) = (decide (p.symbol = symbol) && p.isOpen) :=
    isOpenRowOf_positionRow p
  unfold persistPosition
  dsimp only
  -- An open row of the symbol is there, and is overwritten.
  split
  · rename_i hany
    unfold openRowsOf at hone ⊢
    by_cases hsymbol : p.symbol = symbol
    · subst hsymbol
      rw [if_pos rfl, filter_overwrite_self, hnew]
      -- There was one such row, and there is one now.
      obtain ⟨row, hrow⟩ : ∃ row, db.positions.filter
          (isOpenRowOf p.symbol executionMode sourceKey) = [row] := by
        refine List.length_eq_one_iff.mp (le_antisymm hone (List.length_pos_iff.mpr ?_))
        obtain ⟨row, hmem, hrow⟩ := List.any_eq_true.mp hany
        exact List.ne_nil_of_mem (List.mem_filter.mpr ⟨hmem, hrow⟩)
      rw [hrow]
      simp
    · rw [if_neg hsymbol]
      apply filter_overwrite_of_not
      · intro old hold
        rw [Bool.eq_false_iff]
        intro hother
        exact hsymbol ((isOpenRowOf_iff.mp hold).1.symm.trans (isOpenRowOf_iff.mp hother).1)
      · rw [hnew]
        simp [hsymbol]
  · -- None is there: the row is appended.
    rename_i hany
    unfold openRowsOf
    rw [List.filter_append]
    by_cases hsymbol : p.symbol = symbol
    · subst hsymbol
      have hnone : db.positions.filter (isOpenRowOf p.symbol executionMode sourceKey) = [] := by
        rw [List.filter_eq_nil_iff]
        intro row hmem hrow
        exact hany (List.any_eq_true.mpr ⟨row, hmem, hrow⟩)
      rw [if_pos rfl, hnone]
      cases hopen : p.isOpen <;> simp [hnew, hopen]
    · rw [if_neg hsymbol]
      simp [hnew, hsymbol]

/-- `persist_position` for one record after another. -/
def persistPositions (db : Db) (executionMode : ExecutionMode) (sourceKey : String)
    (writes : List PositionRecord) : Db :=
  writes.foldl (fun db p => db.persistPosition p executionMode sourceKey) db

theorem OneOpenRow.persistPosition {db : Db} (h : db.OneOpenRow executionMode sourceKey)
    (p : PositionRecord) :
    (db.persistPosition p executionMode sourceKey).OneOpenRow executionMode sourceKey := by
  intro symbol
  rw [openRowsOf_persistPosition (h p.symbol)]
  split_ifs
  · exact le_refl 1
  · exact Nat.zero_le 1
  · exact h symbol

/-- The rows that mirror what a book holds of a symbol. -/
def mirrorRows (m : PositionManager) (accountId : AccountId) (executionMode : ExecutionMode)
    (sourceKey : String) (symbol : Symbol) : List PositionRow :=
  ((m.get accountId symbol).filter PositionRecord.isOpen).toList.map fun p =>
    positionRow p executionMode sourceKey

/-- Once the records of a book are persisted, in any order, the open rows of a symbol are
the mirror of what the book holds of it. -/
theorem OneOpenRow.openRowsOf_persistPositions {m : PositionManager} {accountId : AccountId}
    {writes : List PositionRecord} (hwrites : ∀ p ∈ writes, m.get accountId p.symbol = some p)
    {db : Db} (hone : db.OneOpenRow executionMode sourceKey) {symbol : Symbol}
    (h : symbol ∈ writes.map PositionRecord.symbol ∨
      db.openRowsOf executionMode sourceKey symbol =
        mirrorRows m accountId executionMode sourceKey symbol) :
    (db.persistPositions executionMode sourceKey writes).openRowsOf executionMode sourceKey
        symbol = mirrorRows m accountId executionMode sourceKey symbol ∧
      (db.persistPositions executionMode sourceKey writes).OneOpenRow executionMode sourceKey := by
  induction writes generalizing db with
  | nil =>
    rcases h with hmem | hmirror
    · cases hmem
    · exact ⟨hmirror, hone⟩
  | cons p writes ih =>
    apply ih (fun q hq => hwrites q (List.mem_cons_of_mem _ hq)) (hone.persistPosition p)
    -- This write mirrors the symbol, or a later one does, or it was mirrored before.
    by_cases hsymbol : p.symbol = symbol
    · right
      rw [openRowsOf_persistPosition (hone p.symbol), if_pos hsymbol, mirrorRows, ← hsymbol,
        hwrites p List.mem_cons_self]
      cases hopen : p.isOpen <;> simp [Option.filter, hopen]
    · rcases h with hmem | hmirror
      · rcases List.mem_cons.mp hmem with heq | hlater
        · exact absurd heq.symm hsymbol
        · exact .inl hlater
      · right
        rw [openRowsOf_persistPosition (hone p.symbol), if_neg hsymbol, hmirror]

/-- The open rows of an engine's book. -/
def openRows (db : Db) (executionMode : ExecutionMode) (sourceKey : String) : List PositionRow :=
  db.positions.filter fun row =>
    row.executionMode = executionMode ∧ row.sourceKey = sourceKey ∧ row.isOpen

theorem filter_openRows (db : Db) (symbol : Symbol) :
    (db.openRows executionMode sourceKey).filter (fun row => row.symbol = symbol) =
      db.openRowsOf executionMode sourceKey symbol := by
  unfold openRows openRowsOf isOpenRowOf
  rw [List.filter_filter]
  apply List.filter_congr
  intro row _
  simp

theorem OneOpenRow.nodup {db : Db} (h : db.OneOpenRow executionMode sourceKey) :
    ((db.openRows executionMode sourceKey).map PositionRow.symbol).Nodup := by
  rw [List.nodup_iff_count_le_one]
  intro symbol
  refine le_trans (le_of_eq ?_) (h symbol)
  rw [← filter_openRows, ← List.countP_eq_length_filter, List.count, List.countP_map]
  congr 1

/-- A book restored from a table with one open row a symbol holds what was loaded. -/
theorem OneOpenRow.openPositions_restore {db : Db} (h : db.OneOpenRow executionMode sourceKey)
    (accountId : AccountId) :
    (PositionManager.restore {} (db.loadOpenPositions accountId executionMode
        sourceKey)).openPositions accountId =
      (db.loadOpenPositions accountId executionMode sourceKey).filter PositionRecord.isOpen := by
  apply PositionManager.openPositions_restore
  · intro p hp
    obtain ⟨row, -, rfl⟩ := List.mem_map.mp hp
    rfl
  · have hsymbols : (db.loadOpenPositions accountId executionMode sourceKey).map
        PositionRecord.symbol = (db.openRows executionMode sourceKey).map PositionRow.symbol := by
      unfold loadOpenPositions openRows
      rw [List.map_map]
      rfl
    rw [hsymbols]
    exact h.nodup

/-- The open rows mirror the open positions of a book, if they do so symbol by symbol. -/
theorem openRows_perm {db : Db} {m : PositionManager} {accountId : AccountId}
    (hone : db.OneOpenRow executionMode sourceKey)
    (h : ∀ symbol, db.openRowsOf executionMode sourceKey symbol =
      mirrorRows m accountId executionMode sourceKey symbol) :
    (db.openRows executionMode sourceKey).Perm
      ((m.openPositions accountId).map fun p => positionRow p executionMode sourceKey) := by
  have hnodup : ((m.openPositions accountId).map fun p =>
      positionRow p executionMode sourceKey).Nodup := by
    refine .of_map PositionRow.symbol ?_
    rw [List.map_map]
    exact m.nodup_openPositions accountId
  -- Neither side has a row twice, so that the same members are enough.
  rw [List.perm_ext_iff_of_nodup hone.nodup.of_map hnodup]
  intro row
  have hrow : row ∈ db.openRows executionMode sourceKey ↔
      row ∈ db.openRowsOf executionMode sourceKey row.symbol := by
    rw [← filter_openRows]
    simp
  rw [hrow, h row.symbol, mirrorRows, List.mem_map, List.mem_map]
  constructor
  · rintro ⟨p, hp, rfl⟩
    obtain ⟨hget, hopen⟩ := Option.filter_eq_some_iff.mp (Option.mem_toList.mp hp)
    exact ⟨p, PositionManager.mem_openPositions.mpr ⟨hget, hopen⟩, rfl⟩
  · rintro ⟨p, hp, rfl⟩
    obtain ⟨hget, hopen⟩ := PositionManager.mem_openPositions.mp hp
    refine ⟨p, Option.mem_toList.mpr ?_, rfl⟩
    exact Option.filter_eq_some_iff.mpr ⟨hget, hopen⟩

end Db

/-! ## Layer C: The risk inputs of the restored book -/

/-- What comes back of a record that was stored while open. -/
def PositionRecord.stored (p : PositionRecord) : PositionRecord :=
  { accountId := p.accountId
    symbol := p.symbol
    quantity := numeric p.quantity
    averagePrice := numeric p.averagePrice
    realizedPnl := numeric p.realizedPnl
    unrealizedPnl := numeric p.unrealizedPnl
    stop := p.stop.map numeric
    target := p.target.map numeric
    protectiveOrderId := p.protectiveOrderId }

/-- The columns keep the quantity and the average price of a record. -/
structure PositionRecord.Kept (p : PositionRecord) : Prop where
  quantity : Representable p.quantity
  averagePrice : Representable p.averagePrice

/-- The notional that the open positions of a strategy add up to. -/
def allocatedTo (strategyId : Option String) (openPositions : List PositionRecord) : ℚ :=
  ((openPositions.filter fun p => strategyId.isSome ∧ p.strategyId = strategyId).map fun p =>
    |p.quantity| * p.averagePrice).sum

/-- Every risk input that the paper engines of an account compute of their book is the same
of two books. -/
def SameRiskInputs (accountId : AccountId) (m m' : PositionManager) : Prop :=
  ∀ (e : PaperTradingEngine) (a : PaperAccount) (env : PaperEnv) (signal : Signal),
    e.accountId = accountId →
    let before := e.proposal { a with positionManager := m } env signal
    let after := e.proposal { a with positionManager := m' } env signal
    after.openPositions = before.openPositions ∧
      after.currentExposure = before.currentExposure ∧
      (signedNotionalsExcluding (m'.openPositions accountId) e.symbol).Perm
        (signedNotionalsExcluding (m.openPositions accountId) e.symbol) ∧
      after.strategyAllocation = before.strategyAllocation

namespace PositionRecord

variable {p : PositionRecord}

@[simp] theorem stored_symbol : p.stored.symbol = p.symbol := rfl

@[simp] theorem stored_strategyId : p.stored.strategyId = none := rfl

theorem Kept.stored_quantity (h : p.Kept) : p.stored.quantity = p.quantity := h.quantity

theorem Kept.stored_averagePrice (h : p.Kept) : p.stored.averagePrice = p.averagePrice :=
  h.averagePrice

theorem Kept.stored_isOpen (h : p.Kept) : p.stored.isOpen = p.isOpen := by
  unfold isOpen
  rw [h.stored_quantity]

end PositionRecord

section Restored

variable {m : PositionManager} {accountId : AccountId} {db : Db} {writes : List PositionRecord}

/-- The book restored of the rows has the positions open that were open, as they were stored. -/
theorem Db.OneOpenRow.restored_perm (hkept : ∀ p ∈ m.openPositions accountId, p.Kept)
    (hone : db.OneOpenRow .paper autoSourceKey)
    (hknown : ∀ row ∈ db.openRows .paper autoSourceKey, (m.get accountId row.symbol).isSome)
    (hwrites : ∀ p ∈ writes, m.get accountId p.symbol = some p)
    (hall : ∀ symbol p, m.get accountId symbol = some p → p ∈ writes) :
    ((PositionManager.restore {}
      ((db.persistPositions .paper autoSourceKey writes).loadOpenPositions
      accountId .paper autoSourceKey)).openPositions accountId).Perm
        ((m.openPositions accountId).map PositionRecord.stored) := by
  have hmirror : ∀ symbol,
      (db.persistPositions .paper autoSourceKey writes).openRowsOf .paper autoSourceKey symbol =
        Db.mirrorRows m accountId .paper autoSourceKey symbol ∧
      (db.persistPositions .paper autoSourceKey writes).OneOpenRow .paper autoSourceKey := by
    intro symbol
    apply hone.openRowsOf_persistPositions hwrites
    cases hget : m.get accountId symbol with
    | some p =>
      left
      rw [← (PositionManager.key_of_get hget).2]
      exact List.mem_map_of_mem (hall symbol p hget)
    | none =>
      -- No record, and no open row of the symbol to begin with.
      right
      have hnone : db.openRowsOf .paper autoSourceKey symbol = [] := by
        rw [← Db.filter_openRows, List.filter_eq_nil_iff]
        intro row hrow hsymbol
        have hsome := hknown row hrow
        rw [of_decide_eq_true hsymbol, hget] at hsome
        cases hsome
      rw [hnone, Db.mirrorRows, hget]
      rfl
  have hone' := (hmirror "").2
  have hrows := Db.openRows_perm hone' fun symbol => (hmirror symbol).1
  generalize db.persistPositions .paper autoSourceKey writes = after at hone' hrows
  have hloaded : (after.loadOpenPositions accountId .paper autoSourceKey).Perm
      ((m.openPositions accountId).map PositionRecord.stored) := by
    refine (hrows.map _).trans (.of_eq ?_)
    rw [List.map_map]
    apply List.map_congr_left
    intro p hp
    obtain ⟨haccount, -⟩ :=
      PositionManager.key_of_get (PositionManager.mem_openPositions.mp hp).1
    subst haccount
    rfl
  rw [hone'.openPositions_restore, List.filter_eq_self.mpr]
  · exact hloaded
  · -- What was stored while open is open.
    intro q hq
    obtain ⟨p, hp, rfl⟩ := List.mem_map.mp (hloaded.mem_iff.mp hq)
    rw [(hkept p hp).stored_isOpen]
    exact (PositionManager.mem_openPositions.mp hp).2

/-- Of a book whose positions are restored as they were stored, the risk inputs are the same
exactly if no strategy was allocated anything. -/
theorem sameRiskInputs_of_perm (hkept : ∀ p ∈ m.openPositions accountId, p.Kept)
    {m' : PositionManager} (hperm : (m'.openPositions accountId).Perm
      ((m.openPositions accountId).map PositionRecord.stored)) :
    SameRiskInputs accountId m m' ↔
      ∀ id, allocatedTo (some id) (m.openPositions accountId) = 0 := by
  have hlength : (m'.openPositions accountId).length = (m.openPositions accountId).length := by
    rw [hperm.length_eq, List.length_map]
  have hexposure : ∀ elsewhere, grossExposure (m'.openPositions accountId) elsewhere =
      grossExposure (m.openPositions accountId) elsewhere := by
    intro elsewhere
    unfold grossExposure
    rw [(hperm.map _).sum_eq, List.map_map]
    congr 2
    apply List.map_congr_left
    intro p hp
    simp [(hkept p hp).stored_quantity, (hkept p hp).stored_averagePrice]
  have hothers : ∀ symbol, (signedNotionalsExcluding (m'.openPositions accountId) symbol).Perm
      (signedNotionalsExcluding (m.openPositions accountId) symbol) := by
    intro symbol
    refine ((hperm.filter _).map _).trans (.of_eq ?_)
    unfold signedNotionalsExcluding
    rw [List.filter_map, List.map_map]
    apply List.map_congr_left
    intro p hp
    have hmem := List.mem_of_mem_filter hp
    simp [(hkept p hmem).stored_quantity, (hkept p hmem).stored_averagePrice]
  have hallocated : ∀ id, allocatedTo id (m'.openPositions accountId) = 0 := by
    intro id
    unfold allocatedTo
    -- No restored position is a strategy's.
    rw [List.filter_eq_nil_iff.mpr]
    · rfl
    · intro q hq
      obtain ⟨p, -, rfl⟩ := List.mem_map.mp (hperm.mem_iff.mp hq)
      cases id <;> simp
  constructor
  · intro hsame id
    let e : PaperTradingEngine :=
      { strategy := { name := "", timeframe := "" }
        symbol := ""
        accountId := accountId
        strategyId := some id }
    let signal : Signal :=
      { direction := .bullish
        entry := 2
        stop := 1
        target := 3
        riskReward := 1
        bracketed := ⟨by norm_num, by norm_num⟩ }
    have h := hsame e { broker := { balance := 0, startingBalance := 0 } } {} signal rfl
    exact h.2.2.2.symm.trans (hallocated (some id))
  · rintro hnone e a env signal rfl
    refine ⟨hlength, hexposure _, hothers _, ?_⟩
    refine (hallocated e.strategyId).trans ?_
    cases hid : e.strategyId with
    | none =>
      -- An engine without a strategy id counts nothing of either book.
      simp [PaperTradingEngine.proposal, hid]
    | some id =>
      rw [← hnone id]
      simp [PaperTradingEngine.proposal, allocatedTo, hid]

/-- Where no price is negative, nothing is allocated exactly if no open position at a price is a
strategy's. -/
theorem allocatedTo_eq_zero_iff {openPositions : List PositionRecord}
    (hopen : ∀ p ∈ openPositions, p.isOpen = true)
    (hprices : ∀ p ∈ openPositions, 0 ≤ p.averagePrice) :
    (∀ id, allocatedTo (some id) openPositions = 0) ↔
      ∀ p ∈ openPositions, p.strategyId.isSome → p.averagePrice = 0 := by
  -- A sum of nothing negative that is zero has zeros only.
  have hterms : ∀ id, ∀ x ∈ (openPositions.filter fun p =>
      (some id).isSome ∧ p.strategyId = some id).map fun p => |p.quantity| * p.averagePrice,
      0 ≤ x := by
    intro id x hx
    obtain ⟨p, hp, rfl⟩ := List.mem_map.mp hx
    exact mul_nonneg (abs_nonneg _) (hprices p (List.mem_of_mem_filter hp))
  constructor
  · intro hzero p hp hsome
    obtain ⟨id, hid⟩ := Option.isSome_iff_exists.mp hsome
    have hmem : |p.quantity| * p.averagePrice ∈ (openPositions.filter fun p =>
        (some id).isSome ∧ p.strategyId = some id).map fun p => |p.quantity| * p.averagePrice :=
      List.mem_map_of_mem (List.mem_filter.mpr ⟨hp, by simp [hid]⟩)
    have hterm := List.all_zero_of_le_zero_le_of_sum_eq_zero (hterms id) (hzero id) hmem
    have hquantity : p.quantity ≠ 0 := of_decide_eq_true (hopen p hp)
    rcases mul_eq_zero.mp hterm with habs | hprice
    · exact absurd (abs_eq_zero.mp habs) hquantity
    · exact hprice
  · intro hfree id
    apply List.sum_eq_zero
    intro x hx
    obtain ⟨p, hp, rfl⟩ := List.mem_map.mp hx
    obtain ⟨hmem, hid⟩ := List.mem_filter.mp hp
    rw [hfree p hmem (by simp [(of_decide_eq_true hid).2]), mul_zero]

/-- **Restored risk inputs.** Every book of the account, persisted record by record in any
order and restored into a fresh manager, gives the paper engines the risk inputs it gave
before, exactly if the open positions of each strategy cancel out; where no price is negative, if
no open position at a price is a strategy's. -/
theorem restored_risk_inputs_iff (hkept : ∀ p ∈ m.openPositions accountId, p.Kept)
    (hone : db.OneOpenRow .paper autoSourceKey)
    (hknown : ∀ row ∈ db.openRows .paper autoSourceKey, (m.get accountId row.symbol).isSome)
    (hwrites : ∀ p ∈ writes, m.get accountId p.symbol = some p)
    (hall : ∀ symbol p, m.get accountId symbol = some p → p ∈ writes) :
    let m' := PositionManager.restore {} ((db.persistPositions .paper autoSourceKey
      writes).loadOpenPositions accountId .paper autoSourceKey)
    (SameRiskInputs accountId m m' ↔
      ∀ id, (((m.openPositions accountId).filter fun p => p.strategyId = some id).map fun p =>
        |p.quantity| * p.averagePrice).sum = 0) ∧
    ((∀ p ∈ m.openPositions accountId, 0 ≤ p.averagePrice) →
      (SameRiskInputs accountId m m' ↔
        ∀ p ∈ m.openPositions accountId, p.strategyId.isSome → p.averagePrice = 0)) := by
  intro m'
  -- All inputs but the allocations survive, whatever the order of the rows.
  have hsame : SameRiskInputs accountId m m' ↔ _ :=
    sameRiskInputs_of_perm hkept (hone.restored_perm hkept hknown hwrites hall)
  constructor
  · simpa [allocatedTo] using hsame
  · intro hprices
    rw [hsame]
    refine allocatedTo_eq_zero_iff (fun p hp => ?_) hprices
    exact (PositionManager.mem_openPositions.mp hp).2

end Restored

/-- An open position, of a strategy or of none. -/
def heldBy (strategyId : Option String) : PositionRecord :=
  { accountId := "user"
    symbol := "ACME"
    quantity := 10
    averagePrice := 100
    strategyId := strategyId }

/-- The book of that position alone, persisted into an empty table and restored. -/
def restoredAlone (p : PositionRecord) : PositionManager :=
  PositionManager.restore {} ((({} : Db).persistPositions .paper autoSourceKey
    [p]).loadOpenPositions "user" .paper autoSourceKey)

/-- The strategy's own position of 10 at 100 counts 1000 towards its allocation, and 0 once
it is restored. -/
theorem restored_allocation_lost :
    ¬ SameRiskInputs "user" (PositionManager.put {} (heldBy (some "breakout")))
      (restoredAlone (heldBy (some "breakout"))) := by
  intro hsame
  have h := (hsame
    { strategy := { name := "", timeframe := "" }
      symbol := "ACME"
      accountId := "user"
      strategyId := some "breakout" }
    { broker := { balance := 0, startingBalance := 0 } } {}
    { direction := .bullish
      entry := 2
      stop := 1
      target := 3
      riskReward := 1
      bracketed := ⟨by norm_num, by norm_num⟩ } rfl).2.2.2
  revert h
  decide +kernel

theorem restored_risk_inputs_iff_unowned :
    SameRiskInputs "user" (PositionManager.put {} (heldBy none)) (restoredAlone (heldBy none)) := by
  have hopen : (PositionManager.put {} (heldBy none)).openPositions "user" = [heldBy none] := by
    decide +kernel
  have hone : Db.OneOpenRow {} .paper autoSourceKey := fun _ => Nat.zero_le 1
  have hkept : (heldBy none).Kept := ⟨by decide +kernel, by decide +kernel⟩
  have hall : ∀ symbol p, (PositionManager.put {} (heldBy none)).get "user" symbol = some p →
      p ∈ [heldBy none] := by
    intro symbol p hget
    rw [PositionManager.get_put] at hget
    split at hget
    · cases hget
      exact List.mem_cons_self
    · cases hget
  refine ((restored_risk_inputs_iff (by simpa [hopen] using hkept) hone (by decide +kernel)
    (by decide +kernel) hall).2 ?_).mpr ?_
  · rw [hopen]
    simp [heldBy]
  · rw [hopen]
    simp [heldBy]

end SuperTrading
