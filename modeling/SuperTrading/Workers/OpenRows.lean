import SuperTrading.Trading.PositionRoundTrip
import SuperTrading.Workers.AutoTradeJournal

/-!
# The Open Rows of a Position

The worker keeps one open row for a position, and rebuilds the book of a user from them. A
write takes the place of the open row: it leaves the mirror of an open position, none of a
flat one, and the rows of other positions as they were.
-/

namespace SuperTrading

open SuperTrading.Logic

/-- The record that a row rebuilds. The strategy is not among its columns. -/
def PositionRow.restored (row : PositionRow) (accountId : AccountId) : PositionRecord :=
  { accountId := accountId
    symbol := row.symbol
    quantity := row.quantity
    averagePrice := row.averagePrice
    realizedPnl := row.realizedPnl
    unrealizedPnl := row.unrealizedPnl
    stop := row.stop
    target := row.target
    protectiveOrderId := row.protectiveOrderId }

namespace AutoTradeDb

variable {db : AutoTradeDb} {userId userId' : AccountId} {symbol symbol' : Symbol} {now : Instant}
  {p : PositionRecord}

/-- Is this the open row of the user's position? -/
def isOpenRow (userId : AccountId) (symbol : Symbol) (row : AutoPositionRow) : Bool :=
  decide (row.userId = userId) && Db.isOpenRowOf symbol .paper autoSourceKey row.toPositionRow

def openRows (db : AutoTradeDb) (userId : AccountId) (symbol : Symbol) : List AutoPositionRow :=
  db.positions.filter (isOpenRow userId symbol)

theorem isOpenRow_iff {row : AutoPositionRow} : isOpenRow userId symbol row = true ↔
    row.userId = userId ∧ row.symbol = symbol ∧ row.executionMode = .paper ∧
      row.sourceKey = autoSourceKey ∧ row.isOpen = true := by
  rw [isOpenRow, Bool.and_eq_true, Db.isOpenRowOf_iff, decide_eq_true_iff]

/-- The row that `persist_position` leaves of a position, inserted or overwritten. -/
def mirror (userId : AccountId) (createdAt : Instant) (p : PositionRecord) : AutoPositionRow :=
  { toPositionRow := Db.positionRow p .paper autoSourceKey
    userId := userId
    createdAt := createdAt }

theorem isOpenRow_mirror (createdAt : Instant) :
    isOpenRow userId' symbol' (mirror userId createdAt p) =
      (decide (userId = userId') && (decide (p.symbol = symbol') && p.isOpen)) := by
  rw [isOpenRow, show (mirror userId createdAt p).toPositionRow =
    Db.positionRow p .paper autoSourceKey from rfl, Db.isOpenRowOf_positionRow]
  rfl

/-- The overwrite, on any row. -/
def overwritten (userId : AccountId) (p : PositionRecord) (old : AutoPositionRow) :
    AutoPositionRow :=
  if isOpenRow userId p.symbol old then mirror old.userId old.createdAt p else old

/-- **A write takes the place of the open row, or comes last.** -/
theorem persistPosition_split (hone : (db.openRows userId p.symbol).length ≤ 1) (now : Instant) :
    ∃ pre post, db.positions = pre ++ db.openRows userId p.symbol ++ post ∧
      db.persistPosition userId now p = { db with
        positions := pre ++ [mirror userId
          (((db.openRows userId p.symbol).head?.map AutoPositionRow.createdAt).getD now) p] ++
            post } := by
  unfold persistPosition
  cases hrows : db.openRows userId p.symbol with
  | nil =>
    have hnone : db.positions.any (isOpenRow userId p.symbol) = false := by
      rw [← Bool.not_eq_true, List.any_eq_true]
      rintro ⟨row, hrow, hopen⟩
      exact absurd hopen (List.filter_eq_nil_iff.mp hrows row hrow)
    refine ⟨db.positions, [], by simp, ?_⟩
    refine (if_neg (Bool.eq_false_iff.mp hnone)).trans ?_
    simp [mirror]
  | cons row rows =>
    rw [hrows] at hone
    have hrest : rows = [] := by simpa using hone
    subst hrest
    obtain ⟨pre, post, hpositions, hpre, hrow, hpost⟩ := List.filter_eq_cons_iff.mp hrows
    -- The one open row is overwritten in place; the others are none of the position's.
    have hany : db.positions.any (isOpenRow userId p.symbol) = true :=
      List.any_eq_true.mpr ⟨row, by simp [hpositions], hrow⟩
    have hothers : ∀ rows : List AutoPositionRow,
        (∀ row ∈ rows, ¬ isOpenRow userId p.symbol row = true) →
        rows.map (overwritten userId p) = rows := by
      intro rows hnone
      conv_rhs => rw [← List.map_id rows]
      apply List.map_congr_left
      intro old hold
      exact if_neg (hnone old hold)
    refine ⟨pre, post, by simp [hpositions], (if_pos hany).trans ?_⟩
    show ({ db with positions := db.positions.map (overwritten userId p) } : AutoTradeDb) = _
    have hself : overwritten userId p row = mirror row.userId row.createdAt p := if_pos hrow
    rw [hpositions, List.map_append, List.map_cons, hothers pre hpre,
      hothers post (List.filter_eq_nil_iff.mp hpost), hself, (isOpenRow_iff.mp hrow).1]
    simp

/-- The rows around the open one are other rows. -/
theorem filter_around {pre post : List AutoPositionRow}
    (hsplit : db.positions = pre ++ db.openRows userId symbol ++ post) :
    pre.filter (isOpenRow userId symbol) = [] ∧ post.filter (isOpenRow userId symbol) = [] := by
  have hself : (db.openRows userId symbol).filter (isOpenRow userId symbol) =
      db.openRows userId symbol := by
    rw [openRows, List.filter_filter]
    simp
  have hfilter := congrArg (fun rows => (rows.filter (isOpenRow userId symbol)).length) hsplit
  simp only [List.filter_append, hself, List.length_append] at hfilter
  have hlength : (db.positions.filter (isOpenRow userId symbol)).length =
      (db.openRows userId symbol).length := rfl
  rw [← List.length_eq_zero_iff, ← List.length_eq_zero_iff]
  omega

/-- The open rows after a write: the mirror of an open position, none of a flat one, and
those of other positions as they were. -/
theorem openRows_persistPosition (hone : (db.openRows userId p.symbol).length ≤ 1) (now : Instant)
    (userId' : AccountId) (symbol' : Symbol) :
    (db.persistPosition userId now p).openRows userId' symbol' =
      if (userId, p.symbol) = (userId', symbol') then
        if p.isOpen then [mirror userId
          (((db.openRows userId p.symbol).head?.map AutoPositionRow.createdAt).getD now) p] else []
      else db.openRows userId' symbol' := by
  obtain ⟨pre, post, hpositions, hafter⟩ := persistPosition_split hone now
  obtain ⟨hpre, hpost⟩ := filter_around hpositions
  rw [hafter]
  show (pre ++ [_] ++ post).filter (isOpenRow userId' symbol') = _
  rw [List.filter_append, List.filter_append, List.filter_singleton, isOpenRow_mirror]
  by_cases heq : (userId, p.symbol) = (userId', symbol')
  · obtain ⟨rfl, rfl⟩ := Prod.mk.inj heq
    rw [if_pos rfl, hpre, hpost]
    cases p.isOpen <;> simp
  · rw [if_neg heq]
    have hnone :
        (decide (userId = userId') && (decide (p.symbol = symbol') && p.isOpen)) = false := by
      by_contra hboth
      simp only [Bool.not_eq_false, Bool.and_eq_true, decide_eq_true_eq] at hboth
      exact heq (Prod.ext hboth.1 hboth.2.1)
    -- The row that is overwritten is not of this position either.
    have hold : (db.openRows userId p.symbol).filter (isOpenRow userId' symbol') = [] := by
      rw [List.filter_eq_nil_iff]
      intro row hrow hother
      obtain ⟨huser, hsymbol, -⟩ := isOpenRow_iff.mp (List.mem_filter.mp hrow).2
      obtain ⟨huser', hsymbol', -⟩ := isOpenRow_iff.mp hother
      exact heq (Prod.ext (huser.symm.trans huser') (hsymbol.symm.trans hsymbol'))
    have hbefore : db.openRows userId' symbol' =
        (pre ++ db.openRows userId p.symbol ++ post).filter (isOpenRow userId' symbol') :=
      congrArg (List.filter _) hpositions
    rw [hbefore, List.filter_append, List.filter_append, hold, hnone]
    rfl

/-- A position never gets a second open row. -/
theorem openRows_persistPosition_le (hone : ∀ userId symbol, (db.openRows userId symbol).length ≤ 1)
    (userId : AccountId) (now : Instant) (p : PositionRecord) (userId' : AccountId)
    (symbol' : Symbol) :
    ((db.persistPosition userId now p).openRows userId' symbol').length ≤ 1 := by
  rw [openRows_persistPosition (hone _ _)]
  split_ifs
  · simp
  · simp
  · exact hone userId' symbol'

/-- The row of an open position is overwritten. -/
theorem openRows_overwrite {row : AutoPositionRow} (hsymbol : p.symbol = symbol)
    (hrow : db.openRows userId symbol = [row]) (hopen : p.isOpen = true) (now : Instant) :
    (db.persistPosition userId now p).openRows userId symbol = [mirror userId row.createdAt p] := by
  subst hsymbol
  rw [openRows_persistPosition (by rw [hrow]; exact le_refl 1), if_pos rfl, if_pos hopen, hrow]
  rfl

/-- A position without an open row gets one. -/
theorem openRows_insert (hsymbol : p.symbol = symbol) (hrows : db.openRows userId symbol = [])
    (hopen : p.isOpen = true) (now : Instant) :
    (db.persistPosition userId now p).openRows userId symbol = [mirror userId now p] := by
  subst hsymbol
  rw [openRows_persistPosition (by rw [hrows]; exact Nat.zero_le 1), if_pos rfl, if_pos hopen,
    hrows]
  rfl

theorem trades_persistPosition (db : AutoTradeDb) (userId : AccountId) (now : Instant)
    (p : PositionRecord) : (db.persistPosition userId now p).trades = db.trades := by
  unfold persistPosition
  dsimp only
  split_ifs <;> rfl

/-- A write makes no row later than itself. -/
theorem createdAt_persistPosition (hone : (db.openRows userId p.symbol).length ≤ 1) {now : Instant}
    (hpast : ∀ row ∈ db.positions, row.createdAt ≤ now) :
    ∀ row ∈ (db.persistPosition userId now p).positions, row.createdAt ≤ now := by
  obtain ⟨pre, post, hpositions, hafter⟩ := persistPosition_split hone now
  intro row hrow
  rw [hafter] at hrow
  rcases List.mem_append.mp hrow with hrow | hrow
  · rcases List.mem_append.mp hrow with hrow | hrow
    · exact hpast row (by simp [hpositions, hrow])
    · obtain rfl := List.mem_singleton.mp hrow
      cases hrows : db.openRows userId p.symbol with
      | nil => exact le_refl now
      | cons old rows =>
        have hold : old ∈ db.openRows userId p.symbol := hrows ▸ List.mem_cons_self
        exact hpast old (List.mem_of_mem_filter hold)
  · exact hpast row (by simp [hpositions, hrow])

/-- A count of rows trades the open row for the mirror. -/
theorem countP_persistPosition (hone : (db.openRows userId p.symbol).length ≤ 1) (now : Instant)
    (f : AutoPositionRow → Bool) :
    (db.persistPosition userId now p).positions.countP f + (db.openRows userId p.symbol).countP f =
      db.positions.countP f + [mirror userId
        (((db.openRows userId p.symbol).head?.map AutoPositionRow.createdAt).getD now)
        p].countP f := by
  obtain ⟨pre, post, hpositions, hafter⟩ := persistPosition_split hone now
  have hbefore := congrArg (List.countP f) hpositions
  rw [List.countP_append, List.countP_append] at hbefore
  rw [hafter]
  simp only [List.countP_append]
  omega

/-- The book that the rows of a user rebuild. -/
theorem get_restored (db : AutoTradeDb) (userId : AccountId) (now : Instant) (symbol : Symbol) :
    (db.restoredAccount userId now).positionManager.get userId symbol =
      (db.openRows userId symbol).getLast?.map fun row => row.toPositionRow.restored userId := by
  have hpositions : (db.positionsOf userId).loadOpenPositions userId .paper autoSourceKey =
      (db.positions.filter fun row => decide (row.userId = userId) &&
        decide (row.executionMode = .paper ∧ row.sourceKey = autoSourceKey ∧ row.isOpen)).map
          fun row => row.toPositionRow.restored userId := by
    unfold positionsOf Db.loadOpenPositions
    rw [List.filter_map, List.map_map, List.filter_filter]
    simp only [Function.comp_def, Bool.and_comm]
    rfl
  show (PositionManager.restore {} _).positions.get? (userId, symbol) = _
  rw [PositionManager.positions_restore, Dict.get?_index, hpositions, List.filter_map,
    List.getLast?_map, List.filter_filter]
  -- Filtered by user and then by symbol, or by both at once.
  congr 2
  apply List.filter_congr
  intro row _
  simp only [Function.comp_apply, PositionRow.restored, Prod.mk.injEq, true_and, isOpenRow,
    Db.isOpenRowOf]
  rw [Bool.eq_iff_iff]
  simp only [Bool.and_eq_true, decide_eq_true_eq]
  tauto

end AutoTradeDb

end SuperTrading
