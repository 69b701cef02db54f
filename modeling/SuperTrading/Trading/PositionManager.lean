import SuperTrading.Core.Types
import SuperTrading.Logic.Dict

/-!
# PositionManager

The position book of `app/trading/position_manager.py`: one record for each
account and symbol. A record stays when its position goes flat, with quantity 0
and the profit and loss it has accumulated.
-/

namespace SuperTrading

open SuperTrading.Logic

structure PositionRecord where
  accountId : AccountId
  symbol : Symbol
  quantity : ℚ := 0
  averagePrice : ℚ := 0
  realizedPnl : ℚ := 0
  unrealizedPnl : ℚ := 0
  stop : Option ℚ := none
  target : Option ℚ := none
  strategyId : Option String := none
  protectiveOrderId : Option BrokerOrderId := none
  deriving DecidableEq, Repr

namespace PositionRecord

def isOpen (p : PositionRecord) : Bool := decide (p.quantity ≠ 0)

def isLong (p : PositionRecord) : Bool := decide (0 < p.quantity)

/-- The side of a position; a flat one counts as a short. -/
def side (p : PositionRecord) : Direction := if p.isLong then .long else .short

/-- A record with a quantity on this side is an open position of this side. -/
theorem side_of_signed {p : PositionRecord} {d : Direction}
    (h : 0 < d.signed p.quantity) : p.isOpen = true ∧ p.side = d := by
  cases d with
  | long =>
    have hpos : 0 < p.quantity := h
    simp [isOpen, side, isLong, hpos, hpos.ne']
  | short =>
    have hneg : p.quantity < 0 := neg_pos.mp h
    simp [isOpen, side, isLong, hneg.ne, hneg.le]

theorem signed_side_pos {p : PositionRecord} (h : p.isOpen = true) :
    0 < p.side.signed p.quantity := by
  have hne : p.quantity ≠ 0 := of_decide_eq_true h
  rcases lt_or_gt_of_ne hne with hneg | hpos
  · simp [side, isLong, not_lt.mpr hneg.le, hneg]
  · simp [side, isLong, hpos]

/-- The record as a price marks it. -/
def marked (p : PositionRecord) (price : ℚ) : PositionRecord :=
  { p with unrealizedPnl := (price - p.averagePrice) * p.quantity }

@[simp] theorem marked_isOpen (p : PositionRecord) (price : ℚ) :
    (p.marked price).isOpen = p.isOpen := rfl

end PositionRecord

theorem empty_keyed : ∀ key p,
    (Dict.empty : Dict (AccountId × Symbol) PositionRecord).get? key = some p →
      (p.accountId, p.symbol) = key := by simp

/-- `PositionManager._positions`, keyed by account and symbol. A record is stored
under its own account and symbol. -/
structure PositionManager where
  positions : Dict (AccountId × Symbol) PositionRecord := Dict.empty
  stored : ∀ key p, positions.get? key = some p → (p.accountId, p.symbol) = key := by
    first | exact empty_keyed | simp

namespace PositionManager

def get (m : PositionManager) (accountId : AccountId) (symbol : Symbol) : Option PositionRecord :=
  m.positions.get? (accountId, symbol)

/-- The signed quantity held, 0 where there is no record. -/
def quantity (m : PositionManager) (accountId : AccountId) (symbol : Symbol) : ℚ :=
  (m.get accountId symbol).elim 0 PositionRecord.quantity

/-- Store a record under its key. Python code that holds the record and assigns
its attributes does this. -/
def put (m : PositionManager) (p : PositionRecord) : PositionManager where
  positions := m.positions.set (p.accountId, p.symbol) p
  stored key q h := by
    rw [Dict.get?_set] at h
    split at h
    · cases h
      assumption
    · exact m.stored key q h

/-- `restore`: seed the book from stored positions, the last one of a key winning. -/
def restore (m : PositionManager) (positions : List PositionRecord) : PositionManager :=
  positions.foldl put m

/-- The body of `apply_fill` on the record of the position. -/
def fillRecord (position : PositionRecord) (direction : Direction) (quantity price : ℚ) :
    PositionRecord :=
  let signedQty := direction.signed quantity
  let newQuantity := position.quantity + signedQty
  -- Opening or adding: the average is weighted by quantity.
  if position.quantity = 0 ∨ decide (0 < position.quantity) = decide (0 < signedQty) then
    let totalCost := position.averagePrice * position.quantity + price * signedQty
    { position with
      averagePrice := if newQuantity ≠ 0 then totalCost / newQuantity else 0
      quantity := newQuantity }
  else
    -- Reducing, closing or flipping: the closed part realizes at the old average.
    let closingQty := min |signedQty| |position.quantity|
    let realized := closingQty * (price - position.averagePrice)
      * (if 0 < position.quantity then 1 else -1)
    let remainder := |signedQty| - closingQty
    { position with
      realizedPnl := position.realizedPnl + realized
      quantity := newQuantity
      -- What is left over after a close opens at the fill's own price.
      averagePrice :=
        if 0 < remainder then price
        else if newQuantity = 0 then 0
        else position.averagePrice }

/-- The record a fill is applied to: the one held, or a new flat one. -/
def record (m : PositionManager) (accountId : AccountId) (symbol : Symbol) : PositionRecord :=
  (m.get accountId symbol).getD { accountId := accountId, symbol := symbol }

/-- `apply_fill`. -/
def applyFill (m : PositionManager) (accountId : AccountId) (symbol : Symbol)
    (direction : Direction) (quantity price : ℚ) : PositionManager :=
  m.put (fillRecord (m.record accountId symbol) direction quantity price)

def markToMarket (m : PositionManager) (accountId : AccountId) (symbol : Symbol) (price : ℚ) :
    PositionManager :=
  match m.get accountId symbol with
  | none => m
  | some p =>
    if p.isOpen then m.put { p with unrealizedPnl := (price - p.averagePrice) * p.quantity } else m

def openPositions (m : PositionManager) (accountId : AccountId) : List PositionRecord :=
  (m.positions.entries.filter fun e => e.1.1 = accountId ∧ e.2.isOpen).map Prod.snd

/-- The P&L realized over every record of the book. -/
def totalRealizedPnl (m : PositionManager) : ℚ :=
  (m.positions.values.map PositionRecord.realizedPnl).sum

/-! ## Section 1: The records after an update -/

@[simp] theorem fillRecord_accountId (p : PositionRecord) (d : Direction) (q x : ℚ) :
    (fillRecord p d q x).accountId = p.accountId := by
  unfold fillRecord
  dsimp only
  split_ifs <;> rfl

@[simp] theorem fillRecord_symbol (p : PositionRecord) (d : Direction) (q x : ℚ) :
    (fillRecord p d q x).symbol = p.symbol := by
  unfold fillRecord
  dsimp only
  split_ifs <;> rfl

@[simp] theorem fillRecord_stop (p : PositionRecord) (d : Direction) (q x : ℚ) :
    (fillRecord p d q x).stop = p.stop := by
  unfold fillRecord
  dsimp only
  split_ifs <;> rfl

@[simp] theorem fillRecord_protectiveOrderId (p : PositionRecord) (d : Direction) (q x : ℚ) :
    (fillRecord p d q x).protectiveOrderId = p.protectiveOrderId := by
  unfold fillRecord
  dsimp only
  split_ifs <;> rfl

@[simp] theorem fillRecord_quantity (p : PositionRecord) (d : Direction) (q x : ℚ) :
    (fillRecord p d q x).quantity = p.quantity + d.signed q := by
  unfold fillRecord
  dsimp only
  split_ifs <;> rfl

theorem get_put (m : PositionManager) (p : PositionRecord) (a : AccountId) (s : Symbol) :
    (m.put p).get a s = if (p.accountId, p.symbol) = (a, s) then some p else m.get a s :=
  Dict.get?_set m.positions (p.accountId, p.symbol) (a, s) p

/-- A record is found under its own account and symbol. -/
theorem key_of_get {m : PositionManager} {a : AccountId} {s : Symbol} {p : PositionRecord}
    (h : m.get a s = some p) : p.accountId = a ∧ p.symbol = s := by
  have hkey := m.stored (a, s) p h
  exact ⟨congrArg Prod.fst hkey, congrArg Prod.snd hkey⟩

/-- So is the record a fill is applied to. -/
theorem record_key (m : PositionManager) (a : AccountId) (s : Symbol) :
    (m.record a s).accountId = a ∧ (m.record a s).symbol = s := by
  unfold record
  cases h : m.get a s with
  | none => exact ⟨rfl, rfl⟩
  | some p => exact key_of_get h

/-- Storing a held record back, with its quantity as it was, changes no quantity. -/
theorem quantity_put_of_get {m : PositionManager} {a : AccountId} {s : Symbol}
    {p p' : PositionRecord} (h : m.get a s = some p) (hkey : p'.accountId = p.accountId)
    (hsymbol : p'.symbol = p.symbol) (hquantity : p'.quantity = p.quantity) (a' : AccountId)
    (s' : Symbol) : (m.put p').quantity a' s' = m.quantity a' s' := by
  obtain ⟨ha, hs⟩ := key_of_get h
  unfold quantity
  -- The key written is the key the record was read from.
  rw [get_put, hkey, hsymbol, ha, hs]
  split
  · rename_i heq
    obtain ⟨rfl, rfl⟩ := Prod.mk.inj heq
    rw [h]
    exact hquantity
  · rfl

theorem positions_applyFill (m : PositionManager) (a : AccountId) (s : Symbol) (d : Direction)
    (q x : ℚ) : (m.applyFill a s d q x).positions =
      m.positions.set (a, s) (fillRecord (m.record a s) d q x) := by
  obtain ⟨ha, hs⟩ := m.record_key a s
  show m.positions.set (_, _) _ = _
  rw [fillRecord_accountId, fillRecord_symbol, ha, hs]

theorem get_applyFill (m : PositionManager) (a a' : AccountId) (s s' : Symbol) (d : Direction)
    (q x : ℚ) : (m.applyFill a s d q x).get a' s' =
      if (a, s) = (a', s') then some (fillRecord (m.record a s) d q x) else m.get a' s' := by
  unfold get
  rw [positions_applyFill, Dict.get?_set]

/-- A mark changes an open record of its key, and no other. -/
theorem get_marked (m : PositionManager) (accountId accountId' : AccountId)
    (symbol symbol' : Symbol) (price : ℚ) :
    (m.markToMarket accountId symbol price).get accountId' symbol' =
      if (accountId, symbol) = (accountId', symbol') then
        (m.get accountId symbol).map fun p => if p.isOpen then p.marked price else p
      else m.get accountId' symbol' := by
  unfold markToMarket
  cases hget : m.get accountId symbol with
  | none =>
    split_ifs with heq
    · obtain ⟨rfl, rfl⟩ := Prod.mk.inj heq
      rw [hget]
      rfl
    · rfl
  | some p =>
    obtain ⟨haccount, hsymbol⟩ := key_of_get hget
    -- A flat record is not marked.
    by_cases hopen : p.isOpen = true
    · simp only [hopen, if_true, get_put, haccount, hsymbol, Option.map_some, PositionRecord.marked]
    · simp only [hopen, Bool.false_eq_true, if_false, Option.map_some]
      split_ifs with heq
      · obtain ⟨rfl, rfl⟩ := Prod.mk.inj heq
        exact hget
      · rfl

theorem quantity_applyFill (m : PositionManager) (a : AccountId) (s s' : Symbol) (d : Direction)
    (q x : ℚ) : (m.applyFill a s d q x).quantity a s' =
      m.quantity a s' + if s = s' then d.signed q else 0 := by
  unfold quantity
  rw [get_applyFill]
  by_cases hs : s = s'
  · subst hs
    simp only [if_true, Option.elim_some, fillRecord_quantity, record]
    cases m.get a s <;> simp
  · simp [hs]

end PositionManager

end SuperTrading
