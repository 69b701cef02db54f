import SuperTrading.Brokers.Mock
import SuperTrading.Trading.PositionManager
import SuperTrading.Logic.Netting
import SuperTrading.Logic.Runs

/-!
# Two Netting Books Agree

`MockBroker._apply_fill_to_position` and `PositionManager.apply_fill` net fills
independently of each other: one deletes a position that goes flat, the other
keeps its record and the profit it accumulated. Both implement the netting lots
of `SuperTrading.Logic.Netting`, so they agree with each other.

- **Layer A**: the broker's book is a `NetBook`
- **Layer B**: the manager's book is a `NetBook`
- **Layer C**: fed the same fills, the two describe one `NetBook`
-/

namespace SuperTrading

open SuperTrading.Logic

/-! ## Layer A: The broker's lots -/

namespace MockBroker

/-- What the broker holds of a symbol. -/
def lot (b : MockBroker) (symbol : Symbol) : Lot ℚ :=
  match b.positions.get? symbol with
  | none => Lot.empty
  | some p => Lot.ofPair p.quantity p.averagePrice

/-- A broker position is never flat: it is deleted instead. -/
def NoFlat (b : MockBroker) : Prop :=
  ∀ symbol p, b.positions.get? symbol = some p → p.quantity ≠ 0

@[simp] theorem lot_markToMarket (b : MockBroker) (s j : Symbol) (x : ℚ) :
    (b.markToMarket s x).lot j = b.lot j := by
  simp only [lot, markToMarket, Dict.get?_modify]
  by_cases hs : s = j
  · cases b.positions.get? j <;> simp [hs]
  · simp [hs]

@[simp] theorem balance_markToMarket (b : MockBroker) (s : Symbol) (x : ℚ) :
    (b.markToMarket s x).balance = b.balance := rfl

theorem noFlat_markToMarket {b : MockBroker} (h : b.NoFlat) (s : Symbol) (x : ℚ) :
    (b.markToMarket s x).NoFlat := by
  intro j p hp
  simp only [markToMarket, Dict.get?_modify] at hp
  by_cases hs : s = j
  · rw [if_pos hs] at hp
    obtain ⟨p', hp', rfl⟩ := Option.map_eq_some_iff.mp hp
    exact h j p' hp'
  · rw [if_neg hs] at hp
    exact h j p hp

/-- The price `_apply_fill_to_position` leaves on a position it keeps, and the
cash it books, are those of the lot. -/
theorem applyFill_arith {q s : ℚ} (hq : q ≠ 0) (hs : s ≠ 0) (a x : ℚ) :
    ((if decide (0 < q) == decide (0 < s) then (a * q + x * s) / (q + s)
        else if q + s ≠ 0 ∧ decide (0 < q + s) ≠ decide (0 < q) then x else a) =
      if 0 ≤ q * s then (a * q + x * s) / (q + s) else if |q| < |s| then x else a) ∧
    ((if decide (0 < q) == decide (0 < s) then (0 : ℚ)
        else (x - a) * min |s| |q| * (if 0 < q then 1 else -1)) =
      if 0 ≤ q * s then 0 else min |s| |q| * (x - a) * (if 0 < q then 1 else -1)) := by
  have hside : (decide (0 < q) == decide (0 < s)) = true ↔ 0 ≤ q * s := by
    rw [beq_iff_eq, decide_eq_decide]
    exact Lot.sameSide_iff hq hs
  -- The broker compares signs as truth values; the lot compares the product with 0.
  by_cases hqs : 0 ≤ q * s
  · rw [if_pos (hside.mpr hqs), if_pos (hside.mpr hqs), if_pos hqs, if_pos hqs]
    exact ⟨rfl, rfl⟩
  · have hflip : (q + s ≠ 0 ∧ decide (0 < q + s) ≠ decide (0 < q)) ↔ |q| < |s| := by
      rw [Ne, Ne, decide_eq_decide]
      exact Lot.crosses_iff (not_le.mp hqs)
    have hne : ¬ ((decide (0 < q) == decide (0 < s)) = true) := fun h => hqs (hside.mp h)
    rw [if_neg hne, if_neg hne, if_neg hqs, if_neg hqs]
    refine ⟨if_congr hflip rfl rfl, by ring⟩

/-- One fill, stated on the lots: the symbol's lot takes the fill, every other
lot stays, cash takes what the fill realizes, and no position is flat. -/
theorem applyFillToPosition_spec {b : MockBroker} (h : b.NoFlat) (symbol : Symbol)
    (d : Direction) {q : ℚ} (hq : 0 < q) (x : ℚ) :
    (∀ j, (b.applyFillToPosition symbol d q x).lot j =
        if symbol = j then (b.lot symbol).fill (d.signed q) x else b.lot j) ∧
    (b.applyFillToPosition symbol d q x).balance =
        b.balance + (b.lot symbol).realized (d.signed q) x ∧
    (b.applyFillToPosition symbol d q x).NoFlat := by
  have hs : d.signed q ≠ 0 := Direction.signed_ne_zero hq
  cases hp : b.positions.get? symbol with
  | none =>
    have hlot : b.lot symbol = Lot.empty := by simp [lot, hp]
    simp only [applyFillToPosition, hp, hlot]
    refine ⟨fun j => ?_, by simp, fun j p hj => ?_⟩
    · by_cases hj : symbol = j
      · simp [lot, hj, Lot.fill_empty hs]
      · simp [lot, hj, Dict.get?_set_of_ne]
    · rw [Dict.get?_set] at hj
      by_cases hj' : symbol = j
      · rw [if_pos hj'] at hj
        cases hj
        exact hs
      · rw [if_neg hj'] at hj
        exact h j p hj
  | some position =>
    have hQ : position.quantity ≠ 0 := h symbol position hp
    have hlot : b.lot symbol = Lot.ofPair position.quantity position.averagePrice := by
      simp [lot, hp]
    obtain ⟨havg, hcash⟩ := applyFill_arith hQ hs position.averagePrice x
    have hbal : (if decide (0 < position.quantity) == decide (0 < d.signed q) then b.balance
        else b.balance + (x - position.averagePrice) * min |d.signed q| |position.quantity|
          * (if 0 < position.quantity then 1 else -1)) =
        b.balance + (b.lot symbol).realized (d.signed q) x := by
      rw [hlot, Lot.realized, Lot.ofPair_qty, Lot.ofPair_avg hQ, ← hcash]
      split_ifs <;> simp
    simp only [applyFillToPosition, hp, hbal]
    -- Flat or not is what decides between deleting the entry and rewriting it.
    by_cases hnew : position.quantity + d.signed q = 0
    · -- The fill closes the position: its entry goes, and the lot is empty.
      simp only [if_pos hnew]
      refine ⟨fun j => ?_, trivial, fun j p hj => ?_⟩
      · by_cases hj : symbol = j
        · subst hj
          have hempty : (b.lot symbol).fill (d.signed q) x = Lot.empty :=
            Lot.eq_empty_of_qty (by rw [Lot.fill_qty, hlot, Lot.ofPair_qty, hnew])
          rw [if_pos rfl, hempty]
          simp [lot]
        · simp [lot, hj, Dict.get?_erase_of_ne]
      · rw [Dict.get?_erase] at hj
        by_cases hj' : symbol = j
        · simp [hj'] at hj
        · rw [if_neg hj'] at hj
          exact h j p hj
    · -- The fill leaves something held, at the price of the lot.
      simp only [if_neg hnew]
      have hfill : (b.lot symbol).fill (d.signed q) x =
          Lot.ofPair (position.quantity + d.signed q)
            (if decide (0 < position.quantity) == decide (0 < d.signed q) then
              (position.averagePrice * position.quantity + x * d.signed q) /
                (position.quantity + d.signed q)
            else if position.quantity + d.signed q ≠ 0 ∧
                decide (0 < position.quantity + d.signed q) ≠ decide (0 < position.quantity)
              then x else position.averagePrice) := by
        rw [hlot, Lot.fill, Lot.ofPair_qty, Lot.ofPair_avg hQ, havg]
      rw [hfill]
      -- The kept entry describes the filled lot; marking it changes neither size nor price.
      set kept : BrokerPosition := { position with
        quantity := position.quantity + d.signed q
        averagePrice := _ } with hkept
      set b' : MockBroker := { b with
        balance := b.balance + (b.lot symbol).realized (d.signed q) x
        positions := b.positions.set symbol kept } with hb'
      have hlots : ∀ j, b'.lot j =
          if symbol = j then Lot.ofPair kept.quantity kept.averagePrice else b.lot j := by
        intro j
        by_cases hj : symbol = j
        · simp [lot, hb', hj]
        · simp [lot, hb', hj, Dict.get?_set_of_ne]
      have hnf : b'.NoFlat := by
        intro j p hj
        rw [hb', Dict.get?_set] at hj
        by_cases hj' : symbol = j
        · rw [if_pos hj'] at hj
          cases hj
          exact hnew
        · rw [if_neg hj'] at hj
          exact h j p hj
      cases hquote : b.quotes.get? symbol with
      | none => exact ⟨hlots, rfl, hnf⟩
      | some quote =>
        exact ⟨fun j => (lot_markToMarket b' symbol j quote.ltp).trans (hlots j), rfl,
          noFlat_markToMarket hnf symbol quote.ltp⟩

end MockBroker

/-! ## Layer B: The manager's lots -/

namespace PositionManager

/-- What the manager holds of a symbol for an account. -/
def lot (m : PositionManager) (accountId : AccountId) (symbol : Symbol) : Lot ℚ :=
  Lot.ofPair (m.record accountId symbol).quantity (m.record accountId symbol).averagePrice

@[simp] theorem lot_qty (m : PositionManager) (a : AccountId) (s : Symbol) :
    (m.lot a s).qty = m.quantity a s := by
  unfold lot quantity record
  cases m.get a s <;> simp

theorem lot_eq_of_get {m m' : PositionManager} {a : AccountId} {s : Symbol}
    (h : m'.get a s = m.get a s) : m'.lot a s = m.lot a s := by
  simp only [lot, record, h]

/-- A record's fill is its lot's fill, and adds what the lot realizes. -/
theorem fillRecord_spec (p : PositionRecord) (d : Direction) {q : ℚ} (hq : 0 < q) (x : ℚ) :
    Lot.ofPair (fillRecord p d q x).quantity (fillRecord p d q x).averagePrice =
        (Lot.ofPair p.quantity p.averagePrice).fill (d.signed q) x ∧
    (fillRecord p d q x).realizedPnl =
        p.realizedPnl + (Lot.ofPair p.quantity p.averagePrice).realized (d.signed q) x := by
  have hs : d.signed q ≠ 0 := Direction.signed_ne_zero hq
  by_cases hQ : p.quantity = 0
  · -- A flat record opens at the fill's price, whatever price it still shows.
    rw [hQ, Lot.ofPair_zero, Lot.fill_empty hs, Lot.realized_empty]
    refine ⟨Lot.ofPair_eq_ofPair (by simp [hQ]) fun _ => ?_, ?_⟩
    · simp [fillRecord, hQ, hs]
    · simp [fillRecord, hQ]
  · by_cases hside : 0 ≤ p.quantity * d.signed q
    · -- Same side: the weighted average, nothing realized.
      have hsame : decide (0 < p.quantity) = decide (0 < d.signed q) := by
        rw [decide_eq_decide]
        exact (Lot.sameSide_iff hQ hs).mpr hside
      simp only [fillRecord, hsame, or_true, if_true]
      refine ⟨Lot.ofPair_eq_ofPair rfl fun hne => ?_, ?_⟩
      · rw [if_pos hne, Lot.ofPair_qty, if_pos hside, Lot.ofPair_avg hQ]
      · rw [Lot.realized, Lot.ofPair_qty, if_pos hside, add_zero]
    · -- Opposite side: reduce, close or flip.
      have hsame : ¬ (p.quantity = 0 ∨ decide (0 < p.quantity) = decide (0 < d.signed q)) := by
        rw [decide_eq_decide]
        exact not_or.mpr ⟨hQ, fun h => hside ((Lot.sameSide_iff hQ hs).mp h)⟩
      have hremainder : 0 < |d.signed q| - min |d.signed q| |p.quantity| ↔
          |p.quantity| < |d.signed q| := by
        rw [sub_pos, min_lt_iff]
        exact ⟨fun h => h.resolve_left (lt_irrefl _), Or.inr⟩
      simp only [fillRecord, if_neg hsame, hremainder]
      refine ⟨Lot.ofPair_eq_ofPair rfl fun hne => ?_, ?_⟩
      · rw [Lot.ofPair_qty, if_neg hside, Lot.ofPair_avg hQ, if_neg hne]
      · rw [Lot.realized, Lot.ofPair_qty, if_neg hside, Lot.ofPair_avg hQ]

/-- One fill, stated on the lots: the symbol's lot takes the fill, every other
lot stays, and the book's realized P&L grows by what the fill realizes. -/
theorem applyFill_spec (m : PositionManager) (a : AccountId) (s : Symbol) (d : Direction) {q : ℚ}
    (hq : 0 < q) (x : ℚ) :
    (∀ j, (m.applyFill a s d q x).lot a j =
        if s = j then (m.lot a s).fill (d.signed q) x else m.lot a j) ∧
    (m.applyFill a s d q x).totalRealizedPnl =
        m.totalRealizedPnl + (m.lot a s).realized (d.signed q) x := by
  obtain ⟨hlot, hpnl⟩ := fillRecord_spec (m.record a s) d hq x
  constructor
  · intro j
    by_cases hj : s = j
    · subst hj
      rw [if_pos rfl, lot, record, get_applyFill, if_pos rfl, Option.getD_some]
      exact hlot
    · rw [if_neg hj]
      exact lot_eq_of_get (by simp [get_applyFill, hj])
  · -- A record that is not there has realized nothing.
    have hold : (m.positions.get? (a, s)).elim 0 PositionRecord.realizedPnl =
        (m.record a s).realizedPnl := by
      unfold record get
      cases m.positions.get? (a, s) <;> simp
    rw [totalRealizedPnl, positions_applyFill, Dict.sum_values_set, hold, hpnl, totalRealizedPnl,
      lot]
    ring

end PositionManager

/-! ## Layer C: One account behind both books -/

/-- A fill as the two books receive it. -/
structure Fill where
  symbol : Symbol
  direction : Direction
  quantity : ℚ
  price : ℚ
  quantity_pos : 0 < quantity
  price_pos : 0 < price

def MockBroker.take (b : MockBroker) (f : Fill) : MockBroker :=
  b.applyFillToPosition f.symbol f.direction f.quantity f.price

def PositionManager.take (accountId : AccountId) (m : PositionManager) (f : Fill) :
    PositionManager :=
  m.applyFill accountId f.symbol f.direction f.quantity f.price

def takeNet (book : NetBook Symbol ℚ) (f : Fill) : NetBook Symbol ℚ :=
  book.fill f.symbol (f.direction.signed f.quantity) f.price

/-- The broker represents the account: its lots are the account's, its cash has
moved by the account's, and it lists no flat position. -/
def MockBroker.Represents (b : MockBroker) (book : NetBook Symbol ℚ) : Prop :=
  (∀ s, b.lot s = book.lots s) ∧ b.balance - b.startingBalance = book.cash ∧ b.NoFlat

/-- The manager represents the account: its lots are the account's and its
records' P&L is the account's cash. -/
def PositionManager.Represents (m : PositionManager) (accountId : AccountId)
    (book : NetBook Symbol ℚ) : Prop :=
  (∀ s, m.lot accountId s = book.lots s) ∧ m.totalRealizedPnl = book.cash

@[simp] theorem MockBroker.startingBalance_applyFillToPosition (b : MockBroker) (s : Symbol)
    (d : Direction) (q x : ℚ) :
    (b.applyFillToPosition s d q x).startingBalance = b.startingBalance := by
  unfold MockBroker.applyFillToPosition
  dsimp only
  split
  · rfl
  · split
    · rfl
    · split <;> rfl

/-- The broker's netting simulates the account's. -/
theorem MockBroker.represents_take {b : MockBroker} {book : NetBook Symbol ℚ}
    (h : b.Represents book) (f : Fill) : (b.take f).Represents (takeNet book f) := by
  obtain ⟨hlots, hcash, hflat⟩ := h
  obtain ⟨hl, hc, hf⟩ :=
    b.applyFillToPosition_spec hflat f.symbol f.direction f.quantity_pos f.price
  refine ⟨fun s => ?_, ?_, hf⟩
  · rw [MockBroker.take, hl, takeNet, NetBook.fill]
    by_cases hs : f.symbol = s
    · subst hs
      simp [hlots]
    · simp [hs, Ne.symm hs, hlots]
  · rw [MockBroker.take, hc, startingBalance_applyFillToPosition, takeNet, NetBook.fill, ← hcash,
      hlots]
    ring

/-- The manager's netting simulates the account's. -/
theorem PositionManager.represents_take {m : PositionManager} {accountId : AccountId}
    {book : NetBook Symbol ℚ} (h : m.Represents accountId book) (f : Fill) :
    (PositionManager.take accountId m f).Represents accountId (takeNet book f) := by
  obtain ⟨hlots, hcash⟩ := h
  obtain ⟨hl, hc⟩ := m.applyFill_spec accountId f.symbol f.direction f.quantity_pos f.price
  refine ⟨fun s => ?_, ?_⟩
  · rw [PositionManager.take, hl, takeNet, NetBook.fill]
    by_cases hs : f.symbol = s
    · subst hs
      simp [hlots]
    · simp [hs, Ne.symm hs, hlots]
  · rw [PositionManager.take, hc, takeNet, NetBook.fill, ← hcash, hlots]

/-- A broker and a manager that represent one account agree position by
position: the broker lists exactly the symbols the manager holds, with the
manager's quantity and average price. -/
theorem positions_agree {b : MockBroker} {m : PositionManager} {accountId : AccountId}
    {book : NetBook Symbol ℚ} (hb : b.Represents book) (hm : m.Represents accountId book)
    (s : Symbol) :
    ((b.positions.get? s).isSome ↔ m.quantity accountId s ≠ 0) ∧
    ∀ p, b.positions.get? s = some p →
      p.quantity = m.quantity accountId s ∧
      p.averagePrice = (m.record accountId s).averagePrice := by
  have hlot : b.lot s = m.lot accountId s := (hb.1 s).trans (hm.1 s).symm
  have hqty : (b.lot s).qty = m.quantity accountId s := by rw [hlot, PositionManager.lot_qty]
  -- The lots are equal, so an absent entry means quantity 0 and a listed one means not.
  cases hp : b.positions.get? s with
  | none =>
    have hzero : m.quantity accountId s = 0 := by rw [← hqty]; simp [MockBroker.lot, hp]
    simp [hzero]
  | some p =>
    have hQ : p.quantity ≠ 0 := hb.2.2 s p hp
    have hpq : p.quantity = m.quantity accountId s := by rw [← hqty]; simp [MockBroker.lot, hp]
    have hrq : (m.record accountId s).quantity = m.quantity accountId s := by
      rw [← PositionManager.lot_qty]; rfl
    refine ⟨by simp [← hpq, hQ], fun p' hp' => ?_⟩
    cases hp'
    refine ⟨hpq, ?_⟩
    have havg := congrArg Lot.avg hlot
    rw [MockBroker.lot, hp, PositionManager.lot] at havg
    simpa [Lot.ofPair, hQ, hrq, ← hpq] using havg

/-- **The two netting books agree.** Fed any fills in the same order, a fresh
`MockBroker` and a fresh `PositionManager` hold the same positions at the same
average prices, and the broker's cash has moved by the manager's realized P&L. -/
theorem mockBroker_agrees_with_positionManager (startingBalance : ℚ) (accountId : AccountId)
    (fills : List Fill) :
    let b := run MockBroker.take (MockBroker.new startingBalance) fills
    let m := run (PositionManager.take accountId) {} fills
    (∀ s, ((b.positions.get? s).isSome ↔ m.quantity accountId s ≠ 0) ∧
      ∀ p, b.positions.get? s = some p →
        p.quantity = m.quantity accountId s ∧
        p.averagePrice = (m.record accountId s).averagePrice) ∧
    b.balance - b.startingBalance = m.totalRealizedPnl := by
  intro b m
  -- Both start out representing the account that never traded.
  have hb₀ : (MockBroker.new startingBalance).Represents NetBook.empty :=
    ⟨fun _ => rfl, sub_self _, fun _ _ h => by simp [MockBroker.new] at h⟩
  have hm₀ : ({} : PositionManager).Represents accountId NetBook.empty :=
    ⟨fun _ => by simp [PositionManager.lot, PositionManager.record, PositionManager.get,
      NetBook.empty], rfl⟩
  have hb : b.Represents (run takeNet NetBook.empty fills) :=
    run_related (R := fun (b : MockBroker) book => b.Represents book)
      (fun _ _ f h => MockBroker.represents_take h f) fills hb₀
  have hm : m.Represents accountId (run takeNet NetBook.empty fills) :=
    run_related (R := fun (m : PositionManager) book => m.Represents accountId book)
      (fun _ _ f h => PositionManager.represents_take h f) fills hm₀
  exact ⟨positions_agree hb hm, hb.2.1.trans hm.2.symm⟩

end SuperTrading
