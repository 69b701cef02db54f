import SuperTrading.Paper.Desk

/-!
# Two Marks of One Position

An engine alone on its account has its position in two books, the broker's and its own, and
each book keeps a mark. The broker marks at every print; the position book marks at the close
of a candle, and only what is open. The lots of the two agree after every candle, whatever
happens. The marks do not: an exit that is not executed leaves the broker's print at its
level, and a new position in an old record starts from the mark the old one left.

- **Layer A**: what the broker's book holds behind a fill
- **Layer B**: the relation of the two books
- **Layer C**: one lemma for each thing a candle can do
- **Layer D**: whole runs
-/

namespace SuperTrading

open SuperTrading.Logic
open Smc (Candle)

/-! ## Layer A: The broker's book -/

namespace MockBroker

variable {b : MockBroker} {symbol : Symbol}

/-- A fill concerns its own symbol. -/
theorem get_applyFillToPosition_of_ne {symbol' : Symbol} (hne : symbol' ≠ symbol)
    (direction : Direction) (quantity price : ℚ) :
    (b.applyFillToPosition symbol direction quantity price).positions.get? symbol' =
      b.positions.get? symbol' := by
  unfold applyFillToPosition
  cases b.positions.get? symbol with
  | none => exact Dict.get?_set_of_ne _ hne.symm _
  | some p =>
    dsimp only
    split
    · exact Dict.get?_erase_of_ne _ hne.symm
    · split
      · exact (Dict.get?_modify ..).trans
          ((if_neg hne.symm).trans (Dict.get?_set_of_ne _ hne.symm _))
      · exact Dict.get?_set_of_ne _ hne.symm _

/-- A fill that takes the whole of a position removes it. -/
theorem get_applyFillToPosition_closing {q : BrokerPosition}
    (hq : b.positions.get? symbol = some q) {direction : Direction} {quantity : ℚ}
    (hzero : q.quantity + direction.signed quantity = 0) (price : ℚ) :
    (b.applyFillToPosition symbol direction quantity price).positions.get? symbol = none := by
  unfold applyFillToPosition
  rw [hq]
  simp only [hzero, if_true]
  exact Dict.get?_erase_self ..

/-- A fill into a flat position opens it at the fill's price, which is also the last print. -/
theorem get_applyFillToPosition_opening (hflat : ∀ q ∈ b.positions.get? symbol, q.quantity = 0)
    {price : ℚ} (hquote : b.quotes.get? symbol = some { symbol := symbol, ltp := price })
    (direction : Direction) {quantity : ℚ} (hqty : 0 < quantity) :
    ∃ q, (b.applyFillToPosition symbol direction quantity price).positions.get? symbol = some q ∧
      q.quantity = direction.signed quantity ∧ q.averagePrice = price ∧ q.unrealizedPnl = 0 := by
  have hne : direction.signed quantity ≠ 0 := Direction.signed_ne_zero hqty
  unfold applyFillToPosition
  cases hq : b.positions.get? symbol with
  | none => exact ⟨_, Dict.get?_set_self .., rfl, rfl, rfl⟩
  | some q =>
    have hzero : q.quantity = 0 := hflat q hq
    simp only [hzero, zero_add, hne, if_false, hquote, markToMarket, Dict.get?_modify,
      Dict.get?_set_self, if_true, Option.map_some]
    refine ⟨_, rfl, rfl, ?_, ?_⟩
    all_goals cases direction <;> simp [hqty, hqty.le, hqty.ne']

/-- A fill of nothing leaves a flat position flat. -/
theorem get_applyFillToPosition_nothing (hflat : ∀ q ∈ b.positions.get? symbol, q.quantity = 0)
    (direction : Direction) (price : ℚ) :
    ∀ q ∈ (b.applyFillToPosition symbol direction 0 price).positions.get? symbol,
      q.quantity = 0 ∧ q.unrealizedPnl = 0 := by
  have hnothing : direction.signed 0 = 0 := by cases direction <;> simp
  unfold applyFillToPosition
  cases hq : b.positions.get? symbol with
  | none =>
    intro q' hq'
    obtain rfl := Option.some.inj ((Dict.get?_set_self ..).symm.trans (Option.mem_def.mp hq'))
    exact ⟨hnothing, rfl⟩
  | some q =>
    have hzero : q.quantity = 0 := hflat q hq
    simp [hzero, hnothing]

/-- A print marks its own symbol. -/
theorem Plain.get_setQuote (h : b.Plain) (symbol symbol' : Symbol) (ltp : ℚ) :
    (b.setQuote symbol ltp true).positions.get? symbol' =
      if symbol = symbol' then (b.positions.get? symbol').map fun q =>
        { q with unrealizedPnl := (ltp - q.averagePrice) * q.quantity }
      else b.positions.get? symbol' := by
  rw [h.setQuote_marks]
  exact Dict.get?_modify b.positions symbol symbol' _

end MockBroker

/-! ## Layer B: The relation of the two books -/

/-- The books hold one lot: an open record is the broker's position, and where there is none
the broker has nothing, or a position of nothing. -/
def SameLot (held : Option BrokerPosition) (record : Option PositionRecord) : Prop :=
  (∀ p ∈ record, p.isOpen = true →
    ∃ q ∈ held, q.quantity = p.quantity ∧ q.averagePrice = p.averagePrice) ∧
  (record.any PositionRecord.isOpen = false →
    ∀ q ∈ held, q.quantity = 0 ∧ q.unrealizedPnl = 0)

theorem sameLot_none : SameLot none none := ⟨by simp, by simp⟩

/-- The broker's reported equity beyond its balance. -/
def PaperAccount.brokerMark (a : PaperAccount) : ℚ :=
  a.broker.getAccount.equity - a.broker.getAccount.balance

namespace PaperTradingEngine

variable {e e' : PaperTradingEngine} {a a' : PaperAccount} {candle : Candle} {p : PositionRecord}

/-- The unrealized P&L of the open positions in the book. -/
def bookMark (e : PaperTradingEngine) (a : PaperAccount) : ℚ :=
  ((a.positionManager.openPositions e.accountId).map PositionRecord.unrealizedPnl).sum

/-- An engine alone on its account: nothing but its own position is in the two books, and
they hold the same lot. -/
structure Alone (e : PaperTradingEngine) (a : PaperAccount) : Prop where
  plain : a.broker.Plain
  lone : ∀ symbol, symbol ≠ e.symbol → a.broker.positions.get? symbol = none
  only : ∀ key, key ≠ (e.accountId, e.symbol) → a.positionManager.positions.get? key = none
  lots : SameLot (a.broker.positions.get? e.symbol) (e.position a)

theorem Alone.brokerMark_eq (h : Alone e a) :
    a.brokerMark = (a.broker.positions.get? e.symbol).elim 0 BrokerPosition.unrealizedPnl := by
  have hvalues : a.broker.positions.values = (a.broker.positions.get? e.symbol).toList := by
    rw [Dict.values, Dict.entries_of_lone _ h.lone]
    cases a.broker.positions.get? e.symbol <;> rfl
  rw [PaperAccount.brokerMark, MockBroker.getAccount, add_sub_cancel_left, hvalues]
  cases a.broker.positions.get? e.symbol <;> simp

theorem Alone.bookMark_eq (h : Alone e a) :
    e.bookMark a =
      ((e.position a).filter PositionRecord.isOpen).elim 0 PositionRecord.unrealizedPnl := by
  rw [bookMark, PositionManager.openPositions, Dict.entries_of_lone _ h.only]
  show _ = (Option.filter _ (a.positionManager.positions.get? (e.accountId, e.symbol))).elim 0 _
  cases a.positionManager.positions.get? (e.accountId, e.symbol) with
  | none => rfl
  | some p => cases hopen : p.isOpen <;> simp [Option.filter, hopen]

/-- The marks of a flat position are both 0. -/
theorem Alone.marks_flat (h : Alone e a)
    (hflat : (e.position a).any PositionRecord.isOpen = false) :
    a.brokerMark = e.bookMark a := by
  rw [h.brokerMark_eq, h.bookMark_eq]
  have hbook : (e.position a).filter PositionRecord.isOpen = none := by
    cases hp : e.position a with
    | none => rfl
    | some p => simpa [hp, Option.filter] using hflat
  rw [hbook]
  cases hq : a.broker.positions.get? e.symbol with
  | none => rfl
  | some q => exact (h.lots.2 hflat q hq).2

theorem Alone.marks_open (h : Alone e a) {q : BrokerPosition}
    (hq : a.broker.positions.get? e.symbol = some q) (hp : e.position a = some p)
    (hopen : p.isOpen = true) :
    a.brokerMark = e.bookMark a ↔ q.unrealizedPnl = p.unrealizedPnl := by
  rw [h.brokerMark_eq, h.bookMark_eq, hq, hp, Option.filter, if_pos hopen]
  rfl

/-! ## Layer C: What a candle does to the marks -/

/-- A print keeps the lots. -/
theorem Alone.pinned (h : Alone e a) (price : ℚ) : Alone e (e.pinned a price) where
  plain := (h.plain.setQuote e.symbol price).1
  lone symbol hne := (h.plain.get_setQuote ..).trans
    ((if_neg (Ne.symm hne)).trans (h.lone symbol hne))
  only := h.only
  lots := by
    show SameLot ((a.broker.setQuote e.symbol price true).positions.get? e.symbol) (e.position a)
    rw [h.plain.get_setQuote, if_pos rfl]
    refine ⟨fun p hp hopen => ?_, fun hflat q hq => ?_⟩
    · obtain ⟨q, hq, hquantity, haverage⟩ := h.lots.1 p hp hopen
      rw [Option.mem_def.mp hq]
      exact ⟨_, rfl, hquantity, haverage⟩
    · obtain ⟨q', hq', rfl⟩ := Option.map_eq_some_iff.mp hq
      have hzero := (h.lots.2 hflat q' hq').1
      exact ⟨hzero, by simp [hzero]⟩

/-- So does the close of a candle, which marks the record as well. -/
theorem Alone.observed (h : Alone e a) (candle : Candle) : Alone e (e.observed a candle) where
  plain := (h.pinned candle.close).plain
  lone := (h.pinned candle.close).lone
  only key hne := by
    refine (PositionManager.get_marked _ _ key.1 _ key.2 _).trans ?_
    rw [if_neg (Ne.symm hne)]
    exact h.only key hne
  lots := by
    obtain ⟨hopened, hflat⟩ := (h.pinned candle.close).lots
    rw [position_observed]
    refine ⟨fun p hp hopen => ?_, fun hnone => hflat ?_⟩
    · obtain ⟨p', hp', rfl⟩ := Option.map_eq_some_iff.mp hp
      -- Only an open record is marked, and a mark keeps it open.
      split_ifs at hopen with hheld
      · rw [if_pos hheld]
        exact hopened p' hp' hheld
      · exact absurd hopen hheld
    · show (e.position a).any PositionRecord.isOpen = false
      cases hp : e.position a with
      | none => rfl
      | some p =>
        rw [hp, Option.map_some, Option.any_some] at hnone
        split_ifs at hnone with hheld
        · exact hnone
        · exact hnone

/-- An order keeps an engine alone, if it leaves the lots the same. -/
theorem Alone.ordered (h : Alone e a) {key : String} {direction : Direction} {ltp quantity : ℚ}
    {order : OrderRecord} {created : Bool} {candles : List Candle}
    (hmarket : MarketOrder { e with candles := candles } a key direction ltp quantity order created
      e' a')
    (hlots : SameLot (a'.broker.positions.get? e.symbol) (e.position a')) : Alone e a' where
  plain := hmarket.plain
  lone symbol hne := by
    rw [hmarket.positions]
    split_ifs
    · exact (MockBroker.get_applyFillToPosition_of_ne hne ..).trans (h.lone symbol hne)
    · exact h.lone symbol hne
  only key hne := by
    refine (hmarket.get key.1 key.2).trans ?_
    rw [if_neg fun hboth => hne hboth.2.symm]
    exact h.only key hne
  lots := hlots

/-- The lot of an open position, as the broker marks it at a price. -/
theorem Alone.pinned_open (h : Alone e a) (hp : e.position a = some p) (hopen : p.isOpen = true)
    (price : ℚ) :
    ∃ q, (e.pinned a price).broker.positions.get? e.symbol = some q ∧ q.quantity = p.quantity ∧
      q.averagePrice = p.averagePrice ∧
      q.unrealizedPnl = (price - p.averagePrice) * p.quantity := by
  obtain ⟨q, hq, hquantity, haverage⟩ := h.lots.1 p hp hopen
  refine ⟨{ q with unrealizedPnl := (price - q.averagePrice) * q.quantity }, ?_, hquantity,
    haverage, by rw [hquantity, haverage]⟩
  rw [PaperTradingEngine.pinned, h.plain.get_setQuote, if_pos rfl, Option.mem_def.mp hq]
  rfl

/-- **A candle that hits no level.** Both mark at its close. -/
theorem Alone.miss (h : Alone e a) (hp : e.position a = some p) (hopen : p.isOpen = true)
    (candle : Candle) :
    (e.observed a candle).brokerMark = e.bookMark (e.observed a candle) := by
  obtain ⟨q, hq, -, -, hmark⟩ := h.pinned_open hp hopen candle.close
  exact ((h.observed candle).marks_open hq (position_observed_open hp hopen candle) hopen).mpr hmark

/-- **A candle that hits a level.** An exit that goes out leaves no marks; else the broker
has marked at the level and the book at the close. -/
theorem Alone.hit (h : Alone e a) (hp : e.position a = some p) (hopen : p.isOpen = true)
    {level : ℚ} {reason : ExitReason} (hhit : trigger p candle = some (level, reason))
    {order : OrderRecord} {created : Bool}
    (hmarket : MarketOrder { e with candles := e.candles ++ [candle] }
      (e.pinned (e.observed a candle) level) (e.closeKey candle)
      (if p.isLong then .short else .long) level |p.quantity| order created e' a') :
    Alone e a' ∧
      (a'.brokerMark = e.bookMark a' ↔ e.ExitGoesOut p candle ∨ level = candle.close) := by
  have hmarked : e.position (e.observed a candle) = some (p.marked candle.close) :=
    position_observed_open hp hopen candle
  have halone : Alone e (e.pinned (e.observed a candle) level) := (h.observed candle).pinned level
  obtain ⟨q, hq, hquantity, haverage, hmark⟩ := (h.observed candle).pinned_open hmarked hopen level
  have hgoesOut : (e.orderManager.lookup (e.closeKey candle) = none ∧ 0 < level) ↔
      e.ExitGoesOut p candle := by
    simp only [ExitGoesOut, hhit, Option.mem_def, Option.some.injEq, forall_eq']
    exact and_comm
  have hposition := hmarket.position_exit hp hopen hhit
  -- The exit takes the position off the broker's shelf, or leaves it at its mark.
  have hshelf : a'.broker.positions.get? e.symbol =
      if e.ExitGoesOut p candle then none else some q := by
    have hpositions := hmarket.positions
    by_cases hgoes : e.ExitGoesOut p candle
    · rw [if_pos hgoes, hpositions, if_pos (hgoesOut.mpr hgoes)]
      apply MockBroker.get_applyFillToPosition_closing hq
      rw [hquantity]
      exact p.closing_quantity
    · rw [if_neg hgoes, hpositions, if_neg (mt hgoesOut.mp hgoes)]
      exact hq
  -- Closed: neither book marks anything.
  by_cases hgoes : e.ExitGoesOut p candle
  · rw [if_pos hgoes] at hposition hshelf
    have hlots : SameLot (a'.broker.positions.get? e.symbol) (e.position a') := by
      rw [hposition, hshelf]
      refine ⟨fun p' hp' hopen' => ?_, fun _ q hq => by cases hq⟩
      obtain rfl := Option.some.inj (Option.mem_def.mp hp')
      rw [PositionRecord.closed_isOpen] at hopen'
      cases hopen'
    have hafter : Alone e a' := halone.ordered hmarket hlots
    refine ⟨hafter, iff_of_true (hafter.marks_flat ?_) (Or.inl hgoes)⟩
    rw [hposition, Option.any_some, PositionRecord.closed_isOpen]
  · -- Refused: the broker was quoted the level, the book was marked at the close.
    rw [if_neg hgoes] at hposition hshelf
    have hlots : SameLot (a'.broker.positions.get? e.symbol) (e.position a') := by
      rw [hposition, hshelf, ← hq, ← hmarked, ← position_broker e (e.observed a candle)]
      exact halone.lots
    have hafter : Alone e a' := halone.ordered hmarket hlots
    refine ⟨hafter, (hafter.marks_open hshelf hposition hopen).trans ?_⟩
    rw [hmark, or_iff_right hgoes]
    -- The two marks differ by the distance of the level from the close.
    have hne : p.quantity ≠ 0 := of_decide_eq_true hopen
    show (level - p.averagePrice) * p.quantity = (candle.close - p.averagePrice) * p.quantity ↔ _
    rw [mul_left_inj' hne, sub_left_inj]

/-- The order of an entry opens the lot in both books, or in none. The broker's position is
new; the record keeps the mark it had. -/
theorem Alone.entry (h : Alone e a) (hflat : (e.position a).any PositionRecord.isOpen = false)
    {key : String} {direction : Direction} {price quantity : ℚ} (hqty : 0 ≤ quantity)
    {order : OrderRecord} {created : Bool} {candles : List Candle}
    (hmarket : MarketOrder { e with candles := candles } (e.pinned a price) key direction price
      quantity order created e' a') :
    Alone e a' ∧ (a'.brokerMark = e.bookMark a' ↔
      (Executes { e with candles := candles } key price quantity →
        (e.record a).unrealizedPnl = 0)) := by
  have halone : Alone e (e.pinned a price) := h.pinned price
  have hnothing : ∀ q ∈ (e.pinned a price).broker.positions.get? e.symbol, q.quantity = 0 :=
    fun q hq => (halone.lots.2 hflat q hq).1
  have hget := hmarket.get e.accountId e.symbol
  have hpositions := hmarket.positions
  by_cases hexecutes : Executes { e with candles := candles } key price quantity
  · -- The order opens the lot in both books, the broker's at no P&L.
    obtain ⟨hkey, hprice, hsize⟩ := hexecutes
    have hrecord : record { e with candles := candles } (e.pinned a price) = e.record a := rfl
    rw [if_pos ⟨⟨hkey, hprice, hsize⟩, rfl⟩, hrecord,
      fillRecord_flat (record_flat hflat) direction hsize] at hget
    have hposition : e.position a' = some { e.record a with
        quantity := direction.signed quantity
        averagePrice := price } := hget
    have hquote : (e.pinned a price).broker.quotes.get? e.symbol =
        some { symbol := e.symbol, ltp := price } := (h.plain.setQuote e.symbol price).2
    obtain ⟨q, hq, hquantity, haverage, hmark⟩ :=
      MockBroker.get_applyFillToPosition_opening hnothing hquote direction hsize
    have hshelf : a'.broker.positions.get? e.symbol = some q := by
      rw [hpositions, if_pos ⟨hkey, hprice⟩]
      exact hq
    have hopen : PositionRecord.isOpen { e.record a with
        quantity := direction.signed quantity
        averagePrice := price } = true := by
      simp [PositionRecord.isOpen, Direction.signed_ne_zero hsize]
    have hlots : SameLot (a'.broker.positions.get? e.symbol) (e.position a') := by
      rw [hshelf, hposition]
      refine ⟨fun p hp _ => ?_, fun hnone => ?_⟩
      · obtain rfl := Option.some.inj (Option.mem_def.mp hp)
        exact ⟨q, rfl, hquantity, haverage⟩
      · rw [Option.any_some, hopen] at hnone
        cases hnone
    have hafter : Alone e a' := halone.ordered hmarket hlots
    refine ⟨hafter, (hafter.marks_open hshelf hposition hopen).trans ?_⟩
    rw [hmark, forall_prop_of_true ⟨hkey, hprice, hsize⟩]
    exact eq_comm
  · -- Nothing is executed: the record keeps its mark, and the books their lots.
    rw [if_neg fun hboth => hexecutes hboth.1] at hget
    have hposition : e.position a' = e.position a := hget
    have hlots : SameLot (a'.broker.positions.get? e.symbol) (e.position a') := by
      rw [hposition, hpositions]
      by_cases hfills : e.orderManager.lookup key = none ∧ 0 < price
      · -- What fills without executing is an order of nothing.
        have hzero : quantity = 0 := by
          by_contra hne
          exact hexecutes ⟨hfills.1, hfills.2, lt_of_le_of_ne hqty (Ne.symm hne)⟩
        rw [if_pos hfills, hzero]
        refine ⟨fun p hp hopen => ?_, fun _ => ?_⟩
        · rw [Option.mem_def.mp hp, Option.any_some, hopen] at hflat
          cases hflat
        · exact MockBroker.get_applyFillToPosition_nothing hnothing direction price
      · rw [if_neg hfills]
        exact halone.lots
    have hafter : Alone e a' := halone.ordered hmarket hlots
    refine ⟨hafter, iff_of_true (hafter.marks_flat ?_) fun hno => absurd hno hexecutes⟩
    rw [hposition]
    exact hflat

/-- The bracket and the strategy's name are no part of the lot. -/
theorem Alone.attributed (h : Alone e a) (candles : List Candle) (orders : OrderManager)
    (signal : Signal) :
    let e' : PaperTradingEngine := { e with
      candles := candles
      orderManager := orders }
    Alone e (e'.attributed a signal) ∧ (e'.attributed a signal).brokerMark = a.brokerMark ∧
      e.bookMark (e'.attributed a signal) = e.bookMark a := by
  intro e'
  have hposition : e.position (e'.attributed a signal) = (e.position a).map fun p => { p with
      stop := some signal.stop
      target := some signal.target
      strategyId := e.strategyId } := (get_attributed ..).trans (if_pos rfl)
  have hbroker : (e'.attributed a signal).broker = a.broker := broker_attributed ..
  have hafter : Alone e (e'.attributed a signal) := by
    refine ⟨hbroker ▸ h.plain, hbroker ▸ h.lone, fun key hne => ?_, ?_⟩
    · exact (get_attributed e' a signal key.1 key.2).trans
        ((if_neg (Ne.symm hne)).trans (h.only key hne))
    · rw [hbroker, hposition]
      refine ⟨fun p hp hopen => ?_, fun hnone => h.lots.2 ?_⟩
      · obtain ⟨p', hp', rfl⟩ := Option.map_eq_some_iff.mp hp
        exact h.lots.1 p' hp' hopen
      · rwa [Option.any_map] at hnone
  -- The mark of the record reads none of the fields written.
  refine ⟨hafter, by rw [PaperAccount.brokerMark, hbroker]; rfl, ?_⟩
  rw [hafter.bookMark_eq, h.bookMark_eq, hposition]
  cases hp : e.position a with
  | none => rfl
  | some p =>
    have hopen : PositionRecord.isOpen { p with
        stop := some signal.stop
        target := some signal.target
        strategyId := e.strategyId } = p.isOpen := rfl
    rw [Option.map_some, Option.filter, Option.filter, hopen]
    cases p.isOpen <;> rfl

/-- Where the marks meet behind a candle: an exit that a level asks for goes out, or the
level is the close; and an entry that goes out finds no mark left in the record. -/
def MarksMeet (analyze : Analysis) (e : PaperTradingEngine) (a : PaperAccount) (env : PaperEnv)
    (candle : Candle) : Prop :=
  (∀ p ∈ e.position a, p.isOpen = true → ∀ hit ∈ trigger p candle,
    e.ExitGoesOut p candle ∨ hit.1 = candle.close) ∧
  ((e.position a).any PositionRecord.isOpen = false →
    ∀ signal ∈ fillableSignal analyze e.strategy (e.candles ++ [candle]) candle,
      EntryGoesOut { e with candles := e.candles ++ [candle] } (e.observed a candle) env candle
        signal → (e.record a).unrealizedPnl = 0)

instance (analyze : Analysis) (e : PaperTradingEngine) (a : PaperAccount) (env : PaperEnv)
    (candle : Candle) : Decidable (e.MarksMeet analyze a env candle) :=
  inferInstanceAs (Decidable ((∀ p ∈ e.position a, p.isOpen = true → ∀ hit ∈ trigger p candle,
      e.ExitGoesOut p candle ∨ hit.1 = candle.close) ∧
    ((e.position a).any PositionRecord.isOpen = false →
      ∀ signal ∈ fillableSignal analyze e.strategy (e.candles ++ [candle]) candle,
        EntryGoesOut { e with candles := e.candles ++ [candle] } (e.observed a candle) env candle
          signal → (e.record a).unrealizedPnl = 0)))

/-- A condition on an open position is the whole of it where one is open. -/
theorem marksMeet_open {analyze : Analysis} {env : PaperEnv} (hp : e.position a = some p)
    (hopen : p.isOpen = true) : e.MarksMeet analyze a env candle ↔
      ∀ hit ∈ trigger p candle, e.ExitGoesOut p candle ∨ hit.1 = candle.close := by
  unfold MarksMeet
  rw [hp, Option.any_some, hopen]
  simp [hopen]

theorem marksMeet_flat {analyze : Analysis} {env : PaperEnv}
    (hflat : (e.position a).any PositionRecord.isOpen = false) :
    e.MarksMeet analyze a env candle ↔
      ∀ signal ∈ fillableSignal analyze e.strategy (e.candles ++ [candle]) candle,
        EntryGoesOut { e with candles := e.candles ++ [candle] } (e.observed a candle) env candle
          signal → (e.record a).unrealizedPnl = 0 := by
  unfold MarksMeet
  rw [forall_prop_of_true hflat]
  apply and_iff_right
  intro p hp hopen
  rw [Option.mem_def.mp hp, Option.any_some, hopen] at hflat
  cases hflat

/-- The entry of a signal. -/
theorem Alone.enter (h : Alone e a) (hflat : (e.position a).any PositionRecord.isOpen = false)
    {candles : List Candle} {env : PaperEnv} {result : StrategyEvaluationResult} {signal : Signal}
    {outcome : PaperTradeOutcome}
    (henter : enter { e with candles := candles } a env candle result signal =
      .ok (outcome, e', a')) :
    Alone e a' ∧ (a'.brokerMark = e.bookMark a' ↔
      (EntryGoesOut { e with candles := candles } a env candle signal →
        (e.record a).unrealizedPnl = 0)) := by
  set e₁ : PaperTradingEngine := { e with candles := candles } with he₁
  by_cases happroved : (e₁.decision a env signal).approved = false
  · rw [PaperTradingEngine.enter, if_pos happroved] at henter
    obtain ⟨-, -, rfl⟩ : _ ∧ _ ∧ a = a' := by simpa using henter
    refine ⟨h, iff_of_true (h.marks_flat hflat) fun hgoes => ?_⟩
    exact absurd (happroved.symm.trans hgoes.1) Bool.false_ne_true
  · have happroved' : (e₁.decision a env signal).approved = true := by simpa using happroved
    rw [EntryGoesOut, and_iff_right happroved']
    rcases enter_order h.plain happroved' candle result with
      ⟨-, -, message, hraises⟩ | ⟨order, created, e₂, a₂, hmarket, hcall⟩
    · cases hraises.symm.trans henter
    · obtain ⟨halone, hmarks⟩ := h.entry hflat (e₁.entryQuantity_nonneg a signal) hmarket
      cases created with
      | false =>
        obtain ⟨-, -, rfl⟩ : _ ∧ _ ∧ a₂ = a' := by simpa using hcall.symm.trans henter
        exact ⟨halone, hmarks⟩
      | true =>
        obtain ⟨orders, hengine⟩ := hmarket.engine
        have hwindow : Alone e { a₂ with riskWindow := a₂.riskWindow.traded order.status } :=
          ⟨halone.plain, halone.lone, halone.only, halone.lots⟩
        -- Stop, target and strategy are written on the record after the fill.
        obtain ⟨hafter, hbroker, hbook⟩ := hwindow.attributed candles orders signal
        obtain ⟨-, -, rfl⟩ : _ ∧ _ ∧
            e₂.attributed { a₂ with
              riskWindow := a₂.riskWindow.traded order.status } signal = a' := by
          simpa using hcall.symm.trans henter
        rw [hengine]
        exact ⟨hafter, by rw [hbroker, hbook]; exact hmarks⟩

/-- **A call that returns.** -/
theorem Alone.onCandle {analyze : Analysis} (h : Alone e a) {env : PaperEnv}
    {outcome : PaperTradeOutcome}
    (hcall : e.onCandle analyze a env candle = .ok (outcome, e', a')) :
    Alone e a' ∧ (a'.brokerMark = e.bookMark a' ↔ e.MarksMeet analyze a env candle) := by
  cases hheld : (e.position a).any PositionRecord.isOpen with
  | true =>
    -- An open position exits, or is marked at the close in both books.
    obtain ⟨p, hp, hopen⟩ := (Option.any_eq_true ..).mp hheld
    rw [marksMeet_open hp hopen]
    cases hhit : trigger p candle with
    | none =>
      obtain ⟨-, -, rfl⟩ : _ ∧ _ ∧ e.observed a candle = a' := by
        simpa using (onCandle_miss analyze env hp hopen hhit).symm.trans hcall
      exact ⟨h.observed candle, iff_of_true (h.miss hp hopen candle) (by simp)⟩
    | some hit =>
      obtain ⟨level, reason⟩ := hit
      obtain ⟨order, created, e₂, a₂, hmarket, hexit⟩ :=
        onCandle_exit analyze env h.plain hp hopen hhit
      obtain ⟨halone, hmarks⟩ := h.hit hp hopen hhit hmarket
      -- The risk window is none of the two marks.
      obtain ⟨-, -, rfl⟩ : _ ∧ _ ∧ { a₂ with riskWindow := _ } = a' := by
        simpa using hexit.symm.trans hcall
      refine ⟨⟨halone.plain, halone.lone, halone.only, halone.lots⟩, hmarks.trans ?_⟩
      simp
  | false =>
    -- A flat one enters on a signal, and else stays flat.
    rw [marksMeet_flat hheld]
    have hobserved : Alone e (e.observed a candle) := h.observed candle
    have hflat : (e.position (e.observed a candle)).any PositionRecord.isOpen = false :=
      any_observed candle hheld
    cases hsignal : fillableSignal analyze e.strategy (e.candles ++ [candle]) candle with
    | none =>
      obtain ⟨result, hquiet⟩ := onCandle_quiet env (flat_observed candle hheld) hsignal
      obtain ⟨-, -, rfl⟩ : _ ∧ _ ∧ e.observed a candle = a' := by
        simpa using hquiet.symm.trans hcall
      exact ⟨hobserved, iff_of_true (hobserved.marks_flat hflat) (by simp)⟩
    | some signal =>
      obtain ⟨-, result, henter⟩ := onCandle_signal env (flat_observed candle hheld) hsignal
      obtain ⟨hafter, hmarks⟩ := hobserved.enter hflat (henter.symm.trans hcall)
      refine ⟨hafter, hmarks.trans ?_⟩
      rw [record_observed hheld]
      simp

/-- **A call that raises.** Nothing moved, and no entry went out. -/
theorem Alone.abandoned {analyze : Analysis} (h : Alone e a) {env : PaperEnv} {message : String}
    (hraises : e.onCandle analyze a env candle = .error message) :
    Alone e (e.abandoned analyze a env candle).2 ∧
      (e.abandoned analyze a env candle).2.brokerMark =
        e.bookMark (e.abandoned analyze a env candle).2 ∧
      e.MarksMeet analyze a env candle := by
  -- A call that holds a position returns, so this one was flat.
  have hheld : (e.position a).any PositionRecord.isOpen = false := by
    by_contra hopen
    obtain ⟨p, hp, hopen⟩ := (Option.any_eq_true ..).mp (Bool.not_eq_false _ ▸ hopen)
    cases hhit : trigger p candle with
    | none => cases (onCandle_miss analyze env hp hopen hhit).symm.trans hraises
    | some hit =>
      obtain ⟨order, created, e₂, a₂, -, hexit⟩ := onCandle_exit analyze env h.plain hp hopen hhit
      cases hexit.symm.trans hraises
  rw [marksMeet_flat hheld]
  have hobserved : Alone e (e.observed a candle) := h.observed candle
  have hflat : (e.position (e.observed a candle)).any PositionRecord.isOpen = false :=
    any_observed candle hheld
  cases hsignal : fillableSignal analyze e.strategy (e.candles ++ [candle]) candle with
  -- Without a signal nothing is called that could raise.
  | none =>
    obtain ⟨result, hquiet⟩ := onCandle_quiet env (flat_observed candle hheld) hsignal
    cases hquiet.symm.trans hraises
  | some signal =>
    obtain ⟨-, result, henter⟩ := onCandle_signal env (flat_observed candle hheld) hsignal
    have hpinned : Alone e (e.pinned (e.observed a candle) signal.entry) :=
      hobserved.pinned signal.entry
    -- Up to the order that raised, only the quote and the order book were written.
    obtain ⟨nextId, orders, habandoned⟩ := abandoned_signal hsignal a env
    have hleft : Alone e (e.abandoned analyze a env candle).2 := by
      rw [habandoned]
      exact ⟨hpinned.plain.of_book ⟨_, _, _, _, _, rfl⟩, hpinned.lone, hpinned.only, hpinned.lots⟩
    have hnone : (e.position (e.abandoned analyze a env candle).2).any PositionRecord.isOpen =
        false := by
      rw [habandoned, position_broker]
      exact hflat
    refine ⟨hleft, hleft.marks_flat hnone, ?_⟩
    -- An entry that would have gone out is answered, so it did not raise.
    rintro signal' hsome ⟨happroved, -, -, hsize⟩
    obtain rfl : signal = signal' := Option.some.inj hsome
    rcases enter_order hobserved.plain happroved candle result with
      ⟨hzero, -⟩ | ⟨order, created, e₂, a₂, -, hok⟩
    · exact absurd hzero hsize.ne'
    · cases hok.symm.trans (henter.symm.trans hraises)

end PaperTradingEngine

namespace PaperDesk

variable {analyze : Unit → Analysis} {d : PaperDesk Unit}

/-! ## Layer D: Whole runs -/

/-- The broker's reported equity less its balance is the unrealized P&L of the book's open
positions. -/
def MarksAgree (d : PaperDesk Unit) : Prop :=
  (d.account ()).brokerMark = (d.engines ()).bookMark (d.account ())

instance (d : PaperDesk Unit) : Decidable d.MarksAgree :=
  inferInstanceAs (Decidable ((d.account ()).brokerMark = (d.engines ()).bookMark (d.account ())))

/-- The call leaves the marks to meet. -/
def MarksMeet (analyze : Unit → Analysis) (d : PaperDesk Unit) (call : DeskCall Unit) : Prop :=
  (d.engines ()).MarksMeet (analyze ()) (d.account ()) call.env call.candle

instance (analyze : Unit → Analysis) (d : PaperDesk Unit) (call : DeskCall Unit) :
    Decidable (d.MarksMeet analyze call) :=
  inferInstanceAs (Decidable (PaperTradingEngine.MarksMeet ..))

def Alone (d : PaperDesk Unit) : Prop := (d.engines ()).Alone (d.account ())

theorem alone_new (e : PaperTradingEngine) (startingBalance : ℚ) :
    (new (fun _ : Unit => e) startingBalance).Alone where
  plain := MockBroker.plain_new startingBalance 0
  lone _ _ := rfl
  only _ _ := rfl
  lots := sameLot_none

/-- **One call.** -/
theorem Alone.step (h : d.Alone) (call : DeskCall Unit) :
    (d.step analyze call).Alone ∧
      ((d.step analyze call).MarksAgree ↔ d.MarksMeet analyze call) := by
  set e := d.engines () with he
  set a := d.account () with ha
  have halone : PaperTradingEngine.Alone e a := h
  -- The desk behind the call, from the engine and the account it stores.
  have hstores : ∀ {e' a'}, d.step analyze call = d.store () e' a' →
      (∃ candles orders, e' = { e with
        candles := candles
        orderManager := orders }) →
      PaperTradingEngine.Alone e a' →
        (a'.brokerMark = e.bookMark a' ↔ e.MarksMeet (analyze ()) a call.env call.candle) →
      (d.step analyze call).Alone ∧
        ((d.step analyze call).MarksAgree ↔ d.MarksMeet analyze call) := by
    rintro _ a' hstep ⟨candles, orders, rfl⟩ hafter hmarks
    have hengine : (d.step analyze call).engines () = { e with
        candles := candles
        orderManager := orders } := by
      rw [hstep, engines_store]
    have haccount : (d.step analyze call).account () = a' := by
      rw [hstep, account_store]
    unfold Alone MarksAgree
    rw [hengine, haccount]
    exact ⟨⟨hafter.plain, hafter.lone, hafter.only, hafter.lots⟩, hmarks⟩
  -- Returned or raised, the desk stores what the call left.
  cases hcall : e.onCandle (analyze ()) a call.env call.candle with
  | ok returned =>
    obtain ⟨outcome, e', a'⟩ := returned
    have hstep : d.step analyze call = d.store () e' a' := by
      unfold PaperDesk.step PaperDesk.onCandle
      dsimp only
      rw [hcall]
    obtain ⟨orders, hengine⟩ := PaperTradingEngine.onCandle_engine hcall
    obtain ⟨hafter, hmarks⟩ := halone.onCandle hcall
    exact hstores hstep ⟨_, orders, hengine⟩ hafter hmarks
  | error message =>
    have hstep : d.step analyze call = d.store ()
        (e.abandoned (analyze ()) a call.env call.candle).1
        (e.abandoned (analyze ()) a call.env call.candle).2 := by
      unfold PaperDesk.step PaperDesk.onCandle
      dsimp only
      rw [hcall]
    obtain ⟨hafter, hagree, hmeet⟩ := halone.abandoned hcall
    exact hstores hstep ⟨_, PaperTradingEngine.abandoned_engine ..⟩ hafter
      (iff_of_true hagree hmeet)

/-- **The two marks.** Over any run of an engine alone on its account, the marks agree in
every state exactly if every call leaves them to meet. -/
theorem marks_agree_iff (analyze : Unit → Analysis) (e : PaperTradingEngine) (startingBalance : ℚ)
    (calls : List (DeskCall Unit)) :
    Throughout (step analyze) MarksAgree (new (fun _ => e) startingBalance) calls ↔
      Each (step analyze) (MarksMeet analyze) (new (fun _ => e) startingBalance) calls :=
  throughout_iff_each (fun _ call h _ _ => (h.step call).1) (fun _ call h _ => (h.step call).2)
    (alone_new e startingBalance) ((alone_new e startingBalance).marks_flat rfl)

/-- The position that is stopped out at 98, on a candle that closes at 99, leaves a mark of
-250 in its record. The next entry fills at the print, and the broker marks it at 0. -/
theorem reentry_keeps_old_mark :
    let stoppedOut : DeskCall Unit :=
      { engine := ()
        candle := { timestamp := 3, «open» := 100, high := 101, low := 97, close := 99 } }
    let calls := [candleTo 0 99, candleTo 1 99, candleTo 2 99, stoppedOut, candleTo 4 99]
    ¬ Throughout (step fun _ => everyCandle) MarksAgree buyer calls := by
  intro stoppedOut calls hagree
  have hlast : ¬ (run (step fun _ => everyCandle) buyer calls).MarksAgree := by decide +kernel
  exact hlast hagree.last

end PaperDesk

end SuperTrading
