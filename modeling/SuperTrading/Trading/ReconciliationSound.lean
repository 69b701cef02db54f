import SuperTrading.Trading.Reconciliation
import Mathlib.Data.List.Dedup

/-!
# What Reconciliation Misses, and What It Makes Up

`reconcile_positions` compares one row a symbol, the last that the broker lists; what the
rows before it hold is not seen. The worker hands `reconcile` the open positions only, so
the protective order of a flat position, which `reconcile` means to exempt, is reported.

- **Layer A**: the positions, symbol by symbol
- **Layer B**: symbols with several rows
- **Layer C**: protective orders in a pass
-/

namespace SuperTrading

open SuperTrading.Logic

/-! ## Layer A: Symbol by symbol -/

/-- The broker's rows of a symbol, in the order of its list. -/
def brokerRows (brokerPositions : List BrokerPosition) (symbol : Symbol) : List BrokerPosition :=
  brokerPositions.filter fun p => p.symbol = symbol

/-- What the broker holds of a symbol, over all its rows. -/
def brokerTotal (brokerPositions : List BrokerPosition) (symbol : Symbol) : ℚ :=
  ((brokerRows brokerPositions symbol).map BrokerPosition.quantity).sum

/-- The last row of a symbol, or 0 without one. -/
def lastQuantity (brokerPositions : List BrokerPosition) (symbol : Symbol) : ℚ :=
  (brokerRows brokerPositions symbol).getLast?.elim 0 BrokerPosition.quantity

/-- The rows of a symbol before the last one. -/
def earlierQuantity (brokerPositions : List BrokerPosition) (symbol : Symbol) : ℚ :=
  ((brokerRows brokerPositions symbol).dropLast.map BrokerPosition.quantity).sum

/-- The local quantity of a symbol, 0 when it is absent. -/
def localQuantity (localPositions : List PositionRecord) (symbol : Symbol) : ℚ :=
  ((localPositions.find? fun p => p.symbol = symbol).map PositionRecord.quantity).getD 0

/-- The last row of a symbol is that of the local position, or shows nothing where there is
no local position. -/
def LastRowAgrees (localPositions : List PositionRecord) (brokerPositions : List BrokerPosition)
    (symbol : Symbol) : Prop :=
  (∀ p ∈ localPositions, p.symbol = symbol → brokerRows brokerPositions symbol ≠ [] ∧
    |lastQuantity brokerPositions symbol - p.quantity| ≤ quantityTolerance) ∧
  ((∀ p ∈ localPositions, p.symbol ≠ symbol) → lastQuantity brokerPositions symbol = 0)

theorem brokerTotal_eq (brokerPositions : List BrokerPosition) (symbol : Symbol) :
    brokerTotal brokerPositions symbol =
      earlierQuantity brokerPositions symbol + lastQuantity brokerPositions symbol := by
  unfold brokerTotal earlierQuantity lastQuantity
  generalize brokerRows brokerPositions symbol = rows
  cases hlast : rows.getLast? with
  | none =>
    rw [List.getLast?_eq_none_iff.mp hlast]
    simp
  | some row =>
    obtain ⟨earlier, rfl⟩ := List.getLast?_eq_some_iff.mp hlast
    simp

/-- A symbol with one row at most has nothing before the last one. -/
theorem earlierQuantity_eq_zero {brokerPositions : List BrokerPosition} {symbol : Symbol}
    (h : (brokerRows brokerPositions symbol).length ≤ 1) :
    earlierQuantity brokerPositions symbol = 0 := by
  have hnil : (brokerRows brokerPositions symbol).dropLast = [] := by
    apply List.eq_nil_of_length_eq_zero
    rw [List.length_dropLast]
    omega
  rw [earlierQuantity, hnil]
  rfl

theorem localQuantity_of_mem {localPositions : List PositionRecord}
    (hnodup : (localPositions.map PositionRecord.symbol).Nodup) {p : PositionRecord}
    (hp : p ∈ localPositions) : localQuantity localPositions p.symbol = p.quantity := by
  induction localPositions with
  | nil => cases hp
  | cons q qs ih =>
    obtain ⟨hne, hrest⟩ := List.nodup_cons.mp hnodup
    unfold localQuantity
    rcases List.mem_cons.mp hp with rfl | hp
    · simp
    · have hother : q.symbol ≠ p.symbol := fun heq => hne (heq ▸ List.mem_map_of_mem hp)
      rw [List.find?_cons_of_neg (by simp [hother])]
      exact ih hrest hp

theorem localQuantity_of_absent {localPositions : List PositionRecord} {symbol : Symbol}
    (h : ∀ p ∈ localPositions, p.symbol ≠ symbol) : localQuantity localPositions symbol = 0 := by
  have hnone : (localPositions.find? fun p => p.symbol = symbol) = none := by
    rw [List.find?_eq_none]
    intro p hp heq
    exact h p hp (of_decide_eq_true heq)
  rw [localQuantity, hnone]
  rfl

/-- Where the last row agrees it is within the tolerance of the local quantity. -/
theorem LastRowAgrees.within {localPositions : List PositionRecord}
    {brokerPositions : List BrokerPosition} {symbol : Symbol}
    (hnodup : (localPositions.map PositionRecord.symbol).Nodup)
    (h : LastRowAgrees localPositions brokerPositions symbol) :
    |lastQuantity brokerPositions symbol - localQuantity localPositions symbol| ≤
      quantityTolerance := by
  by_cases hlocal : ∃ p ∈ localPositions, p.symbol = symbol
  · obtain ⟨p, hp, rfl⟩ := hlocal
    rw [localQuantity_of_mem hnodup hp]
    exact (h.1 p hp rfl).2
  · have habsent : ∀ p ∈ localPositions, p.symbol ≠ symbol := fun p hp heq => hlocal ⟨p, hp, heq⟩
    rw [localQuantity_of_absent habsent, h.2 habsent, sub_zero, abs_zero]
    decide +kernel

section Spec

variable {localPositions : List PositionRecord} {brokerPositions : List BrokerPosition}
  (hopen : ∀ p ∈ localPositions, p.isOpen = true)
  (hnodup : (localPositions.map PositionRecord.symbol).Nodup)
include hopen hnodup

/-- Nothing is reported of the positions exactly if the last row of every symbol agrees. -/
theorem reconcilePositions_eq_nil :
    reconcilePositions localPositions brokerPositions = [] ↔
      ∀ symbol, LastRowAgrees localPositions brokerPositions symbol := by
  have hfilter : localPositions.filter PositionRecord.isOpen = localPositions :=
    List.filter_eq_self.mpr hopen
  have hlocal : ∀ p ∈ localPositions,
      (Dict.index PositionRecord.symbol localPositions).get? p.symbol = some p :=
    fun p hp => Dict.get?_index_of_mem hnodup hp
  have hrow : ∀ symbol, (Dict.index BrokerPosition.symbol brokerPositions).get? symbol =
      (brokerRows brokerPositions symbol).getLast? :=
    fun symbol => Dict.get?_index _ _ _
  unfold reconcilePositions
  rw [hfilter, List.append_eq_nil_iff, List.filterMap_eq_nil_iff, List.map_eq_nil_iff,
    List.filter_eq_nil_iff]
  constructor
  · rintro ⟨hheld, huntracked⟩ symbol
    constructor
    · -- A local position has an entry of its own, which was not reported.
      rintro p hp rfl
      have hnone := hheld (p.symbol, p) ((Dict.mem_entries_iff _).mpr (hlocal p hp))
      dsimp only at hnone
      rw [hrow] at hnone
      unfold lastQuantity
      cases hlast : (brokerRows brokerPositions p.symbol).getLast? with
      | none => simp [hlast] at hnone
      | some row =>
        rw [hlast] at hnone
        refine ⟨fun hnil => ?_, ?_⟩
        · rw [hnil] at hlast
          cases hlast
        · by_contra hfar
          have hfar : quantityTolerance < |row.quantity - p.quantity| := not_le.mp hfar
          simp [hfar] at hnone
    · -- A symbol with no local position is reported if its last row holds anything.
      intro habsent
      unfold lastQuantity
      cases hlast : (brokerRows brokerPositions symbol).getLast? with
      | none => rfl
      | some row =>
        have hentry := huntracked (symbol, row) ((Dict.mem_entries_iff _).mpr
          ((hrow symbol).trans hlast))
        have hnolocal : (Dict.index PositionRecord.symbol localPositions).get? symbol = none := by
          rw [Dict.get?_index, List.getLast?_eq_none_iff, List.filter_eq_nil_iff]
          intro p hp heq
          exact habsent p hp (of_decide_eq_true heq)
        simpa [hnolocal] using hentry
  · intro hagrees
    constructor
    · rintro ⟨symbol, p⟩ he
      have hget := (Dict.mem_entries_iff _).mp he
      rw [Dict.get?_index] at hget
      obtain ⟨hp, hsymbol⟩ := List.mem_filter.mp (List.mem_of_getLast? hget)
      have hsymbol : p.symbol = symbol := of_decide_eq_true hsymbol
      obtain ⟨hrows, hwithin⟩ := (hagrees symbol).1 p hp hsymbol
      unfold lastQuantity at hwithin
      dsimp only
      rw [hrow]
      cases hlast : (brokerRows brokerPositions symbol).getLast? with
      | none => exact absurd (List.getLast?_eq_none_iff.mp hlast) hrows
      | some row =>
        rw [hlast] at hwithin
        exact if_neg (not_lt.mpr hwithin)
    · rintro ⟨symbol, row⟩ he
      have hget := (Dict.mem_entries_iff _).mp he
      rw [hrow] at hget
      have hzero := (hagrees symbol).2
      unfold lastQuantity at hzero
      rw [hget] at hzero
      rw [decide_eq_true_eq, not_and_not_right]
      intro hnone
      refine hzero fun p hp heq => ?_
      subst heq
      rw [hlocal p hp] at hnone
      cases hnone

end Spec

/-! ## Layer B: Symbols with several rows -/

/-- An empty report of these lists means that the broker's total of every symbol is the local
quantity. -/
def ReportSound (localPositions : List PositionRecord) (brokerPositions : List BrokerPosition) :
    Prop :=
  reconcilePositions localPositions brokerPositions = [] → ∀ symbol,
    |brokerTotal brokerPositions symbol - localQuantity localPositions symbol| ≤ quantityTolerance

/-- Rows that cancel out are not missed. -/
theorem reportSound_of_cancel {localPositions : List PositionRecord}
    {brokerPositions : List BrokerPosition} (hopen : ∀ p ∈ localPositions, p.isOpen = true)
    (hnodup : (localPositions.map PositionRecord.symbol).Nodup)
    (h : ∀ symbol, earlierQuantity brokerPositions symbol = 0) :
    ReportSound localPositions brokerPositions := by
  intro hempty symbol
  have hagrees := (reconcilePositions_eq_nil hopen hnodup).mp hempty symbol
  rw [brokerTotal_eq, h symbol, zero_add]
  exact hagrees.within hnodup

/-- Nothing is missed of a broker that lists no symbol twice. -/
theorem reportSound_of_one_row {localPositions : List PositionRecord}
    {brokerPositions : List BrokerPosition} (hopen : ∀ p ∈ localPositions, p.isOpen = true)
    (hnodup : (localPositions.map PositionRecord.symbol).Nodup)
    (hone : ∀ symbol, (brokerRows brokerPositions symbol).length ≤ 1) :
    ReportSound localPositions brokerPositions :=
  reportSound_of_cancel hopen hnodup fun symbol => earlierQuantity_eq_zero (hone symbol)

/-- A quantity near the last row that is not zero and that the earlier rows take out of reach. -/
theorem exists_missed {earlier tolerance : ℚ} (last : ℚ) (htolerance : 0 < tolerance)
    (hearlier : earlier ≠ 0) : ∃ quantity ≠ 0, |last - quantity| ≤ tolerance ∧
      tolerance < |earlier + last - quantity| := by
  wlog hpos : 0 < earlier generalizing earlier last
  · -- The other way round, both rows are turned over.
    have hneg : 0 < -earlier := neg_pos.mpr (lt_of_le_of_ne (not_lt.mp hpos) hearlier)
    obtain ⟨quantity, hne, hnear, hfar⟩ := this (-last) hneg.ne' hneg
    refine ⟨-quantity, neg_ne_zero.mpr hne, ?_, ?_⟩
    · rw [← abs_neg]
      convert hnear using 2
      ring
    · rw [← abs_neg]
      convert hfar using 2
      ring
  · by_cases hlast : last = tolerance
    · -- The whole tolerance would leave no position, so the quantity is a little nearer.
      have hsmall : 0 < min earlier tolerance := lt_min hpos htolerance
      have hle := min_le_left earlier tolerance
      have hle' := min_le_right earlier tolerance
      refine ⟨min earlier tolerance / 2, by positivity, ?_, ?_⟩
      · rw [hlast, abs_of_nonneg (by linarith)]
        linarith
      · rw [hlast, abs_of_pos (by linarith)]
        linarith
    · refine ⟨last - tolerance, sub_ne_zero.mpr hlast, ?_, ?_⟩
      · rw [sub_sub_cancel, abs_of_pos htolerance]
      · rw [abs_of_pos (by linarith)]
        linarith

/-- The local positions that show of each symbol what a function says. -/
def heldAs (quantity : Symbol → ℚ) (brokerPositions : List BrokerPosition) : List PositionRecord :=
  ((brokerPositions.map BrokerPosition.symbol).dedup.filter fun symbol => quantity symbol ≠ 0).map
    fun symbol =>
      { accountId := "", symbol := symbol, quantity := quantity symbol, averagePrice := 0 }

theorem mem_heldAs {quantity : Symbol → ℚ} {brokerPositions : List BrokerPosition}
    {p : PositionRecord} (h : p ∈ heldAs quantity brokerPositions) :
    p.quantity = quantity p.symbol ∧ p.quantity ≠ 0 ∧ brokerRows brokerPositions p.symbol ≠ [] := by
  obtain ⟨symbol, hsymbol, rfl⟩ := List.mem_map.mp h
  obtain ⟨hlisted, hne⟩ := List.mem_filter.mp hsymbol
  obtain ⟨row, hrow, rfl⟩ := List.mem_map.mp (List.mem_dedup.mp hlisted)
  refine ⟨rfl, of_decide_eq_true hne, List.ne_nil_of_mem (a := row) ?_⟩
  exact List.mem_filter.mpr ⟨hrow, decide_eq_true rfl⟩

theorem exists_mem_heldAs {quantity : Symbol → ℚ} {brokerPositions : List BrokerPosition}
    {symbol : Symbol} (hrows : brokerRows brokerPositions symbol ≠ []) (hne : quantity symbol ≠ 0) :
    ∃ p ∈ heldAs quantity brokerPositions, p.symbol = symbol := by
  obtain ⟨row, hrow⟩ := List.exists_mem_of_ne_nil _ hrows
  obtain ⟨hlisted, hsymbol⟩ := List.mem_filter.mp hrow
  refine ⟨_, List.mem_map_of_mem (List.mem_filter.mpr ⟨List.mem_dedup.mpr ?_, decide_eq_true hne⟩),
    rfl⟩
  exact List.mem_map.mpr ⟨row, hlisted, of_decide_eq_true hsymbol⟩

theorem nodup_heldAs (quantity : Symbol → ℚ) (brokerPositions : List BrokerPosition) :
    ((heldAs quantity brokerPositions).map PositionRecord.symbol).Nodup := by
  have hsymbols : (heldAs quantity brokerPositions).map PositionRecord.symbol =
      (brokerPositions.map BrokerPosition.symbol).dedup.filter fun symbol =>
        quantity symbol ≠ 0 := by
    rw [heldAs, List.map_map]
    exact List.map_id _
  rw [hsymbols]
  exact (List.nodup_dedup _).filter _

/-- Earlier rows that do not cancel out are missed by some book: one that shows the last rows, but
of their symbol a quantity at the edge of the tolerance. -/
theorem exists_not_reportSound {brokerPositions : List BrokerPosition} {symbol : Symbol}
    (h : earlierQuantity brokerPositions symbol ≠ 0) :
    ∃ localPositions : List PositionRecord, (∀ p ∈ localPositions, p.isOpen = true) ∧
      (localPositions.map PositionRecord.symbol).Nodup ∧
      ¬ ReportSound localPositions brokerPositions := by
  have htolerance : 0 < quantityTolerance := by decide +kernel
  obtain ⟨missed, hne, hnear, hfar⟩ :=
    exists_missed (lastQuantity brokerPositions symbol) htolerance h
  have hrows : brokerRows brokerPositions symbol ≠ [] := fun hnil => h (by
    rw [earlierQuantity, hnil]
    rfl)
  let quantity := Function.update (lastQuantity brokerPositions) symbol missed
  have hown : quantity symbol = missed := Function.update_self _ _ _
  have hother : ∀ symbol', symbol' ≠ symbol →
      quantity symbol' = lastQuantity brokerPositions symbol' := fun symbol' hne =>
    Function.update_of_ne hne _ _
  have hopen : ∀ p ∈ heldAs quantity brokerPositions, p.isOpen = true := fun p hp =>
    decide_eq_true (mem_heldAs hp).2.1
  have hnodup := nodup_heldAs quantity brokerPositions
  refine ⟨heldAs quantity brokerPositions, hopen, hnodup, fun hsound => ?_⟩
  -- The last rows agree with this book, so nothing is reported.
  have hempty : reconcilePositions (heldAs quantity brokerPositions) brokerPositions = [] := by
    rw [reconcilePositions_eq_nil hopen hnodup]
    intro symbol'
    constructor
    · rintro p hp rfl
      obtain ⟨hquantity, -, hlisted⟩ := mem_heldAs hp
      refine ⟨hlisted, ?_⟩
      by_cases heq : p.symbol = symbol
      · rw [hquantity, heq, hown]
        exact hnear
      · rw [hquantity, hother _ heq, sub_self, abs_zero]
        exact htolerance.le
    · -- A symbol without a position has no row, or a last row of nothing.
      intro habsent
      by_contra hlast
      have hlisted : brokerRows brokerPositions symbol' ≠ [] := fun hnil => hlast (by
        rw [lastQuantity, hnil]
        rfl)
      have hquantity : quantity symbol' ≠ 0 := by
        by_cases heq : symbol' = symbol
        · rw [heq, hown]
          exact hne
        · rw [hother _ heq]
          exact hlast
      obtain ⟨p, hp, hsymbol⟩ := exists_mem_heldAs hlisted hquantity
      exact habsent p hp hsymbol
  -- The symbol has a row, and the total is out of reach of what is held.
  obtain ⟨p, hp, hsymbol⟩ := exists_mem_heldAs hrows (hown ▸ hne)
  have hlocal : localQuantity (heldAs quantity brokerPositions) symbol = missed := by
    rw [← hsymbol, localQuantity_of_mem hnodup hp, (mem_heldAs hp).1, hsymbol, hown]
  have hwithin := hsound hempty symbol
  rw [brokerTotal_eq, hlocal] at hwithin
  exact absurd hwithin (not_le.mpr hfar)

/-- **Soundness.** Of what the broker lists, every empty report of every book means that the totals
are the local quantities, exactly if the rows of each symbol before its last one cancel out. -/
theorem reconcilePositions_sound_iff (brokerPositions : List BrokerPosition) :
    (∀ localPositions : List PositionRecord, (∀ p ∈ localPositions, p.isOpen = true) →
      (localPositions.map PositionRecord.symbol).Nodup →
        ReportSound localPositions brokerPositions) ↔
    ∀ symbol, earlierQuantity brokerPositions symbol = 0 := by
  constructor
  · intro hall symbol
    by_contra hne
    obtain ⟨localPositions, hopen, hnodup, hmissed⟩ := exists_not_reportSound hne
    exact hmissed (hall localPositions hopen hnodup)
  · intro hcancel localPositions hopen hnodup
    exact reportSound_of_cancel hopen hnodup hcancel

/-- Ten units held, which the broker lists once for each of two products. -/
def heldOnce : List PositionRecord :=
  [{ accountId := "user", symbol := "ACME", quantity := 10, averagePrice := 100 }]

def listedTwice : List BrokerPosition :=
  [{ symbol := "ACME", quantity := 10, averagePrice := 100 },
    { symbol := "ACME", quantity := 10, averagePrice := 100 }]

/-- The report is empty, and the broker holds twice the local quantity. -/
theorem reconcilePositions_misses_row :
    ¬ (reconcilePositions heldOnce listedTwice = [] → ∀ symbol,
      |brokerTotal listedTwice symbol - localQuantity heldOnce symbol| ≤ quantityTolerance) := by
  intro h
  have hmissed : ¬ |brokerTotal listedTwice "ACME" - localQuantity heldOnce "ACME"| ≤
      quantityTolerance := by
    decide +kernel
  exact hmissed (h (by decide +kernel) "ACME")

/-! ## Layer C: Protective orders in a pass -/

/-- The protective order that a position of the account holds is reported as unknown. -/
def ReportsProtective (accountId : AccountId) (positionManager : PositionManager)
    (report : ReconciliationReport) : Prop :=
  ∃ symbol p brokerOrder, positionManager.get accountId symbol = some p ∧
    p.protectiveOrderId = some brokerOrder.brokerOrderId ∧
    .unknownLocally brokerOrder ∈ report.orderMismatches

/-- The id is not blank, and an order or an open position of the account goes by it. -/
def IsExempt (accountId : AccountId) (orderManager : OrderManager)
    (positionManager : PositionManager) (id : BrokerOrderId) : Prop :=
  id.isBlank = false ∧
    ((∃ order ∈ orderManager.listAll (some accountId), order.brokerOrderId = some id) ∨
      ∃ p ∈ positionManager.openPositions accountId, p.protectiveOrderId = some id)

theorem mem_protectiveOrderIds {positions : List PositionRecord} {id : BrokerOrderId} :
    id ∈ protectiveOrderIds positions ↔
      id.isBlank = false ∧ ∃ p ∈ positions, p.protectiveOrderId = some id := by
  simp [protectiveOrderIds, and_comm]

/-- **Protective orders.** A pass reports no order as unknown that a position of the account
holds as its protective order, exactly if each one that the broker lists as live or filled
is exempt: an order or an open position goes by its id. -/
theorem protective_never_unknown_iff {β : Type} [Broker β] (accountId : AccountId) (broker : β)
    (orderManager : OrderManager) (positionManager : PositionManager) :
    ¬ ReportsProtective accountId positionManager
      (reconciliationPass accountId broker orderManager positionManager).1 ↔
    ∀ brokerOrders brokerPositions, Broker.getOrders broker = .ok brokerOrders →
      Broker.getPositions broker = .ok brokerPositions →
        ∀ symbol p, positionManager.get accountId symbol = some p →
          ∀ brokerOrder ∈ brokerOrders, p.protectiveOrderId = some brokerOrder.brokerOrderId →
            brokerOrder.status.isLiveOrFilled = true →
              IsExempt accountId orderManager positionManager brokerOrder.brokerOrderId := by
  unfold ReportsProtective reconciliationPass
  cases horders : Broker.getOrders broker with
  | error problem => simp
  | ok brokerOrders =>
    cases hpositions : Broker.getPositions broker with
    | error problem => simp
    | ok brokerPositions =>
      dsimp only
      -- The ids that the pass collects are those of the exempt orders.
      have hexempt : ∀ id, IsExempt accountId orderManager positionManager id ↔
          id ∈ localBrokerIds (orderManager.listAll (some accountId)) ∨
            id ∈ protectiveOrderIds (positionManager.openPositions accountId) := by
        intro id
        rw [mem_localBrokerIds, mem_protectiveOrderIds, IsExempt, and_or_left]
      constructor
      · intro hnone brokerOrders' brokerPositions' horders' _ symbol p hp brokerOrder hmem hid hlive
        cases horders'
        rw [hexempt]
        by_contra hunknown
        rw [not_or] at hunknown
        exact hnone ⟨symbol, p, brokerOrder, hp, hid, unknownLocally_mem.mpr
          ⟨hmem, hlive, hunknown.1, hunknown.2⟩⟩
      · rintro hall ⟨symbol, p, brokerOrder, hp, hid, hmem⟩
        obtain ⟨hmem, hlive, hlocal, hprotective⟩ := unknownLocally_mem.mp hmem
        have hknown :=
          hall brokerOrders brokerPositions rfl rfl symbol p hp brokerOrder hmem hid hlive
        exact ((hexempt _).mp hknown).elim hlocal hprotective

/-- A venue that takes orders and answers no cancel: what rests there goes on resting. -/
structure DeafVenue where
  book : List BrokerOrder := []
  deriving DecidableEq

namespace DeafVenue

def placeOrder (v : DeafVenue) (request : OrderRequest) : OrderResult × DeafVenue :=
  let id := BrokerOrderId.uuid v.book.length
  ({ brokerOrderId := id, status := .acknowledged },
    { book := v.book ++
        [{ brokerOrderId := id
           symbol := request.symbol
           direction := request.direction
           orderType := request.orderType
           quantity := request.quantity
           price := request.price
           status := .acknowledged }] })

instance : Broker DeafVenue where
  isMock := false
  placeOrder := placeOrder
  cancelOrder v _ := (.error (.other "timed out"), v)
  getOrders v := .ok v.book
  getPositions _ := .ok []
  getAccount _ := { balance := 0, equity := 0 }
  getQuote _ symbol := .error s!"no quote for {symbol}"
  isHealthy _ := true
  setQuote v _ _ _ := v
  restoreRealizedPnl v _ := v
  reconnect v := v

end DeafVenue

/-- The stop of a long is placed, the long is closed, and the stop is not cancelled: the venue
and the record, flat and with the id of the stop. -/
def afterFailedCancel : DeafVenue × PositionRecord :=
  let long : PositionRecord :=
    { accountId := "user", symbol := "ACME", quantity := 100, averagePrice := 100, stop := some 95 }
  let (_, venue, guarded) := ensureProtectiveStop ({} : DeafVenue) long 0
  let (_, venue, closed) := ensureProtectiveStop venue { guarded with quantity := 0 } 1
  (venue, closed)

/-- The pass reports the stop as unknown, though the flat record holds its id. -/
theorem protective_reported_unknown :
    ReportsProtective "user" (PositionManager.put {} afterFailedCancel.2)
      (reconciliationPass "user" afterFailedCancel.1 {}
        (PositionManager.put {} afterFailedCancel.2)).1 := by
  refine ⟨"ACME", afterFailedCancel.2,
    { brokerOrderId := .uuid 0
      symbol := "ACME"
      direction := .short
      orderType := .slM
      quantity := 100
      price := none
      status := .acknowledged }, ?_, ?_, ?_⟩
  · decide +kernel
  · decide +kernel
  · decide +kernel

end SuperTrading
