import SuperTrading.Trading.BrokerMirror
import SuperTrading.Trading.Persistence

/-!
# Reconciling Restored Orders

An order row has no column for the filled quantity. `reconcile_orders` reads three things
of a local order: its status and its broker id, which the row keeps, and its fill, which a
restored order shows as 0. A restored book is therefore in order with a broker that the
original was in order with, unless an open order is filled in part.

- **Layer A**: the books the order manager and the execution engine produce
- **Layer B**: what the rows hold after the orders are persisted
- **Layer C**: the restored book, and its reconciliation
-/

namespace SuperTrading

open SuperTrading.Logic

/-! ## Layer A: Produced books -/

namespace OrderManager

/-- Every order is indexed under its key. Two orders then have two keys. -/
def Indexed (m : OrderManager) : Prop :=
  ∀ i order, m.get i = some order → m.byIdempotencyKey.get? order.idempotencyKey = some i

theorem Indexed.id_eq {m : OrderManager} (h : m.Indexed) {i j : OrderId} {order other : OrderRecord}
    (hi : m.get i = some order) (hj : m.get j = some other)
    (hkey : order.idempotencyKey = other.idempotencyKey) : i = j := by
  have hindexed := h i order hi
  rw [hkey, h j other hj] at hindexed
  exact (Option.some.inj hindexed).symm

theorem Indexed.update {m : OrderManager} (h : m.Indexed) (i : OrderId)
    (f : OrderRecord → OrderRecord) (hf : ∀ order, (f order).id = order.id)
    (hkey : ∀ order, (f order).idempotencyKey = order.idempotencyKey) :
    (m.update i f hf).Indexed := by
  intro j order hget
  rw [get_update] at hget
  show m.byIdempotencyKey.get? order.idempotencyKey = some j
  split at hget
  · obtain ⟨old, hold, rfl⟩ := Option.map_eq_some_iff.mp hget
    rw [hkey]
    exact h j old hold
  · exact h j order hget

theorem Indexed.insert {m : OrderManager} (h : m.Indexed) {order : OrderRecord}
    (hnew : ∀ i other, m.get i = some other → other.idempotencyKey = order.idempotencyKey →
      i = order.id) : (m.insert order).Indexed := by
  intro j other hget
  show (m.byIdempotencyKey.set order.idempotencyKey order.id).get? other.idempotencyKey = some j
  rw [get_insert] at hget
  rw [Dict.get?_set]
  split at hget
  · rename_i hid
    cases hget
    rw [if_pos rfl, hid]
  · rename_i hid
    -- An older order of the same key would be the one stored anew.
    have hkey : ¬ order.idempotencyKey = other.idempotencyKey := fun hkey =>
      hid (hnew j other hget hkey.symm).symm
    rw [if_neg hkey]
    exact h j other hget

/-- The books that `create_order`, `transition` and `ExecutionEngine.submit` produce, from a
fresh manager or from one restored of orders with ids and keys of their own. -/
inductive Produced : OrderManager → Prop
  | restored (nextId : OrderId) (orders : List OrderRecord)
      (hid : ∀ order ∈ orders, ∀ other ∈ orders,
        order.idempotencyKey = other.idempotencyKey → order.id = other.id) :
      Produced (restore { nextId := nextId } orders)
  | created {m : OrderManager} (now : Instant) (key : String) (accountId : AccountId)
      (symbol : Symbol) (direction : Direction) (orderType : OrderType) (quantity : ℚ)
      (price : Option ℚ) : Produced m →
      Produced (m.createOrder now key accountId symbol direction orderType quantity price).2.2
  | moved {m m' : OrderManager} {now : Instant} {i : OrderId} {toStatus : OrderStatus}
      {detail : String} : m.transition now i toStatus detail = .ok m' → Produced m → Produced m'
  | submitted {β : Type} [Broker β] {e e' : ExecutionEngine β} {now : Instant} {i : OrderId} :
      e.submit now i = .ok e' → Produced e.orderManager → Produced e'.orderManager

theorem Indexed.restore {orders : List OrderRecord} {m : OrderManager} (h : m.Indexed)
    (hid : ∀ order ∈ orders, ∀ other ∈ orders,
      order.idempotencyKey = other.idempotencyKey → order.id = other.id)
    (hold : ∀ order ∈ orders, ∀ i other, m.get i = some other →
      other.idempotencyKey = order.idempotencyKey → i = order.id) :
    (m.restore orders).Indexed := by
  induction orders generalizing m with
  | nil => exact h
  | cons first orders ih =>
    apply ih (h.insert (hold first List.mem_cons_self))
    · exact fun order ho other hother =>
        hid order (List.mem_cons_of_mem _ ho) other (List.mem_cons_of_mem _ hother)
    · intro order ho i other hget hkey
      -- Either the order just restored, or one from before.
      rw [get_insert] at hget
      split at hget
      · rename_i hfirst
        cases hget
        rw [← hfirst]
        exact hid first List.mem_cons_self order (List.mem_cons_of_mem _ ho) hkey
      · exact hold order (List.mem_cons_of_mem _ ho) i other hget hkey

theorem Indexed.createOrder {m : OrderManager} (h : m.Indexed) (now : Instant) (key : String)
    (accountId : AccountId) (symbol : Symbol) (direction : Direction) (orderType : OrderType)
    (quantity : ℚ) (price : Option ℚ) :
    (m.createOrder now key accountId symbol direction orderType quantity price).2.2.Indexed := by
  unfold OrderManager.createOrder
  cases hlookup : m.lookup key with
  | some order => exact h
  | none =>
    apply h.insert
    intro i other hget hkey
    -- An order of this key would have been found.
    have hseen : (m.lookup key).isSome := by
      rw [lookup_isSome, show key = other.idempotencyKey from hkey.symm, h i other hget]
      rfl
    rw [hlookup] at hseen
    cases hseen

theorem Indexed.transition {m m' : OrderManager} (h : m.Indexed) {now : Instant} {i : OrderId}
    {toStatus : OrderStatus} {detail : String}
    (hmoved : m.transition now i toStatus detail = .ok m') :
    m'.Indexed := by
  unfold OrderManager.transition at hmoved
  cases hget : m.get i with
  | none =>
    rw [hget] at hmoved
    cases hmoved
  | some order =>
    rw [hget] at hmoved
    dsimp only at hmoved
    split at hmoved
    · cases hmoved
      exact h.update _ _ _ fun _ => rfl
    · cases hmoved

theorem Indexed.submit {β : Type} [Broker β] {e e' : ExecutionEngine β}
    (h : e.orderManager.Indexed) {now : Instant} {i : OrderId} (hsent : e.submit now i = .ok e') :
    e'.orderManager.Indexed := by
  cases hget : e.orderManager.get i with
  | none => simp [ExecutionEngine.submit, hget] at hsent
  | some order =>
    by_cases hstatus : order.status = .riskApproved
    · rw [ExecutionEngine.submit_eq e now hget hstatus] at hsent
      cases hsent
      exact h.update _ _ (fun _ => OrderRecord.answered_id ..) fun _ =>
        OrderRecord.answered_idempotencyKey ..
    · simp [ExecutionEngine.submit, hget, hstatus] at hsent

/-- Every produced book has every order under its key. -/
theorem Produced.indexed {m : OrderManager} (h : m.Produced) : m.Indexed := by
  induction h with
  | restored nextId orders hid =>
    apply Indexed.restore _ hid
    · intro order _ i other hget
      simp [get] at hget
    · intro i order hget
      simp [get] at hget
  | created now key accountId symbol direction orderType quantity price _ ih =>
    exact ih.createOrder now key accountId symbol direction orderType quantity price
  | moved hmoved _ ih => exact ih.transition hmoved
  | submitted hsent _ ih => exact ih.submit hsent

theorem mem_listAll {m : OrderManager} {accountId : AccountId} {order : OrderRecord} :
    order ∈ m.listAll (some accountId) ↔
      m.get order.id = some order ∧ order.accountId = accountId := by
  unfold listAll
  simp only [List.mem_filter, decide_eq_true_eq, Dict.mem_values_iff]
  constructor
  · rintro ⟨⟨i, hget⟩, haccount⟩
    refine ⟨?_, haccount⟩
    rwa [m.stored i order hget]
  · rintro ⟨hget, haccount⟩
    exact ⟨⟨order.id, hget⟩, haccount⟩

end OrderManager

/-! ## Layer B: The rows of persisted orders -/

namespace Db

/-- `persist_order` for one order after another, each at its own time. -/
def persistOrders (db : Db) (mode : ExecutionMode) (writes : List (OrderRecord × Instant)) : Db :=
  writes.foldl (fun db write => db.persistOrder write.2 write.1 mode) db

/-- A row after a write: one of another key as it was, the one of this key rewritten, or a
new one. -/
theorem mem_persistOrder {db : Db} {now : Instant} {order : OrderRecord} {mode : ExecutionMode}
    {row : OrderRow} (h : row ∈ (db.persistOrder now order mode).orders) :
    (row ∈ db.orders ∧ row.idempotencyKey ≠ order.idempotencyKey) ∨
      (∃ old ∈ db.orders, old.idempotencyKey = order.idempotencyKey ∧
        row = updatedOrderRow old order) ∨
      row = newOrderRow now order mode ∧ order.idempotencyKey ∉ db.keys := by
  unfold persistOrder at h
  split at h
  · obtain ⟨old, hold, rfl⟩ := List.mem_map.mp h
    by_cases hkey : old.idempotencyKey = order.idempotencyKey
    · exact .inr (.inl ⟨old, hold, hkey, by rw [if_pos hkey]⟩)
    · rw [if_neg hkey]
      exact .inl ⟨hold, hkey⟩
  · rename_i hnone
    -- The row is appended where no row has the key.
    have hnew : order.idempotencyKey ∉ db.keys := by
      intro hmem
      obtain ⟨old, hold, hkey⟩ := List.mem_map.mp hmem
      exact hnone (List.any_eq_true.mpr ⟨old, hold, decide_eq_true hkey⟩)
    rcases List.mem_append.mp h with hmem | hmem
    · exact .inl ⟨hmem, fun hkey => hnew (hkey ▸ List.mem_map_of_mem hmem)⟩
    · exact .inr (.inr ⟨List.mem_singleton.mp hmem, hnew⟩)

/-- A write gives no row an id or a key but those of a row that was there, or of the order. -/
theorem identity_persistOrder {db : Db} {now : Instant} {order : OrderRecord}
    {mode : ExecutionMode} {row : OrderRow} (h : row ∈ (db.persistOrder now order mode).orders) :
    (∃ old ∈ db.orders, old.id = row.id ∧ old.idempotencyKey = row.idempotencyKey) ∨
      row.id = order.id ∧ row.idempotencyKey = order.idempotencyKey := by
  rcases mem_persistOrder h with ⟨hold, -⟩ | ⟨old, hold, -, rfl⟩ | ⟨rfl, -⟩
  · exact .inl ⟨row, hold, rfl, rfl⟩
  · exact .inl ⟨old, hold, rfl, rfl⟩
  · exact .inr ⟨rfl, rfl⟩

/-- What ties a table to the orders in memory: a row in the window is that of an order, the
row of an order is in the window, and no id stands for two keys. -/
structure Covers (db : Db) (orders : List OrderRecord) (mode : ExecutionMode) (since : Instant) :
    Prop where
  inMemory : ∀ row ∈ db.orders, row.executionMode = mode → since ≤ row.createdAt →
    ∃ order ∈ orders, row.idempotencyKey = order.idempotencyKey
  inWindow : ∀ row ∈ db.orders, ∀ order ∈ orders, row.idempotencyKey = order.idempotencyKey →
    row.executionMode = mode ∧ since ≤ row.createdAt
  rowIds : ∀ row ∈ db.orders, ∀ other ∈ db.orders, row.id = other.id →
    row.idempotencyKey = other.idempotencyKey
  orderIds : ∀ row ∈ db.orders, ∀ order ∈ orders, row.id = order.id →
    row.idempotencyKey = order.idempotencyKey

/-- The order has a row, and its rows show its status and its broker id. -/
structure Mirrored (db : Db) (order : OrderRecord) : Prop where
  stored : ∃ row ∈ db.orders, row.idempotencyKey = order.idempotencyKey
  shown : ∀ row ∈ db.orders, row.idempotencyKey = order.idempotencyKey →
    row.status = order.status ∧ row.brokerOrderId = order.brokerOrderId

theorem mem_keys {db : Db} {key : String} :
    key ∈ db.keys ↔ ∃ row ∈ db.orders, row.idempotencyKey = key :=
  List.mem_map

theorem mirrored_persistOrder (db : Db) (now : Instant) (order : OrderRecord)
    (mode : ExecutionMode) : (db.persistOrder now order mode).Mirrored order where
  stored := mem_keys.mp (mem_keys_persistOrder.mpr (.inl rfl))
  shown row hrow hkey := by
    rcases mem_persistOrder hrow with ⟨-, hother⟩ | ⟨old, -, -, rfl⟩ | ⟨rfl, -⟩
    · exact absurd hkey hother
    · exact ⟨rfl, rfl⟩
    · exact ⟨rfl, rfl⟩

theorem Mirrored.persistOrder {db : Db} {order : OrderRecord} (h : db.Mirrored order)
    (now : Instant) {other : OrderRecord}
    (hkeys : other.idempotencyKey = order.idempotencyKey → other = order) (mode : ExecutionMode) :
    (db.persistOrder now other mode).Mirrored order := by
  by_cases hkey : other.idempotencyKey = order.idempotencyKey
  · rw [hkeys hkey]
    exact mirrored_persistOrder ..
  refine ⟨mem_keys.mp (mem_keys_persistOrder.mpr (.inr (mem_keys.mpr h.stored))), ?_⟩
  intro row hrow hrowkey
  rcases mem_persistOrder hrow with ⟨hold, -⟩ | ⟨old, -, hold, rfl⟩ | ⟨rfl, -⟩
  · exact h.shown row hold hrowkey
  · exact absurd (hold.symm.trans hrowkey) hkey
  · exact absurd hrowkey hkey

theorem Covers.persistOrder {db : Db} {orders : List OrderRecord} {mode : ExecutionMode}
    {since now : Instant} (h : db.Covers orders mode since)
    (hids : ∀ order ∈ orders, ∀ other ∈ orders, order.id = other.id → order = other)
    {order : OrderRecord} (horder : order ∈ orders) (hnow : since ≤ now) :
    (db.persistOrder now order mode).Covers orders mode since where
  inMemory row hrow hmode hcreated := by
    rcases mem_persistOrder hrow with ⟨hold, -⟩ | ⟨old, -, hkey, rfl⟩ | ⟨rfl, -⟩
    · exact h.inMemory row hold hmode hcreated
    · exact ⟨order, horder, hkey⟩
    · exact ⟨order, horder, rfl⟩
  inWindow row hrow other hother hkey := by
    rcases mem_persistOrder hrow with ⟨hold, -⟩ | ⟨old, hold, hold', rfl⟩ | ⟨rfl, -⟩
    · exact h.inWindow row hold other hother hkey
    · exact h.inWindow old hold other hother hkey
    · exact ⟨rfl, hnow⟩
  rowIds row hrow row' hrow' hid := by
    -- A row goes by the id and the key of a row that was there, or of the order.
    rcases identity_persistOrder hrow with ⟨old, hold, hi, hk⟩ | ⟨hi, hk⟩ <;>
      rcases identity_persistOrder hrow' with ⟨old', hold', hi', hk'⟩ | ⟨hi', hk'⟩
    · rw [← hk, ← hk']
      exact h.rowIds old hold old' hold' (by rw [hi, hi', hid])
    · rw [← hk, hk']
      exact h.orderIds old hold order horder (by rw [hi, hid, hi'])
    · rw [hk, ← hk']
      exact (h.orderIds old' hold' order horder (by rw [hi', ← hid, hi])).symm
    · rw [hk, hk']
  orderIds row hrow other hother hid := by
    rcases mem_persistOrder hrow with ⟨hold, -⟩ | ⟨old, hold, -, rfl⟩ | ⟨rfl, -⟩
    · exact h.orderIds row hold other hother hid
    · exact h.orderIds old hold other hother hid
    · rw [← hids order horder other hother hid]
      rfl

/-- Once every order is persisted, in any order and any number of times, the table still
covers the orders, and mirrors each. -/
theorem Covers.persistOrders {orders : List OrderRecord} {mode : ExecutionMode} {since : Instant}
    (hids : ∀ order ∈ orders, ∀ other ∈ orders, order.id = other.id → order = other)
    (hkeys : ∀ order ∈ orders, ∀ other ∈ orders,
      order.idempotencyKey = other.idempotencyKey → order = other)
    {writes : List (OrderRecord × Instant)}
    (hwrites : ∀ write ∈ writes, write.1 ∈ orders ∧ since ≤ write.2) {db : Db}
    (h : db.Covers orders mode since) :
    (db.persistOrders mode writes).Covers orders mode since ∧
      ∀ order ∈ orders, db.Mirrored order ∨ order ∈ writes.map Prod.fst →
        (db.persistOrders mode writes).Mirrored order := by
  induction writes generalizing db with
  | nil =>
    refine ⟨h, fun order _ hmirrored => ?_⟩
    rcases hmirrored with hmirrored | hwritten
    · exact hmirrored
    · cases hwritten
  | cons write writes ih =>
    -- The first write keeps the cover, and the rest is by induction.
    obtain ⟨hmem, hnow⟩ := hwrites write List.mem_cons_self
    obtain ⟨hcovers, hmirrors⟩ := ih (fun w hw => hwrites w (List.mem_cons_of_mem _ hw))
      (h.persistOrder hids hmem hnow)
    refine ⟨hcovers, fun order horder hmirrored => hmirrors order horder ?_⟩
    -- An order is mirrored before, by the first write, or by a later one.
    rcases hmirrored with hmirrored | hwritten
    · exact .inl (hmirrored.persistOrder _ (hkeys write.1 hmem order horder) _)
    · rcases List.mem_cons.mp hwritten with rfl | hlater
      · exact .inl (mirrored_persistOrder ..)
      · exact .inr hlater

end Db

/-! ## Layer C: The restored book -/

/-- A restored order goes by what a stored one shows: its status and its broker id. Its fill
is not stored. -/
structure OrderRecord.RestoredFrom (restored order : OrderRecord) : Prop where
  status : restored.status = order.status
  brokerOrderId : restored.brokerOrderId = order.brokerOrderId
  unfilled : restored.filledQuantity = 0

/-- `OrderManager.restore` of what `load_recent_orders` finds, into a fresh manager. -/
def Db.restoredOrders (db : Db) (accountId : AccountId) (mode : ExecutionMode) (since : Instant)
    (nextId : OrderId) : OrderManager :=
  OrderManager.restore { nextId := nextId } (db.loadRecentOrders accountId mode since)

namespace Db

variable {db : Db} {orders : List OrderRecord} {mode : ExecutionMode} {since : Instant}

theorem mem_loadRecentOrders {accountId : AccountId} {restored : OrderRecord} :
    restored ∈ db.loadRecentOrders accountId mode since ↔
      ∃ row ∈ db.orders, (row.executionMode = mode ∧ since ≤ row.createdAt) ∧
        restoredOrder accountId row = restored := by
  simp [loadRecentOrders, and_assoc]

/-- Every order of the restored book is one of the original, as its row shows it. -/
theorem Covers.restored_of_mem (h : db.Covers orders mode since)
    (hmirrored : ∀ order ∈ orders, db.Mirrored order) {accountId : AccountId} {nextId : OrderId}
    {restored : OrderRecord}
    (hmem : restored ∈ (db.restoredOrders accountId mode since nextId).listAll (some accountId)) :
    ∃ order ∈ orders, restored.RestoredFrom order := by
  obtain ⟨hget, -⟩ := OrderManager.mem_listAll.mp hmem
  rcases OrderManager.get_restore hget with hloaded | hfresh
  · obtain ⟨row, hrow, ⟨hmode, hcreated⟩, rfl⟩ := mem_loadRecentOrders.mp hloaded
    obtain ⟨order, horder, hkey⟩ := h.inMemory row hrow hmode hcreated
    obtain ⟨hstatus, hid⟩ := (hmirrored order horder).shown row hrow hkey
    exact ⟨order, horder, hstatus, hid, rfl⟩
  · simp [OrderManager.get] at hfresh

/-- Every order of the original is in the restored book. -/
theorem Covers.mem_restored (h : db.Covers orders mode since)
    (hmirrored : ∀ order ∈ orders, db.Mirrored order) (accountId : AccountId) (nextId : OrderId)
    {order : OrderRecord} (horder : order ∈ orders) :
    ∃ restored ∈ (db.restoredOrders accountId mode since nextId).listAll (some accountId),
      restored.RestoredFrom order := by
  obtain ⟨row, hrow, hkey⟩ := (hmirrored order horder).stored
  have hloaded : restoredOrder accountId row ∈ db.loadRecentOrders accountId mode since :=
    mem_loadRecentOrders.mpr ⟨row, hrow, h.inWindow row hrow order horder hkey, rfl⟩
  obtain ⟨restored, hget⟩ := Option.isSome_iff_exists.mp (OrderManager.get_restore_isSome
    { nextId := nextId } (i := row.id) (.inl ⟨_, hloaded, rfl⟩))
  have hid : restored.id = row.id := OrderManager.stored _ _ _ hget
  rcases OrderManager.get_restore hget with hfound | hfresh
  · -- What is found under the id of the row is of the same key.
    obtain ⟨row', hrow', -, rfl⟩ := mem_loadRecentOrders.mp hfound
    have hkey' : row'.idempotencyKey = order.idempotencyKey :=
      (h.rowIds row' hrow' row hrow hid).trans hkey
    obtain ⟨hstatus, hbroker⟩ := (hmirrored order horder).shown row' hrow' hkey'
    refine ⟨restoredOrder accountId row', OrderManager.mem_listAll.mpr ⟨?_, rfl⟩, hstatus, hbroker,
      rfl⟩
    rw [hid]
    exact hget
  · simp [OrderManager.get] at hfresh

end Db

/-- The broker shows no fill of the order. -/
def OrderRecord.UnfilledAt (order : OrderRecord) (brokerOrders : List BrokerOrder) : Prop :=
  ∀ id brokerOrder, order.brokerOrderId = some id →
    (Dict.index BrokerOrder.brokerOrderId brokerOrders).get? id = some brokerOrder →
    |brokerOrder.filledQuantity| ≤ quantityTolerance

/-- An order that agrees with the broker agrees as it is restored exactly if it is not open,
or not filled there. -/
theorem OrderRecord.RestoredFrom.agrees {restored order : OrderRecord}
    (h : restored.RestoredFrom order) {brokerOrders : List BrokerOrder}
    (hagrees : OrderAgrees brokerOrders order) :
    OrderAgrees brokerOrders restored ↔
      (order.status.isOpenOrder = true → order.UnfilledAt brokerOrders) := by
  unfold OrderAgrees at hagrees ⊢
  rw [h.status, h.brokerOrderId, h.unfilled]
  apply imp_congr_right
  intro hopen
  -- Being open it agrees with an order of the broker's, which its id finds.
  obtain ⟨id, brokerOrder, hid, hfound, hstatus, -⟩ := hagrees hopen
  constructor
  · rintro ⟨id', brokerOrder', hid', hfound', -, hfill⟩ id'' brokerOrder'' hid'' hfound''
    rw [hid'] at hid''
    cases hid''
    rw [hfound'] at hfound''
    cases hfound''
    rwa [sub_zero] at hfill
  · intro hunfilled
    refine ⟨id, brokerOrder, hid, hfound, hstatus, ?_⟩
    rw [sub_zero]
    exact hunfilled id brokerOrder hid hfound

/-- **Restored orders reconcile** exactly if no open order is filled at the broker: for every
produced book of an account that is in order with the broker's list, persisted in any order
into a table that covers it, and restored into a fresh manager. -/
theorem restored_reconciles_iff {m : OrderManager} (hm : m.Produced) (accountId : AccountId)
    {mode : ExecutionMode} {since : Instant} {db : Db}
    (hdb : db.Covers (m.listAll (some accountId)) mode since)
    {writes : List (OrderRecord × Instant)}
    (hwrites : ∀ write ∈ writes, write.1 ∈ m.listAll (some accountId) ∧ since ≤ write.2)
    (hall : ∀ order ∈ m.listAll (some accountId), order ∈ writes.map Prod.fst) (nextId : OrderId)
    {brokerOrders : List BrokerOrder} {protective : List BrokerOrderId}
    (hsync : reconcileOrders (m.listAll (some accountId)) brokerOrders protective = []) :
    reconcileOrders (((db.persistOrders mode writes).restoredOrders accountId mode since
        nextId).listAll (some accountId)) brokerOrders protective = [] ↔
      ∀ order ∈ m.listAll (some accountId), order.status.isOpenOrder = true →
        order.UnfilledAt brokerOrders := by
  -- Orders of one manager are told apart by id and by key, as the rows are.
  have hget : ∀ order ∈ m.listAll (some accountId), m.get order.id = some order :=
    fun order horder => (OrderManager.mem_listAll.mp horder).1
  have hids : ∀ order ∈ m.listAll (some accountId), ∀ other ∈ m.listAll (some accountId),
      order.id = other.id → order = other := by
    intro order horder other hother hid
    have hsame := hget order horder
    rw [hid, hget other hother] at hsame
    exact (Option.some.inj hsame).symm
  have hkeys : ∀ order ∈ m.listAll (some accountId), ∀ other ∈ m.listAll (some accountId),
      order.idempotencyKey = other.idempotencyKey → order = other := fun order horder other hother
      hkey => hids order horder other hother
        (hm.indexed.id_eq (hget order horder) (hget other hother) hkey)
  obtain ⟨hcovers, hmirrors⟩ := hdb.persistOrders hids hkeys hwrites
  have hmirrored := fun order horder => hmirrors order horder (.inr (hall order horder))
  obtain ⟨hagree, hknown⟩ := reconcileOrders_eq_nil.mp hsync
  rw [reconcileOrders_eq_nil]
  constructor
  · -- Each order comes back with its fill lost.
    rintro ⟨hrestored, -⟩ order horder
    obtain ⟨restored, hmem, hfrom⟩ := hcovers.mem_restored hmirrored accountId nextId horder
    exact (hfrom.agrees (hagree order horder)).mp (hrestored restored hmem)
  · -- A row that comes back is some order's.
    intro hunfilled
    refine ⟨fun restored hmem => ?_, fun brokerOrder hbroker hlive => ?_⟩
    · obtain ⟨order, horder, hfrom⟩ := hcovers.restored_of_mem hmirrored hmem
      exact (hfrom.agrees (hagree order horder)).mpr (hunfilled order horder)
    · -- The broker orders known by id are known by the same id.
      refine (hknown brokerOrder hbroker hlive).imp_left fun hlocal => ?_
      obtain ⟨hblank, order, horder, hid⟩ := mem_localBrokerIds.mp hlocal
      obtain ⟨restored, hmem, hfrom⟩ := hcovers.mem_restored hmirrored accountId nextId horder
      exact mem_localBrokerIds.mpr ⟨hblank, restored, hmem, hfrom.brokerOrderId.trans hid⟩

/-- The book after the approved order was sent and answered. -/
def bookAnswered (answer : VenueAnswer) : OrderManager :=
  match (engineAnswered answer).submit 0 approvedOrder.id with
  | .ok e => e.orderManager
  | .error _ => {}

theorem produced_bookAnswered (answer : VenueAnswer) : (bookAnswered answer).Produced := by
  have hone : (engineAnswered answer).orderManager.Produced :=
    .restored 0 [approvedOrder] fun order horder other hother _ => by
      rw [List.mem_singleton.mp horder, List.mem_singleton.mp hother]
  unfold bookAnswered
  split
  · rename_i hsent
    exact .submitted hsent hone
  · exact .restored 0 [] fun order horder => by cases horder

/-- The broker's entry for the approved order, at this status and fill. -/
def entryAt (status : OrderStatus) (filledQuantity : ℚ) : BrokerOrder :=
  { brokerOrderId := .uuid 0
    symbol := "ACME"
    direction := .long
    orderType := .market
    quantity := 100
    price := none
    status := status
    filledQuantity := filledQuantity }

/-- Persisted into an empty table and restored. -/
def roundTripped (m : OrderManager) : OrderManager :=
  (({} : Db).persistOrders .live
    ((m.listAll (some "user")).map fun order => (order, 0))).restoredOrders "user" .live 0 0

/-- An order filled in part is in order with the broker, and no longer once it is restored. -/
theorem restored_partial_fill_mismatch :
    reconcileOrders ((bookAnswered (.partlyFilled 40)).listAll (some "user"))
        [entryAt .partiallyFilled 40] = [] ∧
      reconcileOrders ((roundTripped (bookAnswered (.partlyFilled 40))).listAll (some "user"))
        [entryAt .partiallyFilled 40] ≠ [] := by
  decide +kernel

theorem restored_reconciles_iff_filled :
    reconcileOrders ((roundTripped (bookAnswered .filled)).listAll (some "user"))
      [entryAt .filled 100] = [] := by
  have hclosed : ∀ order ∈ (bookAnswered .filled).listAll (some "user"),
      order.status.isOpenOrder = false := by decide +kernel
  refine (restored_reconciles_iff (produced_bookAnswered .filled) "user"
    ⟨by simp, by simp, by simp, by simp⟩ (by decide +kernel) (by decide +kernel) 0
    (by decide +kernel)).mpr ?_
  intro order horder hopen
  rw [hclosed order horder] at hopen
  cases hopen

end SuperTrading
