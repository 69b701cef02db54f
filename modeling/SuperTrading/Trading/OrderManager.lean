import SuperTrading.Core.Types
import SuperTrading.Logic.Dict

/-!
# OrderManager

The order state machine and the idempotency index of
`app/trading/order_manager.py`.

- **Records**: an order and the events of its life
- **The table**: `_ALLOWED_TRANSITIONS`, and the statuses it leaves final
- **The manager**: orders by id, ids by idempotency key
- **Lookup**: what each operation does to `get` and `lookup`
-/

namespace SuperTrading

open SuperTrading.Logic

/-! ## Section 1: Records -/

structure OrderEventRecord where
  fromStatus : Option OrderStatus
  toStatus : OrderStatus
  detail : String
  occurredAt : Instant
  deriving DecidableEq, Repr

structure OrderRecord where
  id : OrderId
  idempotencyKey : String
  accountId : AccountId
  symbol : Symbol
  direction : Direction
  orderType : OrderType
  quantity : ℚ
  price : Option ℚ
  status : OrderStatus := .created
  brokerOrderId : Option BrokerOrderId := none
  filledQuantity : ℚ := 0
  averageFillPrice : Option ℚ := none
  rejectionReason : Option String := none
  events : List OrderEventRecord := []
  deriving DecidableEq, Repr

/-! ## Section 2: The table -/

/-- `_ALLOWED_TRANSITIONS`. -/
def OrderStatus.allowedTransitions : OrderStatus → List OrderStatus
  | created => [.validating, .rejected, .failed]
  | validating => [.riskApproved, .rejected]
  | riskApproved => [.submitted, .rejected, .failed]
  | submitted => [.acknowledged, .cancelled, .rejected, .failed]
  | acknowledged => [.partiallyFilled, .filled, .cancelled, .expired]
  | partiallyFilled => [.partiallyFilled, .filled, .cancelled]
  | filled => [.monitoring, .closed]
  | monitoring => [.closed]
  | closed => []
  | rejected => []
  | cancelled => []
  | expired => []
  | failed => []

namespace OrderRecord

/-- The record after a transition the table allows. -/
def moved (order : OrderRecord) (now : Instant) (toStatus : OrderStatus) (detail : String) :
    OrderRecord :=
  { order with
    events := order.events ++ [⟨some order.status, toStatus, detail, now⟩]
    status := toStatus
    rejectionReason := if toStatus = .rejected then some detail else order.rejectionReason }

@[simp] theorem moved_id (order : OrderRecord) (now : Instant) (toStatus : OrderStatus)
    (detail : String) : (order.moved now toStatus detail).id = order.id := rfl

@[simp] theorem moved_status (order : OrderRecord) (now : Instant) (toStatus : OrderStatus)
    (detail : String) : (order.moved now toStatus detail).status = toStatus := rfl

end OrderRecord

/-! ## Section 3: The manager -/

theorem empty_indexed : ∀ key i, (Dict.empty : Dict String OrderId).get? key = some i →
    ((Dict.empty : Dict OrderId OrderRecord).get? i).isSome := by simp

theorem empty_stored : ∀ i order, (Dict.empty : Dict OrderId OrderRecord).get? i = some order →
    order.id = i := by simp

theorem empty_fresh : ∀ i order, (Dict.empty : Dict OrderId OrderRecord).get? i = some order →
    i < (0 : OrderId) := by simp

/-- The orders of one process. A key in the index names an order that exists,
an order is stored under its own id, and `uuid.uuid4()` never repeats one. -/
structure OrderManager where
  orders : Dict OrderId OrderRecord := Dict.empty
  byIdempotencyKey : Dict String OrderId := Dict.empty
  nextId : OrderId := 0
  indexed : ∀ key i, byIdempotencyKey.get? key = some i → (orders.get? i).isSome := by
    first | exact empty_indexed | simp
  stored : ∀ i order, orders.get? i = some order → order.id = i := by
    first | exact empty_stored | simp
  fresh : ∀ i order, orders.get? i = some order → i < nextId := by
    first | exact empty_fresh | simp

namespace OrderManager

def get (m : OrderManager) (orderId : OrderId) : Option OrderRecord := m.orders.get? orderId

/-- The order an idempotency key names, if the key was seen. -/
def lookup (m : OrderManager) (key : String) : Option OrderRecord :=
  (m.byIdempotencyKey.get? key).bind m.get

/-- Rewrite an order in place, as Python code that holds the record does. -/
def update (m : OrderManager) (orderId : OrderId) (f : OrderRecord → OrderRecord)
    (hf : ∀ order, (f order).id = order.id) : OrderManager where
  orders := m.orders.modify orderId f
  byIdempotencyKey := m.byIdempotencyKey
  nextId := m.nextId
  -- A rewrite keeps every order in place, under its id.
  indexed key i h := by
    have hi := m.indexed key i h
    rw [Dict.get?_modify]
    split
    · rwa [Option.isSome_map]
    · exact hi
  stored i order h := by
    rw [Dict.get?_modify] at h
    split at h
    · obtain ⟨old, hold, rfl⟩ := Option.map_eq_some_iff.mp h
      rw [hf, m.stored i old hold]
    · exact m.stored i order h
  fresh i order h := by
    rw [Dict.get?_modify] at h
    split at h
    · obtain ⟨old, hold, rfl⟩ := Option.map_eq_some_iff.mp h
      exact m.fresh i old hold
    · exact m.fresh i order h

/-- Store an order under its id and index its key. -/
def insert (m : OrderManager) (order : OrderRecord) : OrderManager where
  orders := m.orders.set order.id order
  byIdempotencyKey := m.byIdempotencyKey.set order.idempotencyKey order.id
  nextId := max m.nextId (order.id + 1)
  -- The new key names the new order; the old keys name orders that are still there.
  indexed key i h := by
    rw [Dict.get?_set] at h ⊢
    split at h
    · cases h
      simp
    · have hi := m.indexed key i h
      split
      · rfl
      · exact hi
  stored i o h := by
    rw [Dict.get?_set] at h
    split at h
    · cases h
      assumption
    · exact m.stored i o h
  fresh i o h := by
    rw [Dict.get?_set] at h
    split at h
    · subst i
      exact lt_max_of_lt_right (Nat.lt_succ_self _)
    · exact lt_max_of_lt_left (m.fresh i o h)

/-- The record `create_order` builds for a key it has not seen. -/
def newOrder (m : OrderManager) (now : Instant) (idempotencyKey : String) (accountId : AccountId)
    (symbol : Symbol) (direction : Direction) (orderType : OrderType) (quantity : ℚ)
    (price : Option ℚ) : OrderRecord :=
  { id := m.nextId
    idempotencyKey := idempotencyKey
    accountId := accountId
    symbol := symbol
    direction := direction
    orderType := orderType
    quantity := quantity
    price := price
    events := [⟨none, .created, "created", now⟩] }

/-- `create_order`: the order, and whether this call created it. -/
def createOrder (m : OrderManager) (now : Instant) (idempotencyKey : String)
    (accountId : AccountId) (symbol : Symbol) (direction : Direction) (orderType : OrderType)
    (quantity : ℚ) (price : Option ℚ := none) : OrderRecord × Bool × OrderManager :=
  -- A key that was seen returns its order, whatever the other arguments say.
  match m.lookup idempotencyKey with
  | some order => (order, false, m)
  | none =>
    let order := m.newOrder now idempotencyKey accountId symbol direction orderType quantity price
    (order, true, m.insert order)

/-- `restore`: seed the book and its index from stored orders. -/
def restore (m : OrderManager) (orders : List OrderRecord) : OrderManager :=
  orders.foldl insert m

def listAll (m : OrderManager) (accountId : Option AccountId := none) : List OrderRecord :=
  match accountId with
  | none => m.orders.values
  | some a => m.orders.values.filter (fun order => order.accountId = a)

/-- `transition`: `KeyError` for an unknown order, `IllegalTransitionError` for a
move that the table does not allow. -/
def transition (m : OrderManager) (now : Instant) (orderId : OrderId) (toStatus : OrderStatus)
    (detail : String := "") : Except String OrderManager :=
  match m.get orderId with
  | none => .error s!"Unknown order {orderId}"
  | some order =>
    -- The event is recorded with the status the order leaves.
    if toStatus ∈ order.status.allowedTransitions then
      .ok (m.update orderId (fun order => order.moved now toStatus detail) fun _ =>
        OrderRecord.moved_id ..)
    else
      .error s!"Cannot move order from {order.status.value} to {toStatus.value}"

/-! ## Section 4: Lookup -/

theorem lookup_isSome (m : OrderManager) (key : String) :
    (m.lookup key).isSome ↔ (m.byIdempotencyKey.get? key).isSome := by
  unfold lookup
  cases h : m.byIdempotencyKey.get? key with
  | none => simp
  | some i => simpa [get] using m.indexed key i h

theorem get_update (m : OrderManager) (i j : OrderId) (f : OrderRecord → OrderRecord)
    (hf : ∀ order, (f order).id = order.id) :
    (m.update i f hf).get j = if i = j then (m.get j).map f else m.get j :=
  Dict.get?_modify m.orders i j f

@[simp] theorem get_update_self (m : OrderManager) (i : OrderId) (f : OrderRecord → OrderRecord)
    (hf : ∀ order, (f order).id = order.id) : (m.update i f hf).get i = (m.get i).map f := by
  simp [get_update]

theorem update_update (m : OrderManager) (i : OrderId) (f g : OrderRecord → OrderRecord)
    (hf : ∀ order, (f order).id = order.id) (hg : ∀ order, (g order).id = order.id) :
    (m.update i f hf).update i g hg =
      m.update i (fun order => g (f order)) fun order => (hg _).trans (hf order) := by
  simp only [update, Dict.modify_modify]

/-- A rewrite depends only on what it makes of the order it finds. -/
theorem update_congr {m : OrderManager} {i : OrderId} {order : OrderRecord}
    (h : m.get i = some order) {f g : OrderRecord → OrderRecord}
    (hf : ∀ order, (f order).id = order.id) (hg : ∀ order, (g order).id = order.id)
    (hfg : f order = g order) : m.update i f hf = m.update i g hg := by
  have hmodify : m.orders.modify i f = m.orders.modify i g := by
    have h' : m.orders.get? i = some order := h
    simp only [Dict.modify, h', hfg]
  simp only [update, hmodify]

theorem get_insert (m : OrderManager) (order : OrderRecord) (j : OrderId) :
    (m.insert order).get j = if order.id = j then some order else m.get j :=
  Dict.get?_set m.orders order.id j order

@[simp] theorem get_insert_self (m : OrderManager) (order : OrderRecord) :
    (m.insert order).get order.id = some order := by
  simp [get_insert]

/-- A rewrite in place forgets no key and learns none. -/
@[simp] theorem lookup_update_isSome (m : OrderManager) (i : OrderId)
    (f : OrderRecord → OrderRecord) (hf : ∀ order, (f order).id = order.id) (key : String) :
    ((m.update i f hf).lookup key).isSome = (m.lookup key).isSome := by
  rw [Bool.eq_iff_iff, lookup_isSome, lookup_isSome]
  rfl

/-- Storing an order teaches the index its key and forgets no other. -/
theorem lookup_insert_isSome (m : OrderManager) (order : OrderRecord) (key : String) :
    ((m.insert order).lookup key).isSome ↔
      key = order.idempotencyKey ∨ (m.lookup key).isSome := by
  -- A lookup succeeds exactly if the index has the key: no indexed id dangles.
  rw [lookup_isSome, lookup_isSome]
  show ((m.byIdempotencyKey.set order.idempotencyKey order.id).get? key).isSome ↔ _
  rw [Dict.get?_set]
  by_cases h : order.idempotencyKey = key
  · simp [h]
  · simp [h, Ne.symm h]

/-- A rewrite in place is seen through every key that names the order. -/
theorem lookup_update (m : OrderManager) (i : OrderId) (f : OrderRecord → OrderRecord)
    (hf : ∀ order, (f order).id = order.id) (key : String) :
    (m.update i f hf).lookup key =
      (m.lookup key).map fun order => if order.id = i then f order else order := by
  unfold lookup
  show (m.byIdempotencyKey.get? key).bind _ = _
  cases hkey : m.byIdempotencyKey.get? key with
  | none => rfl
  | some j =>
    simp only [Option.bind_some, get_update]
    cases hj : m.get j with
    | none => simp
    | some order =>
      have hid : order.id = j := m.stored j order hj
      by_cases hij : i = j
      · simp [hij, hid]
      · simp [hij, hid, Ne.symm hij]

/-- Storing an order under an id of its own changes what its key names, and nothing else. -/
theorem lookup_insert_of_new {m : OrderManager} {order : OrderRecord} (h : order.id = m.nextId)
    (key : String) : (m.insert order).lookup key =
      if order.idempotencyKey = key then some order else m.lookup key := by
  unfold lookup
  show ((m.byIdempotencyKey.set order.idempotencyKey order.id).get? key).bind _ = _
  rw [Dict.get?_set]
  by_cases hkey : order.idempotencyKey = key
  · simp [hkey]
  · simp only [if_neg hkey]
    cases hold : m.byIdempotencyKey.get? key with
    | none => rfl
    | some j =>
      -- The ids that were indexed before are below the new one.
      have hne : order.id ≠ j := by
        obtain ⟨old, hget⟩ := Option.isSome_iff_exists.mp (m.indexed key j hold)
        rw [h]
        exact (m.fresh j old hget).ne'
      simp [get_insert, hne]

/-- What a restored book holds is what it was restored from, or was there before. -/
theorem get_restore {orders : List OrderRecord} {m : OrderManager} {i : OrderId}
    {order : OrderRecord} (h : (m.restore orders).get i = some order) :
    order ∈ orders ∨ m.get i = some order := by
  induction orders generalizing m with
  | nil => exact Or.inr h
  | cons first orders ih =>
    have hcons : m.restore (first :: orders) = (m.insert first).restore orders := rfl
    rw [hcons] at h
    rcases ih h with hmem | hget
    · exact Or.inl (List.mem_cons_of_mem _ hmem)
    · rw [get_insert] at hget
      split at hget
      · cases hget
        exact Or.inl List.mem_cons_self
      · exact Or.inr hget

/-- Every order of the list is found in the restored book. -/
theorem get_restore_isSome {orders : List OrderRecord} (m : OrderManager) {i : OrderId}
    (h : (∃ order ∈ orders, order.id = i) ∨ (m.get i).isSome) :
    ((m.restore orders).get i).isSome := by
  induction orders generalizing m with
  | nil => simpa [restore] using h
  | cons first orders ih =>
    have hcons : m.restore (first :: orders) = (m.insert first).restore orders := rfl
    rw [hcons]
    apply ih
    by_cases hfirst : first.id = i
    · exact .inr (by simp [get_insert, hfirst])
    · -- The first order went elsewhere.
      rw [get_insert, if_neg hfirst]
      rcases h with ⟨order, hmem, hid⟩ | hget
      · rcases List.mem_cons.mp hmem with rfl | hrest
        · exact absurd hid hfirst
        · exact .inl ⟨order, hrest, hid⟩
      · exact .inr hget

/-- A restored index knows the keys of the orders it was restored from. -/
theorem lookup_restore_isSome (orders : List OrderRecord) (m : OrderManager) (key : String) :
    ((m.restore orders).lookup key).isSome ↔
      (∃ order ∈ orders, order.idempotencyKey = key) ∨ (m.lookup key).isSome := by
  induction orders generalizing m with
  | nil => simp [restore]
  | cons order orders ih =>
    have hcons : m.restore (order :: orders) = (m.insert order).restore orders := rfl
    rw [hcons, ih, lookup_insert_isSome]
    simp only [List.mem_cons, exists_eq_or_imp, eq_comm (b := key)]
    rw [← or_assoc, or_comm (a := ∃ o ∈ orders, _)]

/-- A legal transition rewrites the order, and reports no error. -/
theorem transition_ok {m : OrderManager} {i : OrderId} {order : OrderRecord}
    (h : m.get i = some order) (now : Instant) (toStatus : OrderStatus)
    (hto : toStatus ∈ order.status.allowedTransitions) (detail : String) :
    m.transition now i toStatus detail =
      .ok (m.update i (fun order => order.moved now toStatus detail) fun _ =>
        OrderRecord.moved_id ..) := by
  simp [transition, h, hto]

/-- A legal transition right after a rewrite is one rewrite. -/
theorem transition_update {m : OrderManager} {i : OrderId} {order : OrderRecord}
    (h : m.get i = some order) (f : OrderRecord → OrderRecord)
    (hf : ∀ order, (f order).id = order.id) (now : Instant) (toStatus : OrderStatus)
    (hto : toStatus ∈ (f order).status.allowedTransitions) (detail : String) :
    (m.update i f hf).transition now i toStatus detail =
      .ok (m.update i (fun order => (f order).moved now toStatus detail) fun order =>
        (OrderRecord.moved_id ..).trans (hf order)) := by
  have hget : (m.update i f hf).get i = some (f order) := by simp [h]
  rw [transition_ok hget now toStatus hto, update_update]

end OrderManager

end SuperTrading
