import SuperTrading.Trading.Execution
import SuperTrading.Logic.Runs
import Mathlib.Data.List.Chain

/-!
# The Life of an Order

Everything that writes an order's record, one call after another, with what a call leaves
behind when it raises: `create_order`, `transition`, `ExecutionEngine.submit` and the user's
cancel, on a book that was restored from storage or is empty. A submission that waits for
the broker has left what one leaves whose broker raised; when the answer comes, it resumes.

- **Layer A**: the calls
- **Layer B**: the log of an order
- **Layer C**: what one call changes
- **Layer D**: whole runs
- **Layer E**: the engine's own submission
-/

namespace SuperTrading

open SuperTrading.Logic

/-! ## Layer A: The calls -/

/-- What a call raises. -/
inductive OrderFault
  | unknownOrder
  | illegalTransition
  | notApproved
  | brokerRaised
  /-- `apply_fill` on a fill that came without its price. -/
  | unpricedFill
  /-- The handler's own refusal: a 409. -/
  | conflict
  deriving DecidableEq, Repr

/-- What `place_order` may return: any `OrderResult`, a fill without a price included. -/
structure BrokerAnswer where
  brokerOrderId : BrokerOrderId
  status : OrderStatus
  filledQuantity : ℚ := 0
  averageFillPrice : Option ℚ := none
  rejectionReason : Option String := none

/-- The answer of a broker that prices its fills. -/
def OrderResult.answer (result : OrderResult) : BrokerAnswer :=
  { brokerOrderId := result.brokerOrderId
    status := result.status
    filledQuantity := result.filledQuantity
    averageFillPrice := result.averageFillPrice
    rejectionReason := result.rejectionReason }

/-- A call, with what it hears from outside: the answer of `place_order`, none if that
raises, and whether the broker's cancel raises. -/
inductive OrderCall
  | create (idempotencyKey : String) (accountId : AccountId) (symbol : Symbol)
      (direction : Direction) (orderType : OrderType) (quantity : ℚ) (price : Option ℚ)
  | transition (orderId : OrderId) (toStatus : OrderStatus) (detail : String)
  | submit (orderId : OrderId) (answer : Option BrokerAnswer)
  | resume (orderId : OrderId) (answer : BrokerAnswer)
  | cancel (orderId : OrderId) (brokerRaises : Bool)

/-- `order.filled_quantity = ...` and `order.average_fill_price = ...`, of any answer. -/
def OrderRecord.filledAs (order : OrderRecord) (answer : BrokerAnswer) : OrderRecord :=
  { order with
    filledQuantity := answer.filledQuantity
    averageFillPrice := answer.averageFillPrice }

@[simp] theorem OrderRecord.filledAs_id (order : OrderRecord) (answer : BrokerAnswer) :
    (order.filledAs answer).id = order.id := rfl

/-- The order whose broker answers late, with other calls between. -/
def OrderCall.late : OrderCall → OrderId → Prop
  | .resume orderId _, i => orderId = i
  | _, _ => False

/-- What a call raised, and the book behind it. -/
abbrev CallOutcome := Option OrderFault × OrderManager

namespace CallOutcome

/-- The rest of a call: nothing, once it has raised. -/
def andThen (outcome : CallOutcome) (rest : OrderManager → CallOutcome) : CallOutcome :=
  match outcome with
  | (some fault, m) => (some fault, m)
  | (none, m) => rest m

end CallOutcome

namespace OrderManager

/-- `transition`, as a part of a call. -/
def attempt (m : OrderManager) (now : Instant) (orderId : OrderId) (toStatus : OrderStatus)
    (detail : String) : CallOutcome :=
  match m.transition now orderId toStatus detail with
  | .ok m => (none, m)
  | .error _ =>
    (some (if (m.get orderId).isSome then .illegalTransition else .unknownOrder), m)

/-- `order.broker_order_id = ...`, in the book. -/
def identify (m : OrderManager) (orderId : OrderId) (brokerOrderId : BrokerOrderId) :
    OrderManager :=
  m.update orderId (·.identified brokerOrderId) fun _ => OrderRecord.identified_id ..

/-- `submit` from the broker's answer on. -/
def resume (m : OrderManager) (now : Instant) (orderId : OrderId) (result : BrokerAnswer) :
    CallOutcome :=
  match m.get orderId with
  | none => (some .unknownOrder, m)
  | some order =>
    let m := m.identify orderId result.brokerOrderId
    if result.status = .rejected then
      m.attempt now orderId .rejected (textOr result.rejectionReason "rejected by broker")
    else if result.status = .failed then
      m.attempt now orderId .failed (textOr result.rejectionReason "broker did not answer")
    else
      (m.attempt now orderId .acknowledged "broker acknowledged").andThen fun m =>
        if 0 < result.filledQuantity then
          let m := m.update orderId (·.filledAs result) fun _ => OrderRecord.filledAs_id ..
          let nextStatus : OrderStatus :=
            if order.quantity ≤ result.filledQuantity then .filled else .partiallyFilled
          (m.attempt now orderId nextStatus "filled by broker").andThen fun m =>
            if result.averageFillPrice = none then (some .unpricedFill, m)
            else if nextStatus = .filled then m.attempt now orderId .monitoring "position open"
            else (none, m)
        else (none, m)

/-- `ExecutionEngine.submit`, of the book. -/
def submit (m : OrderManager) (now : Instant) (orderId : OrderId) (answer : Option BrokerAnswer) :
    CallOutcome :=
  match m.get orderId with
  | none => (some .unknownOrder, m)
  | some order =>
    if order.status ≠ .riskApproved then (some .notApproved, m)
    else
      (m.attempt now orderId .submitted "sent to broker").andThen fun m =>
        match answer with
        -- The order stays SUBMITTED.
        | none => (some .brokerRaised, m)
        | some result => m.resume now orderId result

/-- `POST /orders/{order_id}/cancel`, of the book. -/
def cancel (m : OrderManager) (now : Instant) (orderId : OrderId) (brokerRaises : Bool) :
    CallOutcome :=
  match m.get orderId with
  | none => (some .unknownOrder, m)
  | some order =>
    if order.status ≠ .submitted ∧ order.status ≠ .acknowledged then (some .conflict, m)
    -- The broker is asked only about an order that it has given an id.
    else if brokerRaises ∧ order.brokerOrderId ≠ none ∧ order.brokerOrderId ≠ some (.text "") then
      (some .brokerRaised, m)
    else m.attempt now orderId .cancelled "cancelled by user"

def perform (m : OrderManager) (now : Instant) : OrderCall → CallOutcome
  | .create idempotencyKey accountId symbol direction orderType quantity price =>
    (none, (m.createOrder now idempotencyKey accountId symbol direction orderType quantity
      price).2.2)
  | .transition orderId toStatus detail => m.attempt now orderId toStatus detail
  | .submit orderId answer => m.submit now orderId answer
  | .resume orderId answer => m.resume now orderId answer
  | .cancel orderId brokerRaises => m.cancel now orderId brokerRaises

/-- The book behind a call. -/
def after (m : OrderManager) (call : Instant × OrderCall) : OrderManager :=
  (m.perform call.1 call.2).2

end OrderManager

/-! ## Layer B: The log of an order -/

/-- The event log is a path of the table: it starts at CREATED, every step leaves the status
the last one reached for one the table allows, and it ends where the order is. -/
structure OrderRecord.LawfulLog (order : OrderRecord) : Prop where
  starts : order.events.head?.map (fun e => (e.fromStatus, e.toStatus)) = some (none, .created)
  follows : order.events.IsChain fun e e' =>
    e'.fromStatus = some e.toStatus ∧ e'.toStatus ∈ e.toStatus.allowedTransitions
  ends : order.events.getLast?.map (·.toStatus) = some order.status

/-- The same record, but for the id the broker gave it. -/
def OrderRecord.SameButBrokerId (order order' : OrderRecord) : Prop :=
  order' = { order with brokerOrderId := order'.brokerOrderId }

namespace OrderRecord

theorem SameButBrokerId.refl (order : OrderRecord) : order.SameButBrokerId order := rfl

theorem SameButBrokerId.trans {a b c : OrderRecord} (hab : a.SameButBrokerId b)
    (hbc : b.SameButBrokerId c) : a.SameButBrokerId c := by
  unfold SameButBrokerId at *
  rw [hbc, hab]

theorem sameButBrokerId_identified (order : OrderRecord) (brokerOrderId : BrokerOrderId) :
    order.SameButBrokerId (order.identified brokerOrderId) := rfl

/-- Only the log and the status count. -/
theorem LawfulLog.congr {order order' : OrderRecord} (h : order.LawfulLog)
    (hevents : order'.events = order.events) (hstatus : order'.status = order.status) :
    order'.LawfulLog :=
  ⟨by rw [hevents]; exact h.starts, by rw [hevents]; exact h.follows,
    by rw [hevents, hstatus]; exact h.ends⟩

/-- A move that the table allows adds one step to the path. -/
theorem LawfulLog.moved {order : OrderRecord} (h : order.LawfulLog) (now : Instant)
    {toStatus : OrderStatus} (hto : toStatus ∈ order.status.allowedTransitions)
    (detail : String) : (order.moved now toStatus detail).LawfulLog := by
  obtain ⟨last, hlast, hstatus⟩ := Option.map_eq_some_iff.mp h.ends
  constructor
  · have hne : order.events ≠ [] := by
      intro hnil
      simp [hnil] at hlast
    simp only [OrderRecord.moved, List.head?_append_of_ne_nil _ hne]
    exact h.starts
  · -- The last event of the old log meets the new one.
    simp only [OrderRecord.moved, List.isChain_append]
    refine ⟨h.follows, List.isChain_singleton _, ?_⟩
    intro e he e' he'
    rw [hlast] at he
    cases he
    cases he'
    simpa [hstatus] using hto
  · simp [OrderRecord.moved]

end OrderRecord

namespace OrderManager

/-- The record `create_order` builds starts its log. -/
theorem lawfulLog_newOrder (m : OrderManager) (now : Instant) (key : String)
    (accountId : AccountId) (symbol : Symbol) (direction : Direction) (orderType : OrderType)
    (quantity : ℚ) (price : Option ℚ) :
    (m.newOrder now key accountId symbol direction orderType quantity price).LawfulLog :=
  ⟨rfl, List.isChain_singleton _, rfl⟩

/-- What holds of a book in every state: each log is lawful, and the index names each order
under its key. -/
structure Sane (m : OrderManager) : Prop where
  lawful : ∀ i order, m.get i = some order → order.LawfulLog
  named : ∀ i order, m.get i = some order → m.byIdempotencyKey.get? order.idempotencyKey = some i

theorem sane_empty : ({} : OrderManager).Sane := by
  constructor
  · intro i order h
    cases h
  · intro i order h
    cases h

/-- One key, one order. -/
theorem Sane.unique {m : OrderManager} (h : m.Sane) {i j : OrderId} {order order' : OrderRecord}
    (hi : m.get i = some order) (hj : m.get j = some order')
    (hkey : order.idempotencyKey = order'.idempotencyKey) : i = j := by
  have hnamed := h.named i order hi
  rw [hkey, h.named j order' hj] at hnamed
  exact (Option.some.inj hnamed).symm

/-- Storing a lawful order under a key of its own. -/
theorem Sane.insert {m : OrderManager} (h : m.Sane) {order : OrderRecord}
    (hkey : m.lookup order.idempotencyKey = none) (hlaw : order.LawfulLog) :
    (m.insert order).Sane := by
  constructor
  · intro i old hget
    rw [get_insert] at hget
    split at hget
    · cases hget
      exact hlaw
    · exact h.lawful i old hget
  · intro i old hget
    show (m.byIdempotencyKey.set order.idempotencyKey order.id).get? _ = _
    rw [get_insert] at hget
    rw [Dict.get?_set]
    split at hget
    · cases hget
      simpa using ‹order.id = i›
    · have hnamed := h.named i old hget
      -- The key of an order that was there is in the index; the new one's is not.
      have hother : order.idempotencyKey ≠ old.idempotencyKey := by
        intro heq
        have hsome := (lookup_isSome m order.idempotencyKey).mpr (by rw [heq, hnamed]; rfl)
        simp [hkey] at hsome
      rw [if_neg hother, hnamed]

/-- A rewrite of one order that keeps its key and the law. -/
theorem Sane.update {m : OrderManager} (h : m.Sane) {i : OrderId} {order : OrderRecord}
    (hget : m.get i = some order) {f : OrderRecord → OrderRecord}
    (hf : ∀ order, (f order).id = order.id)
    (hkey : (f order).idempotencyKey = order.idempotencyKey) (hlaw : (f order).LawfulLog) :
    (m.update i f hf).Sane := by
  constructor
  · -- The log of the rewritten order is lawful by assumption.
    intro j old hold
    rw [get_update] at hold
    split at hold
    · subst j
      rw [hget] at hold
      cases hold
      exact hlaw
    · exact h.lawful j old hold
  · -- Its key still names it.
    intro j old hold
    show m.byIdempotencyKey.get? _ = _
    rw [get_update] at hold
    split at hold
    · subst j
      rw [hget] at hold
      cases hold
      rw [hkey]
      exact h.named i order hget
    · exact h.named j old hold

/-- A book restored from lawful records, each with a key of its own. -/
theorem Sane.restore {records : List OrderRecord} {m : OrderManager} (h : m.Sane)
    (hkeys : (records.map (·.idempotencyKey)).Nodup)
    (hlaw : ∀ record ∈ records, record.LawfulLog)
    (hnew : ∀ record ∈ records, m.lookup record.idempotencyKey = none) :
    (m.restore records).Sane := by
  induction records generalizing m with
  | nil => exact h
  | cons first records ih =>
    obtain ⟨hkey, hkeys⟩ := List.nodup_cons.mp hkeys
    have hinsert := h.insert (hnew first List.mem_cons_self) (hlaw first List.mem_cons_self)
    refine ih hinsert hkeys (fun r hr => hlaw r (List.mem_cons_of_mem _ hr)) ?_
    intro record hrecord
    have hne : record.idempotencyKey ≠ first.idempotencyKey := by
      intro heq
      exact hkey (List.mem_map.mpr ⟨record, hrecord, heq⟩)
    rw [← Option.not_isSome_iff_eq_none, lookup_insert_isSome]
    simp [hne, hnew record (List.mem_cons_of_mem _ hrecord)]

/-! ## Layer C: What one call changes -/

/-- One write to the book. `late` tells the orders whose broker answers after its
submission has been overtaken by other calls. -/
inductive Write (late : OrderId → Prop) (m : OrderManager) : OrderManager → Prop
  | create {order : OrderRecord} (hid : m.get order.id = none)
      (hkey : m.lookup order.idempotencyKey = none) (hlaw : order.LawfulLog) :
      Write late m (m.insert order)
  | move {i : OrderId} {order : OrderRecord} (hget : m.get i = some order) (now : Instant)
      {toStatus : OrderStatus} (hto : toStatus ∈ order.status.allowedTransitions)
      (detail : String) :
      Write late m (m.update i (·.moved now toStatus detail) fun _ => OrderRecord.moved_id ..)
  | identify {i : OrderId} {order : OrderRecord} (hget : m.get i = some order)
      (hwhen : order.status = .submitted ∨ late i) (brokerOrderId : BrokerOrderId) :
      Write late m (m.identify i brokerOrderId)
  | fill {i : OrderId} {order : OrderRecord} (hget : m.get i = some order)
      (hwhen : order.status = .acknowledged) (answer : BrokerAnswer) :
      Write late m (m.update i (·.filledAs answer) fun _ => OrderRecord.filledAs_id ..)

variable {late : OrderId → Prop} {m m' : OrderManager} {i : OrderId} {order : OrderRecord}

/-- Every write keeps the law of the book. -/
theorem Write.sane (h : Write late m m') (hm : m.Sane) : m'.Sane := by
  cases h with
  | create _ hkey hlaw => exact hm.insert hkey hlaw
  | move hget now hto detail =>
    exact hm.update hget _ rfl ((hm.lawful _ _ hget).moved now hto detail)
  | identify hget _ _ => exact hm.update hget _ rfl ((hm.lawful _ _ hget).congr rfl rfl)
  | fill hget _ _ => exact hm.update hget _ rfl ((hm.lawful _ _ hget).congr rfl rfl)

/-- No write changes a final order, but for a late answer's id. -/
theorem Write.final (h : Write late m m') {other : OrderRecord} {j : OrderId}
    (hother : m.get j = some other) (hfinal : other.status.allowedTransitions = []) :
    ∃ other', m'.get j = some other' ∧ other.SameButBrokerId other' ∧
      (¬ late j → other' = other) := by
  have hkept : m'.get j = m.get j → ∃ other', m'.get j = some other' ∧
      other.SameButBrokerId other' ∧ (¬ late j → other' = other) := fun hget =>
    ⟨other, hget.trans hother, .refl other, fun _ => rfl⟩
  cases h with
  | @create order hid _ _ =>
    have hne : order.id ≠ j := by
      rintro rfl
      simp [hid] at hother
    apply hkept
    rw [get_insert, if_neg hne]
  | @move i order hget now toStatus hto detail =>
    -- A final order allows no move, so the moved one is another.
    have hne : i ≠ j := by
      rintro rfl
      rw [hother] at hget
      cases hget
      simp [hfinal] at hto
    apply hkept
    rw [get_update, if_neg hne]
  | @identify i order hget hwhen brokerOrderId =>
    by_cases hij : i = j
    · subst hij
      rw [hother] at hget
      cases hget
      refine ⟨_, by rw [OrderManager.identify, get_update_self, hother]; rfl,
        other.sameButBrokerId_identified _, ?_⟩
      intro hlate
      -- A submitted order is not final.
      rcases hwhen with hsubmitted | hwhen
      · simp [hsubmitted, OrderStatus.allowedTransitions] at hfinal
      · exact absurd hwhen hlate
    · apply hkept
      rw [OrderManager.identify, get_update, if_neg hij]
  | @fill i order hget hwhen answer =>
    have hne : i ≠ j := by
      rintro rfl
      rw [hother] at hget
      cases hget
      simp [hwhen, OrderStatus.allowedTransitions] at hfinal
    apply hkept
    rw [get_update, if_neg hne]

/-- What a call does to the book: one write after another. -/
abbrev Writes (late : OrderId → Prop) : OrderManager → OrderManager → Prop :=
  Relation.ReflTransGen (Write late)

/-! ### Transitions as parts of a call -/

theorem attempt_of_allowed (hget : m.get i = some order) (now : Instant)
    {toStatus : OrderStatus} (hto : toStatus ∈ order.status.allowedTransitions)
    (detail : String) : m.attempt now i toStatus detail =
      (none, m.update i (·.moved now toStatus detail) fun _ => OrderRecord.moved_id ..) := by
  simp [attempt, transition_ok hget now toStatus hto detail]

theorem attempt_of_refused (hget : m.get i = some order) (now : Instant)
    {toStatus : OrderStatus} (hto : toStatus ∉ order.status.allowedTransitions)
    (detail : String) : m.attempt now i toStatus detail = (some .illegalTransition, m) := by
  simp [attempt, transition, hget, hto]

theorem get_identify (hget : m.get i = some order) (brokerOrderId : BrokerOrderId) :
    (m.identify i brokerOrderId).get i = some (order.identified brokerOrderId) := by
  simp [identify, hget]

/-- A call that only writes, and does not raise an illegal transition. -/
def Legal (late : OrderId → Prop) (m : OrderManager) (outcome : CallOutcome) : Prop :=
  Writes late m outcome.2 ∧ outcome.1 ≠ some .illegalTransition

theorem Legal.of_fault {fault : Option OrderFault} (h : fault ≠ some .illegalTransition) :
    Legal late m (fault, m) :=
  ⟨.refl, h⟩

theorem Legal.after_write {outcome : CallOutcome} (hwrite : Write late m m')
    (h : Legal late m' outcome) : Legal late m outcome :=
  ⟨.head hwrite h.1, h.2⟩

theorem legal_attempt (hget : m.get i = some order) (now : Instant) {toStatus : OrderStatus}
    (hto : toStatus ∈ order.status.allowedTransitions) (detail : String) :
    Legal late m (m.attempt now i toStatus detail) := by
  rw [attempt_of_allowed hget now hto]
  exact .after_write (.move hget now hto detail) (.of_fault (by simp))

/-- An allowed transition, and the rest of the call behind it. -/
theorem legal_attempt_andThen (hget : m.get i = some order) (now : Instant)
    {toStatus : OrderStatus} (hto : toStatus ∈ order.status.allowedTransitions) (detail : String)
    {rest : OrderManager → CallOutcome}
    (hrest : ∀ m', m'.get i = some (order.moved now toStatus detail) → Legal late m' (rest m')) :
    Legal late m ((m.attempt now i toStatus detail).andThen rest) := by
  rw [attempt_of_allowed hget now hto]
  refine .after_write (.move hget now hto detail) (hrest _ ?_)
  simp [hget]

/-! ### The answer to a submission -/

/-- Behind the acknowledgement nothing is refused any more. -/
theorem legal_acknowledged (hget : m.get i = some order) (hstatus : order.status = .acknowledged)
    (now : Instant) (result : BrokerAnswer) (nextStatus : OrderStatus)
    (hnext : nextStatus = .filled ∨ nextStatus = .partiallyFilled) :
    let filled := m.update i (·.filledAs result) fun _ => OrderRecord.filledAs_id ..
    Legal late m ((filled.attempt now i nextStatus "filled by broker").andThen fun m =>
      if result.averageFillPrice = none then (some .unpricedFill, m)
      else if nextStatus = .filled then m.attempt now i .monitoring "position open"
      else (none, m)) := by
  intro filled
  have hfilled : filled.get i = some (order.filledAs result) := by simp [filled, hget]
  -- Both follow an acknowledgement.
  have hto : nextStatus ∈ (order.filledAs result).status.allowedTransitions := by
    rcases hnext with rfl | rfl <;> simp [OrderRecord.filledAs, hstatus,
      OrderStatus.allowedTransitions]
  refine .after_write (.fill hget hstatus result) (legal_attempt_andThen hfilled now hto _ ?_)
  intro m' hm'
  split
  · exact .of_fault (by simp)
  · split
    next hnextFilled =>
      subst hnextFilled
      exact legal_attempt hm' now (by simp [OrderStatus.allowedTransitions]) _
    next => exact .of_fault (by simp)

/-- The answer to an order that is still submitted is never refused. -/
theorem legal_resume (hget : m.get i = some order) (hstatus : order.status = .submitted)
    (now : Instant) (result : BrokerAnswer) : Legal late m (m.resume now i result) := by
  have hidentified := get_identify hget result.brokerOrderId
  have hstatus' : (order.identified result.brokerOrderId).status = .submitted := hstatus
  unfold resume
  rw [hget]
  dsimp only
  refine .after_write (.identify hget (.inl hstatus) result.brokerOrderId) ?_
  -- Each answer leads to a transition that a submitted order allows.
  by_cases hrejected : result.status = .rejected
  · rw [if_pos hrejected]
    exact legal_attempt hidentified now (by simp [hstatus', OrderStatus.allowedTransitions]) _
  by_cases hfailed : result.status = .failed
  · rw [if_neg hrejected, if_pos hfailed]
    exact legal_attempt hidentified now (by simp [hstatus', OrderStatus.allowedTransitions]) _
  rw [if_neg hrejected, if_neg hfailed]
  refine legal_attempt_andThen hidentified now
    (by simp [hstatus', OrderStatus.allowedTransitions]) _ ?_
  intro m' hm'
  by_cases hfill : 0 < result.filledQuantity
  · rw [if_pos hfill]
    refine legal_acknowledged hm' rfl now result _ ?_
    split <;> simp
  · rw [if_neg hfill]
    exact .of_fault (by simp)

/-- An answer that comes late is refused, with only the broker's id written, or is heard as
any other. -/
theorem resume_late (hget : m.get i = some order) (hlate : late i) (now : Instant)
    (result : BrokerAnswer) :
    Legal late m (m.resume now i result) ∨
      m.resume now i result = (some .illegalTransition, m.identify i result.brokerOrderId) := by
  by_cases hstatus : order.status = .submitted
  · exact .inl (legal_resume hget hstatus now result)
  have hidentified := get_identify hget result.brokerOrderId
  -- A refusal or a failure may still be noted; an acknowledgement comes to a submitted order only.
  have hone : ∀ toStatus detail,
      Legal late m ((m.identify i result.brokerOrderId).attempt now i toStatus detail) ∨
        (m.identify i result.brokerOrderId).attempt now i toStatus detail =
          (some .illegalTransition, m.identify i result.brokerOrderId) := by
    intro toStatus detail
    by_cases hto : toStatus ∈ (order.identified result.brokerOrderId).status.allowedTransitions
    · exact .inl (.after_write (.identify hget (.inr hlate) _)
        (legal_attempt hidentified now hto detail))
    · exact .inr (attempt_of_refused hidentified now hto detail)
  have hrefused : OrderStatus.acknowledged ∉
      (order.identified result.brokerOrderId).status.allowedTransitions := by
    show OrderStatus.acknowledged ∉ order.status.allowedTransitions
    cases hcase : order.status with
    | submitted => exact absurd hcase hstatus
    | _ => simp [OrderStatus.allowedTransitions]
  unfold resume
  rw [hget]
  dsimp only
  by_cases hrejected : result.status = .rejected
  · rw [if_pos hrejected]
    exact hone _ _
  by_cases hfailed : result.status = .failed
  · rw [if_neg hrejected, if_pos hfailed]
    exact hone _ _
  rw [if_neg hrejected, if_neg hfailed, attempt_of_refused hidentified now hrefused]
  exact .inr rfl

/-! ### Every call -/

theorem get_nextId (m : OrderManager) : m.get m.nextId = none := by
  cases h : m.get m.nextId with
  | none => rfl
  | some order => exact absurd (m.fresh _ order h) (lt_irrefl _)

theorem legal_create (now : Instant) (key : String) (accountId : AccountId) (symbol : Symbol)
    (direction : Direction) (orderType : OrderType) (quantity : ℚ) (price : Option ℚ) :
    Legal late m (none,
      (m.createOrder now key accountId symbol direction orderType quantity price).2.2) := by
  unfold createOrder
  cases hkey : m.lookup key with
  | some order => exact .of_fault (by simp)
  | none =>
    exact .after_write (.create (m.get_nextId) hkey (lawfulLog_newOrder ..)) (.of_fault (by simp))

theorem legal_submit (now : Instant) (i : OrderId) (answer : Option BrokerAnswer) :
    Legal late m (m.submit now i answer) := by
  unfold submit
  cases hget : m.get i with
  | none => exact .of_fault (by simp)
  | some order =>
    dsimp only
    split
    next => exact .of_fault (by simp)
    next hstatus =>
      rw [not_not] at hstatus
      refine legal_attempt_andThen hget now (by simp [hstatus, OrderStatus.allowedTransitions]) _ ?_
      intro m' hm'
      cases answer with
      | none => exact .of_fault (by simp)
      | some result => exact legal_resume hm' rfl now result

theorem legal_cancel (now : Instant) (i : OrderId) (brokerRaises : Bool) :
    Legal late m (m.cancel now i brokerRaises) := by
  unfold cancel
  cases hget : m.get i with
  | none => exact .of_fault (by simp)
  | some order =>
    dsimp only
    split
    next => exact .of_fault (by simp)
    next hstatus =>
      split
      next => exact .of_fault (by simp)
      next =>
        -- The two statuses the handler lets through both allow the move.
        refine legal_attempt hget now ?_ _
        rw [not_and_or, not_not, not_not] at hstatus
        rcases hstatus with hstatus | hstatus <;> simp [hstatus, OrderStatus.allowedTransitions]

/-- What a call leaves: it is legal, or an illegal transition was raised and at most the
broker's id of one order, on a late answer, is new. -/
theorem perform_outcome (m : OrderManager) (now : Instant) (call : OrderCall) :
    Legal call.late m (m.perform now call) ∨
      (m.perform now call).2 = m ∨
      ∃ i order brokerOrderId, m.get i = some order ∧ call.late i ∧
        (m.perform now call).2 = m.identify i brokerOrderId := by
  cases call with
  | create key accountId symbol direction orderType quantity price =>
    exact .inl (legal_create ..)
  | transition i toStatus detail =>
    show Legal _ m (m.attempt now i toStatus detail) ∨ (m.attempt now i toStatus detail).2 = m ∨ _
    cases hget : m.get i with
    | none => exact .inr (.inl (by simp [attempt, transition, hget]))
    | some order =>
      by_cases hto : toStatus ∈ order.status.allowedTransitions
      · exact .inl (legal_attempt hget now hto detail)
      · exact .inr (.inl (by rw [attempt_of_refused hget now hto]))
  | submit i answer => exact .inl (legal_submit now i answer)
  | resume i answer =>
    -- The broker's id is written before the transition is checked, and stays if that faults.
    cases hget : m.get i with
    | none =>
      refine .inl ?_
      simp only [perform, resume, hget]
      exact .of_fault (by simp)
    | some order =>
      have hlate : Legal (OrderCall.resume i answer).late m (m.resume now i answer) ∨ _ :=
        resume_late hget rfl now answer
      rcases hlate with h | h
      · exact .inl h
      · exact .inr (.inr ⟨i, order, _, hget, rfl, congrArg Prod.snd h⟩)
  | cancel i brokerRaises => exact .inl (legal_cancel now i brokerRaises)

/-- Whatever a call raises, it has only written. -/
theorem perform_writes (m : OrderManager) (now : Instant) (call : OrderCall) :
    Writes call.late m (m.perform now call).2 := by
  rcases perform_outcome m now call with h | h | ⟨i, order, brokerOrderId, hget, hlate, h⟩
  · exact h.1
  · rw [h]
  · rw [h]
    exact .single (.identify hget (.inr hlate) brokerOrderId)

/-! ## Layer D: Whole runs -/

theorem Writes.sane (h : Writes late m m') (hm : m.Sane) : m'.Sane := by
  induction h with
  | refl => exact hm
  | tail _ hwrite ih => exact hwrite.sane ih

theorem Writes.final (h : Writes late m m') {other : OrderRecord} {j : OrderId}
    (hother : m.get j = some other) (hfinal : other.status.allowedTransitions = []) :
    ∃ other', m'.get j = some other' ∧ other.SameButBrokerId other' ∧
      (¬ late j → other' = other) := by
  induction h with
  | refl => exact ⟨other, hother, .refl other, fun _ => rfl⟩
  | tail _ hwrite ih =>
    obtain ⟨mid, hmid, hsame, hnot⟩ := ih
    have hstatus : mid.status = other.status := by rw [hsame]
    obtain ⟨last, hlast, hsame', hnot'⟩ := hwrite.final hmid (by rw [hstatus, hfinal])
    exact ⟨last, hlast, hsame.trans hsame', fun hlate => (hnot' hlate).trans (hnot hlate)⟩

/-- A final order through a whole run. -/
theorem run_final {calls : List (Instant × OrderCall)} {other : OrderRecord} {j : OrderId}
    (hother : m.get j = some other) (hfinal : other.status.allowedTransitions = []) :
    ∃ other', (run after m calls).get j = some other' ∧ other.SameButBrokerId other' ∧
      ((∀ call ∈ calls, ¬ call.2.late j) → other' = other) := by
  induction calls generalizing m other with
  | nil => exact ⟨other, hother, .refl other, fun _ => rfl⟩
  | cons call calls ih =>
    obtain ⟨mid, hmid, hsame, hnot⟩ := (perform_writes m call.1 call.2).final hother hfinal
    have hstatus : mid.status = other.status := by rw [hsame]
    obtain ⟨last, hlast, hsame', hnot'⟩ := ih hmid (by rw [hstatus, hfinal])
    refine ⟨last, hlast, hsame.trans hsame', fun hlate => ?_⟩
    rw [hnot' fun c hc => hlate c (List.mem_cons_of_mem _ hc), hnot (hlate call List.mem_cons_self)]

/-- **The order book over a whole run.** Whatever the book was restored from and whatever is
called on it: every log is a path of the table that ends at its order's status, no two orders
share a key, a final order stays as it is, and a call that raises an illegal transition changes
no record. Only an answer that comes late may write its broker's id on an order that has
moved on. -/
theorem order_life (records : List OrderRecord)
    (hkeys : (records.map (·.idempotencyKey)).Nodup)
    (hlaw : ∀ record ∈ records, record.LawfulLog) (calls : List (Instant × OrderCall)) :
    let m := run after (({} : OrderManager).restore records) calls
    (∀ i order, m.get i = some order → order.LawfulLog) ∧
      (∀ i j order order', m.get i = some order → m.get j = some order' →
        order.idempotencyKey = order'.idempotencyKey → i = j) ∧
      (∀ i order, m.get i = some order → order.status.allowedTransitions = [] →
        ∀ later, ∃ order', (run after m later).get i = some order' ∧
          order.SameButBrokerId order' ∧
          ((∀ call ∈ later, ¬ call.2.late i) → order' = order)) ∧
      ∀ now call, (m.perform now call).1 = some .illegalTransition →
        ∀ i, Option.Rel OrderRecord.SameButBrokerId (m.get i) ((m.perform now call).2.get i) ∧
          (¬ call.late i → (m.perform now call).2.get i = m.get i) := by
  intro m
  have hm : m.Sane := by
    apply invariant_run (fun m call hm => (perform_writes m call.1 call.2).sane hm)
    exact sane_empty.restore hkeys hlaw fun record _ => rfl
  refine ⟨hm.lawful, fun i j order order' => hm.unique, fun i order hget hfinal later =>
    run_final hget hfinal, ?_⟩
  intro now call hfault i
  have hrefl : Option.Rel OrderRecord.SameButBrokerId (m.get i) (m.get i) := by
    cases m.get i with
    | none => exact .none
    | some order => exact .some (.refl order)
  -- A call that faults leaves the orders, but for an answer that comes late: it names its order.
  rcases perform_outcome m now call with h | h | ⟨j, order, brokerOrderId, hget, hlate, h⟩
  · exact absurd hfault h.2
  · rw [h]
    exact ⟨hrefl, fun _ => rfl⟩
  · rw [h, OrderManager.identify, get_update]
    by_cases hij : j = i
    · subst hij
      rw [if_pos rfl, hget]
      exact ⟨.some (order.sameButBrokerId_identified _), fun hnot => absurd hlate hnot⟩
    · rw [if_neg hij]
      exact ⟨hrefl, fun _ => rfl⟩

/-- A submitted order that the process lost and restored, before the broker answered. -/
def restored : OrderRecord :=
  { id := 7
    idempotencyKey := "k"
    accountId := "acct"
    symbol := "NIFTY"
    direction := .long
    orderType := .market
    quantity := 1
    price := none
    status := .submitted
    events := [⟨none, .created, "created", 0⟩, ⟨some .created, .validating, "", 0⟩,
      ⟨some .validating, .riskApproved, "", 0⟩, ⟨some .riskApproved, .submitted, "", 0⟩] }

/-- The user cancels it, and then the broker reports it filled. -/
theorem order_life_overtaken :
    let m := run after (({} : OrderManager).restore [restored]) [(1, .cancel 7 false)]
    let fill := OrderCall.resume 7 ⟨.text "B1", .filled, 1, some 100, none⟩
    (m.perform 2 fill).1 = some .illegalTransition ∧
      ∀ i, Option.Rel OrderRecord.SameButBrokerId (m.get i) ((m.perform 2 fill).2.get i) := by
  intro m fill
  have hlaw : restored.LawfulLog :=
    ⟨rfl, by simp [restored, OrderStatus.allowedTransitions], rfl⟩
  have hfault : (m.perform 2 fill).1 = some .illegalTransition := by decide +kernel
  have hlife := order_life [restored] (by simp) (by simpa using hlaw) [(1, .cancel 7 false)]
  exact ⟨hfault, fun i => (hlife.2.2.2 2 fill hfault i).1⟩

/-! ## Layer E: The engine's own submission -/

/-- A transition the engine got through is one the book's call gets through. -/
theorem attempt_of_ok {now : Instant} {toStatus : OrderStatus} {detail : String}
    (h : m.transition now i toStatus detail = .ok m') :
    m.attempt now i toStatus detail = (none, m') := by
  simp [attempt, h]

end OrderManager

/-- `ExecutionEngine.submit` leaves the book that `submit` leaves of it, on the same answer. -/
theorem ExecutionEngine.submit_orderManager {β : Type} [Broker β] {e e' : ExecutionEngine β}
    {now : Instant} {i : OrderId} {order : OrderRecord} (hget : e.orderManager.get i = some order)
    (h : e.submit now i = .ok e') :
    e.orderManager.submit now i (some (Broker.placeOrder e.broker order.request).1.answer) =
      (none, e'.orderManager) := by
  unfold ExecutionEngine.submit at h
  rw [hget] at h
  dsimp only at h
  split at h
  next => cases h
  next hstatus =>
  cases hplace : Broker.placeOrder e.broker order.request with
  | mk result broker =>
  simp only [hplace] at h ⊢
  obtain ⟨submitted, hsubmitted, h⟩ := bind_ok h
  unfold OrderManager.submit
  rw [hget]
  dsimp only
  rw [if_neg hstatus, OrderManager.attempt_of_ok hsubmitted]
  -- The order the answer finds is the submitted one.
  have hallowed : OrderStatus.submitted ∈ order.status.allowedTransitions := by
    rw [not_not] at hstatus
    simp [hstatus, OrderStatus.allowedTransitions]
  have hgot : submitted.get i = some (order.moved now .submitted "sent to broker") := by
    rw [OrderManager.transition_ok hget now _ hallowed] at hsubmitted
    cases hsubmitted
    simp [hget]
  simp only [CallOutcome.andThen, OrderManager.resume, hgot]
  by_cases hrejected : result.status = .rejected
  · rw [if_pos (show result.answer.status = .rejected from hrejected)]
    simp only [if_pos hrejected] at h
    obtain ⟨orders, horders, h⟩ := bind_ok h
    cases h
    exact OrderManager.attempt_of_ok horders
  rw [if_neg (show result.answer.status ≠ .rejected from hrejected)]
  by_cases hfailed : result.status = .failed
  · rw [if_pos (show result.answer.status = .failed from hfailed)]
    simp only [if_neg hrejected, if_pos hfailed] at h
    obtain ⟨orders, horders, h⟩ := bind_ok h
    cases h
    exact OrderManager.attempt_of_ok horders
  rw [if_neg (show result.answer.status ≠ .failed from hfailed)]
  simp only [if_neg hrejected, if_neg hfailed] at h
  obtain ⟨acknowledged, hacknowledged, h⟩ := bind_ok h
  have hacknowledged : (submitted.identify i result.answer.brokerOrderId).attempt now i
      .acknowledged "broker acknowledged" = (none, acknowledged) :=
    OrderManager.attempt_of_ok hacknowledged
  rw [hacknowledged]
  dsimp only
  by_cases hfill : 0 < result.filledQuantity
  · rw [if_pos (show 0 < result.answer.filledQuantity from hfill)]
    simp only [if_pos hfill] at h
    obtain ⟨filled, hfilled, h⟩ := bind_ok h
    -- The engine's brokers price what they fill.
    have hpriced : result.answer.averageFillPrice ≠ none :=
      Option.isSome_iff_ne_none.mp (result.priced hfill)
    have hfilled : (acknowledged.update i (·.filledAs result.answer) fun _ =>
        OrderRecord.filledAs_id ..).attempt now i
          (if order.quantity ≤ result.answer.filledQuantity then .filled else .partiallyFilled)
          "filled by broker" = (none, filled) := OrderManager.attempt_of_ok hfilled
    rw [show (order.moved now .submitted "sent to broker").quantity = order.quantity from rfl,
      hfilled]
    dsimp only
    rw [if_neg hpriced]
    by_cases hfull : order.quantity ≤ result.filledQuantity
    · have hfull' : order.quantity ≤ result.answer.filledQuantity := hfull
      simp only [if_pos hfull, if_true] at h
      simp only [if_pos hfull', if_true]
      obtain ⟨monitored, hmonitored, h⟩ := bind_ok h
      cases h
      exact OrderManager.attempt_of_ok hmonitored
    · have hfull' : ¬ order.quantity ≤ result.answer.filledQuantity := hfull
      simp only [if_neg hfull, reduceCtorEq, if_false] at h
      simp only [if_neg hfull', reduceCtorEq, if_false]
      cases h
      rfl
  · rw [if_neg (show ¬ 0 < result.answer.filledQuantity from hfill)]
    simp only [if_neg hfill] at h
    cases h
    rfl

end SuperTrading
