import SuperTrading.Api.Orders
import SuperTrading.Brokers.Recording
import SuperTrading.Brokers.Scripted
import SuperTrading.Logic.Dedupe

/-!
# At-Most-Once Submission

Runs of `POST /orders` in which the process stops at await points and is restarted.
The key of an order lives in memory, the order at the broker, and its row is
committed after the broker was called. A stop between the call and the commit loses
the key. With no such stop, every key is a sound key of `SuperTrading.Logic.Dedupe`.

- **Events**: calls, stops during a call, restarts between calls
- **Layer A**: what a call leaves alone
- **Layer B**: each key of the service simulates a `KeyState`
- **Layer C**: runs
-/

namespace SuperTrading

open SuperTrading.Logic

variable {β : Type} [Broker β]

/-! ## Section 1: Events -/

/-- One thing that happens to a user's service, some time after the one before. -/
inductive ServiceEvent
  | call (elapsed : ℕ) (env : CallEnv) (request : PlaceOrderRequest)
  | stop (elapsed : ℕ) (env : CallEnv) (request : PlaceOrderRequest) (point : World.StopPoint)
      (downtime : ℕ)
  | restart (downtime : ℕ)

namespace World

/-- Time passes. -/
def tick (w : World (Recording β)) (elapsed : ℕ) : World (Recording β) :=
  { w with stack := { w.stack with broker := w.stack.broker.tick elapsed } }

def clock (w : World (Recording β)) : Instant := w.stack.broker.clock

end World

/-- A call runs to its end; or the process stops during it, and is back after the
downtime; or it stops and comes back between two calls. -/
def serviceStep (w : World (Recording β)) : ServiceEvent → World (Recording β)
  | .call elapsed env r =>
    let w := w.tick elapsed
    (w.placeOrder { env with now := w.clock } r).world
  | .stop elapsed env r point downtime =>
    let w := w.tick elapsed
    (w.stoppedAt { env with now := w.clock } r point (w.clock + downtime)).tick downtime
  | .restart downtime =>
    let w := w.tick downtime
    w.rebuild w.clock

/-- Every key reached the broker as an entry order once, and again, if at all, only
more than 24 hours after its first use. -/
def SubmittedOnce (w : World (Recording β)) : Prop :=
  ∀ key, UsedOnce (Instant.hours 24) (w.stack.broker.uses key)

/-- The process does not stop between the broker call of an entry order and the
commit of its row. -/
def CommitsEntry (w : World (Recording β)) : ServiceEvent → Prop
  | .stop elapsed env r .brokerCalled _ =>
    let w := w.tick elapsed
    (w.stack.gate { env with now := w.clock } r).1 = .ok () →
      (w.stack.orderManager.lookup (r.idempotencyKey w.stack.userId)).isSome
  | _ => True

/-! ## Layer A: What a call leaves alone -/

/-- The same entry orders and the same memory of keys. -/
structure Stack.QuietTo (s s' : Stack (Recording β)) : Prop where
  user : s'.userId = s.userId
  broker : s.broker.Quiet s'.broker
  orders : s'.orderManager = s.orderManager

namespace Stack

omit [Broker β] in
theorem QuietTo.refl (s : Stack (Recording β)) : s.QuietTo s := ⟨rfl, .refl _, rfl⟩

omit [Broker β] in
theorem QuietTo.trans {s s' s'' : Stack (Recording β)} (h : s.QuietTo s') (h' : s'.QuietTo s'') :
    s.QuietTo s'' :=
  ⟨h'.user.trans h.user, h.broker.trans h'.broker, h'.orders.trans h.orders⟩

theorem quietTo_prepared (s : Stack (Recording β)) (env : CallEnv) (r : PlaceOrderRequest) :
    s.QuietTo (s.prepared env r) := by
  unfold prepared seedQuote
  split
  · exact ⟨rfl, Recording.quiet_inner .., rfl⟩
  · exact ⟨rfl, .refl _, rfl⟩

theorem quiet_cancelProtectiveStop (b : Recording β) (position : PositionRecord) :
    b.Quiet (cancelProtectiveStop b position).2.1 := by
  unfold cancelProtectiveStop
  split
  · exact .refl b
  · rename_i orderId _
    have hcancel : b.Quiet (Broker.cancelOrder b orderId).2 := b.quiet_inner _
    split
    · rename_i heq
      rwa [heq] at hcancel
    · rename_i heq
      rw [heq] at hcancel
      split <;> exact hcancel

theorem quiet_ensureProtectiveStop (b : Recording β) (position : PositionRecord) (uuid : ℕ) :
    b.Quiet (ensureProtectiveStop b position uuid).2.1 := by
  have hcancel := quiet_cancelProtectiveStop b position
  unfold ensureProtectiveStop
  split
  · rename_i heq
    rwa [heq] at hcancel
  · rename_i broker position' heq
    rw [heq] at hcancel
    split
    · -- The new stop is an order, but not an entry order.
      have hstop : broker.Quiet (placeProtectiveStop broker position' uuid).2.1 := by
        have hplace := broker.quiet_placeOrder_stop (stopRequest position' uuid) rfl
        unfold placeProtectiveStop
        dsimp only
        split
        · exact hplace
        · split <;> exact hplace
      exact hcancel.trans hstop
    · exact hcancel

theorem quietTo_guardPosition (s : Stack (Recording β)) (r : PlaceOrderRequest) (created : Bool)
    (order : OrderRecord) (after : PositionRecord) :
    s.QuietTo (s.guardPosition r created order after).1 := by
  unfold guardPosition
  dsimp only
  split
  · exact ⟨rfl, quiet_ensureProtectiveStop .., rfl⟩
  · exact ⟨rfl, .refl _, rfl⟩

theorem quietTo_journal (s : Stack (Recording β)) (db : Db) (now : Instant)
    (before : Option PositionRecord) (after : PositionRecord) (order : OrderRecord)
    (stop target : Option ℚ) :
    s.QuietTo (s.journal db now before after order stop target).1 := by
  unfold journal
  dsimp only
  split
  · exact .refl s
  · split
    · exact ⟨rfl, .refl _, rfl⟩
    · exact .refl s

end Stack

/-- A restart calls no broker that counts. -/
theorem quiet_rebuild (w : World (Recording β)) (now : Instant) :
    w.stack.broker.Quiet (w.rebuild now).stack.broker := by
  show w.stack.broker.Quiet (if _ then _ else _)
  split <;> exact Recording.quiet_inner ..

/-! ## Layer B: Each key simulates a key state -/

/-- A key state is what broker, memory and rows say of a key. Memory may know more. -/
structure Represents (b : Recording β) (m : OrderManager) (db : Db) (key : String)
    (k : KeyState ℕ) : Prop where
  clock : b.clock = k.clock
  uses : b.uses key = k.uses
  known : k.known = true → (m.lookup key).isSome
  row : match k.row with
    | none => key ∉ db.keys
    | some t => db.HoldsKey (executionModeFor (Recording β)) t key

/-- Every order in memory has a row. -/
def Journaled (m : OrderManager) (db : Db) : Prop :=
  ∀ i order, m.get i = some order → order.idempotencyKey ∈ db.keys

namespace Represents

variable {b b' : Recording β} {m m' : OrderManager} {db db' : Db} {key : String} {k : KeyState ℕ}

theorem quiet (h : Represents b m db key k) (hb : b.Quiet b') (hm : m' = m)
    (hdb : db'.orders = db.orders) : Represents b' m' db' key k where
  clock := hb.clock.trans h.clock
  uses := (hb.uses key).trans h.uses
  known hk := hm ▸ h.known hk
  row := by
    have hrow := h.row
    unfold Db.keys Db.HoldsKey at hrow ⊢
    rwa [hdb]

/-- Time passes. -/
theorem wait (h : Represents b m db key k) (elapsed : ℕ) :
    Represents (b.tick elapsed) m db key (k.move (Instant.hours 24) (.wait elapsed)) where
  clock := congrArg (· + elapsed) h.clock
  uses := h.uses
  known := h.known
  row := h.row

/-- The row of an order that has one is rewritten. -/
theorem rewrite (h : Represents b m db key k) {order : OrderRecord}
    (hrow : order.idempotencyKey ∈ db.keys) (now : Instant) (mode : ExecutionMode) :
    Represents b m (db.persistOrder now order mode) key k where
  clock := h.clock
  uses := h.uses
  known := h.known
  row := by
    have hold := h.row
    cases hk : k.row with
    | none =>
      rw [hk] at hold
      show key ∉ _
      rw [Db.mem_keys_persistOrder]
      rintro (rfl | hmem)
      · exact hold hrow
      · exact hold hmem
    | some t =>
      rw [hk] at hold
      exact Db.HoldsKey.persistOrder hold now order mode

/-- A restart: memory is read back from the rows. -/
theorem restart {w : World (Recording β)} {now : Instant}
    (h : Represents w.stack.broker m w.db key k) (hnow : w.stack.broker.clock = now) :
    Represents (w.rebuild now).stack.broker (w.rebuild now).stack.orderManager w.db key
      (k.move (Instant.hours 24) .restart) := by
  have hquiet := quiet_rebuild w now
  refine ⟨hquiet.clock.trans h.clock, (hquiet.uses key).trans h.uses, ?_, h.row⟩
  intro hk
  have hrow := h.row
  cases ht : k.row with
  | none => simp [KeyState.move, ht] at hk
  | some t =>
    rw [ht] at hrow
    have hwindow : k.clock ≤ t + Instant.hours 24 := by simpa [KeyState.move, ht] using hk
    -- The row is recent enough to be reloaded.
    have hsince : now - orderRehydrationWindow ≤ t := by
      rw [Nat.sub_le_iff_le_add, ← hnow, h.clock]
      exact hwindow
    have hloaded := Db.HoldsKey.loadRecentOrders hrow w.stack.userId hsince
    exact (OrderManager.lookup_restore_isSome _ _ key).mpr (Or.inl hloaded)

/-- A new order reaches the broker under its key, and its row is committed. -/
theorem enter (h : Represents b m db key k) {order stored : OrderRecord}
    (hnew : m.lookup order.idempotencyKey = none)
    (hstored : stored.idempotencyKey = order.idempotencyKey) (hclock : b'.clock = b.clock)
    (huses : b'.uses key =
      b.uses key ++ if order.idempotencyKey = key then [b.clock] else [])
    (hlookup : (m'.lookup key).isSome ↔ key = order.idempotencyKey ∨ (m.lookup key).isSome) :
    Represents b' m'
      (db.persistOrder b.clock stored (executionModeFor (Recording β))) key
      (if order.idempotencyKey = key then k.move (Instant.hours 24) .enter else k) := by
  split
  · -- The key of this order: it moves, and every other key stays.
    rename_i hkey
    subst hkey
    rw [if_pos rfl] at huses
    have hforgotten : k.known = false := by
      cases hk : k.known with
      | false => rfl
      | true =>
        have hsome := h.known hk
        rw [hnew] at hsome
        cases hsome
    refine ⟨?_, ?_, fun _ => hlookup.mpr (Or.inl rfl), ?_⟩
    · simp [KeyState.move, hforgotten, hclock, h.clock]
    · simp [KeyState.move, hforgotten, huses, h.uses, h.clock]
    · -- A row from before the window is kept, with its old time.
      have hold := h.row
      simp only [KeyState.move, hforgotten]
      cases hk : k.row with
      | none =>
        -- The first row of this key.
        rw [hk] at hold
        show Db.HoldsKey _ _ k.clock _
        rw [← h.clock, ← hstored]
        exact Db.holdsKey_persistOrder (by rwa [hstored])
      | some t =>
        rw [hk] at hold
        exact Db.HoldsKey.persistOrder hold ..
  · rename_i hkey
    rw [if_neg hkey, List.append_nil] at huses
    refine ⟨hclock.trans h.clock, huses.trans h.uses,
      fun hk => hlookup.mpr (Or.inr (h.known hk)), ?_⟩
    have hold := h.row
    cases hk : k.row with
    | none =>
      rw [hk] at hold
      show key ∉ _
      rw [Db.mem_keys_persistOrder, hstored]
      rintro (rfl | hmem)
      · exact hkey rfl
      · exact hold hmem
    | some t =>
      rw [hk] at hold
      exact Db.HoldsKey.persistOrder hold ..

end Represents

/-- At this time every key is a sound key state, and every order in memory has a row. -/
structure Tracked (now : Instant) (b : Recording β) (m : OrderManager) (db : Db) : Prop where
  clock : b.clock = now
  journaled : Journaled m db
  sound : ∀ key, ∃ k, k.Sound (Instant.hours 24) ∧ Represents b m db key k

namespace Tracked

variable {now : Instant} {b b' : Recording β} {m m' : OrderManager} {db db' : Db}

theorem quiet (h : Tracked now b m db) (hb : b.Quiet b') (hm : m' = m)
    (hdb : db'.orders = db.orders) : Tracked now b' m' db' where
  clock := hb.clock.trans h.clock
  journaled i order hget := by
    unfold Db.keys
    rw [hdb]
    exact h.journaled i order (hm ▸ hget)
  sound key := by
    obtain ⟨k, hk, hrep⟩ := h.sound key
    exact ⟨k, hk, hrep.quiet hb hm hdb⟩

theorem wait (h : Tracked now b m db) (elapsed : ℕ) :
    Tracked (now + elapsed) (b.tick elapsed) m db where
  clock := congrArg (· + elapsed) h.clock
  journaled := h.journaled
  sound key := by
    obtain ⟨k, hk, hrep⟩ := h.sound key
    exact ⟨_, hk.move _, hrep.wait elapsed⟩

/-- A restart, whatever memory was before it. -/
theorem restart {w : World (Recording β)} (h : Tracked now w.stack.broker m w.db) :
    Tracked now (w.rebuild now).stack.broker (w.rebuild now).stack.orderManager w.db where
  clock := (quiet_rebuild w now).clock.trans h.clock
  journaled i order hget := by
    rcases OrderManager.get_restore hget with hmem | hempty
    · obtain ⟨row, hrow, rfl⟩ := List.mem_map.mp hmem
      exact List.mem_map_of_mem (List.mem_filter.mp hrow).1
    · exact absurd hempty (by simp [OrderManager.get])
  sound key := by
    obtain ⟨k, hk, hrep⟩ := h.sound key
    exact ⟨_, hk.move _, hrep.restart h.clock⟩

/-- The order of an approved request is entered, or was, and its row is committed. -/
theorem orderEntered {s : Stack (Recording β)} {env : CallEnv}
    (h : Tracked env.now s.broker s.orderManager db) (r : PlaceOrderRequest) :
    ∃ order created s', World.orderEntered s env r = .ok (order, created, s') ∧
      Tracked env.now s'.broker s'.orderManager
        (db.persistOrder env.now order (executionModeFor (Recording β))) := by
  cases hkey : s.orderManager.lookup (r.idempotencyKey s.userId) with
  | some order =>
    refine ⟨order, false, s, Stack.enterOrder_known hkey .., ?_⟩
    -- Known: the order is in memory, so its row is committed and only rewritten.
    obtain ⟨i, hi, hget⟩ := Option.bind_eq_some_iff.mp hkey
    have hrow := h.journaled i order hget
    exact
      { clock := h.clock
        journaled := fun i' order' hget' =>
          Db.mem_keys_persistOrder.mpr (Or.inr (h.journaled i' order' hget'))
        sound := fun key => by
          obtain ⟨k, hk, hrep⟩ := h.sound key
          exact ⟨k, hk, hrep.rewrite hrow ..⟩ }
  | none =>
    refine ⟨_, true, _, Stack.enterOrder_new hkey .., ?_⟩
    -- New: the order reaches the broker under its key, and then its row is written.
    set new := s.newOrder env.now (r.idempotencyKey s.userId) r.symbol r.direction r.orderType
      (s.orderQuantity r) r.price with hnew
    have hentry : new.request.orderType ≠ .slM := by
      show r.orderType ≠ .slM
      rcases r.executable with hm | ⟨hl, -⟩
      · rw [hm]
        decide
      · rw [hl]
        decide
    exact
      { clock := h.clock
        journaled := fun i order hget => by
          rw [Db.mem_keys_persistOrder, OrderRecord.finished_idempotencyKey]
          simp only [Stack.entered, OrderManager.get_update, OrderManager.get_insert] at hget
          split at hget
          · cases hget
            exact Or.inl (OrderRecord.finished_idempotencyKey ..)
          · exact Or.inr (h.journaled i order hget)
        sound := fun key => by
          obtain ⟨k, hk, hrep⟩ := h.sound key
          refine ⟨if new.idempotencyKey = key then k.move (Instant.hours 24) .enter else k, ?_, ?_⟩
          · split
            · exact hk.move _
            · exact hk
          · rw [← h.clock]
            refine hrep.enter hkey (OrderRecord.finished_idempotencyKey ..) rfl ?_ ?_
            · show (Broker.placeOrder s.broker new.request).2.uses key =
                s.broker.uses key ++ if new.request.idempotencyKey = key then [_] else []
              rw [Recording.uses_placeOrder]
              simp [hentry]
            · simp only [Stack.entered, OrderManager.lookup_update_isSome]
              exact OrderManager.lookup_insert_isSome .. }

theorem orders_persistPosition (db : Db) (position : PositionRecord) (mode : ExecutionMode)
    (sourceKey : String) : (db.persistPosition position mode sourceKey).orders = db.orders := by
  unfold Db.persistPosition
  dsimp only
  split <;> rfl

theorem orders_journal (s : Stack (Recording β)) (db : Db) (now : Instant)
    (before : Option PositionRecord) (after : PositionRecord) (order : OrderRecord)
    (stop target : Option ℚ) :
    (s.journal db now before after order stop target).2.orders = db.orders := by
  unfold Stack.journal
  dsimp only
  split
  · rfl
  · split <;> rfl

/-- A call that the gate approved runs to its end. -/
theorem settle {s : Stack (Recording β)} {env : CallEnv}
    (h : Tracked env.now s.broker s.orderManager db) (r : PlaceOrderRequest) :
    Tracked env.now (World.settle s db env r).2.1.stack.broker
      (World.settle s db env r).2.1.stack.orderManager (World.settle s db env r).2.1.db := by
  obtain ⟨order, created, s', henter, hentered⟩ := h.orderEntered r
  unfold World.settle
  simp only [henter]
  split
  · exact hentered
  · rename_i after hafter
    -- Guarding and journaling send no entry order and write no order row.
    have hguard := s'.quietTo_guardPosition r created order after
    have hjournal := Stack.quietTo_journal (s'.guardPosition r created order after).1
      ((db.persistOrder env.now order (executionModeFor (Recording β))).persistPosition
        (s'.guardPosition r created order after).2.1 (executionModeFor (Recording β))
        manualSourceKey) env.now (s.position r.symbol) (s'.guardPosition r created order after).2.1
      order ((s.position r.symbol).bind PositionRecord.stop)
      ((s.position r.symbol).bind PositionRecord.target)
    have hquiet := hguard.trans hjournal
    refine hentered.quiet hquiet.broker hquiet.orders ?_
    rw [orders_journal, orders_persistPosition]

/-- A call that the gate approved stops on the way, not between the broker call of a
new order and the commit of its row: what is durable then is tracked, with the
memory of some moment of the call. -/
theorem durableAt {s : Stack (Recording β)} {env : CallEnv}
    (h : Tracked env.now s.broker s.orderManager db) {r : PlaceOrderRequest}
    {point : World.StopPoint} (hpoint : point = .brokerCalled →
      (s.orderManager.lookup (r.idempotencyKey s.userId)).isSome) :
    ∃ m, Tracked env.now (World.durableAt s db env r point).1 m
      (World.durableAt s db env r point).2 := by
  obtain ⟨order, created, s', henter, hentered⟩ := h.orderEntered r
  have hguard := fun after => s'.quietTo_guardPosition r created order after
  unfold World.durableAt
  -- One case per await point; only `brokerCalled` needs the hypothesis.
  cases point with
  | beforeBroker => exact ⟨_, h⟩
  | brokerCalled =>
    -- The key was known, so this call entered nothing.
    obtain ⟨known, hknown⟩ := Option.isSome_iff_exists.mp (hpoint rfl)
    have hsame : World.orderEntered s env r = .ok (known, false, s) :=
      Stack.enterOrder_known hknown ..
    simp only [hsame]
    exact ⟨_, h⟩
  | orderCommitted =>
    simp only [henter]
    exact ⟨_, hentered⟩
  | stopCancelled =>
    simp only [henter]
    split
    · split
      · exact ⟨_, hentered.quiet (Stack.quiet_cancelProtectiveStop ..) rfl rfl⟩
      · exact ⟨_, hentered⟩
    · exact ⟨_, hentered⟩
  | stopPlaced =>
    simp only [henter]
    split
    · rename_i after hafter
      exact ⟨_, hentered.quiet (hguard after).broker (hguard after).orders rfl⟩
    · exact ⟨_, hentered⟩
  | positionCommitted =>
    simp only [henter]
    split
    · rename_i after hafter
      exact ⟨_, hentered.quiet (hguard after).broker (hguard after).orders
        (orders_persistPosition ..)⟩
    · exact ⟨_, hentered⟩
  | tradeCommitted =>
    simp only [henter]
    exact ⟨_, h.settle r⟩

end Tracked

/-! ## Layer C: Runs -/

/-- A world whose keys are all sound. -/
def World.Tracks (w : World (Recording β)) : Prop :=
  Tracked w.clock w.stack.broker w.stack.orderManager w.db

namespace World.Tracks

variable {w : World (Recording β)} {env : CallEnv} {r : PlaceOrderRequest}

theorem of_tracked {now : Instant} (h : Tracked now w.stack.broker w.stack.orderManager w.db) :
    w.Tracks := by
  obtain rfl := h.clock
  exact h

theorem submittedOnce (h : w.Tracks) : SubmittedOnce w := by
  intro key
  obtain ⟨k, hk, hrep⟩ := h.sound key
  rw [hrep.uses]
  exact hk.usedOnce

theorem tick (h : w.Tracks) (elapsed : ℕ) : (w.tick elapsed).Tracks := h.wait elapsed

/-- `POST /orders`, at the time of the broker's clock. -/
theorem placeOrder (h : w.Tracks) (hnow : env.now = w.clock) :
    (w.placeOrder env r).world.Tracks := by
  have hprepared := w.stack.quietTo_prepared env r
  have happroved : Tracked env.now (w.stack.prepared env r).broker
      (w.stack.prepared env r).orderManager w.db :=
    hnow ▸ h.quiet hprepared.broker hprepared.orders rfl
  rcases w.stack.gate_cases env r with ⟨refusal, s', decision, hgate, hs', -⟩ |
    ⟨quote, decision, hgate, -, -, -⟩
  · simp only [World.placeOrder, hgate]
    rcases hs' with rfl | rfl | rfl
    · exact h
    · exact h
    · exact of_tracked happroved
  · simp only [World.placeOrder, hgate]
    exact of_tracked (happroved.settle r)

/-- The downtime passes at the broker, whether the stack is built before or after it. -/
theorem rebuild_tick (w : World (Recording β)) (now : Instant) (downtime : ℕ) :
    (w.rebuild now).tick downtime = (w.tick downtime).rebuild now := by
  cases hmock : Broker.isMock (Recording β) <;>
    simp only [World.rebuild, World.tick, Stack.build, hmock] <;> rfl

/-- What is durable when the process stops is tracked, so the restarted service is. -/
theorem stopped {now : Instant} {m : OrderManager} (h : Tracked now w.stack.broker m w.db)
    (downtime : ℕ) : ((w.rebuild (now + downtime)).tick downtime).Tracks := by
  rw [rebuild_tick]
  exact of_tracked (Tracked.restart (w := w.tick downtime) (h.wait downtime))

/-- A call that stops, but not between the broker call of a new order and the commit
of its row. -/
theorem stoppedAt (h : w.Tracks) (hnow : env.now = w.clock) {point : StopPoint}
    (hpoint : point = .brokerCalled → (w.stack.gate env r).1 = .ok () →
      (w.stack.orderManager.lookup (r.idempotencyKey w.stack.userId)).isSome) (downtime : ℕ) :
    ((w.stoppedAt env r point (env.now + downtime)).tick downtime).Tracks := by
  have hprepared := w.stack.quietTo_prepared env r
  have hbefore : Tracked env.now w.stack.broker w.stack.orderManager w.db := hnow ▸ h
  have happroved := hbefore.quiet hprepared.broker hprepared.orders (rfl : w.db.orders = _)
  -- A refusal stops the call before anything is durable.
  rcases w.stack.gate_cases env r with ⟨refusal, s', decision, hgate, hs', -⟩ |
    ⟨quote, decision, hgate, -, -, -⟩
  · simp only [World.stoppedAt, hgate]
    rcases hs' with rfl | rfl | rfl
    · exact stopped hbefore downtime
    · exact stopped (w := { w with stack := w.stack.rollRiskWindow env.now }) hbefore downtime
    · exact stopped (w := { w with stack := w.stack.prepared env r }) happroved downtime
  · have hknown : point = .brokerCalled → ((w.stack.prepared env r).orderManager.lookup
        (r.idempotencyKey (w.stack.prepared env r).userId)).isSome := by
      intro hcalled
      rw [hprepared.orders, hprepared.user]
      exact hpoint hcalled (by rw [hgate])
    obtain ⟨m, hdurable⟩ := happroved.durableAt hknown
    simp only [World.stoppedAt, hgate]
    exact stopped
      (w :=
        { stack :=
            { w.stack.prepared env r with
              broker := (World.durableAt (w.stack.prepared env r) w.db env r point).1 }
          db := (World.durableAt (w.stack.prepared env r) w.db env r point).2 })
      hdurable downtime

/-- One event of the service. -/
theorem step (h : w.Tracks) {e : ServiceEvent} (he : CommitsEntry w e) :
    (serviceStep w e).Tracks := by
  cases e with
  | call elapsed env r => exact (h.tick elapsed).placeOrder rfl
  | stop elapsed env r point downtime =>
    refine (h.tick elapsed).stoppedAt rfl ?_ downtime
    rintro rfl
    exact he
  | restart downtime => exact of_tracked (h.tick downtime).restart

end World.Tracks

/-- The service of a user who never traded, at any broker. -/
def freshService (userId : AccountId) (broker : β) (start : Instant) : World (Recording β) :=
  { stack := Stack.build userId { inner := broker, clock := start } {} start }

theorem tracks_freshService (userId : AccountId) (broker : β) (start : Instant) :
    (freshService userId broker start).Tracks := by
  have hquiet : ({ inner := broker, clock := start } : Recording β).Quiet
      (freshService userId broker start).stack.broker := by
    show Recording.Quiet _ (if _ then _ else _)
    split
    · exact Recording.quiet_inner ..
    · exact .refl _
  -- Nothing was sent yet, so that no key is known anywhere.
  have hstart : Tracked start (freshService userId broker start).stack.broker
      (freshService userId broker start).stack.orderManager
      (freshService userId broker start).db :=
    { clock := hquiet.clock
      journaled := fun i order hget => by cases hget
      sound := fun key =>
        ⟨{ clock := start }, Or.inl ⟨rfl, rfl⟩,
          { clock := hquiet.clock
            uses := hquiet.uses key
            known := fun hk => by cases hk
            row := by simp [freshService, Db.keys] }⟩ }
  exact World.Tracks.of_tracked hstart

/-- A buy of ACME at 100 with its stop at 95. -/
def acmeBuy : PlaceOrderRequest := .market "ACME" .long 100 95

/-- The buy; the buy again, with a stop of the process after the commit; and again. -/
def resubmissions : List ServiceEvent :=
  [.call 1 { now := 0, priceAgeSeconds := some 0 } acmeBuy,
    .stop 1 { now := 0, priceAgeSeconds := some 0 } acmeBuy .orderCommitted 1,
    .call 1 { now := 0, priceAgeSeconds := some 0 } acmeBuy]

end SuperTrading
