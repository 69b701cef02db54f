import SuperTrading.Api.Stack
import SuperTrading.Auth.Refresh
import SuperTrading.Logic.Flags
import Mathlib.Data.List.MinMax

/-!
# The Stack Cache

`_stack_for` of `app/api/orders.py` with `resolve_broker` and `active_broker_account_id` of
`app/trading/broker_resolver.py`, and the routes of `app/api/brokers.py` that connect and disconnect
an account meanwhile. Calls are tasks of one process that interleave wherever they await; a call may
raise or be cancelled at any of these places, and the process may be restarted.

- **Section 1**: broker accounts
- **Section 2**: calls and steps
- **Section 3**: what a step does to a call
- **Section 4**: a disconnected account is traded through no longer
- **Section 5**: one stack while the account stays the same
-/

namespace SuperTrading

open SuperTrading.Logic

/-! ## Section 1: Broker accounts -/

abbrev BrokerAccountId := String

inductive BrokerName
  | dhan
  | upstox
  | paper
  deriving DecidableEq, Repr

inductive BrokerAccountStatus
  | active
  | disconnected
  | error
  deriving DecidableEq, Repr

/-- A row of `broker_accounts`, with the `access_token` of its credentials. -/
structure BrokerAccount where
  userId : UserId
  broker : BrokerName
  accessToken : Option String
  status : BrokerAccountStatus := .active
  createdAt : Instant
  deriving DecidableEq, Repr

abbrev BrokerAccounts := Dict BrokerAccountId BrokerAccount

/-- What a stack trades through. -/
inductive ResolvedBroker
  | mock
  | upstox (accessToken : String)
  deriving DecidableEq, Repr

namespace BrokerAccounts

variable (accounts : BrokerAccounts) (userId : UserId)

def activeOf : List (BrokerAccountId × BrokerAccount) :=
  accounts.entries.filter fun e => e.2.userId = userId ∧ e.2.status = .active

/-- The newest active account, of those of one instant the first in the table. -/
def newest : Option (BrokerAccountId × BrokerAccount) :=
  (accounts.activeOf userId).argmax fun e => e.2.createdAt

/-- `active_broker_account_id`. -/
def activeBrokerAccountId : Option BrokerAccountId := (accounts.newest userId).map Prod.fst

/-- `resolve_broker`. -/
def resolveBroker : Except String (ResolvedBroker × Option BrokerAccountId) :=
  match accounts.newest userId with
  | none => .ok (.mock, none)
  | some (id, account) =>
    match account.broker with
    | .upstox =>
      match account.accessToken.filter (· ≠ "") with
      | none => .error s!"Connected Upstox account {id} has no access_token stored"
      | some accessToken => .ok (.upstox accessToken, some id)
    | .dhan =>
      .error (s!"Connected Dhan account {id} cannot trade: the Dhan adapter is not " ++
        "implemented yet (app/brokers/dhan/adapter.py). Disconnect it, or connect an " ++
        "Upstox account, to place orders.")
    | .paper => .ok (.mock, some id)

/-- `_reject_unusable_connection`. -/
def rejectUnusableConnection (broker : BrokerName) (accessToken : Option String) :
    Option HttpError :=
  match broker with
  | .dhan =>
    some ⟨501, "The Dhan adapter is not implemented yet (app/brokers/dhan/adapter.py is a " ++
      "skeleton -- see blueprint §120). Connect an Upstox account, or use paper " ++
      "trading, until it is written against Dhan's current API."⟩
  | .upstox =>
    if (accessToken.filter (· ≠ "")).isNone then
      some ⟨422, "An Upstox connection needs an 'access_token' in credentials. Prefer the OAuth " ++
        "flow (GET /brokers/upstox/authorize), which stores one for you."⟩
    else none
  | .paper => none

/-- The insert of a new row, whose id is taken from nobody. -/
def insert (id : BrokerAccountId) (account : BrokerAccount) : Except HttpError BrokerAccounts :=
  if (accounts.get? id).isSome then .error ⟨500, "Internal Server Error"⟩
  else .ok (accounts.set id account)

/-- `connect_broker`. -/
def connectBroker (id : BrokerAccountId) (broker : BrokerName) (accessToken : Option String)
    (now : Instant) : Except HttpError BrokerAccounts :=
  match rejectUnusableConnection broker accessToken with
  | some refusal => .error refusal
  | none => accounts.insert id { userId, broker, accessToken, createdAt := now }

/-- The row that `upstox_callback` inserts, of whatever token the broker answered with. -/
def upstoxCallback (id : BrokerAccountId) (accessToken : Option String) (now : Instant) :
    Except HttpError BrokerAccounts :=
  accounts.insert id { userId, broker := .upstox, accessToken, createdAt := now }

/-- `disconnect_broker`. -/
def disconnectBroker (id : BrokerAccountId) : Except HttpError BrokerAccounts :=
  match accounts.get? id with
  | none => .error ⟨404, "Broker account not found"⟩
  | some account =>
    if account.userId ≠ userId then .error ⟨404, "Broker account not found"⟩
    else .ok (accounts.set id { account with status := .disconnected, accessToken := none })

end BrokerAccounts

/-! ## Section 2: Calls and steps -/

/-- A `_UserTradingStack`: the adapter and the account it was built from. -/
structure CachedStack where
  broker : ResolvedBroker
  brokerAccountId : Option BrokerAccountId
  /-- on the side: the call that built it, which tells it from any other -/
  builtBy : ℕ
  deriving DecidableEq, Repr

inductive StackPhase
  /-- in the query of `active_broker_account_id` -/
  | asking
  /-- that query has its answer -/
  | asked (current : Option BrokerAccountId)
  /-- at the lock of the user -/
  | waiting
  /-- with the lock, in the query of `resolve_broker` -/
  | resolving
  /-- with the lock, in the queries that restore the books and the counters -/
  | building (broker : ResolvedBroker) (brokerAccountId : Option BrokerAccountId)
  | returned (stack : CachedStack)
  /-- the 503 of a `BrokerError` -/
  | refused (detail : String)
  /-- raised, cancelled, or gone with its process -/
  | failed
  deriving DecidableEq, Repr

def StackPhase.isOver : StackPhase → Bool
  | returned _ | refused _ | failed => true
  | _ => false

def StackPhase.isLocking : StackPhase → Bool
  | resolving | building _ _ => true
  | _ => false

structure StackCall where
  userId : UserId
  phase : StackPhase := .asking
  deriving DecidableEq, Repr

/-- The table, `_STACKS`, the users whose lock is held, and the calls in the order they begin. -/
structure StackWorld where
  accounts : BrokerAccounts := Dict.empty
  userStacks : Dict UserId CachedStack := Dict.empty
  locked : List UserId := []
  calls : List StackCall := []

inductive StackCacheEvent
  | connect (userId : UserId) (id : BrokerAccountId) (broker : BrokerName)
      (accessToken : Option String) (now : Instant)
  | callback (userId : UserId) (id : BrokerAccountId) (accessToken : Option String) (now : Instant)
  | disconnect (userId : UserId) (id : BrokerAccountId)
  | begin (userId : UserId)
  /-- the call runs to its next `await`, or the database answers its query -/
  | advance (i : ℕ)
  | fail (i : ℕ)
  | restart

/-- The user whose accounts a request is about. -/
def StackCacheEvent.accountUser : StackCacheEvent → Option UserId
  | connect userId _ _ _ _ => some userId
  | callback userId _ _ _ => some userId
  | disconnect userId _ => some userId
  | begin _ | advance _ | fail _ | restart => none

namespace StackWorld

variable (w : StackWorld)

def setPhase (i : ℕ) (phase : StackPhase) : StackWorld :=
  { w with calls := w.calls.modify i fun call => { call with phase } }

/-- The cache after the check at the top: another account's stack is dropped. -/
def checked (userId : UserId) (current : Option BrokerAccountId) : Dict UserId CachedStack :=
  if (w.userStacks.get? userId).any fun stack => stack.brokerAccountId ≠ current then
    w.userStacks.erase userId
  else w.userStacks

def unlocked (userId : UserId) : List UserId := w.locked.filter (· ≠ userId)

/-- What a call does next. A lock that is free is taken in a step of its own. -/
def advance (i : ℕ) (call : StackCall) : StackWorld :=
  match call.phase with
  | .asking => w.setPhase i (.asked (w.accounts.activeBrokerAccountId call.userId))
  | .asked current =>
    let userStacks := w.checked call.userId current
    match userStacks.get? call.userId with
    | some stack => { w.setPhase i (.returned stack) with userStacks }
    | none => { w.setPhase i .waiting with userStacks }
  | .waiting =>
    if call.userId ∈ w.locked then w
    else
      -- The second look, with the lock in hand, asks for a stack and not for its account.
      match w.userStacks.get? call.userId with
      | some stack => w.setPhase i (.returned stack)
      | none => { w.setPhase i .resolving with locked := call.userId :: w.locked }
  | .resolving =>
    match w.accounts.resolveBroker call.userId with
    | .error detail =>
      { w.setPhase i (.refused detail) with locked := w.unlocked call.userId }
    | .ok (broker, brokerAccountId) => w.setPhase i (.building broker brokerAccountId)
  | .building broker brokerAccountId =>
    let stack : CachedStack := { broker, brokerAccountId, builtBy := i }
    { w.setPhase i (.returned stack) with
      userStacks := w.userStacks.set call.userId stack
      locked := w.unlocked call.userId }
  | .returned _ | .refused _ | .failed => w

/-- A query raises or the request is cancelled; a lock that is held is given back. -/
def fail (i : ℕ) (call : StackCall) : StackWorld :=
  if call.phase.isOver then w
  else
    { w.setPhase i .failed with
      locked := if call.phase.isLocking then w.unlocked call.userId else w.locked }

def onCall (i : ℕ) (act : StackCall → StackWorld) : StackWorld :=
  match w.calls[i]? with
  | some call => act call
  | none => w

/-- A new process has no stacks and no locks, and the calls of the old one are gone. -/
def restart : StackWorld :=
  { accounts := w.accounts
    calls := w.calls.map fun call =>
      if call.phase.isOver then call else { call with phase := .failed } }

def withAccounts (answer : Except HttpError BrokerAccounts) : StackWorld :=
  { w with accounts := answer.toOption.getD w.accounts }

def step (w : StackWorld) : StackCacheEvent → StackWorld
  | .connect userId id broker accessToken now =>
    w.withAccounts (w.accounts.connectBroker userId id broker accessToken now)
  | .callback userId id accessToken now =>
    w.withAccounts (w.accounts.upstoxCallback userId id accessToken now)
  | .disconnect userId id => w.withAccounts (w.accounts.disconnectBroker userId id)
  | .begin userId => { w with calls := w.calls ++ [{ userId }] }
  | .advance i => w.onCall i (w.advance i)
  | .fail i => w.onCall i (w.fail i)
  | .restart => w.restart

/-! ## Section 3: What a step does to a call -/

/-- Everything that a call can do next: its phase, the cache and the locks behind it. -/
inductive Moves (w : StackWorld) (i : ℕ) (call : StackCall) :
    StackPhase → Dict UserId CachedStack → List UserId → Prop
  | idle : Moves w i call call.phase w.userStacks w.locked
  | asks (hphase : call.phase = .asking) :
      Moves w i call (.asked (w.accounts.activeBrokerAccountId call.userId)) w.userStacks w.locked
  | hits {current : Option BrokerAccountId} {stack : CachedStack}
      (hphase : call.phase = .asked current)
      (hstack : w.userStacks.get? call.userId = some stack)
      (hsame : stack.brokerAccountId = current) :
      Moves w i call (.returned stack) w.userStacks w.locked
  | misses {current : Option BrokerAccountId} {userStacks : Dict UserId CachedStack}
      (hphase : call.phase = .asked current) (hnone : userStacks.get? call.userId = none)
      (hothers : ∀ v, call.userId ≠ v → userStacks.get? v = w.userStacks.get? v)
      (hdropped : ∀ stack, w.userStacks.get? call.userId = some stack →
        stack.brokerAccountId ≠ current) :
      Moves w i call .waiting userStacks w.locked
  | finds {stack : CachedStack} (hphase : call.phase = .waiting)
      (hstack : w.userStacks.get? call.userId = some stack) :
      Moves w i call (.returned stack) w.userStacks w.locked
  | takes (hphase : call.phase = .waiting) (hfree : call.userId ∉ w.locked)
      (hnone : w.userStacks.get? call.userId = none) :
      Moves w i call .resolving w.userStacks (call.userId :: w.locked)
  | refuses {detail : String} (hphase : call.phase = .resolving) :
      Moves w i call (.refused detail) w.userStacks (w.unlocked call.userId)
  | resolves {broker : ResolvedBroker} {brokerAccountId : Option BrokerAccountId}
      (hphase : call.phase = .resolving)
      (hok : w.accounts.resolveBroker call.userId = .ok (broker, brokerAccountId)) :
      Moves w i call (.building broker brokerAccountId) w.userStacks w.locked
  | builds {broker : ResolvedBroker} {brokerAccountId : Option BrokerAccountId}
      (hphase : call.phase = .building broker brokerAccountId) :
      Moves w i call (.returned ⟨broker, brokerAccountId, i⟩)
        (w.userStacks.set call.userId ⟨broker, brokerAccountId, i⟩) (w.unlocked call.userId)
  | fails {locked : List UserId} (hopen : call.phase.isOver = false)
      (hlocked : locked = if call.phase.isLocking then w.unlocked call.userId else w.locked) :
      Moves w i call .failed w.userStacks locked

/-- The requests about accounts. -/
inductive AccountsMove (accounts : BrokerAccounts) : StackCacheEvent → BrokerAccounts → Prop
  | inserts {e : StackCacheEvent} {id : BrokerAccountId} {account : BrokerAccount}
      (huser : e.accountUser = some account.userId) (hfresh : accounts.get? id = none) :
      AccountsMove accounts e (accounts.set id account)
  | disconnects {userId : UserId} {id : BrokerAccountId} {account : BrokerAccount}
      (hrow : accounts.get? id = some account) (hown : account.userId = userId) :
      AccountsMove accounts (.disconnect userId id)
        (accounts.set id { account with status := .disconnected, accessToken := none })

/-- Everything that a step can do. -/
inductive Steps (w : StackWorld) : StackCacheEvent → StackWorld → Prop
  | idle (e : StackCacheEvent) : Steps w e w
  | manages {e : StackCacheEvent} {accounts : BrokerAccounts}
      (h : AccountsMove w.accounts e accounts) : Steps w e { w with accounts }
  | begins (userId : UserId) : Steps w (.begin userId) { w with calls := w.calls ++ [{ userId }] }
  | moves {e : StackCacheEvent} {i : ℕ} {call : StackCall} {phase : StackPhase}
      {userStacks : Dict UserId CachedStack} {locked : List UserId}
      (hcall : w.calls[i]? = some call) (h : Moves w i call phase userStacks locked) :
      Steps w e { w.setPhase i phase with userStacks, locked }
  | restarts : Steps w .restart w.restart

section Inversion

variable {w : StackWorld} {i : ℕ} {call : StackCall}

theorem getElem?_setPhase (w : StackWorld) (i j : ℕ) (phase : StackPhase) :
    (w.setPhase i phase).calls[j]? =
      if i = j then w.calls[j]?.map (fun call => { call with phase }) else w.calls[j]? :=
  getElem?_modify_eq _

/-- What the check at the top lets through is the stack of the account that was answered. -/
theorem checked_eq_some {userId : UserId} {current : Option BrokerAccountId} {stack : CachedStack}
    (h : (w.checked userId current).get? userId = some stack) :
    w.checked userId current = w.userStacks ∧ w.userStacks.get? userId = some stack ∧
      stack.brokerAccountId = current := by
  rw [checked] at h ⊢
  split_ifs at h ⊢ with hother
  · simp at h
  · rw [h] at hother
    simpa [h] using hother

theorem checked_eq_none {userId : UserId} {current : Option BrokerAccountId}
    (h : (w.checked userId current).get? userId = none) :
    ∀ stack, w.userStacks.get? userId = some stack → stack.brokerAccountId ≠ current := by
  intro stack hstack
  rw [checked, hstack] at h
  by_contra hsame
  simp [hsame, hstack] at h

theorem checked_of_ne (w : StackWorld) {userId : UserId} {current : Option BrokerAccountId} :
    ∀ v, userId ≠ v → (w.checked userId current).get? v = w.userStacks.get? v := by
  intro v hv
  rw [checked]
  split_ifs
  · exact Dict.get?_erase_of_ne _ hv
  · rfl

theorem steps_advance (hcall : w.calls[i]? = some call) :
    Steps w (.advance i) (w.advance i call) := by
  rw [advance]
  cases hphase : call.phase with
  -- Before the lock: one query, then the cache.
  | asking => exact .moves hcall (.asks hphase)
  | asked current =>
    dsimp only
    cases hstack : (w.checked call.userId current).get? call.userId with
    | some stack =>
      obtain ⟨hkept, hcached, hsame⟩ := checked_eq_some hstack
      rw [hkept]
      exact .moves hcall (.hits hphase hcached hsame)
    | none => exact .moves hcall (.misses hphase hstack (checked_of_ne w) (checked_eq_none hstack))
  -- In the lock the cache is read again, before anything is built.
  | waiting =>
    split_ifs with hheld
    · exact .idle _
    · cases hstack : w.userStacks.get? call.userId with
      | some stack => exact .moves hcall (.finds hphase hstack)
      | none => exact .moves hcall (.takes hphase hheld hstack)
  -- The broker is resolved by a query of its own.
  | resolving =>
    cases hok : w.accounts.resolveBroker call.userId with
    | error detail => exact .moves hcall (.refuses hphase)
    | ok resolved => exact .moves hcall (.resolves hphase hok)
  | building broker brokerAccountId => exact .moves hcall (.builds hphase)
  -- A call that is over does nothing.
  | returned stack => exact .idle _
  | refused detail => exact .idle _
  | failed => exact .idle _

theorem steps_onCall {e : StackCacheEvent} {act : StackCall → StackWorld}
    (h : ∀ call, w.calls[i]? = some call → Steps w e (act call)) :
    Steps w e (w.onCall i act) := by
  rw [onCall]
  cases hcall : w.calls[i]? with
  | none => exact .idle e
  | some call => exact h call hcall

/-- A request about accounts that is refused changes nothing. -/
theorem steps_withAccounts {e : StackCacheEvent} {answer : Except HttpError BrokerAccounts}
    (h : ∀ accounts, answer = .ok accounts → AccountsMove w.accounts e accounts) :
    Steps w e (w.withAccounts answer) := by
  cases answer with
  | error refusal => exact .idle e
  | ok accounts => exact .manages (h accounts rfl)

theorem insert_ok {accounts accounts' : BrokerAccounts} {id : BrokerAccountId}
    {account : BrokerAccount} {e : StackCacheEvent} (huser : e.accountUser = some account.userId)
    (h : accounts.insert id account = .ok accounts') : AccountsMove accounts e accounts' := by
  rw [BrokerAccounts.insert] at h
  split_ifs at h with htaken
  cases h
  exact .inserts huser (Option.not_isSome_iff_eq_none.mp htaken)

theorem step_cases (w : StackWorld) (e : StackCacheEvent) : Steps w e (w.step e) := by
  cases e with
  -- Both ways to connect insert a row under a fresh id.
  | connect userId id broker accessToken now =>
    refine steps_withAccounts fun accounts hok => ?_
    rw [BrokerAccounts.connectBroker] at hok
    split at hok
    · cases hok
    · exact insert_ok rfl hok
  | callback userId id accessToken now =>
    exact steps_withAccounts fun accounts hok => insert_ok rfl hok
  -- Only the owner disconnects an account.
  | disconnect userId id =>
    refine steps_withAccounts fun accounts hok => ?_
    rw [BrokerAccounts.disconnectBroker] at hok
    split at hok
    · cases hok
    · rename_i account hrow
      split_ifs at hok with hown
      cases hok
      exact .disconnects hrow (not_not.mp hown)
  | begin userId => exact .begins userId
  | advance i => exact steps_onCall fun call hcall => steps_advance hcall
  -- A call can fail at any phase before its end.
  | fail i =>
    refine steps_onCall fun call hcall => ?_
    rw [fail]
    cases hover : call.phase.isOver with
    | true => exact .idle _
    | false => exact .moves hcall (.fails hover rfl)
  | restart => exact .restarts

end Inversion

end StackWorld

/-! ## Section 4: A disconnected account -/

/-- Nothing in the phase leads to the account, with what the cache holds for the user. -/
def StackPhase.Avoids (id : BrokerAccountId) (cached : Option CachedStack) :
    StackPhase → Prop
  | .asked current => current ≠ some id
  | .waiting => ∀ stack, cached = some stack → stack.brokerAccountId ≠ some id
  | .building _ brokerAccountId => brokerAccountId ≠ some id
  | .returned stack => stack.brokerAccountId ≠ some id
  | .asking | .resolving | .refused _ | .failed => True

namespace StackWorld

theorem newest_spec {accounts : BrokerAccounts} {userId : UserId} {id : BrokerAccountId}
    {account : BrokerAccount} (h : accounts.newest userId = some (id, account)) :
    accounts.get? id = some account ∧ account.userId = userId ∧ account.status = .active := by
  obtain ⟨hentry, hactive⟩ := List.mem_filter.mp (List.argmax_mem h)
  exact ⟨(Dict.mem_entries_iff _).mp hentry, of_decide_eq_true hactive⟩

/-- What is resolved is the account that the other query would name. -/
theorem resolveBroker_account {accounts : BrokerAccounts} {userId : UserId}
    {broker : ResolvedBroker} {brokerAccountId : Option BrokerAccountId}
    (h : accounts.resolveBroker userId = .ok (broker, brokerAccountId)) :
    brokerAccountId = accounts.activeBrokerAccountId userId := by
  rw [BrokerAccounts.resolveBroker] at h
  rw [BrokerAccounts.activeBrokerAccountId]
  -- Both queries read the newest active account.
  cases hnewest : accounts.newest userId with
  | none =>
    rw [hnewest] at h
    cases h
    rfl
  | some row =>
    obtain ⟨id, account⟩ := row
    rw [hnewest] at h
    dsimp only at h
    cases hbroker : account.broker with
    -- A broker that is not supported resolves to nothing.
    | dhan =>
      rw [hbroker] at h
      cases h
    | paper =>
      rw [hbroker] at h
      cases h
      rfl
    | upstox =>
      rw [hbroker] at h
      dsimp only at h
      split at h <;> cases h
      rfl

/-- The account is in the table and will not be traded through. -/
def Disconnected (id : BrokerAccountId) (w : StackWorld) : Prop :=
  ∃ account, w.accounts.get? id = some account ∧ account.status = .disconnected

theorem Disconnected.not_active {w : StackWorld} {id : BrokerAccountId} (h : w.Disconnected id)
    (userId : UserId) : w.accounts.activeBrokerAccountId userId ≠ some id := by
  intro hactive
  obtain ⟨⟨id', account'⟩, hnewest, hid⟩ := Option.map_eq_some_iff.mp hactive
  obtain rfl : id' = id := hid
  obtain ⟨account, hrow, hstatus⟩ := h
  obtain ⟨hrow', -, hstatus'⟩ := newest_spec hnewest
  rw [hrow] at hrow'
  cases hrow'
  rw [hstatus] at hstatus'
  cases hstatus'

theorem Disconnected.step {w : StackWorld} {id : BrokerAccountId} (h : w.Disconnected id)
    (e : StackCacheEvent) : (w.step e).Disconnected id := by
  obtain ⟨account, hrow, hstatus⟩ := h
  have hstep := step_cases w e
  generalize w.step e = w' at hstep ⊢
  cases hstep with
  -- Only connecting and disconnecting touch the accounts.
  | manages hmove =>
    cases hmove with
    | @inserts _ id' account' huser hfresh =>
      have hne : id' ≠ id := by
        rintro rfl
        rw [hfresh] at hrow
        cases hrow
      exact ⟨account, (Dict.get?_set_of_ne _ hne _).trans hrow, hstatus⟩
    | @disconnects userId id' account' hrow' hown =>
      by_cases hid : id' = id
      · subst hid
        exact ⟨_, Dict.get?_set_self _ _ _, rfl⟩
      · exact ⟨account, (Dict.get?_set_of_ne _ hid _).trans hrow, hstatus⟩
  | _ => exact ⟨account, hrow, hstatus⟩

/-- The owner's request takes the account out of use. -/
theorem disconnected_disconnect {w : StackWorld} {userId : UserId} {id : BrokerAccountId}
    {account : BrokerAccount} (hrow : w.accounts.get? id = some account)
    (hown : account.userId = userId) : (w.step (.disconnect userId id)).Disconnected id := by
  have hok : w.accounts.disconnectBroker userId id =
      .ok (w.accounts.set id { account with status := .disconnected, accessToken := none }) := by
    rw [BrokerAccounts.disconnectBroker, hrow]
    exact if_neg (not_not.mpr hown)
  rw [StackWorld.step, hok]
  exact ⟨_, Dict.get?_set_self _ _ _, rfl⟩

/-- A call whose phase is over stays so. -/
theorem Moves.of_isOver {w : StackWorld} {i : ℕ} {call : StackCall} {phase : StackPhase}
    {userStacks : Dict UserId CachedStack} {locked : List UserId}
    (h : Moves w i call phase userStacks locked) (hover : call.phase.isOver) :
    phase = call.phase ∧ userStacks = w.userStacks ∧ locked = w.locked := by
  cases h with
  | idle => exact ⟨rfl, rfl, rfl⟩
  | fails hopen =>
    rw [hover] at hopen
    cases hopen
  | asks hphase | hits hphase | misses hphase | finds hphase | takes hphase | refuses hphase
  | resolves hphase | builds hphase =>
    rw [hphase] at hover
    cases hover

/-- What is in the cache after a move was there before, or the move built it. -/
theorem Moves.cached {w : StackWorld} {i : ℕ} {call : StackCall} {phase : StackPhase}
    {userStacks : Dict UserId CachedStack} {locked : List UserId} {userId : UserId}
    {stack : CachedStack} (h : Moves w i call phase userStacks locked)
    (hstack : userStacks.get? userId = some stack) :
    w.userStacks.get? userId = some stack ∨
      call.userId = userId ∧ call.phase = .building stack.broker stack.brokerAccountId ∧
        phase = .returned stack := by
  by_cases huser : call.userId = userId
  · -- Of the call's own user: a miss empties the entry, and a stack that was built fills it.
    subst huser
    cases h with
    | misses hphase hnone =>
      rw [hnone] at hstack
      cases hstack
    | builds hphase =>
      rw [Dict.get?_set_self] at hstack
      cases hstack
      exact .inr ⟨rfl, hphase, rfl⟩
    | _ => exact .inl hstack
  · -- Of another user nothing changes.
    cases h with
    | misses hphase hnone hothers => exact .inl ((hothers _ huser).symm.trans hstack)
    | builds hphase => exact .inl ((Dict.get?_set_of_ne _ huser _).symm.trans hstack)
    | _ => exact .inl hstack

theorem Moves.avoids {w : StackWorld} {i : ℕ} {call : StackCall} {phase : StackPhase}
    {userStacks : Dict UserId CachedStack} {locked : List UserId} {id : BrokerAccountId}
    (h : Moves w i call phase userStacks locked) (hoff : w.Disconnected id)
    (hcall : call.phase.Avoids id (w.userStacks.get? call.userId)) :
    phase.Avoids id (userStacks.get? call.userId) := by
  cases h with
  | idle => exact hcall
  | asks => exact hoff.not_active _
  -- What is hit is the stack of the account that the query named.
  | hits hphase hstack hsame =>
    rw [hphase] at hcall
    exact fun hid => hcall (hsame.symm.trans hid)
  -- After a miss nothing is cached.
  | misses hphase hnone =>
    intro stack hstack
    rw [hnone] at hstack
    cases hstack
  | finds hphase hstack =>
    rw [hphase] at hcall
    exact hcall _ hstack
  | resolves hphase hok =>
    exact resolveBroker_account hok ▸ hoff.not_active _
  | builds hphase =>
    -- What is built is cached as it was resolved.
    rw [hphase] at hcall
    exact hcall
  | takes | refuses | fails => trivial

/-- The account is disconnected, and none of these calls is about to put it into the cache. -/
structure Unbuilt (id : BrokerAccountId) (userId : UserId) (among : ℕ → Prop) (w : StackWorld) :
    Prop where
  disconnected : w.Disconnected id
  building : ∀ (i : ℕ) (call : StackCall), among i → w.calls[i]? = some call →
    call.userId = userId → ∀ broker, call.phase ≠ .building broker (some id)

/-- No call from the `n`-th on can come to the account either. -/
structure Revoked (id : BrokerAccountId) (userId : UserId) (n : ℕ) (w : StackWorld) : Prop where
  unbuilt : w.Unbuilt id userId fun _ => True
  avoids : ∀ (i : ℕ) (call : StackCall), n ≤ i → w.calls[i]? = some call →
    call.userId = userId → call.phase.Avoids id (w.userStacks.get? userId)

theorem getElem?_restart (w : StackWorld) (i : ℕ) :
    w.restart.calls[i]? = w.calls[i]?.map fun call =>
      if call.phase.isOver then call else { call with phase := .failed } :=
  List.getElem?_map

/-- A call after a move: it made the move, or stands as it stood. -/
theorem call_setPhase {w : StackWorld} {i j : ℕ} {phase : StackPhase} {call call' : StackCall}
    (hcall : w.calls[i]? = some call) (h : (w.setPhase i phase).calls[j]? = some call') :
    (i = j ∧ call' = { call with phase }) ∨ i ≠ j ∧ w.calls[j]? = some call' := by
  rw [getElem?_setPhase] at h
  split_ifs at h with hij
  · subst hij
    rw [hcall] at h
    exact .inl ⟨rfl, (Option.some.inj h).symm⟩
  · exact .inr ⟨hij, h⟩

/-- A stack that is not of the account, or was in the cache before, does no harm. -/
theorem avoids_mono {id : BrokerAccountId} {cached cached' : Option CachedStack}
    {phase : StackPhase} (h : phase.Avoids id cached)
    (hcached : ∀ stack, cached' = some stack →
      cached = some stack ∨ stack.brokerAccountId ≠ some id) :
    phase.Avoids id cached' := by
  cases phase with
  | waiting => exact fun stack hstack => (hcached stack hstack).elim (h stack) fun hne => hne
  | _ => exact h

theorem Unbuilt.step {w : StackWorld} {id : BrokerAccountId} {userId : UserId} {among : ℕ → Prop}
    (h : w.Unbuilt id userId among) (e : StackCacheEvent) :
    (w.step e).Unbuilt id userId among := by
  refine ⟨h.disconnected.step e, ?_⟩
  have hstep := step_cases w e
  generalize w.step e = w' at hstep ⊢
  intro j call hj hcall huser broker hphase
  cases hstep with
  -- Only a call that moves resolves an account.
  | idle | manages => exact h.building j call hj hcall huser broker hphase
  | begins k =>
    rcases getElem?_concat_eq_some hcall with hcall | ⟨-, rfl⟩
    · exact h.building j call hj hcall huser broker hphase
    · cases hphase
  | moves hmover hmove =>
    rcases call_setPhase hmover hcall with ⟨rfl, rfl⟩ | ⟨-, hcall⟩
    · cases hmove with
      | idle => exact h.building _ _ hj hmover huser broker hphase
      -- An account that is resolved is active, and this one is not.
      | resolves _ hok =>
        cases hphase
        exact h.disconnected.not_active _ (resolveBroker_account hok).symm
      | _ => cases hphase
    · exact h.building j call hj hcall huser broker hphase
  | restarts =>
    -- After a restart only calls that are over are left.
    rw [getElem?_restart] at hcall
    obtain ⟨before, -, rfl⟩ := Option.map_eq_some_iff.mp hcall
    split_ifs at hphase with hover
    rw [hphase] at hover
    cases hover

theorem Revoked.step {w : StackWorld} {id : BrokerAccountId} {userId : UserId} {n : ℕ}
    (h : w.Revoked id userId n) (e : StackCacheEvent) : (w.step e).Revoked id userId n := by
  refine ⟨h.unbuilt.step e, ?_⟩
  have hstep := step_cases w e
  generalize w.step e = w' at hstep ⊢
  intro j call hj hcall huser
  cases hstep with
  | idle | manages => exact h.avoids j call hj hcall huser
  -- A new call holds nothing.
  | begins k =>
    rcases getElem?_concat_eq_some hcall with hcall | ⟨-, rfl⟩
    · exact h.avoids j call hj hcall huser
    · trivial
  | @moves _ i mover phase userStacks locked hmover hmove =>
    -- The call that moves avoids the account by the step lemma.
    rcases call_setPhase hmover hcall with ⟨rfl, rfl⟩ | ⟨-, hcall⟩
    · have havoids := h.avoids i mover hj hmover huser
      subst huser
      exact hmove.avoids h.unbuilt.disconnected havoids
    · -- What another call puts into the cache is a stack that it was building.
      refine avoids_mono (h.avoids j call hj hcall huser) fun stack hstack => ?_
      refine (hmove.cached hstack).imp_right fun ⟨hmine, hphase, _⟩ hid => ?_
      exact h.unbuilt.building i mover trivial hmover hmine stack.broker (hid ▸ hphase)
  | restarts =>
    rw [getElem?_restart] at hcall
    -- A restart empties the cache, and what is over keeps what it returned.
    obtain ⟨before, hbefore, rfl⟩ := Option.map_eq_some_iff.mp hcall
    split_ifs at huser ⊢ with hover
    · refine avoids_mono (h.avoids j before hj hbefore huser) fun stack hstack => ?_
      cases hstack
    · trivial

/-- **A disconnect takes effect.** Once the calls of the user that had begun before an account was
disconnected are over, no call that begins from then on gives a stack of that account, whatever
calls, requests, failures and restarts there are in between and after. -/
theorem disconnect_takes_effect (w : StackWorld) (mid after : List StackCacheEvent)
    {userId : UserId} {id : BrokerAccountId} {account : BrokerAccount}
    (hrow : w.accounts.get? id = some account) (hown : account.userId = userId)
    (hover : ∀ call ∈ (run step w (.disconnect userId id :: mid)).calls.take w.calls.length,
      call.userId = userId → call.phase.isOver)
    {i : ℕ} {call : StackCall} {stack : CachedStack}
    (hbegun : (run step w (.disconnect userId id :: mid)).calls.length ≤ i)
    (hcall : (run step w (.disconnect userId id :: mid ++ after)).calls[i]? = some call)
    (huser : call.userId = userId) (hphase : call.phase = .returned stack) :
    stack.brokerAccountId ≠ some id := by
  -- From the disconnect on, only calls that had begun before can be building on the account.
  have hfirst : (w.step (.disconnect userId id)).Unbuilt id userId (w.calls.length ≤ ·) := by
    refine ⟨disconnected_disconnect hrow hown, fun j c hj hc _ _ _ => ?_⟩
    have hcalls : (w.step (.disconnect userId id)).calls = w.calls := rfl
    rw [hcalls, List.getElem?_eq_none hj] at hc
    cases hc
  have hmid : (run step (w.step (.disconnect userId id)) mid).Unbuilt id userId
      (w.calls.length ≤ ·) :=
    invariant_run (fun _ e h => h.step e) mid hfirst
  rw [run_cons] at hover hbegun
  rw [List.cons_append, run_cons, run_append] at hcall
  generalize run step (w.step (.disconnect userId id)) mid = v at hmid hover hbegun hcall
  have hstart : v.Revoked id userId v.calls.length := by
    refine ⟨⟨hmid.disconnected, fun j c _ hc hmine broker hbuilding => ?_⟩, fun j c hj hc _ => ?_⟩
    · rcases Nat.lt_or_ge j w.calls.length with hold | hnew
      · have hmem : c ∈ v.calls.take w.calls.length :=
          List.mem_of_getElem? ((List.getElem?_take_of_lt hold).trans hc)
        have hended := hover c hmem hmine
        rw [hbuilding] at hended
        cases hended
      · exact hmid.building j c hnew hc hmine broker hbuilding
    · rw [List.getElem?_eq_none hj] at hc
      cases hc
  have hrevoked : (run step v after).Revoked id userId v.calls.length :=
    invariant_run (fun _ e h => h.step e) after hstart
  have hend := hrevoked.avoids i call hbegun hcall huser
  rw [hphase] at hend
  exact hend

/-- A user with one account, whose one call has built a stack of it. -/
def paperTrader : StackWorld :=
  run step {} (.connect "user" "account" .paper none 0 :: .begin "user" ::
    List.replicate 5 (.advance 0))

theorem disconnect_takes_effect_paperTrader :
    ∃ stack : CachedStack,
      (run step paperTrader (.disconnect "user" "account" :: [] ++
        .begin "user" :: List.replicate 5 (.advance 1))).calls[1]? =
          some ⟨"user", .returned stack⟩ ∧ stack.brokerAccountId ≠ some "account" := by
  have hrow : paperTrader.accounts.get? "account" = some ⟨"user", .paper, none, .active, 0⟩ := by
    decide
  have hcall : (run step paperTrader (.disconnect "user" "account" :: [] ++
      .begin "user" :: List.replicate 5 (.advance 1))).calls[1]? =
        some ⟨"user", .returned ⟨.mock, none, 1⟩⟩ := by decide
  exact ⟨_, hcall,
    disconnect_takes_effect paperTrader [] _ hrow rfl (by decide) (by decide) hcall rfl rfl⟩

-- While an older call still builds, one that begins after the disconnect is given what it builds.
example : (run step {} (.connect "user" "account" .paper none 0 :: .begin "user" ::
    List.replicate 4 (.advance 0) ++ [.disconnect "user" "account", .begin "user", .advance 1,
    .advance 1, .advance 0, .advance 1])).calls[1]? =
      some ⟨"user", .returned ⟨.mock, some "account", 0⟩⟩ := by decide

end StackWorld

/-! ## Section 5: One stack -/

/-- The phase goes with the account and with what the cache holds for the user. -/
def StackPhase.Agrees (current : Option BrokerAccountId) (cached : Option CachedStack) :
    StackPhase → Prop
  | .asked answer => answer = current
  | .waiting => ∀ stack, cached = some stack → stack.brokerAccountId = current
  | .resolving => cached = none
  | .building _ brokerAccountId => brokerAccountId = current ∧ cached = none
  | .returned stack => stack.brokerAccountId = current ∧ cached = some stack
  | .asking | .refused _ | .failed => True

namespace StackWorld

/-- Requests about the accounts of others leave the account of a user. -/
theorem AccountsMove.activeBrokerAccountId {accounts accounts' : BrokerAccounts}
    {e : StackCacheEvent} (h : AccountsMove accounts e accounts') {userId : UserId}
    (hother : e.accountUser ≠ some userId) :
    accounts'.activeBrokerAccountId userId = accounts.activeBrokerAccountId userId := by
  have hsame : accounts'.activeOf userId = accounts.activeOf userId := by
    cases h with
    | @inserts _ id account huser hfresh =>
      have hne : account.userId ≠ userId := fun h => hother (huser.trans (congrArg some h))
      refine Dict.filter_entries_set_of_not _ (by simp [hne]) fun account' hrow => ?_
      rw [hfresh] at hrow
      cases hrow
    | @disconnects k id account hrow hown =>
      have hne : account.userId ≠ userId := fun h => hother (congrArg some (hown.symm.trans h))
      refine Dict.filter_entries_set_of_not _ (by simp [hne]) fun account' hrow' => ?_
      rw [hrow] at hrow'
      cases hrow'
      simp [hne]
  rw [BrokerAccounts.activeBrokerAccountId, BrokerAccounts.newest, hsame]
  rfl

/-- The user keeps one account, and the calls from the `n`-th on share one stack of it. -/
structure Shared (userId : UserId) (n : ℕ) (current : Option BrokerAccountId) (w : StackWorld) :
    Prop where
  account : w.accounts.activeBrokerAccountId userId = current
  ended : ∀ (i : ℕ) (call : StackCall), i < n → w.calls[i]? = some call → call.userId = userId →
    call.phase.isOver
  agrees : ∀ (i : ℕ) (call : StackCall), n ≤ i → w.calls[i]? = some call →
    call.userId = userId → call.phase.Agrees current (w.userStacks.get? userId)
  lone : ∀ (i j : ℕ) (call other : StackCall), w.calls[i]? = some call →
    w.calls[j]? = some other → call.userId = userId → other.userId = userId →
    call.phase.isLocking → other.phase.isLocking → i = j
  held : ∀ (i : ℕ) (call : StackCall), w.calls[i]? = some call → call.userId = userId →
    call.phase.isLocking → userId ∈ w.locked

/-- The user of another call sees nothing of a move. -/
theorem Moves.of_other {w : StackWorld} {i : ℕ} {call : StackCall} {phase : StackPhase}
    {userStacks : Dict UserId CachedStack} {locked : List UserId} {userId : UserId}
    (h : Moves w i call phase userStacks locked) (hother : call.userId ≠ userId) :
    userStacks.get? userId = w.userStacks.get? userId ∧ (userId ∈ locked ↔ userId ∈ w.locked) := by
  have hunlocked : userId ∈ w.unlocked call.userId ↔ userId ∈ w.locked := by
    simp [unlocked, Ne.symm hother]
  cases h with
  | misses _ _ hothers => exact ⟨hothers _ hother, Iff.rfl⟩
  | takes => exact ⟨rfl, by simp [Ne.symm hother]⟩
  | refuses => exact ⟨rfl, hunlocked⟩
  | builds => exact ⟨Dict.get?_set_of_ne _ hother _, hunlocked⟩
  | fails _ hlocked =>
    subst hlocked
    refine ⟨rfl, ?_⟩
    split_ifs
    · exact hunlocked
    · exact Iff.rfl
  | _ => exact ⟨rfl, Iff.rfl⟩

section Own

variable {w : StackWorld} {i : ℕ} {call : StackCall} {phase : StackPhase}
  {userStacks : Dict UserId CachedStack} {locked : List UserId} {current : Option BrokerAccountId}

theorem Moves.agrees (h : Moves w i call phase userStacks locked)
    (haccount : w.accounts.activeBrokerAccountId call.userId = current)
    (hcall : call.phase.Agrees current (w.userStacks.get? call.userId)) :
    phase.Agrees current (userStacks.get? call.userId) := by
  cases h with
  | idle => exact hcall
  | asks => exact haccount
  | hits hphase hstack hsame =>
    rw [hphase] at hcall
    exact ⟨hsame.trans hcall, hstack⟩
  | misses hphase hnone =>
    intro stack hstack
    rw [hnone] at hstack
    cases hstack
  | finds hphase hstack =>
    rw [hphase] at hcall
    exact ⟨hcall _ hstack, hstack⟩
  | takes _ _ hnone => exact hnone
  | resolves hphase hok =>
    rw [hphase] at hcall
    exact ⟨(resolveBroker_account hok).trans haccount, hcall⟩
  | builds hphase =>
    rw [hphase] at hcall
    exact ⟨hcall.1, Dict.get?_set_self _ _ _⟩
  | refuses | fails => trivial

/-- The other calls of the user still agree with the cache behind a move. -/
theorem Moves.agrees_other (h : Moves w i call phase userStacks locked) {other : StackCall}
    (hcall : call.phase.Agrees current (w.userStacks.get? call.userId))
    (hother : other.phase.Agrees current (w.userStacks.get? call.userId))
    (hlone : call.phase.isLocking → other.phase.isLocking = false) :
    other.phase.Agrees current (userStacks.get? call.userId) := by
  cases h with
  -- A miss drops the entry, whose stack is of another account than the query named.
  | misses hphase hnone _ hdropped =>
    rw [hphase] at hcall
    rw [hnone]
    cases hthen : other.phase with
    | returned stack =>
      -- A stack that was given out is of the account that was answered, so it is not dropped.
      rw [hthen] at hother
      exact absurd (hother.1.trans hcall.symm) (hdropped stack hother.2)
    | building =>
      rw [hthen] at hother
      exact ⟨hother.1, rfl⟩
    | asked =>
      rw [hthen] at hother
      exact hother
    -- What waits reads the cache anew.
    | waiting =>
      intro stack hstack
      cases hstack
    | resolving => exact rfl
    | _ => trivial
  -- What is built goes into a cache that was empty, and no other call of the user builds.
  | builds hphase =>
    have hfree := hlone (by rw [hphase]; rfl)
    rw [hphase] at hcall
    rw [Dict.get?_set_self]
    cases hthen : other.phase with
    | returned stack =>
      rw [hthen] at hother
      cases hcall.2.symm.trans hother.2
    | waiting =>
      intro stack hstack
      cases hstack
      exact hcall.1
    | asked =>
      rw [hthen] at hother
      exact hother
    | resolving | building =>
      rw [hthen] at hfree
      cases hfree
    | _ => trivial
  | _ => exact hother

/-- A call has the lock after a move because it had it before, or because it took it. -/
theorem Moves.locking (h : Moves w i call phase userStacks locked) (hphase : phase.isLocking) :
    call.phase.isLocking ∧ locked = w.locked ∨
      call.userId ∉ w.locked ∧ locked = call.userId :: w.locked := by
  cases h with
  | idle => exact .inl ⟨hphase, rfl⟩
  | takes _ hfree => exact .inr ⟨hfree, rfl⟩
  | resolves hbefore => exact .inl ⟨by rw [hbefore]; rfl, rfl⟩
  | _ => cases hphase

/-- A lock is given back only by the call that has it. -/
theorem Moves.gives_back (h : Moves w i call phase userStacks locked)
    (hnot : call.phase.isLocking = false) {userId : UserId} (hheld : userId ∈ w.locked) :
    userId ∈ locked := by
  cases h with
  | takes => exact List.mem_cons_of_mem _ hheld
  | refuses hphase | builds hphase =>
    rw [hphase] at hnot
    cases hnot
  | fails _ hlocked =>
    rw [hlocked, hnot]
    exact hheld
  | _ => exact hheld

end Own

section Mover

variable {w : StackWorld} {userId : UserId} {n i : ℕ} {current : Option BrokerAccountId}
  {mover : StackCall} {phase : StackPhase} {userStacks : Dict UserId CachedStack}
  {locked : List UserId}

/-- Beside a call that has the lock, no other call of the user has it. -/
theorem Shared.others_wait (h : w.Shared userId n current) (hmover : w.calls[i]? = some mover)
    (hmine : mover.userId = userId) (hlocking : mover.phase.isLocking) {j : ℕ} {other : StackCall}
    (hij : i ≠ j) (hother : w.calls[j]? = some other) (hyours : other.userId = userId) :
    other.phase.isLocking = false := by
  by_contra hboth
  exact hij (h.lone i j mover other hmover hother hmine hyours hlocking (by simpa using hboth))

/-- Nor beside one that has it after its move: it had it before, or nobody had it. -/
theorem Shared.others_wait_moves (h : w.Shared userId n current)
    (hmover : w.calls[i]? = some mover) (hmove : Moves w i mover phase userStacks locked)
    (hmine : mover.userId = userId) (hlocking : phase.isLocking) {j : ℕ} {other : StackCall}
    (hij : i ≠ j) (hother : w.calls[j]? = some other) (hyours : other.userId = userId) :
    other.phase.isLocking = false := by
  rcases hmove.locking hlocking with ⟨hbefore, -⟩ | ⟨hfree, -⟩
  · exact h.others_wait hmover hmine hbefore hij hother hyours
  · by_contra hboth
    exact hfree (hmine ▸ h.held j other hother hyours (by simpa using hboth))

theorem Shared.agrees_moves (h : w.Shared userId n current) (hmover : w.calls[i]? = some mover)
    (hmove : Moves w i mover phase userStacks locked) {j : ℕ} {call : StackCall} (hj : n ≤ j)
    (hcall : (w.setPhase i phase).calls[j]? = some call) (huser : call.userId = userId) :
    call.phase.Agrees current (userStacks.get? userId) := by
  rcases call_setPhase hmover hcall with ⟨rfl, rfl⟩ | ⟨hij, hcall⟩
  · have hagrees := h.agrees i mover hj hmover huser
    have haccount := h.account
    subst huser
    exact hmove.agrees haccount hagrees
  · have hother := h.agrees j call hj hcall huser
    by_cases hmine : mover.userId = userId
    · rcases Nat.lt_or_ge i n with hold | hnew
      · -- A call that had begun before is over and leaves the cache alone.
        obtain ⟨-, hcache, -⟩ := hmove.of_isOver (h.ended i mover hold hmover hmine)
        rw [hcache]
        exact hother
      · have hagrees := h.agrees i mover hnew hmover hmine
        have hlone := fun hlocking => h.others_wait hmover hmine hlocking hij hcall huser
        subst hmine
        exact hmove.agrees_other hagrees hother hlone
    · rw [(hmove.of_other hmine).1]
      exact hother

theorem Shared.lone_moves (h : w.Shared userId n current) (hmover : w.calls[i]? = some mover)
    (hmove : Moves w i mover phase userStacks locked) {j k : ℕ} {call other : StackCall}
    (hcall : (w.setPhase i phase).calls[j]? = some call)
    (hother : (w.setPhase i phase).calls[k]? = some other) (huser : call.userId = userId)
    (huser' : other.userId = userId) (hlocking : call.phase.isLocking)
    (hlocking' : other.phase.isLocking) : j = k := by
  rcases call_setPhase hmover hcall with ⟨rfl, rfl⟩ | ⟨hij, hcall⟩ <;>
    rcases call_setPhase hmover hother with ⟨rfl, rfl⟩ | ⟨hik, hother⟩
  · rfl
  · rw [h.others_wait_moves hmover hmove huser hlocking hik hother huser'] at hlocking'
    cases hlocking'
  · rw [h.others_wait_moves hmover hmove huser' hlocking' hij hcall huser] at hlocking
    cases hlocking
  · exact h.lone j k call other hcall hother huser huser' hlocking hlocking'

theorem Shared.held_moves (h : w.Shared userId n current) (hmover : w.calls[i]? = some mover)
    (hmove : Moves w i mover phase userStacks locked) {j : ℕ} {call : StackCall}
    (hcall : (w.setPhase i phase).calls[j]? = some call) (huser : call.userId = userId)
    (hlocking : call.phase.isLocking) : userId ∈ locked := by
  rcases call_setPhase hmover hcall with ⟨rfl, rfl⟩ | ⟨hij, hcall⟩
  · rcases hmove.locking hlocking with ⟨hbefore, hsame⟩ | ⟨-, hcons⟩
    · rw [hsame]
      exact h.held i mover hmover huser hbefore
    · rw [hcons, show mover.userId = userId from huser]
      exact List.mem_cons_self
  · have hheld := h.held j call hcall huser hlocking
    by_cases hmine : mover.userId = userId
    · refine hmove.gives_back ?_ hheld
      by_contra hboth
      have hfree := h.others_wait hmover hmine (by simpa using hboth) hij hcall huser
      rw [hfree] at hlocking
      cases hlocking
    · exact (hmove.of_other hmine).2.mpr hheld

/-- The sharing through a move of any call, one that had begun before included. -/
theorem Shared.moves (h : w.Shared userId n current) (hmover : w.calls[i]? = some mover)
    (hmove : Moves w i mover phase userStacks locked) :
    Shared userId n current { w.setPhase i phase with userStacks, locked } := by
  refine ⟨h.account, ?_, ?_, ?_, ?_⟩
  · intro j call hj hcall huser
    rcases call_setPhase hmover hcall with ⟨rfl, rfl⟩ | ⟨-, hcall⟩
    · have hover := h.ended i mover hj hmover huser
      have hsame : phase = mover.phase := (hmove.of_isOver hover).1
      rw [hsame]
      exact hover
    · exact h.ended j call hj hcall huser
  · intro j call hj hcall huser
    exact h.agrees_moves hmover hmove hj hcall huser
  · intro j k call other hcall hother huser huser' hlocking hlocking'
    exact h.lone_moves hmover hmove hcall hother huser huser' hlocking hlocking'
  · intro j call hcall huser hlocking
    exact h.held_moves hmover hmove hcall huser hlocking

end Mover

theorem Shared.step {w : StackWorld} {userId : UserId} {n : ℕ}
    {current : Option BrokerAccountId} (h : w.Shared userId n current) {e : StackCacheEvent}
    (hother : e.accountUser ≠ some userId) (hrunning : e ≠ .restart) (hn : n ≤ w.calls.length) :
    (w.step e).Shared userId n current := by
  have hstep := step_cases w e
  generalize w.step e = w' at hstep ⊢
  cases hstep with
  | idle => exact h
  | manages hmove =>
    exact ⟨(hmove.activeBrokerAccountId hother).trans h.account, h.ended, h.agrees, h.lone, h.held⟩
  -- A new call neither holds the lock nor has an answer.
  | begins k =>
    have hidle : ∀ (i : ℕ) (call : StackCall), (w.calls ++ [{ userId := k }])[i]? = some call →
        call.phase.isLocking → w.calls[i]? = some call := by
      intro i call hcall hlocking
      rcases getElem?_concat_eq_some hcall with hcall | ⟨-, rfl⟩
      · exact hcall
      · cases hlocking
    refine ⟨h.account, ?_, ?_, ?_, ?_⟩
    · intro i call hi hcall huser
      rw [List.getElem?_append_left (by omega)] at hcall
      exact h.ended i call hi hcall huser
    · intro i call hi hcall huser
      rcases getElem?_concat_eq_some hcall with hcall | ⟨-, rfl⟩
      · exact h.agrees i call hi hcall huser
      · trivial
    · intro i j call other hcall hother' huser huser' hlocking hlocking'
      exact h.lone i j call other (hidle i call hcall hlocking) (hidle j other hother' hlocking')
        huser huser' hlocking hlocking'
    · intro i call hcall huser hlocking
      exact h.held i call (hidle i call hcall hlocking) huser hlocking
  -- A move of one call is the lemma before.
  | moves hmover hmove => exact h.moves hmover hmove
  | restarts => exact absurd rfl hrunning

theorem length_calls_le_step (w : StackWorld) (e : StackCacheEvent) :
    w.calls.length ≤ (w.step e).calls.length := by
  have hstep := step_cases w e
  generalize w.step e = w' at hstep ⊢
  cases hstep with
  | idle | manages => exact le_rfl
  | begins => simp
  | moves => simp [setPhase]
  | restarts => simp [restart]

/-- The calls that begin now have nothing yet to disagree about. -/
theorem shared_of_idle {w : StackWorld} {userId : UserId}
    (hidle : ∀ call ∈ w.calls, call.userId = userId → call.phase.isOver) :
    w.Shared userId w.calls.length (w.accounts.activeBrokerAccountId userId) := by
  have hfree : ∀ (i : ℕ) (call : StackCall), w.calls[i]? = some call → call.userId = userId →
      call.phase.isLocking = false := by
    intro i call hcall huser
    have hover := hidle call (List.mem_of_getElem? hcall) huser
    cases hphase : call.phase with
    | resolving | building =>
      rw [hphase] at hover
      cases hover
    | _ => rfl
  refine ⟨rfl, ?_, ?_, ?_, ?_⟩
  · intro i call _ hcall huser
    exact hidle call (List.mem_of_getElem? hcall) huser
  · intro i call hi hcall _
    rw [List.getElem?_eq_none hi] at hcall
    cases hcall
  · intro i j call other hcall _ huser _ hlocking _
    rw [hfree i call hcall huser] at hlocking
    cases hlocking
  · intro i call hcall huser hlocking
    rw [hfree i call hcall huser] at hlocking
    cases hlocking

theorem shared_run {w : StackWorld} {userId : UserId} {n : ℕ} {current : Option BrokerAccountId}
    (h : w.Shared userId n current) (hn : n ≤ w.calls.length) (es : List StackCacheEvent)
    (hes : ∀ e ∈ es, e.accountUser ≠ some userId ∧ e ≠ .restart) :
    (run step w es).Shared userId n current := by
  induction es generalizing w with
  | nil => exact h
  | cons e es ih =>
    obtain ⟨hother, hrunning⟩ := hes e List.mem_cons_self
    rw [run_cons]
    exact ih (h.step hother hrunning hn) (hn.trans (length_calls_le_step w e))
      fun e' he' => hes e' (List.mem_cons_of_mem e he')

/-- **One stack.** While no account of the user is connected or disconnected and the process lives,
all the calls of the user that begin after the earlier ones are over give the one stack in the
cache, which is of the account that is active. -/
theorem one_stack_while_account_stays (w : StackWorld) (after : List StackCacheEvent)
    {userId : UserId}
    (hidle : ∀ call ∈ w.calls, call.userId = userId → call.phase.isOver)
    (hstays : ∀ e ∈ after, e.accountUser ≠ some userId ∧ e ≠ .restart)
    {i : ℕ} {call : StackCall} {stack : CachedStack} (hbegun : w.calls.length ≤ i)
    (hcall : (run step w after).calls[i]? = some call) (huser : call.userId = userId)
    (hphase : call.phase = .returned stack) :
    stack.brokerAccountId = (run step w after).accounts.activeBrokerAccountId userId ∧
      (run step w after).userStacks.get? userId = some stack := by
  have hshared := shared_run (shared_of_idle hidle) le_rfl after hstays
  have hagrees := hshared.agrees i call hbegun hcall huser
  rw [hphase] at hagrees
  exact ⟨hagrees.1.trans hshared.account.symm, hagrees.2⟩

/-- Two calls that both find no stack: the second waits for the lock while the first builds. -/
def bothMiss : List StackCacheEvent :=
  [.begin "user", .begin "user", .advance 0, .advance 1, .advance 0, .advance 1, .advance 0,
    .advance 1, .advance 0, .advance 1, .advance 0, .advance 1]

/-- Both are given what the first one built. -/
theorem one_stack_while_account_stays_paperTrader :
    ∃ stack : CachedStack,
      let w := run step { accounts := paperTrader.accounts } bothMiss
      w.calls = [⟨"user", .returned stack⟩, ⟨"user", .returned stack⟩] ∧
        stack.brokerAccountId = w.accounts.activeBrokerAccountId "user" ∧
        w.userStacks.get? "user" = some stack := by
  have hcalls : (run step { accounts := paperTrader.accounts } bothMiss).calls =
      [⟨"user", .returned ⟨.mock, some "account", 0⟩⟩,
        ⟨"user", .returned ⟨.mock, some "account", 0⟩⟩] := by decide
  have hstays : ∀ e ∈ bothMiss, e.accountUser ≠ some "user" ∧ e ≠ .restart := by
    simp [bothMiss, StackCacheEvent.accountUser]
  have hcall := congrArg (fun calls : List StackCall => calls[1]?) hcalls
  exact ⟨_, hcalls, one_stack_while_account_stays { accounts := paperTrader.accounts } bothMiss
    (by simp) hstays (Nat.zero_le 1) hcall rfl rfl⟩

end StackWorld

end SuperTrading
