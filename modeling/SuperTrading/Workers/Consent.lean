import SuperTrading.Api.Stack
import SuperTrading.Logic.Flags

/-!
# Consent to Auto-Trading

What the auto-trade supervisor may trade, and the requests of the users that decide on it:
`app/api/trading_permissions.py`, `app/api/auto_trading.py`, the status of a strategy in
`app/api/strategies.py`, and the rows that `AutoTradeSupervisor.run_once` picks.

- **Section 1**: users and strategies
- **Section 2**: requests
- **Section 3**: what the supervisor picks
- **Section 4**: what a request does
- **Section 5**: the four flags
- **Section 6**: consent, and what no request brings back
-/

namespace SuperTrading

open SuperTrading.Logic

/-! ## Section 1: Rows -/

inductive TradingPermission
  | view
  | analyze
  | paperTrade
  | liveTrade
  | autoTrade
  deriving DecidableEq, Repr

namespace TradingPermission

def value : TradingPermission → String
  | view => "VIEW"
  | analyze => "ANALYZE"
  | paperTrade => "PAPER_TRADE"
  | liveTrade => "LIVE_TRADE"
  | autoTrade => "AUTO_TRADE"

/-- `_GRANTABLE`. -/
def grantable (permission : TradingPermission) : Bool := permission ∈ [liveTrade, autoTrade]

end TradingPermission

/-- The columns of `User` that decide on trading. -/
structure TradingUser where
  tradingPermissions : List TradingPermission := [.view, .analyze, .paperTrade]
  autoTradingEnabled : Bool := false
  deriving DecidableEq, Repr

/-- The columns of a strategy that decide on it. -/
structure StrategyStatus where
  userId : AccountId
  isActive : Bool := true
  eligibleForAutoTrading : Bool := false
  deriving DecidableEq, Repr

structure ConsentDesk where
  users : Dict AccountId TradingUser := Dict.empty
  strategies : Dict String StrategyStatus := Dict.empty

/-! ## Section 2: Requests -/

structure UpdateStrategyStatusRequest where
  isActive : Option Bool := none
  eligibleForAutoTrading : Option Bool := none
  confirm : Bool := false

namespace UpdateStrategyStatusRequest

variable (payload : UpdateStrategyStatusRequest) (row : StrategyStatus)

/-- To promote a strategy is what takes the permission and the confirmation. -/
def promotes : Bool :=
  payload.eligibleForAutoTrading = some true && row.eligibleForAutoTrading ≠ true

/-- The status is written field by field, where the request has one. -/
def apply : StrategyStatus :=
  { row with
    isActive := payload.isActive.getD row.isActive
    eligibleForAutoTrading := payload.eligibleForAutoTrading.getD row.eligibleForAutoTrading }

end UpdateStrategyStatusRequest

namespace ConsentDesk

variable (w : ConsentDesk)

/-- `create_user`, for an id that is new. -/
def register (userId : AccountId) : ConsentDesk :=
  if (w.users.get? userId).isSome then w else { w with users := w.users.set userId {} }

/-- `grant_permission`. -/
def grantPermission (userId : AccountId) (permission : TradingPermission) (confirm : Bool) :
    Except HttpError ConsentDesk :=
  match w.users.get? userId with
  | none => .error ⟨401, "User is not active"⟩
  | some user =>
    if !permission.grantable then
      .error ⟨400, s!"{permission.value} is granted automatically and cannot be requested here"⟩
    else if !confirm then .error ⟨400, s!"Set confirm=true to enable {permission.value}"⟩
    else if permission ∉ user.tradingPermissions then
      .ok { w with
        users := w.users.set userId
          { user with tradingPermissions := user.tradingPermissions ++ [permission] } }
    else .ok w

/-- `revoke_permission`, which asks for no confirmation. -/
def revokePermission (userId : AccountId) (permission : TradingPermission) :
    Except HttpError ConsentDesk :=
  match w.users.get? userId with
  | none => .error ⟨401, "User is not active"⟩
  | some user =>
    if permission ∈ user.tradingPermissions then
      .ok { w with
        users := w.users.set userId
          { user with tradingPermissions := user.tradingPermissions.filter (· ≠ permission) } }
    else .ok w

/-- `enable_auto_trading`. -/
def enableAutoTrading (userId : AccountId) (confirm : Bool) : Except HttpError ConsentDesk :=
  match w.users.get? userId with
  | none => .error ⟨401, "User is not active"⟩
  | some user =>
    if .autoTrade ∉ user.tradingPermissions then
      .error ⟨403, "Missing required permission: AUTO_TRADE"⟩
    else if !confirm then .error ⟨400, "Set confirm=true to enable autonomous trading"⟩
    else .ok { w with users := w.users.set userId { user with autoTradingEnabled := true } }

/-- `disable_auto_trading`, which asks for nothing. -/
def disableAutoTrading (userId : AccountId) : Except HttpError ConsentDesk :=
  match w.users.get? userId with
  | none => .error ⟨401, "User is not active"⟩
  | some user =>
    .ok { w with users := w.users.set userId { user with autoTradingEnabled := false } }

/-- `create_strategy` and `install_library_strategy`, as far as the status goes. -/
def createStrategy (userId : AccountId) (strategyId : String) : ConsentDesk :=
  if (w.users.get? userId).isNone ∨ (w.strategies.get? strategyId).isSome then w
  else { w with strategies := w.strategies.set strategyId { userId := userId } }

/-- `update_strategy_status`. -/
def updateStrategyStatus (userId : AccountId) (strategyId : String)
    (payload : UpdateStrategyStatusRequest) : Except HttpError ConsentDesk :=
  match w.users.get? userId, w.strategies.get? strategyId with
  | none, _ => .error ⟨401, "User is not active"⟩
  | some _, none => .error ⟨404, "Strategy not found"⟩
  | some user, some row =>
    if row.userId ≠ userId then .error ⟨404, "Strategy not found"⟩
    else if payload.promotes row && .autoTrade ∉ user.tradingPermissions then
      .error ⟨403, "Missing required trading permission: AUTO_TRADE"⟩
    else if payload.promotes row && !payload.confirm then
      .error ⟨400, "Set confirm=true to mark a strategy eligible for auto-trading"⟩
    else .ok { w with strategies := w.strategies.set strategyId (payload.apply row) }

end ConsentDesk

inductive ConsentRequest
  | register (userId : AccountId)
  | grant (userId : AccountId) (permission : TradingPermission) (confirm : Bool)
  | revoke (userId : AccountId) (permission : TradingPermission)
  | enable (userId : AccountId) (confirm : Bool)
  | disable (userId : AccountId)
  | create (userId : AccountId) (strategyId : String)
  | updateStatus (userId : AccountId) (strategyId : String) (payload : UpdateStrategyStatusRequest)

/-- The user it came from. -/
def ConsentRequest.userId : ConsentRequest → AccountId
  | .register userId => userId
  | .grant userId _ _ => userId
  | .revoke userId _ => userId
  | .enable userId _ => userId
  | .disable userId => userId
  | .create userId _ => userId
  | .updateStatus userId _ _ => userId

namespace ConsentDesk

def handle (w : ConsentDesk) : ConsentRequest → Except HttpError ConsentDesk
  | .register userId => .ok (w.register userId)
  | .grant userId permission confirm => w.grantPermission userId permission confirm
  | .revoke userId permission => w.revokePermission userId permission
  | .enable userId confirm => w.enableAutoTrading userId confirm
  | .disable userId => w.disableAutoTrading userId
  | .create userId strategyId => .ok (w.createStrategy userId strategyId)
  | .updateStatus userId strategyId payload => w.updateStrategyStatus userId strategyId payload

/-- A request that is refused changes nothing. -/
def step (w : ConsentDesk) (r : ConsentRequest) : ConsentDesk := (w.handle r).toOption.getD w

/-! ## Section 3: What the supervisor picks -/

/-- The users and strategies that `run_once` goes through. -/
def picked (w : ConsentDesk) : List (AccountId × String) :=
  (w.users.entries.filter fun u => u.2.autoTradingEnabled).flatMap fun u =>
    if .autoTrade ∉ u.2.tradingPermissions then []
    else
      (w.strategies.entries.filter fun s =>
        s.2.userId = u.1 && s.2.isActive && s.2.eligibleForAutoTrading).map fun s => (u.1, s.1)

/-! ## Section 4: What a request does -/

/-- The user has a row that meets the condition. -/
def UserIs (w : ConsentDesk) (userId : AccountId) (P : TradingUser → Prop) : Prop :=
  ∃ user, w.users.get? userId = some user ∧ P user

/-- The user has the strategy, and its status meets the condition. -/
def StrategyIs (w : ConsentDesk) (userId : AccountId) (strategyId : String)
    (P : StrategyStatus → Prop) : Prop :=
  ∃ row, w.strategies.get? strategyId = some row ∧ row.userId = userId ∧ P row

/-- What a request makes of the row of the user it came from. -/
def userAfter (user : TradingUser) : ConsentRequest → TradingUser
  | .grant _ permission confirm =>
    if permission.grantable ∧ confirm ∧ permission ∉ user.tradingPermissions then
      { user with tradingPermissions := user.tradingPermissions ++ [permission] }
    else user
  | .revoke _ permission =>
    { user with tradingPermissions := user.tradingPermissions.filter (· ≠ permission) }
  | .enable _ confirm =>
    if .autoTrade ∈ user.tradingPermissions ∧ confirm then { user with autoTradingEnabled := true }
    else user
  | .disable _ => { user with autoTradingEnabled := false }
  | .register _ | .create _ _ | .updateStatus _ _ _ => user

section Requests

variable {w : ConsentDesk} {userId : AccountId} {strategyId : String}

theorem step_ok {r : ConsentRequest} {w' : ConsentDesk} (h : w.handle r = .ok w') :
    w.step r = w' := by
  rw [step, h]
  rfl

/-- A request writes the row of its user, or leaves the users as they are. -/
theorem step_users_cases (w : ConsentDesk) (r : ConsentRequest) {user : TradingUser}
    (huser : w.users.get? r.userId = some user) :
    (w.step r).users = w.users.set r.userId (userAfter user r) ∨
      (w.step r).users = w.users ∧ userAfter user r = user := by
  -- The requests that write a user's row: the two of a permission and the two of the switch.
  cases r with
  | register k =>
    simp only [ConsentRequest.userId] at huser
    refine .inr ⟨?_, rfl⟩
    rw [step_ok rfl, register, huser]
    rfl
  | grant k permission confirm =>
    simp only [ConsentRequest.userId] at huser ⊢
    simp only [step, handle, grantPermission, huser, userAfter]
    split_ifs <;> simp_all [Except.toOption]
  -- A revoke that takes nothing leaves the row as it is.
  | revoke k permission =>
    simp only [ConsentRequest.userId] at huser ⊢
    simp only [step, handle, revokePermission, huser, userAfter]
    split_ifs with hheld
    · exact .inl rfl
    · refine .inr ⟨rfl, ?_⟩
      rw [List.filter_eq_self.mpr]
      rintro p hp
      simpa using ne_of_mem_of_not_mem hp hheld
  | enable k confirm =>
    simp only [ConsentRequest.userId] at huser ⊢
    simp only [step, handle, enableAutoTrading, huser, userAfter]
    split_ifs <;> simp_all [Except.toOption]
  | disable k =>
    simp only [ConsentRequest.userId] at huser ⊢
    simp only [step, handle, disableAutoTrading, huser, userAfter]
    exact .inl rfl
  -- Strategies are rows of their own.
  | create k id =>
    refine .inr ⟨?_, rfl⟩
    rw [step_ok rfl, createStrategy]
    split_ifs <;> rfl
  | updateStatus k id payload =>
    refine .inr ⟨?_, rfl⟩
    simp only [step, handle, updateStrategyStatus]
    split
    · rfl
    · rfl
    · split_ifs <;> rfl

/-- A request of nobody leaves the users as they are, unless it registers somebody. -/
theorem step_users_of_none (w : ConsentDesk) (r : ConsentRequest)
    (hnone : w.users.get? r.userId = none) :
    r = .register r.userId ∧ (w.step r).users = w.users.set r.userId {} ∨
      r ≠ .register r.userId ∧ (w.step r).users = w.users := by
  cases r with
  | register k =>
    rw [ConsentRequest.userId] at hnone
    refine .inl ⟨rfl, ?_⟩
    rw [step_ok rfl, register, hnone]
    rfl
  -- Nobody's strategy is not created, and the rest refuse too.
  | create k id =>
    rw [ConsentRequest.userId] at hnone
    refine .inr ⟨fun h => ConsentRequest.noConfusion h, ?_⟩
    rw [step_ok rfl, createStrategy, hnone]
    rfl
  | _ =>
    rw [ConsentRequest.userId] at hnone
    refine .inr ⟨fun h => ConsentRequest.noConfusion h, ?_⟩
    simp only [step, handle, grantPermission, revokePermission, enableAutoTrading,
      disableAutoTrading, updateStrategyStatus, hnone]
    rfl

/-- The user's row after a request: only the user's own requests touch it. -/
theorem userIs_step {P : TradingUser → Prop} (w : ConsentDesk) (r : ConsentRequest) :
    (w.step r).UserIs userId P ↔
      w.UserIs userId (fun user => P (if r.userId = userId then userAfter user r else user)) ∨
        r = .register userId ∧ w.users.get? userId = none ∧ P {} := by
  simp only [UserIs]
  -- A user who is there is written by the request's own row, or not at all.
  cases huser : w.users.get? r.userId with
  | none =>
    by_cases hown : r.userId = userId
    · subst hown
      rcases step_users_of_none w r huser with ⟨hr, hstep⟩ | ⟨hr, hstep⟩ <;> rw [hstep]
      · simp [huser, ← hr]
      · simp [huser, hr]
    · have hr : r ≠ .register userId := fun h => hown (h ▸ rfl)
      rcases step_users_of_none w r huser with ⟨-, hstep⟩ | ⟨-, hstep⟩ <;>
        simp [hstep, Dict.get?_set_of_ne _ hown, hown, hr]
  | some user =>
    have hnew : ¬ (r = .register userId ∧ w.users.get? userId = none ∧ P {}) := by
      rintro ⟨rfl, hnone, -⟩
      rw [ConsentRequest.userId, hnone] at huser
      cases huser
    rw [or_iff_left hnew]
    -- The row of another user is the same after either outcome.
    rcases step_users_cases w r huser with hstep | ⟨hstep, hsame⟩ <;> rw [hstep]
    · rw [Dict.get?_set]
      split_ifs with hown
      · subst hown
        simp [huser]
      · rfl
    · split_ifs with hown
      · subst hown
        simp [huser, hsame]
      · rfl

theorem mem_userAfter {user : TradingUser} {r : ConsentRequest} {permission : TradingPermission} :
    permission ∈ (userAfter user r).tradingPermissions ↔
      permission.grantable ∧ r = .grant r.userId permission true ∨
        permission ∈ user.tradingPermissions ∧ r ≠ .revoke r.userId permission := by
  cases r with
  -- A grant adds the permission if it may be granted, was confirmed and is new.
  | grant k p confirm =>
    simp only [userAfter, ConsentRequest.userId, ConsentRequest.grant.injEq, true_and]
    split_ifs with h
    · simp only [List.mem_append, List.mem_singleton]
      obtain ⟨hgrantable, hconfirm, hnew⟩ := h
      constructor
      · rintro (hmem | rfl)
        · exact .inr ⟨hmem, fun h => ConsentRequest.noConfusion h⟩
        · exact .inl ⟨hgrantable, rfl, hconfirm⟩
      · rintro (⟨-, rfl, -⟩ | ⟨hmem, -⟩)
        · exact .inr rfl
        · exact .inl hmem
    · constructor
      · exact fun hmem => .inr ⟨hmem, fun h => ConsentRequest.noConfusion h⟩
      · rintro (⟨hgrantable, rfl, hconfirm⟩ | ⟨hmem, -⟩)
        · by_contra hnew
          exact h ⟨hgrantable, hconfirm, hnew⟩
        · exact hmem
  -- A revoke takes it away.
  | revoke k p =>
    simp only [userAfter, ConsentRequest.userId, List.mem_filter]
    simp [@eq_comm _ p]
  -- Enabling and disabling leave the permissions.
  | enable k confirm =>
    simp only [userAfter]
    split_ifs <;> simp
  | _ => simp [userAfter]

theorem autoTradingEnabled_userAfter {user : TradingUser} {r : ConsentRequest} :
    (userAfter user r).autoTradingEnabled = true ↔
      .autoTrade ∈ user.tradingPermissions ∧ r = .enable r.userId true ∨
        user.autoTradingEnabled = true ∧ r ≠ .disable r.userId := by
  cases r with
  | enable k confirm =>
    simp only [userAfter, ConsentRequest.userId]
    split_ifs <;> simp_all
  | grant k p confirm =>
    simp only [userAfter]
    split_ifs <;> simp
  | _ => simp [userAfter, ConsentRequest.userId]

/-- A status is accepted from the owner, and to promote takes the permission and a confirmation. -/
theorem updateStrategyStatus_eq_ok {payload : UpdateStrategyStatusRequest} {w' : ConsentDesk} :
    w.updateStrategyStatus userId strategyId payload = .ok w' ↔
      ∃ user row, w.users.get? userId = some user ∧ w.strategies.get? strategyId = some row ∧
        row.userId = userId ∧
        (payload.promotes row →
          .autoTrade ∈ user.tradingPermissions ∧ payload.confirm) ∧
        w' = { w with strategies := w.strategies.set strategyId (payload.apply row) } := by
  rw [updateStrategyStatus]
  cases w.users.get? userId with
  | none => simp
  | some user =>
    cases hrow : w.strategies.get? strategyId with
    | none => simp
    | some row =>
      by_cases hown : row.userId = userId
      · cases hpromotes : payload.promotes row <;> cases hconfirm : payload.confirm <;>
          by_cases hheld : .autoTrade ∈ user.tradingPermissions <;>
          simp [hpromotes, hheld, hown, @eq_comm _ w']
      · simp [hown]

/-- What a request makes of the strategies. -/
inductive StrategiesAfter (w : ConsentDesk) : ConsentRequest → Dict String StrategyStatus → Prop
  | created {k : AccountId} {id : String} (huser : (w.users.get? k).isSome)
      (hnew : w.strategies.get? id = none) :
      StrategiesAfter w (.create k id) (w.strategies.set id { userId := k })
  | updated {k : AccountId} {id : String} {payload : UpdateStrategyStatusRequest}
      {row : StrategyStatus} (hok : Returns (w.updateStrategyStatus k id payload))
      (hrow : w.strategies.get? id = some row) (hown : row.userId = k) :
      StrategiesAfter w (.updateStatus k id payload) (w.strategies.set id (payload.apply row))
  | kept {r : ConsentRequest}
      (hcreate : ∀ k id, r = .create k id →
        ¬ ((w.users.get? k).isSome ∧ w.strategies.get? id = none))
      (hupdate : ∀ k id payload, r = .updateStatus k id payload →
        ¬ Returns (w.updateStrategyStatus k id payload)) :
      StrategiesAfter w r w.strategies

/-- A request that is about users only leaves the strategies, refused or not. -/
theorem StrategiesAfter.of_users {r : ConsentRequest} (hcreate : ∀ k id, r ≠ .create k id)
    (hupdate : ∀ k id payload, r ≠ .updateStatus k id payload)
    (h : ∀ w', w.handle r = .ok w' → w'.strategies = w.strategies) :
    StrategiesAfter w r (w.step r).strategies := by
  have hsame : (w.step r).strategies = w.strategies := by
    rw [step]
    cases hw' : w.handle r with
    | error e => rfl
    | ok w' => exact h w' hw'
  rw [hsame]
  exact .kept (fun k id hr => absurd hr (hcreate k id)) fun k id payload hr =>
    absurd hr (hupdate k id payload)

theorem strategiesAfter_step (w : ConsentDesk) (r : ConsentRequest) :
    StrategiesAfter w r (w.step r).strategies := by
  cases r with
  | create k id =>
    rw [step_ok rfl, createStrategy]
    -- An id that is taken refuses the row.
    split_ifs with htaken
    · refine .kept (fun _ _ h => ?_) fun _ _ _ h => ConsentRequest.noConfusion h
      cases h
      rintro ⟨huser, hnew⟩
      simp [hnew, Option.isSome_iff_ne_none.mp huser] at htaken
    · obtain ⟨huser, hnew⟩ := not_or.mp htaken
      exact .created (by simpa [Option.isSome_iff_ne_none] using huser) (by simpa using hnew)
  | updateStatus k id payload =>
    -- An update that is refused leaves the row.
    by_cases hok : Returns (w.updateStrategyStatus k id payload)
    · obtain ⟨w', hw'⟩ := hok
      obtain ⟨user, row, -, hrow, hown, -, rfl⟩ := updateStrategyStatus_eq_ok.mp hw'
      rw [step_ok (show w.handle (.updateStatus k id payload) = .ok _ from hw')]
      exact .updated ⟨_, hw'⟩ hrow hown
    · have hsame : w.step (.updateStatus k id payload) = w := by
        rw [step, handle]
        cases hw' : w.updateStrategyStatus k id payload with
        | ok w' => exact absurd ⟨w', hw'⟩ hok
        | error e => rfl
      rw [hsame]
      exact .kept (fun _ _ h => ConsentRequest.noConfusion h) fun _ _ _ h => by cases h; exact hok
  -- No other request writes a strategy.
  | _ =>
    refine .of_users (fun _ _ h => ConsentRequest.noConfusion h)
      (fun _ _ _ h => ConsentRequest.noConfusion h) fun w' hw' => ?_
    simp only [handle, register, grantPermission, revokePermission, enableAutoTrading,
      disableAutoTrading] at hw'
    revert hw'
    repeat' split
    all_goals rintro ⟨⟩
    all_goals rfl

theorem strategyIs_step {P : StrategyStatus → Prop} (w : ConsentDesk) (r : ConsentRequest) :
    (w.step r).StrategyIs userId strategyId P ↔
      (r = .create userId strategyId ∧ (w.users.get? userId).isSome ∧
        w.strategies.get? strategyId = none ∧ P { userId := userId }) ∨
      (∃ payload, r = .updateStatus userId strategyId payload ∧
        Returns (w.updateStrategyStatus userId strategyId payload) ∧
        w.StrategyIs userId strategyId fun row => P (payload.apply row)) ∨
      w.StrategyIs userId strategyId P ∧ ∀ payload, r = .updateStatus userId strategyId payload →
        ¬ Returns (w.updateStrategyStatus userId strategyId payload) := by
  have h := strategiesAfter_step w r
  simp only [StrategyIs]
  generalize (w.step r).strategies = strategies at h
  cases h with
  | @created k id huser hnew =>
    simp only [Dict.get?_set]
    -- The row that is created or updated is read under its id; the others as before.
    by_cases hid : id = strategyId
    · subst hid
      simp [hnew]
      rintro rfl
      simp [huser]
    · simp [hid]
  | @updated k id payload row hok hrow hown =>
    simp only [Dict.get?_set]
    by_cases hid : id = strategyId
    · subst hid
      by_cases hk : k = userId
      · subst hk
        have hback : (payload.apply row).userId = k := hown
        simp [hrow, hown, hok, hback]
      · have hother : (payload.apply row).userId ≠ userId := fun h => hk (hown.symm.trans h)
        simp [hk, hrow, hown, hother]
    · simp [hid]
  -- Neither created nor updated.
  | kept hcreate hupdate =>
    have hnot : ¬ (r = .create userId strategyId ∧ (w.users.get? userId).isSome ∧
        w.strategies.get? strategyId = none ∧ P { userId := userId }) :=
      fun ⟨hr, huser, hnew, _⟩ => hcreate _ _ hr ⟨huser, hnew⟩
    have hno : ∀ payload, r = .updateStatus userId strategyId payload →
        ¬ Returns (w.updateStrategyStatus userId strategyId payload) := hupdate _ _
    constructor
    · exact fun hrow => .inr (.inr ⟨hrow, hno⟩)
    · rintro (h | ⟨payload, hr, hok, -⟩ | ⟨hrow, -⟩)
      · exact absurd h hnot
      · exact absurd hok (hno payload hr)
      · exact hrow

theorem returns_updateStrategyStatus {payload : UpdateStrategyStatusRequest} :
    Returns (w.updateStrategyStatus userId strategyId payload) ↔
      ∃ user row, w.users.get? userId = some user ∧ w.strategies.get? strategyId = some row ∧
        row.userId = userId ∧
        (payload.promotes row → .autoTrade ∈ user.tradingPermissions ∧ payload.confirm) := by
  simp only [Returns, updateStrategyStatus_eq_ok]
  constructor
  · rintro ⟨_, user, row, huser, hrow, hown, hfree, -⟩
    exact ⟨user, row, huser, hrow, hown, hfree⟩
  · rintro ⟨user, row, huser, hrow, hown, hfree⟩
    exact ⟨_, user, row, huser, hrow, hown, hfree, rfl⟩

end Requests

/-! ## Section 5: The four flags -/

/-- The user holds the permission. -/
def Holds (userId : AccountId) (permission : TradingPermission) (w : ConsentDesk) : Prop :=
  w.UserIs userId fun user => permission ∈ user.tradingPermissions

/-- A permission comes with the account, or with a confirmed request for one that can be granted. -/
def Grants (userId : AccountId) (permission : TradingPermission) (w : ConsentDesk)
    (r : ConsentRequest) : Prop :=
  (w.users.get? userId).isSome ∧ permission.grantable ∧ r = .grant userId permission true ∨
    w.users.get? userId = none ∧ permission ∈ ({} : TradingUser).tradingPermissions ∧
      r = .register userId

def Revokes (userId : AccountId) (permission : TradingPermission) (_ : ConsentDesk)
    (r : ConsentRequest) : Prop :=
  r = .revoke userId permission

def Enables (userId : AccountId) (w : ConsentDesk) (r : ConsentRequest) : Prop :=
  w.Holds userId .autoTrade ∧ r = .enable userId true

def Disables (userId : AccountId) (_ : ConsentDesk) (r : ConsentRequest) : Prop :=
  r = .disable userId

/-- A strategy is promoted by its owner, with a confirmation and while the permission is held. -/
def Promotes (userId : AccountId) (strategyId : String) (w : ConsentDesk) (r : ConsentRequest) :
    Prop :=
  w.Holds userId .autoTrade ∧ w.StrategyIs userId strategyId (fun _ => True) ∧
    ∃ payload, r = .updateStatus userId strategyId payload ∧
      payload.eligibleForAutoTrading = some true ∧ payload.confirm

def Demotes (userId : AccountId) (strategyId : String) (w : ConsentDesk) (r : ConsentRequest) :
    Prop :=
  ∃ payload, r = .updateStatus userId strategyId payload ∧
    Returns (w.updateStrategyStatus userId strategyId payload) ∧
    payload.eligibleForAutoTrading = some false

/-- A strategy is active from its creation on, and after a status that says so. -/
def Activates (userId : AccountId) (strategyId : String) (w : ConsentDesk) (r : ConsentRequest) :
    Prop :=
  (r = .create userId strategyId ∧ (w.users.get? userId).isSome ∧
    w.strategies.get? strategyId = none) ∨
  ∃ payload, r = .updateStatus userId strategyId payload ∧
    Returns (w.updateStrategyStatus userId strategyId payload) ∧ payload.isActive = some true

def Deactivates (userId : AccountId) (strategyId : String) (w : ConsentDesk) (r : ConsentRequest) :
    Prop :=
  ∃ payload, r = .updateStatus userId strategyId payload ∧
    Returns (w.updateStrategyStatus userId strategyId payload) ∧ payload.isActive = some false

section Flags

variable {w : ConsentDesk} {userId : AccountId} {strategyId : String}

/-- The permissions of a user. -/
theorem flag_holds (permission : TradingPermission) :
    Flag step (Holds userId permission) (Grants userId permission) (Revokes userId permission) := by
  intro w r
  rw [Holds, userIs_step, Grants, Revokes, Holds]
  by_cases hown : r.userId = userId
  · subst hown
    simp only [if_pos, mem_userAfter, UserIs]
    cases w.users.get? r.userId <;> simp
    tauto
  · have hgrant : r ≠ .grant userId permission true := fun h => hown (h ▸ rfl)
    have hrevoke : r ≠ .revoke userId permission := fun h => hown (h ▸ rfl)
    have hregister : r ≠ .register userId := fun h => hown (h ▸ rfl)
    simp [hown, hgrant, hrevoke, hregister]

/-- Auto-trading of a user. -/
theorem flag_enabled : Flag step (fun w => w.UserIs userId fun user => user.autoTradingEnabled)
    (Enables userId) (Disables userId) := by
  intro w r
  dsimp only
  rw [userIs_step, Enables, Disables, Holds]
  by_cases hown : r.userId = userId
  · subst hown
    simp only [if_pos, autoTradingEnabled_userAfter, UserIs]
    cases w.users.get? r.userId <;> simp
  · have henable : r ≠ .enable userId true := fun h => hown (h ▸ rfl)
    have hdisable : r ≠ .disable userId := fun h => hown (h ▸ rfl)
    have hregister : r ≠ .register userId := fun h => hown (h ▸ rfl)
    simp [hown, henable, hdisable, hregister]

theorem strategyIs_iff {row : StrategyStatus} {P : StrategyStatus → Prop}
    (hrow : w.strategies.get? strategyId = some row) (hown : row.userId = userId) :
    w.StrategyIs userId strategyId P ↔ P row := by
  simp [StrategyIs, hrow, hown]

/-- The activity of a strategy. -/
theorem flag_active : Flag step (fun w => w.StrategyIs userId strategyId fun row => row.isActive)
    (Activates userId strategyId) (Deactivates userId strategyId) := by
  intro w r
  dsimp only
  rw [strategyIs_step, Activates, Deactivates]
  by_cases hr : ∃ payload, r = .updateStatus userId strategyId payload
  · obtain ⟨payload, rfl⟩ := hr
    by_cases hok : Returns (w.updateStrategyStatus userId strategyId payload)
    · obtain ⟨-, row, -, hrow, hown, -⟩ := returns_updateStrategyStatus.mp hok
      simp only [strategyIs_iff hrow hown, UpdateStrategyStatusRequest.apply]
      rcases hactive : payload.isActive with _ | _ | _ <;> simp [hactive, hok]
    · simp [hok]
  · simp [not_exists.mp hr]

/-- A promotion is a status that is accepted. -/
theorem Promotes.accepted {payload : UpdateStrategyStatusRequest}
    (h : w.Promotes userId strategyId (.updateStatus userId strategyId payload)) :
    Returns (w.updateStrategyStatus userId strategyId payload) := by
  obtain ⟨⟨user, huser, hheld⟩, ⟨row, hrow, hown, -⟩, _, hpayload, -, hconfirm⟩ := h
  cases hpayload
  exact returns_updateStrategyStatus.mpr
    ⟨user, row, huser, hrow, hown, fun _ => ⟨hheld, hconfirm⟩⟩

/-- The eligibility of a strategy. -/
theorem flag_eligible :
    Flag step (fun w => w.StrategyIs userId strategyId fun row => row.eligibleForAutoTrading)
      (Promotes userId strategyId) (Demotes userId strategyId) := by
  intro w r
  dsimp only
  rw [strategyIs_step, Demotes]
  by_cases hr : ∃ payload, r = .updateStatus userId strategyId payload
  · obtain ⟨payload, rfl⟩ := hr
    by_cases hok : Returns (w.updateStrategyStatus userId strategyId payload)
    · obtain ⟨user, row, huser, hrow, hown, hfree⟩ := returns_updateStrategyStatus.mp hok
      have hpromotes : w.Promotes userId strategyId (.updateStatus userId strategyId payload) ↔
          .autoTrade ∈ user.tradingPermissions ∧ payload.eligibleForAutoTrading = some true ∧
            payload.confirm := by
        simp [Promotes, Holds, UserIs, huser, strategyIs_iff hrow hown]
      rw [hpromotes]
      simp only [strategyIs_iff hrow hown, UpdateStrategyStatusRequest.apply]
      -- A row that was not eligible took the permission and the confirmation.
      rcases heligible : payload.eligibleForAutoTrading with _ | _ | _
      · simp [heligible, hok]
      · simp [heligible, hok]
      · have hstands : row.eligibleForAutoTrading = true ∨
            .autoTrade ∈ user.tradingPermissions ∧ payload.confirm = true := by
          by_contra hnot
          exact hnot (.inr (hfree (by simp_all [UpdateStrategyStatusRequest.promotes])))
        simp [heligible, hok]
        tauto
    · have hnot := mt Promotes.accepted hok
      simp [hok, hnot]
  · simp [not_exists.mp hr, Promotes]

end Flags

/-! ## Section 6: Consent -/

theorem mem_picked {w : ConsentDesk} {userId : AccountId} {strategyId : String} :
    (userId, strategyId) ∈ w.picked ↔
      w.Holds userId .autoTrade ∧ (w.UserIs userId fun user => user.autoTradingEnabled) ∧
        (w.StrategyIs userId strategyId fun row => row.eligibleForAutoTrading) ∧
        w.StrategyIs userId strategyId fun row => row.isActive := by
  simp only [picked, List.mem_flatMap, List.mem_filter, Dict.mem_entries_iff, Prod.exists]
  constructor
  · -- Each user that has the switch on is asked for the permission before the strategies are.
    rintro ⟨k, user, ⟨huser, henabled⟩, hmem⟩
    by_cases hheld : .autoTrade ∈ user.tradingPermissions
    · rw [if_neg (not_not.mpr hheld)] at hmem
      simp only [List.mem_map, List.mem_filter, Dict.mem_entries_iff, Prod.exists,
        Bool.and_eq_true, decide_eq_true_eq] at hmem
      obtain ⟨id, row, ⟨hrow, ⟨hown, hactive⟩, heligible⟩, hpair⟩ := hmem
      cases hpair
      exact ⟨⟨user, huser, hheld⟩, ⟨user, huser, henabled⟩, ⟨row, hrow, hown, heligible⟩,
        row, hrow, hown, hactive⟩
    · rw [if_pos hheld] at hmem
      cases hmem
  · -- Both conditions of a user are of one row, and so are those of the strategy.
    rintro ⟨⟨user, huser, hheld⟩, ⟨user', huser', henabled⟩, ⟨row, hrow, hown, heligible⟩,
      row', hrow', -, hactive⟩
    obtain rfl : user = user' := Option.some.inj (huser.symm.trans huser')
    obtain rfl : row = row' := Option.some.inj (hrow.symm.trans hrow')
    refine ⟨userId, user, ⟨huser, henabled⟩, ?_⟩
    rw [if_neg (not_not.mpr hheld)]
    refine List.mem_map.mpr ⟨(strategyId, row), List.mem_filter.mpr ?_, rfl⟩
    exact ⟨(Dict.mem_entries_iff _).mpr hrow, by simp [hown, hactive, heligible]⟩

/-- **Consent.** A pass of the supervisor goes through a strategy of a user exactly if, since each
was last withdrawn, the user confirmed the permission, confirmed auto-trading while holding it,
confirmed the strategy's promotion while holding it, and has the strategy active. -/
theorem picked_iff_consented (userId : AccountId) (strategyId : String)
    (rs : List ConsentRequest) :
    (userId, strategyId) ∈ (run step {} rs).picked ↔
      RaisedSince step (Grants userId .autoTrade) (Revokes userId .autoTrade) {} rs ∧
        RaisedSince step (Enables userId) (Disables userId) {} rs ∧
        RaisedSince step (Promotes userId strategyId) (Demotes userId strategyId) {} rs ∧
        RaisedSince step (Activates userId strategyId) (Deactivates userId strategyId) {} rs := by
  rw [mem_picked, (flag_holds .autoTrade).run_iff_of_not, flag_enabled.run_iff_of_not,
    flag_eligible.run_iff_of_not, flag_active.run_iff_of_not]
  all_goals
    rintro ⟨_, hrow, -⟩
    cases hrow

/-- A user that is there stays there. -/
theorem user_kept {userId : AccountId} (w : ConsentDesk) (r : ConsentRequest)
    (h : w.UserIs userId fun _ => True) : (w.step r).UserIs userId fun _ => True :=
  (userIs_step w r).mpr (.inl h)

/-- **No way back.** A permission that comes with the account can be revoked, unlike what the
endpoint says of it, and no requests bring it back: granting it is refused, and the account is
made once. -/
theorem automatic_permission_lost (w : ConsentDesk) (userId : AccountId)
    (permission : TradingPermission) (rs : List ConsentRequest)
    (hregistered : (w.users.get? userId).isSome) (hauto : ¬ permission.grantable) :
    ¬ (run step (w.step (.revoke userId permission)) rs).Holds userId permission := by
  obtain ⟨user, hrow⟩ := Option.isSome_iff_exists.mp hregistered
  have huser : w.UserIs userId fun _ => True := ⟨user, hrow, trivial⟩
  have hdown : ¬ (w.step (.revoke userId permission)).Holds userId permission := by
    rw [flag_holds permission w]
    rintro (hgrant | ⟨-, hnot⟩)
    · rcases hgrant with ⟨-, -, hr⟩ | ⟨-, -, hr⟩ <;> cases hr
    · exact absurd rfl hnot
  rw [(flag_holds permission).run_iff_of_not hdown]
  rintro ⟨before, r, after, -, hgrant, -⟩
  have hkept := invariant_run user_kept before (user_kept _ (.revoke userId permission) huser)
  rcases hgrant with ⟨-, hgrantable, -⟩ | ⟨hnone, -, -⟩
  · exact hauto hgrantable
  · obtain ⟨user, hsome, -⟩ := hkept
    rw [hsome] at hnone
    cases hnone

/-- Trading on paper, revoked by the user and asked for again. -/
theorem automatic_permission_lost_paperTrade :
    ¬ (run step ((ConsentDesk.register {} "user").step (.revoke "user" .paperTrade))
      [.register "user", .grant "user" .paperTrade true]).Holds "user" .paperTrade :=
  automatic_permission_lost _ "user" .paperTrade _ rfl (by decide)

end ConsentDesk

end SuperTrading
