import SuperTrading.Logic.TtlStore
import SuperTrading.Risk.Limits

/-!
# Shared State

What the processes share through Redis, `app/core/redis.py`: the price cache, the states of the
OAuth flow, the halts, the kill switch of `app/risk/kill_switch.py` and the heartbeats. The API, the
workers and the admins call in any order, and a call is one command but for `set_latest_price`,
which reads before it writes.

- **Section 1**: keys
- **Section 2**: calls
- **Section 3**: what a call does to a key
- **Section 4**: the kill switch is the one in memory
- **Section 5**: halts, OAuth states and heartbeats
-/

namespace SuperTrading

open SuperTrading.Logic

/-! ## Section 1: Keys -/

inductive RedisKeyspace
  | price
  | priceTs
  | pricePrev
  | oauthState
  | halt
  | killGlobal
  | killAccount
  | killStrategy
  | heartbeat
  | rateLimit
  | tradeLock
  deriving DecidableEq, Repr

namespace RedisKeyspace

def keyPrefix : RedisKeyspace → String
  | price => "price:"
  | priceTs => "price_ts:"
  | pricePrev => "price_prev:"
  | oauthState => "oauth_state:"
  | halt => "halt:account:"
  | killGlobal => "kill:global"
  | killAccount => "kill:account:"
  | killStrategy => "kill:strategy:"
  | heartbeat => "heartbeat:worker:"
  | rateLimit => "ratelimit:"
  | tradeLock => "tradelock:account:"

def all : List RedisKeyspace :=
  [price, priceTs, pricePrev, oauthState, halt, killGlobal, killAccount, killStrategy, heartbeat,
    rateLimit, tradeLock]

/-- The key of an id. -/
def key (space : RedisKeyspace) (id : String := "") : String := space.keyPrefix ++ id

/-- No space's keys begin like another's. -/
theorem eq_of_isPrefixOf {space other : RedisKeyspace}
    (h : space.keyPrefix.toList <+: other.keyPrefix.toList) : space = other := by
  have hfree : ∀ a ∈ all, ∀ b ∈ all,
      (a.keyPrefix.toList.isPrefixOf b.keyPrefix.toList → a = b) := by decide +kernel
  have hall : ∀ a : RedisKeyspace, a ∈ all := by
    intro a
    cases a <;> simp [all]
  exact hfree space (hall space) other (hall other) (List.isPrefixOf_iff_prefix.mpr h)

/-- Whatever the ids look like, two of them never share a key. -/
theorem key_inj {space other : RedisKeyspace} {id id' : String} :
    space.key id = other.key id' ↔ space = other ∧ id = id' := by
  refine ⟨fun h => ?_, by rintro ⟨rfl, rfl⟩; rfl⟩
  have hlist : space.keyPrefix.toList ++ id.toList = other.keyPrefix.toList ++ id'.toList := by
    rw [← String.toList_append, ← String.toList_append]
    exact congrArg String.toList h
  have hspace : space = other := by
    rcases List.prefix_or_prefix_of_prefix (List.prefix_append space.keyPrefix.toList id.toList)
      (hlist ▸ List.prefix_append other.keyPrefix.toList id'.toList) with hle | hle
    · exact eq_of_isPrefixOf hle
    · exact (eq_of_isPrefixOf hle).symm
  subst hspace
  exact ⟨rfl, String.toList_inj.mp (List.append_cancel_left hlist)⟩

end RedisKeyspace

/-! ## Section 2: Calls -/

/-- A value under a key. -/
inductive RedisValue
  | text (s : String)
  | number (q : ℚ)
  deriving DecidableEq, Repr

/-- A call of `set_latest_price` that has read the price it stashes as the previous one. -/
structure PriceUpdate where
  symbol : Symbol
  price : ℚ
  /-- `now`, before the read. -/
  takenAt : ℕ
  previous : Option ℚ
  deriving DecidableEq, Repr

/-- `_PRICE_TTL_SECONDS`. -/
def priceTtl : ℕ := 60000

/-- The transaction of `set_latest_price`. -/
def PriceUpdate.transaction (w : PriceUpdate) (store : TtlStore String RedisValue) :
    TtlStore String RedisValue :=
  let stashed := w.previous.elim store fun previous =>
    store.put (RedisKeyspace.key .pricePrev w.symbol) (.number previous) (some priceTtl)
  (stashed.put (RedisKeyspace.key .price w.symbol) (.number w.price) (some priceTtl)).put
    (RedisKeyspace.key .priceTs w.symbol) (.number ((w.takenAt : ℚ) / 1000)) (some priceTtl)

/-- Redis, and the one call of `set_latest_price` that may be under way. Times are in
milliseconds. -/
structure SharedState where
  store : TtlStore String RedisValue := .empty
  writing : Option PriceUpdate := none


/-- `_OAUTH_STATE_TTL_SECONDS`. -/
def oauthStateTtl : ℕ := 600000

/-- `_HEARTBEAT_TTL_SECONDS`. -/
def heartbeatTtl : ℕ := 90000

/-- The calls that write, and time. -/
inductive SharedCall
  | elapse (time : ℕ)
  | setGlobalKill
  | clearGlobalKill
  | setAccountKill (accountId : String)
  | clearAccountKill (accountId : String)
  | setStrategyKill (strategyId : String)
  | clearStrategyKill (strategyId : String)
  | haltAccount (accountId reason : String)
  | resumeAccount (accountId : String)
  | storeOauthState (state userId : String)
  | popOauthState (state : String)
  | heartbeat (workerName : String)
  /-- `set_latest_price`, up to the price that was there. -/
  | readPrevious (symbol : Symbol) (price : ℚ)
  /-- The transaction of `set_latest_price`. -/
  | writePrice
  /-- The worker is gone between the two. -/
  | abandonPrice
  /-- What the rate limiter does to one of its keys. -/
  | rateLimit (id : String) (write : KeyWrite RedisValue)
  /-- What the trade lock does to one of its keys. -/
  | tradeLock (id : String) (write : KeyWrite RedisValue)

namespace SharedCall

open RedisKeyspace (key)

/-- The one command of a call that is not about prices. -/
def command : SharedCall → Option (String × KeyWrite RedisValue)
  | setGlobalKill => some (key .killGlobal, .put (.text "1") none)
  | clearGlobalKill => some (key .killGlobal, .drop)
  | setAccountKill accountId => some (key .killAccount accountId, .put (.text "1") none)
  | clearAccountKill accountId => some (key .killAccount accountId, .drop)
  | setStrategyKill strategyId => some (key .killStrategy strategyId, .put (.text "1") none)
  | clearStrategyKill strategyId => some (key .killStrategy strategyId, .drop)
  | haltAccount accountId reason => some (key .halt accountId, .put (.text reason) none)
  | resumeAccount accountId => some (key .halt accountId, .drop)
  | storeOauthState state userId =>
    some (key .oauthState state, .put (.text userId) (some oauthStateTtl))
  | popOauthState state => some (key .oauthState state, .drop)
  | heartbeat workerName =>
    some (key .heartbeat workerName, .put (.text "1") (some heartbeatTtl))
  | rateLimit id write => some (key .rateLimit id, write)
  | tradeLock id write => some (key .tradeLock id, write)
  | elapse _ | readPrevious _ _ | writePrice | abandonPrice => none

def elapsed : SharedCall → ℕ
  | elapse time => time
  | _ => 0

end SharedCall

namespace SharedState

open RedisKeyspace (key)

variable (s : SharedState)

def getText (k : String) : Option String :=
  match s.store.get k with
  | some (.text value) => some value
  | _ => none

def getNumber (k : String) : Option ℚ :=
  match s.store.get k with
  | some (.number value) => some value
  | _ => none

def isGlobalKilled : Bool := (s.store.get (key .killGlobal)).isSome

def isAccountKilled (accountId : String) : Bool := (s.store.get (key .killAccount accountId)).isSome

def isStrategyKilled (strategyId : String) : Bool :=
  (s.store.get (key .killStrategy strategyId)).isSome

def accountHaltReason (accountId : String) : Option String := s.getText (key .halt accountId)

/-- What `pop_oauth_state` returns. -/
def poppedUser (state : String) : Option String := s.getText (key .oauthState state)

def workerIsAlive (workerName : String) : Bool :=
  (s.store.get (key .heartbeat workerName)).isSome

def latestPrice (symbol : Symbol) : Option ℚ := s.getNumber (key .price symbol)

/-- The ids of the keys of a space, which `scan_iter` finds by their prefix. -/
def scanIds (space : RedisKeyspace) : List String :=
  s.store.keys.filterMap fun k =>
    if space.keyPrefix.toList.isPrefixOf k.toList then
      some (String.ofList (k.toList.drop space.keyPrefix.length))
    else none

def listKilledAccounts : List String := s.scanIds .killAccount

def listKilledStrategies : List String := s.scanIds .killStrategy

def listHaltedAccounts : List (String × String) :=
  (s.scanIds .halt).filterMap fun id => (s.accountHaltReason id).map fun reason => (id, reason)

/-- One call. -/
def step (s : SharedState) (call : SharedCall) : SharedState :=
  match call with
  | .elapse time => { s with store := s.store.elapse time }
  | .readPrevious symbol price =>
    { s with
      writing := some
        { symbol := symbol
          price := price
          takenAt := s.store.now
          previous := s.latestPrice symbol } }
  | .writePrice =>
    { store := s.writing.elim s.store fun w => w.transaction s.store
      writing := none }
  | .abandonPrice => { s with writing := none }
  | call => { s with store := call.command.elim s.store fun c => s.store.write c.1 c.2 }

theorem store_step_of_command (s : SharedState) {call : SharedCall}
    {c : String × KeyWrite RedisValue} (h : call.command = some c) :
    (s.step call).store = s.store.write c.1 c.2 := by
  cases call <;> cases h <;> rfl

end SharedState

/-- `load_kill_switch_state`: three reads, and each finds what is there by then. -/
def loadKillSwitchState (s s' s'' : SharedState) (accountId : AccountId)
    (strategyId : Option String) : KillSwitchState where
  globalKill := s.isGlobalKilled
  killedAccounts := [accountId].filter fun id => id ≠ "" ∧ s'.isAccountKilled id
  killedStrategies := strategyId.toList.filter fun id => id ≠ "" ∧ s''.isStrategyKilled id

/-! ## Section 3: Keys under calls -/

namespace SharedState

open RedisKeyspace (key)

variable {s : SharedState} {space : RedisKeyspace} {id : String}

/-- The keys of the price cache. -/
def cachesPrice (space : RedisKeyspace) : Bool := space ∈ [.price, .priceTs, .pricePrev]

/-- What a call writes to a key. -/
def writes (k : String) (call : SharedCall) : Option (KeyWrite RedisValue) :=
  (call.command.filter fun c => c.1 = k).map Prod.snd

/-- The transaction of a price touches no key but the price cache's. -/
theorem entry_transaction (w : PriceUpdate) (store : TtlStore String RedisValue)
    (hspace : cachesPrice space = false) :
    (w.transaction store).entries.get? (key space id) = store.entries.get? (key space id) := by
  have hput : ∀ (other : RedisKeyspace) (value : RedisValue) (store : TtlStore String RedisValue),
      cachesPrice other = true →
      (store.put (key other w.symbol) value (some priceTtl)).entries.get? (key space id) =
        store.entries.get? (key space id) := by
    intro other value store hother
    refine Dict.get?_set_of_ne _ (fun heq => ?_) _
    rw [(RedisKeyspace.key_inj.mp heq).1, hspace] at hother
    cases hother
  rw [PriceUpdate.transaction, hput _ _ _ rfl, hput _ _ _ rfl]
  cases w.previous with
  | none => rfl
  | some previous => exact hput _ _ _ rfl

/-- **What the calls do to a key**, whoever makes them. -/
theorem driven (hspace : cachesPrice space = false) (id : String) :
    Driven step store (key space id) (writes (key space id)) SharedCall.elapsed where
  now s call := by
    cases hc : call.command with
    | some c =>
      rw [store_step_of_command s hc, TtlStore.now_write]
      cases call <;> first | rfl | cases hc
    | none =>
      -- The calls of no command: those of the clock and of a tick, which writes prices only.
      cases call with
      | elapse | readPrevious | abandonPrice => rfl
      | writePrice =>
        rw [step]
        cases s.writing with
        | none => rfl
        | some w =>
          cases h : w.previous <;>
            simp [PriceUpdate.transaction, TtlStore.put, h, SharedCall.elapsed]
      | _ => cases hc
  -- Only time passing moves the clock.
  instant call w h := by
    cases call with
    | elapse => cases h
    | _ => rfl
  entry s call := by
    cases hc : call.command with
    | some c =>
      -- A call of one command writes its own key.
      obtain ⟨k, w⟩ := c
      rw [store_step_of_command s hc, writes, hc, Option.filter_some]
      by_cases hk : k = key space id
      · subst hk
        simp [TtlStore.entry_write_self]
      · simp [hk, TtlStore.entry_write_of_ne _ hk]
    | none =>
      rw [writes, hc]
      cases call with
      | elapse | readPrevious | abandonPrice => rfl
      | writePrice =>
        rw [step]
        cases s.writing with
        | none => rfl
        | some w => exact entry_transaction w s.store hspace
      | _ => cases hc

/-- A call writes a key if that is the key of its command. -/
theorem writes_eq_some {k : String} {call : SharedCall} {w : KeyWrite RedisValue} :
    writes k call = some w ↔ call.command = some (k, w) := by
  rw [writes, Option.map_eq_some_iff]
  constructor
  · rintro ⟨⟨k', w'⟩, hc, rfl⟩
    obtain ⟨hc, hk⟩ := Option.filter_eq_some_iff.mp hc
    rw [hc, ← of_decide_eq_true hk]
  · intro h
    exact ⟨(k, w), Option.filter_eq_some_iff.mpr ⟨h, decide_eq_true rfl⟩, rfl⟩

theorem writes_eq_none {k : String} {call : SharedCall} :
    writes k call = none ↔ ∀ w, call.command ≠ some (k, w) := by
  simp only [Option.eq_none_iff_forall_ne_some, ne_eq, writes_eq_some]

/-- The ids a scan finds are those whose key holds a value. -/
theorem mem_scanIds : id ∈ s.scanIds space ↔ (s.store.get (key space id)).isSome := by
  rw [scanIds, List.mem_filterMap]
  constructor
  · rintro ⟨k, hk, hid⟩
    split_ifs at hid with hle
    obtain ⟨rest, hrest⟩ := List.isPrefixOf_iff_prefix.mp hle
    have hkey : key space id = k := by
      refine String.toList_inj.mp ?_
      rw [key, String.toList_append, ← hrest, ← Option.some.inj hid, ← hrest,
        ← String.length_toList, List.drop_left, String.toList_ofList]
    rw [hkey]
    exact TtlStore.mem_keys.mp hk
  · intro h
    refine ⟨key space id, TtlStore.mem_keys.mpr h, ?_⟩
    have hlist : (key space id).toList = space.keyPrefix.toList ++ id.toList :=
      String.toList_append
    rw [hlist, if_pos (List.isPrefixOf_iff_prefix.mpr (List.prefix_append _ _)),
      ← String.length_toList, List.drop_left, String.ofList_toList]

end SharedState

/-! ## Section 4: The kill switch -/

namespace KillSwitchState

def killAccount (k : KillSwitchState) (accountId : AccountId) : KillSwitchState :=
  { k with killedAccounts := k.killedAccounts.insert accountId }

def resumeAccount (k : KillSwitchState) (accountId : AccountId) : KillSwitchState :=
  { k with killedAccounts := k.killedAccounts.filter (· ≠ accountId) }

def killStrategy (k : KillSwitchState) (strategyId : String) : KillSwitchState :=
  { k with killedStrategies := k.killedStrategies.insert strategyId }

def resumeStrategy (k : KillSwitchState) (strategyId : String) : KillSwitchState :=
  { k with killedStrategies := k.killedStrategies.filter (· ≠ strategyId) }

/-- What a call does to a switch in memory. -/
def step (k : KillSwitchState) : SharedCall → KillSwitchState
  | .setGlobalKill => { k with globalKill := true }
  | .clearGlobalKill => { k with globalKill := false }
  | .setAccountKill accountId => k.killAccount accountId
  | .clearAccountKill accountId => k.resumeAccount accountId
  | .setStrategyKill strategyId => k.killStrategy strategyId
  | .clearStrategyKill strategyId => k.resumeStrategy strategyId
  | _ => k

end KillSwitchState

namespace SharedCall

/-- The calls that lift a kill. -/
def lifts : SharedCall → Bool
  | clearGlobalKill | clearAccountKill _ | clearStrategyKill _ => true
  | _ => false

/-- The calls of the kill switch. -/
def switches (call : SharedCall) : Bool :=
  call.lifts ||
    match call with
    | setGlobalKill | setAccountKill _ | setStrategyKill _ => true
    | _ => false

end SharedCall

namespace SharedState

open RedisKeyspace (key)

variable {s : SharedState} {k : KillSwitchState} {space : RedisKeyspace} {id : String}

/-- A key is up, for good, or is not there. -/
def Flagged (s : SharedState) (k : String) (up : Prop) : Prop :=
  ∀ e, s.store.entries.get? k = some e ↔ up ∧ e = ⟨.text "1", none⟩

theorem Flagged.isSome {up : Prop} {k : String} (h : Flagged s k up) :
    (s.store.get k).isSome = true ↔ up := by
  cases hentry : s.store.entries.get? k with
  | none =>
    have hup : ¬ up := by
      intro hup
      rw [(h _).mpr ⟨hup, rfl⟩] at hentry
      cases hentry
    simp [TtlStore.get, hentry, hup]
  | some e =>
    obtain ⟨hup, rfl⟩ := (h e).mp hentry
    simp [TtlStore.get_of_entry hentry, hup]

/-- A key goes up and down with the calls that write it. -/
theorem Flagged.step (hspace : cachesPrice space = false) {up up' : Prop} {call : SharedCall}
    (h : Flagged s (key space id) up)
    (hput : ∀ w, call.command = some (key space id, w) →
      w = .put (.text "1") none ∧ up' ∨ w = .drop ∧ ¬ up')
    (hkeep : (∀ w, call.command ≠ some (key space id, w)) → (up' ↔ up)) :
    Flagged (s.step call) (key space id) up' := by
  have hentry := (driven hspace id).entry s call
  intro e
  cases hw : writes (key space id) call with
  | none =>
    rw [hw] at hentry
    rw [hentry, hkeep (writes_eq_none.mp hw)]
    exact h e
  | some w =>
    rw [hw] at hentry
    rw [hentry]
    obtain ⟨rfl, hup⟩ | ⟨rfl, hup⟩ := hput w (writes_eq_some.mp hw) <;>
      simp [KeyWrite.entry, hup, eq_comm]

/-- The shared switch stands as one in memory. -/
structure Shares (s : SharedState) (k : KillSwitchState) : Prop where
  globalKill : Flagged s (key .killGlobal) (k.globalKill = true)
  account : ∀ id, Flagged s (key .killAccount id) (id ∈ k.killedAccounts)
  strategy : ∀ id, Flagged s (key .killStrategy id) (id ∈ k.killedStrategies)

theorem Shares.step (h : Shares s k) (call : SharedCall) : Shares (s.step call) (k.step call) where
  globalKill := by
    refine h.globalKill.step rfl ?_ ?_ <;>
      cases call <;> simp [SharedCall.command, KillSwitchState.step, RedisKeyspace.key_inj,
        KillSwitchState.killAccount, KillSwitchState.resumeAccount, KillSwitchState.killStrategy,
        KillSwitchState.resumeStrategy]
  account id := by
    refine (h.account id).step rfl ?_ ?_ <;>
      cases call <;> simp +contextual [SharedCall.command, KillSwitchState.step,
        RedisKeyspace.key_inj, KillSwitchState.killAccount, KillSwitchState.resumeAccount,
        KillSwitchState.killStrategy, KillSwitchState.resumeStrategy, eq_comm]
  strategy id := by
    refine (h.strategy id).step rfl ?_ ?_ <;>
      cases call <;> simp +contextual [SharedCall.command, KillSwitchState.step,
        RedisKeyspace.key_inj, KillSwitchState.killAccount, KillSwitchState.resumeAccount,
        KillSwitchState.killStrategy, KillSwitchState.resumeStrategy, eq_comm]

theorem shares_run (calls : List SharedCall) :
    Shares (run step {} calls) (run KillSwitchState.step {} calls) :=
  run_related (fun _ _ call h => h.step call) calls
    { globalKill := fun e => by simp [TtlStore.empty]
      account := fun id e => by simp [TtlStore.empty]
      strategy := fun id e => by simp [TtlStore.empty] }

/-- The switch that is loaded is the one in memory, each level as it stands at its read. -/
theorem isBlocked_load {s' s'' : SharedState} {k' k'' : KillSwitchState} (h : Shares s k)
    (h' : Shares s' k') (h'' : Shares s'' k'') (accountId : AccountId)
    (strategyId : Option String) :
    (loadKillSwitchState s s' s'' accountId strategyId).isBlocked accountId strategyId =
      KillSwitchState.isBlocked ⟨k.globalKill, k'.killedAccounts, k''.killedStrategies⟩ accountId
        strategyId := by
  have hglobal : s.isGlobalKilled = k.globalKill := Bool.eq_iff_iff.mpr h.globalKill.isSome
  have haccount : s'.isAccountKilled accountId = true ↔ accountId ∈ k'.killedAccounts :=
    (h'.account accountId).isSome
  have hstrategy : ∀ id, s''.isStrategyKilled id = true ↔ id ∈ k''.killedStrategies :=
    fun id => (h''.strategy id).isSome
  cases strategyId with
  | none => simp [KillSwitchState.isBlocked, loadKillSwitchState, hglobal, haccount]
  | some id => simp [KillSwitchState.isBlocked, loadKillSwitchState, hglobal, haccount, hstrategy]

end SharedState

namespace KillSwitchState

open SharedState (Shares)

variable {k k' : KillSwitchState} {accountId : AccountId} {strategyId : Option String}

/-- Trading is stopped by the switch of some level. -/
theorem isBlocked_ne_none : k.isBlocked accountId strategyId ≠ none ↔
    k.globalKill = true ∨ (accountId ≠ "" ∧ accountId ∈ k.killedAccounts) ∨
      ∃ id ∈ strategyId, id ≠ "" ∧ id ∈ k.killedStrategies := by
  unfold isBlocked
  cases strategyId <;> split_ifs <;> simp_all

/-- The kills of a switch are kills of the other. -/
structure Within (k k' : KillSwitchState) : Prop where
  globalKill : k.globalKill = true → k'.globalKill = true
  account : k.killedAccounts ⊆ k'.killedAccounts
  strategy : k.killedStrategies ⊆ k'.killedStrategies

theorem Within.step (h : Within k k') {call : SharedCall} (hlifts : call.lifts = false) :
    Within k (k'.step call) := by
  cases call with
  | clearGlobalKill | clearAccountKill | clearStrategyKill => cases hlifts
  | setGlobalKill => exact { h with globalKill := fun _ => rfl }
  | setAccountKill id =>
    exact { h with account := fun a ha => List.mem_insert_of_mem (h.account ha) }
  | setStrategyKill id =>
    exact { h with strategy := fun a ha => List.mem_insert_of_mem (h.strategy ha) }
  | _ => exact h

/-- Kills stay as long as none is lifted. -/
theorem within_run {calls : List SharedCall} (hlifts : ∀ call ∈ calls, call.lifts = false) :
    Within k (run step k calls) := by
  suffices hrun : ∀ k', Within k k' → Within k (run step k' calls) from
    hrun k ⟨id, List.Subset.refl _, List.Subset.refl _⟩
  induction calls with
  | nil => exact fun _ h => h
  | cons call calls ih =>
    exact fun k' h => ih (fun c hc => hlifts c (List.mem_cons_of_mem call hc)) _
      (h.step (hlifts call List.mem_cons_self))

theorem run_of_not_switches {calls : List SharedCall}
    (h : ∀ call ∈ calls, call.switches = false) : run step k calls = k := by
  induction calls generalizing k with
  | nil => rfl
  | cons call calls ih =>
    have hstep : k.step call = k := by
      have hcall := h call List.mem_cons_self
      cases call <;> first | rfl | cases hcall
    rw [run_cons, hstep]
    exact ih fun c hc => h c (List.mem_cons_of_mem call hc)

end KillSwitchState

/-- **The processes share one kill switch.** Whatever was called before, by whom, and whatever
lands between its reads, `load_kill_switch_state` blocks only by a kill that one of its reads
found, and blocks if a kill stands all along; with no call of the switch between the reads it says
what a `KillSwitchState` that took the calls in memory says. The listings list what is killed. -/
theorem kill_switch_shared (calls between between' : List SharedCall) (accountId : AccountId)
    (strategyId : Option String) :
    let s := run SharedState.step {} calls
    let s' := run SharedState.step s between
    let loaded := loadKillSwitchState s s' (run SharedState.step s' between') accountId strategyId
    let k := run KillSwitchState.step {} calls
    let k' := run KillSwitchState.step k between
    let k'' := run KillSwitchState.step k' between'
    ((∀ call ∈ between ++ between', call.switches = false) →
        loaded.isBlocked accountId strategyId = k.isBlocked accountId strategyId) ∧
      ((∀ call ∈ between ++ between', call.lifts = false) →
        k.isBlocked accountId strategyId ≠ none →
        loaded.isBlocked accountId strategyId ≠ none) ∧
      (loaded.isBlocked accountId strategyId ≠ none →
        ∃ at' ∈ [k, k', k''], at'.isBlocked accountId strategyId ≠ none) ∧
      (∀ id, id ∈ s.listKilledAccounts ↔ id ∈ k.killedAccounts) ∧
      ∀ id, id ∈ s.listKilledStrategies ↔ id ∈ k.killedStrategies := by
  intro s s' loaded k k' k''
  have h : s.Shares k := SharedState.shares_run calls
  have h' : s'.Shares k' := run_related (fun _ _ call h => h.step call) between h
  have h'' : (run SharedState.step s' between').Shares k'' :=
    run_related (fun _ _ call h => h.step call) between' h'
  have hload := SharedState.isBlocked_load h h' h'' accountId strategyId
  refine ⟨fun hnone => ?_, fun hlifts hblocked => ?_, fun hblocked => ?_, fun id => ?_,
    fun id => ?_⟩
  · -- No call of the switch in between: the three reads are of one state.
    have hk' : k' = k := KillSwitchState.run_of_not_switches fun call hcall =>
      hnone call (List.mem_append_left _ hcall)
    have hk'' : k'' = k' := KillSwitchState.run_of_not_switches fun call hcall =>
      hnone call (List.mem_append_right _ hcall)
    rw [hload, hk'', hk']
  · -- Nothing is lifted in between, so what blocks at the first read blocks at its own.
    have hk' : k.Within k' := KillSwitchState.within_run fun call hcall =>
      hlifts call (List.mem_append_left _ hcall)
    have hk'' : k'.Within k'' := KillSwitchState.within_run fun call hcall =>
      hlifts call (List.mem_append_right _ hcall)
    rw [hload]
    rw [KillSwitchState.isBlocked_ne_none] at hblocked ⊢
    obtain hglobal | ⟨hne, hmem⟩ | ⟨id, hid, hne, hmem⟩ := hblocked
    · exact .inl hglobal
    · exact .inr (.inl ⟨hne, hk'.account hmem⟩)
    · exact .inr (.inr ⟨id, hid, hne, hk''.strategy (hk'.strategy hmem)⟩)
  · -- Each of the three kinds of block was found by the read for it.
    rw [hload, KillSwitchState.isBlocked_ne_none] at hblocked
    simp only [List.mem_cons, List.not_mem_nil, or_false, exists_eq_or_imp, exists_eq_left,
      KillSwitchState.isBlocked_ne_none]
    obtain hglobal | haccount | hstrategy := hblocked
    · exact .inl (.inl hglobal)
    · exact .inr (.inl (.inr (.inl haccount)))
    · exact .inr (.inr (.inr (.inr hstrategy)))
  · exact SharedState.mem_scanIds.trans (h.account id).isSome
  · exact SharedState.mem_scanIds.trans (h.strategy id).isSome

/-! ## Section 5: Halts, OAuth states and heartbeats -/

namespace SharedState

open RedisKeyspace (key)

variable {s : SharedState} {calls : List SharedCall}

theorem getText_eq_some {k value : String} :
    s.getText k = some value ↔ s.store.get k = some (.text value) := by
  rw [getText]
  cases s.store.get k with
  | none => simp
  | some v => cases v <;> simp

/-- The last command on the key of a halt. -/
theorem lastPut_halt {accountId reason : String} :
    LastPut (writes (key .halt accountId)) SharedCall.elapsed calls (.text reason) ↔
      ∃ before after, calls = before ++ .haltAccount accountId reason :: after ∧
        .resumeAccount accountId ∉ after ∧ ∀ other, .haltAccount accountId other ∉ after := by
  -- Only a halt of the account puts a text under its key.
  have hput : ∀ call ttl, writes (key .halt accountId) call = some (.put (.text reason) ttl) ↔
      call = .haltAccount accountId reason ∧ ttl = none := by
    intro call ttl
    rw [writes_eq_some]
    cases call <;> simp [SharedCall.command, RedisKeyspace.key_inj, and_assoc, eq_comm]
  -- Only its resumption or another halt would touch the key again.
  have hkeep : ∀ call, writes (key .halt accountId) call = none ↔
      call ≠ .resumeAccount accountId ∧ ∀ other, call ≠ .haltAccount accountId other := by
    intro call
    rw [writes_eq_none]
    cases call <;> simp [SharedCall.command, RedisKeyspace.key_inj]
  simp only [LastPut, hput, hkeep]
  constructor
  · rintro ⟨before, call, after, ttl, rfl, ⟨rfl, rfl⟩, hnone, -⟩
    exact ⟨before, after, rfl, fun h => (hnone _ h).1 rfl, fun other h => (hnone _ h).2 other rfl⟩
  · rintro ⟨before, after, rfl, hresume, hhalt⟩
    refine ⟨before, _, after, none, rfl, ⟨rfl, rfl⟩, fun call hcall => ⟨?_, ?_⟩, fun t ht => ?_⟩
    · rintro rfl
      exact hresume hcall
    · rintro other rfl
      exact hhalt other hcall
    · cases ht

/-- The last command on the key of an OAuth state. -/
theorem lastPut_oauthState {state userId : String} :
    LastPut (writes (key .oauthState state)) SharedCall.elapsed calls (.text userId) ↔
      ∃ before after, calls = before ++ .storeOauthState state userId :: after ∧
        .popOauthState state ∉ after ∧ (∀ other, .storeOauthState state other ∉ after) ∧
        (after.map SharedCall.elapsed).sum ≤ oauthStateTtl := by
  -- Only the store of this state puts a user under its key.
  have hput : ∀ call ttl, writes (key .oauthState state) call = some (.put (.text userId) ttl) ↔
      call = .storeOauthState state userId ∧ ttl = some oauthStateTtl := by
    intro call ttl
    rw [writes_eq_some]
    cases call <;> simp [SharedCall.command, RedisKeyspace.key_inj, and_assoc, eq_comm]
  -- Popping it, or storing it again, touches the key.
  have hkeep : ∀ call, writes (key .oauthState state) call = none ↔
      call ≠ .popOauthState state ∧ ∀ other, call ≠ .storeOauthState state other := by
    intro call
    rw [writes_eq_none]
    cases call <;> simp [SharedCall.command, RedisKeyspace.key_inj]
  simp only [LastPut, hput, hkeep]
  constructor
  · rintro ⟨before, call, after, ttl, rfl, ⟨rfl, rfl⟩, hnone, htime⟩
    exact ⟨before, after, rfl, fun h => (hnone _ h).1 rfl, fun other h => (hnone _ h).2 other rfl,
      htime _ rfl⟩
  · rintro ⟨before, after, rfl, hpop, hstore, htime⟩
    refine ⟨before, _, after, _, rfl, ⟨rfl, rfl⟩, fun call hcall => ⟨?_, ?_⟩, fun t ht => ?_⟩
    · rintro rfl
      exact hpop hcall
    · rintro other rfl
      exact hstore other hcall
    · cases ht
      exact htime

/-- A heartbeat is only ever refreshed. -/
theorem lastPut_heartbeat {workerName : String} :
    LastPut (writes (key .heartbeat workerName)) SharedCall.elapsed calls (.text "1") ↔
      ∃ before after, calls = before ++ .heartbeat workerName :: after ∧
        (after.map SharedCall.elapsed).sum ≤ heartbeatTtl := by
  -- Every beat puts the same value, with the same expiry.
  have hput : ∀ call w, writes (key .heartbeat workerName) call = some w ↔
      call = .heartbeat workerName ∧ w = .put (.text "1") (some heartbeatTtl) := by
    intro call w
    rw [writes_eq_some]
    cases call <;> simp [SharedCall.command, RedisKeyspace.key_inj, eq_comm]
  have hbeat : ∀ call, writes (key .heartbeat workerName) call ≠ none ↔
      call = .heartbeat workerName := by
    intro call
    simp only [ne_eq, Option.eq_none_iff_forall_ne_some, hput, not_forall, not_not,
      exists_and_left, exists_eq, and_true]
  -- So the last word is the last beat, however many there were before.
  rw [lastPut_refreshed fun call w h => ((hput call w).mp h).2]
  simp only [hbeat]
  constructor
  · rintro ⟨before, call, after, rfl, rfl, htime⟩
    exact ⟨before, after, rfl, htime⟩
  · rintro ⟨before, after, rfl, htime⟩
    exact ⟨before, _, after, rfl, rfl, htime⟩

theorem mem_listHaltedAccounts {accountId reason : String} :
    (accountId, reason) ∈ s.listHaltedAccounts ↔ s.accountHaltReason accountId = some reason := by
  simp only [listHaltedAccounts, List.mem_filterMap, Option.map_eq_some_iff, Prod.mk.injEq,
    mem_scanIds]
  constructor
  · rintro ⟨id, -, reason', hreason, rfl, rfl⟩
    exact hreason
  · intro h
    refine ⟨accountId, ?_, reason, h, rfl, rfl⟩
    rw [accountHaltReason, getText_eq_some] at h
    rw [h]
    rfl

end SharedState

/-- **The last word on a key is what is read.** After any calls, by anyone: an account is halted
for the reason of its last halt unless it was resumed since, an OAuth state names the user who
stored it last if that was at most ten minutes ago and it was not popped since, and a worker is
alive exactly if it beat in the last 90 seconds. -/
theorem shared_last_word (calls : List SharedCall) :
    let s := run SharedState.step {} calls
    (∀ accountId reason, s.accountHaltReason accountId = some reason ↔
        ∃ before after, calls = before ++ .haltAccount accountId reason :: after ∧
          .resumeAccount accountId ∉ after ∧ ∀ other, .haltAccount accountId other ∉ after) ∧
      (∀ accountId reason, (accountId, reason) ∈ s.listHaltedAccounts ↔
        s.accountHaltReason accountId = some reason) ∧
      (∀ state userId, s.poppedUser state = some userId ↔
        ∃ before after, calls = before ++ .storeOauthState state userId :: after ∧
          .popOauthState state ∉ after ∧ (∀ other, .storeOauthState state other ∉ after) ∧
          (after.map SharedCall.elapsed).sum ≤ oauthStateTtl) ∧
      ∀ workerName, s.workerIsAlive workerName = true ↔
        ∃ before after, calls = before ++ .heartbeat workerName :: after ∧
          (after.map SharedCall.elapsed).sum ≤ heartbeatTtl := by
  intro s
  -- A key reads as the last call that wrote it, which the three lemmas spell out.
  have hget : ∀ (space : RedisKeyspace) (id : String) (v : RedisValue),
      SharedState.cachesPrice space = false →
      (s.store.get (space.key id) = some v ↔
        LastPut (SharedState.writes (space.key id)) SharedCall.elapsed calls v) :=
    fun space id v hspace => (SharedState.driven hspace id).get_run_iff (s := {}) rfl calls v
  refine ⟨fun accountId reason => ?_, fun _ _ => SharedState.mem_listHaltedAccounts,
    fun state userId => ?_, fun workerName => ?_⟩
  · rw [SharedState.accountHaltReason, SharedState.getText_eq_some, hget _ _ _ rfl,
      SharedState.lastPut_halt]
  · rw [SharedState.poppedUser, SharedState.getText_eq_some, hget _ _ _ rfl,
      SharedState.lastPut_oauthState]
  · rw [← SharedState.lastPut_heartbeat, ← hget _ _ _ rfl, SharedState.workerIsAlive,
      Option.isSome_iff_exists]
    -- A worker is alive whatever the value under its key is, and only beats put one.
    refine ⟨?_, fun h => ⟨_, h⟩⟩
    rintro ⟨v, hv⟩
    have hv' := (hget _ _ _ rfl).mp hv
    obtain ⟨-, call, -, ttl, -, hput, -⟩ := hv'
    rw [SharedState.writes_eq_some] at hput
    rw [hv]
    cases call <;> simp_all [SharedCall.command, RedisKeyspace.key_inj]

end SuperTrading
