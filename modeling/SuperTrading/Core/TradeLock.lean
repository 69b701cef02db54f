import SuperTrading.Logic.Runs

/-!
# The Trade Lock

`acquire_trade_lock` and `release_trade_lock` of `app/core/redis.py`, on the key of one
account, with the two callers that wrap them: `serialize_user_trading`, around POST /orders
and the other trading routes, and `AutoTradeSupervisor._process`. The processes are tasks
that poll, work and release in any order. A command may raise, with or without having taken
effect, a task may be gone at any point, and the key may expire at any point.

`serialize_user_trading` takes a lock of its own process first. It only keeps tasks of one
process from waiting at once, so the tasks here go without it.

- **Section 1**: the two Redis commands
- **Section 2**: the callers
- **Section 3**: tasks and steps
- **Section 4**: the key is only ever removed by its holder or by its expiry
- **Section 5**: mutual exclusion
-/

namespace SuperTrading

open SuperTrading.Logic

/-! ## Section 1: Redis -/

/-- `SET key token NX PX`: the key afterwards, and whether it was set. -/
def setNx (key : Option String) (token : String) : Option String × Bool :=
  match key with
  | none => (some token, true)
  | some holder => (some holder, false)

/-- `_TRADE_LOCK_RELEASE_SCRIPT`: the key afterwards. -/
def releaseScript (key : Option String) (token : String) : Option String :=
  if key = some token then none else key

theorem releaseScript_of_ne {key : Option String} {token : String} (h : key ≠ some token) :
    releaseScript key token = key :=
  if_neg h

/-! ## Section 2: Callers -/

/-- How `acquire_trade_lock` ends: with its token, with `None`, or with a Redis error. -/
inductive AcquireResult
  | token
  | busy
  | raised
  deriving DecidableEq, Repr

/-- What a caller answers that does not do its work. -/
inductive LockRefusal
  | serviceUnavailable (detail : String)
  | deferred
  deriving DecidableEq, Repr

inductive LockPhase
  /-- in the loop of `acquire_trade_lock` -/
  | waiting
  /-- in the critical section, with the lock or without -/
  | working (locked : Bool)
  /-- in `release_trade_lock` -/
  | releasing
  | refused (refusal : LockRefusal)
  | finished
  /-- the process is gone -/
  | stopped
  deriving DecidableEq, Repr

/-- `serialize_user_trading`. -/
def serializeUserTrading (failOpen : Bool) : AcquireResult → LockPhase
  | .token => .working true
  | .busy => .refused (.serviceUnavailable
      "This account is busy placing another trade — try again shortly")
  | .raised =>
    if failOpen then .working false
    else .refused (.serviceUnavailable
      "Trade serialization is temporarily unavailable — try again shortly")

/-- `AutoTradeSupervisor._process`. -/
def processCandle (failOpen : Bool) : AcquireResult → LockPhase
  | .token => .working true
  | .busy => .refused .deferred
  | .raised => if failOpen then .working false else .refused .deferred

inductive LockCaller
  | placeOrder
  | autoTradeSupervisor
  deriving DecidableEq, Repr

/-- What the caller goes on to. -/
def LockCaller.next : LockCaller → Bool → AcquireResult → LockPhase
  | placeOrder => serializeUserTrading
  | autoTradeSupervisor => processCandle

/-! ## Section 3: Tasks -/

/-- One call of a handler, or one candle, with the token of its `acquire_trade_lock`. -/
structure LockTask where
  caller : LockCaller
  token : String
  phase : LockPhase := .waiting
  deriving DecidableEq, Repr

/-- The key of the account, and the tasks in the order they begin. -/
structure LockWorld where
  key : Option String
  tasks : List LockTask := []
  deriving DecidableEq, Repr

inductive LockEvent
  | begin (caller : LockCaller) (token : String)
  /-- one turn of the loop; is the deadline past? -/
  | poll (i : ℕ) (late : Bool)
  /-- the SET raises; did it take effect? -/
  | pollRaises (i : ℕ) (applied : Bool)
  /-- the critical section ends -/
  | finish (i : ℕ)
  | release (i : ℕ)
  /-- the script raises; did it take effect? -/
  | releaseRaises (i : ℕ) (applied : Bool)
  | stop (i : ℕ)
  | expire
  deriving DecidableEq, Repr

namespace LockWorld

def setPhase (w : LockWorld) (i : ℕ) (phase : LockPhase) : LockWorld :=
  { w with tasks := w.tasks.modify i fun task => { task with phase } }

/-- `uuid.uuid4().hex`: no task has had the token, and the key does not hold it. -/
def IsFresh (w : LockWorld) (token : String) : Prop :=
  w.key ≠ some token ∧ ∀ task ∈ w.tasks, task.token ≠ token

instance (w : LockWorld) (token : String) : Decidable (w.IsFresh token) :=
  inferInstanceAs (Decidable (w.key ≠ some token ∧ ∀ task ∈ w.tasks, task.token ≠ token))

/-- One turn of the loop of `acquire_trade_lock`. -/
def poll (w : LockWorld) (failOpen : Bool) (i : ℕ) (task : LockTask) (late : Bool) : LockWorld :=
  let (key, isSet) := setNx w.key task.token
  if isSet then { w.setPhase i (task.caller.next failOpen .token) with key }
  else if late then w.setPhase i (task.caller.next failOpen .busy)
  else w

def pollRaises (w : LockWorld) (failOpen : Bool) (i : ℕ) (task : LockTask) (applied : Bool) :
    LockWorld :=
  { w.setPhase i (task.caller.next failOpen .raised) with
    key := if applied then (setNx w.key task.token).1 else w.key }

/-- The end of the critical section: `release_trade_lock` where there is a token to release. -/
def finish (w : LockWorld) (i : ℕ) (locked : Bool) : LockWorld :=
  if locked then w.setPhase i .releasing else w.setPhase i .finished

def release (w : LockWorld) (i : ℕ) (task : LockTask) : LockWorld :=
  { w.setPhase i .finished with key := releaseScript w.key task.token }

def releaseRaises (w : LockWorld) (i : ℕ) (task : LockTask) (applied : Bool) : LockWorld :=
  if applied then w.release i task else w.setPhase i .finished

/-- What a task does, if there is one with that number and it is in that phase. -/
def onTask (w : LockWorld) (i : ℕ) (act : LockTask → LockWorld) : LockWorld :=
  match w.tasks[i]? with
  | some task => act task
  | none => w

def step (failOpen : Bool) (w : LockWorld) : LockEvent → LockWorld
  | .begin caller token =>
    if w.IsFresh token then { w with tasks := w.tasks ++ [{ caller, token }] } else w
  | .poll i late => w.onTask i fun task =>
    if task.phase = .waiting then w.poll failOpen i task late else w
  | .pollRaises i applied => w.onTask i fun task =>
    if task.phase = .waiting then w.pollRaises failOpen i task applied else w
  | .finish i => w.onTask i fun task =>
    match task.phase with
    | .working locked => w.finish i locked
    | _ => w
  | .release i => w.onTask i fun task =>
    if task.phase = .releasing then w.release i task else w
  | .releaseRaises i applied => w.onTask i fun task =>
    if task.phase = .releasing then w.releaseRaises i task applied else w
  | .stop i => w.onTask i fun _ => w.setPhase i .stopped
  | .expire => { w with key := none }

theorem getElem?_setPhase (w : LockWorld) (i j : ℕ) (phase : LockPhase) :
    (w.setPhase i phase).tasks[j]? =
      if i = j then w.tasks[j]?.map (fun task => { task with phase }) else w.tasks[j]? :=
  getElem?_modify_eq _

/-- Everything that a step can do to the key and the tasks. -/
inductive Steps (failOpen : Bool) (w : LockWorld) : LockEvent → LockWorld → Prop
  | idle (e : LockEvent) : Steps failOpen w e w
  | begins (caller : LockCaller) (token : String) (hfresh : w.IsFresh token) :
      Steps failOpen w (.begin caller token) { w with tasks := w.tasks ++ [{ caller, token }] }
  | sets {e : LockEvent} {i : ℕ} {task : LockTask} {phase : LockPhase}
      (htask : w.tasks[i]? = some task) (hkey : w.key = none)
      (hphase : phase ≠ .releasing)
      (hunlocked : phase = .working false →
        failOpen = true ∧ ∃ applied, e = .pollRaises i applied) :
      Steps failOpen w e { w.setPhase i phase with key := some task.token }
  | moves {e : LockEvent} {i : ℕ} {task : LockTask} {phase : LockPhase}
      (htask : w.tasks[i]? = some task) (hlocked : phase ≠ .working true)
      (hreleasing : phase = .releasing → task.phase = .working true)
      (hunlocked : phase = .working false →
        failOpen = true ∧ ∃ applied, e = .pollRaises i applied) :
      Steps failOpen w e (w.setPhase i phase)
  | releases {e : LockEvent} {i : ℕ} {task : LockTask} (htask : w.tasks[i]? = some task)
      (he : e = .release i ∨ e = .releaseRaises i true) (hphase : task.phase = .releasing) :
      Steps failOpen w e
        { w.setPhase i .finished with key := releaseScript w.key task.token }
  | expires : Steps failOpen w .expire { w with key := none }

section Inversion

variable {failOpen : Bool} {w : LockWorld} {i : ℕ} {task : LockTask}

/-- A caller works with the lock exactly if it was given the token. -/
theorem LockCaller.next_token (caller : LockCaller) (failOpen : Bool) :
    caller.next failOpen .token = .working true := by
  cases caller <;> rfl

theorem LockCaller.next_busy (caller : LockCaller) (failOpen : Bool) :
    ∃ refusal, caller.next failOpen .busy = .refused refusal := by
  cases caller <;> exact ⟨_, rfl⟩

theorem LockCaller.next_raised (caller : LockCaller) (failOpen : Bool) :
    (failOpen = true ∧ caller.next failOpen .raised = .working false) ∨
      ∃ refusal, caller.next failOpen .raised = .refused refusal := by
  cases failOpen with
  | true => cases caller <;> exact .inl ⟨rfl, rfl⟩
  | false => cases caller <;> exact .inr ⟨_, rfl⟩

theorem steps_poll (htask : w.tasks[i]? = some task) (late : Bool) :
    Steps failOpen w (.poll i late) (w.poll failOpen i task late) := by
  cases hkey : w.key with
  | none =>
    have hset : w.poll failOpen i task late =
        { w.setPhase i (.working true) with key := some task.token } := by
      unfold poll
      rw [hkey, LockCaller.next_token]
      rfl
    rw [hset]
    refine .sets htask hkey ?_ ?_ <;> simp
  | some holder =>
    -- A held key refuses the caller once its wait is over.
    have hbusy : w.poll failOpen i task late =
        if late then w.setPhase i (task.caller.next failOpen .busy) else w := by
      unfold poll
      rw [hkey]
      rfl
    obtain ⟨refusal, hrefusal⟩ := LockCaller.next_busy task.caller failOpen
    rw [hbusy, hrefusal]
    split
    · refine .moves htask ?_ ?_ ?_ <;> simp
    · exact .idle _

theorem steps_pollRaises (htask : w.tasks[i]? = some task) (applied : Bool) :
    Steps failOpen w (.pollRaises i applied) (w.pollRaises failOpen i task applied) := by
  have hphase : task.caller.next failOpen .raised ≠ .releasing ∧
      task.caller.next failOpen .raised ≠ .working true ∧
      (task.caller.next failOpen .raised = .working false →
        failOpen = true ∧ ∃ applied', LockEvent.pollRaises i applied = .pollRaises i applied') := by
    rcases LockCaller.next_raised task.caller failOpen with ⟨hopen, hnext⟩ | ⟨refusal, hnext⟩
    · rw [hnext]
      simp [hopen]
    · rw [hnext]
      simp
  have hmoves : Steps failOpen w (.pollRaises i applied)
      (w.setPhase i (task.caller.next failOpen .raised)) :=
    .moves htask hphase.2.1 (fun h => absurd h hphase.1) hphase.2.2
  unfold pollRaises
  cases applied with
  | false => exact hmoves
  | true =>
    cases hkey : w.key with
    | none => exact .sets htask hkey hphase.1 hphase.2.2
    | some holder =>
      -- The key was taken, so the command changed nothing.
      have hsame : { w.setPhase i (task.caller.next failOpen .raised) with key := some holder } =
          w.setPhase i (task.caller.next failOpen .raised) := by
        rw [← hkey]
        rfl
      exact hsame ▸ hmoves

theorem steps_onTask {e : LockEvent} {act : LockTask → LockWorld}
    (h : ∀ task, w.tasks[i]? = some task → Steps failOpen w e (act task)) :
    Steps failOpen w e (w.onTask i act) := by
  unfold onTask
  cases htask : w.tasks[i]? with
  | none => exact .idle e
  | some task => exact h task htask

theorem step_cases (failOpen : Bool) (w : LockWorld) (e : LockEvent) :
    Steps failOpen w e (step failOpen w e) := by
  -- An event that finds its task in another phase than its own changes nothing.
  cases e with
  | begin caller token =>
    unfold step
    dsimp only
    split
    · rename_i hfresh
      exact .begins caller token hfresh
    · exact .idle _
  | poll i late =>
    refine steps_onTask fun task htask => ?_
    split
    · exact steps_poll htask late
    · exact .idle _
  | pollRaises i applied =>
    refine steps_onTask fun task htask => ?_
    split
    · exact steps_pollRaises htask applied
    · exact .idle _
  | finish i =>
    refine steps_onTask fun task htask => ?_
    split
    · rename_i locked hphase
      cases locked with
      | true => refine .moves htask ?_ ?_ ?_ <;> simp [hphase]
      | false => refine .moves htask ?_ ?_ ?_ <;> simp
    · exact .idle _
  | release i =>
    refine steps_onTask fun task htask => ?_
    split
    · rename_i hphase
      exact .releases htask (.inl rfl) hphase
    · exact .idle _
  | releaseRaises i applied =>
    refine steps_onTask fun task htask => ?_
    split
    · rename_i hphase
      -- The script of a connection that broke may have run before.
      cases applied with
      | true => exact .releases htask (.inr rfl) hphase
      | false => refine .moves htask ?_ ?_ ?_ <;> simp
    · exact .idle _
  | stop i =>
    refine steps_onTask fun task htask => ?_
    refine .moves htask ?_ ?_ ?_ <;> simp
  | expire => exact .expires

end Inversion

/-! ## Section 4: The key -/

/-- A key that is set stays as it is, but for its expiry and the release of its holder. -/
theorem key_step (failOpen : Bool) {w : LockWorld} (e : LockEvent) {token : String}
    (hkey : w.key = some token) :
    (step failOpen w e).key = some token ∨ e = .expire ∨
      ∃ i task, w.tasks[i]? = some task ∧ task.token = token ∧
        (e = .release i ∨ e = .releaseRaises i true) := by
  have hstep := step_cases failOpen w e
  generalize step failOpen w e = w' at hstep ⊢
  cases hstep with
  | sets htask hfree hphase hunlocked => cases hkey.symm.trans hfree
  | @releases e i task htask he hphase =>
    by_cases howns : task.token = token
    · exact .inr (.inr ⟨i, task, htask, howns, he⟩)
    · have hne : w.key ≠ some task.token := fun h => howns (Option.some.inj (h.symm.trans hkey))
      exact .inl ((releaseScript_of_ne hne).trans hkey)
  | expires => exact .inr (.inl rfl)
  | _ => exact .inl hkey

/-! ## Section 5: Mutual exclusion -/

/-- The task with that number is the only one in such a phase. -/
def AtMostOne (busy : LockPhase → Bool) (w : LockWorld) : Prop :=
  ∀ (i j : ℕ) (task task' : LockTask), w.tasks[i]? = some task → w.tasks[j]? = some task' →
    busy task.phase = true → busy task'.phase = true → i = j

/-- The condition on a step: the key does not expire while its holder is in such a phase, and
no caller is let past a Redis error without the lock. -/
def InTime (failOpen : Bool) (busy : LockPhase → Bool) (w : LockWorld) : LockEvent → Prop
  | .expire => ∀ task ∈ w.tasks, w.key = some task.token → busy task.phase = false
  | .pollRaises _ _ => failOpen = false
  | _ => True

/-- Tasks have distinct tokens, and one in such a phase holds the key. -/
structure Held (busy : LockPhase → Bool) (w : LockWorld) : Prop where
  distinct : ∀ (i j : ℕ) (task task' : LockTask), w.tasks[i]? = some task →
    w.tasks[j]? = some task' → task.token = task'.token → i = j
  locked : ∀ task ∈ w.tasks, task.phase ≠ .working false
  held : ∀ task ∈ w.tasks, busy task.phase = true → w.key = some task.token

theorem Held.atMostOne {busy : LockPhase → Bool} {w : LockWorld} (h : Held busy w) :
    AtMostOne busy w := by
  intro i j task task' htask htask' hbusy hbusy'
  have hkey := h.held task (List.mem_of_getElem? htask) hbusy
  have hkey' := h.held task' (List.mem_of_getElem? htask') hbusy'
  exact h.distinct i j task task' htask htask' (Option.some.inj (hkey.symm.trans hkey'))

end LockWorld

namespace LockPhase

/-- In the critical section: past `acquire_trade_lock`, and `release_trade_lock` not called. -/
def isWorking : LockPhase → Bool
  | working _ => true
  | _ => false

/-- Past `acquire_trade_lock`, and `release_trade_lock` has not come to its end. -/
def isHolding : LockPhase → Bool
  | working _ | releasing => true
  | _ => false

end LockPhase

/-- A part of the time from the acquiring of a lock to its release, up to some point. -/
structure HeldPhase (busy : LockPhase → Bool) : Prop where
  waiting : busy .waiting = false
  refused : ∀ refusal, busy (.refused refusal) = false
  finished : busy .finished = false
  stopped : busy .stopped = false
  working : busy (.working true) = true

theorem LockPhase.isWorking_held : HeldPhase LockPhase.isWorking :=
  ⟨rfl, fun _ => rfl, rfl, rfl, rfl⟩

theorem LockPhase.isHolding_held : HeldPhase LockPhase.isHolding :=
  ⟨rfl, fun _ => rfl, rfl, rfl, rfl⟩

namespace LockWorld

section Exclusion

variable {failOpen : Bool} {busy : LockPhase → Bool} {w : LockWorld}

theorem mem_tasks_setPhase {i : ℕ} {task task' : LockTask} {phase : LockPhase}
    (htask : w.tasks[i]? = some task) (h : task' ∈ (w.setPhase i phase).tasks) :
    task' = { task with phase } ∨ ∃ j, j ≠ i ∧ w.tasks[j]? = some task' := by
  obtain ⟨j, hj⟩ := List.mem_iff_getElem?.mp h
  rw [getElem?_setPhase] at hj
  by_cases hij : i = j
  · subst hij
    rw [if_pos rfl, htask] at hj
    exact .inl (Option.some.inj hj).symm
  · rw [if_neg hij] at hj
    exact .inr ⟨j, Ne.symm hij, hj⟩

/-- Phases change, tokens stay. -/
theorem Held.distinct_setPhase (h : Held busy w) (i : ℕ) (phase : LockPhase) :
    ∀ (j k : ℕ) (task task' : LockTask), (w.setPhase i phase).tasks[j]? = some task →
      (w.setPhase i phase).tasks[k]? = some task' → task.token = task'.token → j = k := by
  have hold : ∀ (j : ℕ) (task : LockTask), (w.setPhase i phase).tasks[j]? = some task →
      ∃ before : LockTask, w.tasks[j]? = some before ∧ before.token = task.token := by
    intro j task htask
    rw [getElem?_setPhase] at htask
    split at htask
    · obtain ⟨before, hbefore, rfl⟩ := Option.map_eq_some_iff.mp htask
      exact ⟨before, hbefore, rfl⟩
    · exact ⟨task, htask, rfl⟩
  intro j k task task' htask htask' htoken
  obtain ⟨before, hbefore, hsame⟩ := hold j task htask
  obtain ⟨before', hbefore', hsame'⟩ := hold k task' htask'
  exact h.distinct j k before before' hbefore hbefore' (hsame.trans (htoken.trans hsame'.symm))

/-- A step of one task keeps the invariant if that task does, and the key stays for the others. -/
theorem Held.setPhase {i : ℕ} {task : LockTask} {phase : LockPhase} {key : Option String}
    (h : Held busy w) (htask : w.tasks[i]? = some task) (hlocked : phase ≠ .working false)
    (hown : busy phase = true → key = some task.token)
    (hothers : ∀ j task', j ≠ i → w.tasks[j]? = some task' → busy task'.phase = true →
      key = some task'.token) :
    Held busy { w.setPhase i phase with key } where
  distinct := h.distinct_setPhase i phase
  locked task' htask' := by
    rcases mem_tasks_setPhase htask htask' with rfl | ⟨j, -, hj⟩
    · exact hlocked
    · exact h.locked task' (List.mem_of_getElem? hj)
  held task' htask' hbusy := by
    rcases mem_tasks_setPhase htask htask' with rfl | ⟨j, hne, hj⟩
    · exact hown hbusy
    · exact hothers j task' hne hj hbusy

theorem Held.begin (h : Held busy w) (hbusy : HeldPhase busy) {caller : LockCaller}
    {token : String} (hfresh : w.IsFresh token) :
    Held busy { w with tasks := w.tasks ++ [{ caller, token }] } := by
  constructor
  · -- The token is fresh, so that it is no one else's.
    intro j k task task' htask htask' htoken
    rcases getElem?_concat_eq_some htask with hold | ⟨hj, rfl⟩
    · rcases getElem?_concat_eq_some htask' with hold' | ⟨hk, rfl⟩
      · exact h.distinct j k task task' hold hold' htoken
      · exact absurd htoken (hfresh.2 task (List.mem_of_getElem? hold))
    · rcases getElem?_concat_eq_some htask' with hold' | ⟨hk, rfl⟩
      · exact absurd htoken.symm (hfresh.2 task' (List.mem_of_getElem? hold'))
      · exact hj.trans hk.symm
  · intro task htask
    rcases List.mem_append.mp htask with htask | htask
    · exact h.locked task htask
    · rw [List.mem_singleton.mp htask]
      simp
  · intro task htask hphase
    rcases List.mem_append.mp htask with htask | htask
    · exact h.held task htask hphase
    · rw [List.mem_singleton.mp htask, hbusy.waiting] at hphase
      cases hphase

/-- **Step lemma.** A step in time keeps the holder of the key its only busy task. -/
theorem Held.step (h : Held busy w) (hbusy : HeldPhase busy) {e : LockEvent}
    (he : InTime failOpen busy w e) : Held busy (step failOpen w e) := by
  have hlocked : ∀ phase : LockPhase,
      (phase = .working false → failOpen = true ∧ ∃ i applied, e = .pollRaises i applied) →
        phase ≠ .working false := by
    intro phase hunlocked hphase
    obtain ⟨hopen, i, applied, rfl⟩ := hunlocked hphase
    rw [show failOpen = false from he] at hopen
    cases hopen
  have hstep := step_cases failOpen w e
  generalize LockWorld.step failOpen w e = w' at hstep ⊢
  cases hstep with
  | idle => exact h
  | begins caller token hfresh => exact h.begin hbusy hfresh
  | @sets e i task phase htask hkey hphase hunlocked =>
    refine h.setPhase htask (hlocked phase fun hp => ?_) (fun _ => rfl) ?_
    · obtain ⟨hopen, applied, rfl⟩ := hunlocked hp
      exact ⟨hopen, i, applied, rfl⟩
    · -- The key was free, so no other task was busy.
      intro j task' _ htask' hbusy'
      cases hkey.symm.trans (h.held task' (List.mem_of_getElem? htask') hbusy')
  | @moves e i task phase htask hworking hreleasing hunlocked =>
    refine h.setPhase htask (hlocked phase fun hp => ?_) (fun hphase => ?_) ?_
    · obtain ⟨hopen, applied, rfl⟩ := hunlocked hp
      exact ⟨hopen, i, applied, rfl⟩
    · -- Only a task that worked with the lock is busy afterwards.
      have hnot : phase ≠ .working false := hlocked phase fun hp => by
        obtain ⟨hopen, applied, rfl⟩ := hunlocked hp
        exact ⟨hopen, i, applied, rfl⟩
      have hbefore : task.phase = .working true := by
        cases phase with
        | releasing => exact hreleasing rfl
        | working locked => cases locked <;> contradiction
        | waiting => rw [hbusy.waiting] at hphase; cases hphase
        | refused refusal => rw [hbusy.refused] at hphase; cases hphase
        | finished => rw [hbusy.finished] at hphase; cases hphase
        | stopped => rw [hbusy.stopped] at hphase; cases hphase
      exact h.held task (List.mem_of_getElem? htask) (hbefore ▸ hbusy.working)
    · exact fun j task' _ htask' => h.held task' (List.mem_of_getElem? htask')
  | @releases e i task htask he' hphase =>
    refine h.setPhase htask (by simp) (fun hfinished => ?_) ?_
    · rw [hbusy.finished] at hfinished
      cases hfinished
    · intro j task' hne htask' hbusy'
      have hkey := h.held task' (List.mem_of_getElem? htask') hbusy'
      -- The key is another task's, so the script leaves it.
      have hother : w.key ≠ some task.token := by
        intro howns
        exact hne (h.distinct j i task' task htask' htask
          (Option.some.inj (hkey.symm.trans howns)))
      rw [releaseScript_of_ne hother, hkey]
  | expires =>
    refine ⟨h.distinct, h.locked, fun task htask hbusy' => ?_⟩
    rw [he task htask (h.held task htask hbusy')] at hbusy'
    cases hbusy'

/-- **Run lemma.** In a run whose steps are all in time one task at most is busy. -/
theorem atMostOne_throughout (hbusy : HeldPhase busy) {key : Option String} {es : List LockEvent}
    (hes : Each (step failOpen) (InTime failOpen busy) { key } es) :
    Throughout (step failOpen) (AtMostOne busy) { key } es := by
  have hstart : Held busy { key } := by
    refine ⟨?_, ?_, ?_⟩
    · intro i j task task' htask
      cases htask
    · intro task htask
      cases htask
    · intro task htask
      cases htask
  have hheld := throughout_of_each (I := Held busy) (fun w e h he => h.step hbusy he) hstart hes
  exact hheld.mono fun w h => h.atMostOne

end Exclusion

end LockWorld

open LockWorld in
/-- **The trade lock.** In every run a release leaves a key that holds another token as it is.
In every run in which no key expires under a task that still works, one task at most is in
its critical section, so POST /orders and the supervisor never are both; and the same up to
the end of the release, where no key expires before that. -/
theorem trade_lock_protocol (failOpen : Bool) (key : Option String) (es : List LockEvent) :
    (∀ i task e token, (Logic.run (LockWorld.step failOpen) { key } es).tasks[i]? = some task →
      (e = .release i ∨ ∃ applied, e = .releaseRaises i applied) →
        (Logic.run (LockWorld.step failOpen) { key } es).key = some token → token ≠ task.token →
          (LockWorld.step failOpen (Logic.run (LockWorld.step failOpen) { key } es) e).key =
            some token) ∧
    (Each (LockWorld.step failOpen) (InTime failOpen LockPhase.isWorking) { key } es →
      Throughout (LockWorld.step failOpen) (AtMostOne LockPhase.isWorking) { key } es ∧
      Throughout (LockWorld.step failOpen) (fun w => ∀ task ∈ w.tasks, ∀ task' ∈ w.tasks,
        task.caller = .placeOrder → task'.caller = .autoTradeSupervisor →
          ¬ (task.phase.isWorking = true ∧ task'.phase.isWorking = true)) { key } es) ∧
    (Each (LockWorld.step failOpen) (InTime failOpen LockPhase.isHolding) { key } es →
      Throughout (LockWorld.step failOpen) (AtMostOne LockPhase.isHolding) { key } es) := by
  refine ⟨?_, fun hes => ?_, atMostOne_throughout LockPhase.isHolding_held⟩
  · intro i task e token htask he hkey hne
    rcases key_step failOpen e hkey with hkept | rfl | ⟨j, task', htask', rfl, he'⟩
    · exact hkept
    · rcases he with he | ⟨applied, he⟩ <;> cases he
    · -- The release is of the task that holds the key, which `task` is not.
      have hij : i = j := by
        rcases he with rfl | ⟨applied, rfl⟩ <;> rcases he' with he' | he' <;> cases he' <;> rfl
      subst hij
      cases htask.symm.trans htask'
      exact absurd rfl hne
  · have hone := atMostOne_throughout LockPhase.isWorking_held hes
    refine ⟨hone, hone.mono fun w h task htask task' htask' hplace hauto hboth => ?_⟩
    obtain ⟨i, hi⟩ := List.mem_iff_getElem?.mp htask
    obtain ⟨j, hj⟩ := List.mem_iff_getElem?.mp htask'
    have hij := h i j task task' hi hj hboth.1 hboth.2
    subst hij
    cases hi.symm.trans hj
    rw [hplace] at hauto
    cases hauto

/-- The request's key expires while it works, the supervisor takes it, and the request ends. -/
def lateRelease : List LockEvent :=
  [.begin .placeOrder "request", .begin .autoTradeSupervisor "candle", .poll 0 false, .expire,
    .poll 1 false, .finish 0]

/-- The supervisor waits for the request to release. -/
def inTurn : List LockEvent :=
  [.begin .placeOrder "request", .begin .autoTradeSupervisor "candle", .poll 0 false,
    .poll 1 false, .finish 0, .release 0, .poll 1 false, .finish 1, .expire, .release 1]

theorem trade_lock_protocol_inTurn :
    (LockWorld.step false (Logic.run (LockWorld.step false) { key := none } lateRelease)
      (.release 0)).key = some "candle" ∧
    Throughout (LockWorld.step false) (LockWorld.AtMostOne LockPhase.isWorking) { key := none }
      inTurn ∧
    Throughout (LockWorld.step false) (LockWorld.AtMostOne LockPhase.isHolding) { key := none }
      (inTurn.take 8) := by
  refine ⟨?_, ?_, ?_⟩
  · exact (trade_lock_protocol false none lateRelease).1 0
      { caller := .placeOrder, token := "request", phase := .releasing } (.release 0) "candle"
      (by decide +kernel) (.inl rfl) (by decide +kernel) (by decide +kernel)
  · refine ((trade_lock_protocol false none inTurn).2.1 ?_).1
    -- The supervisor has stopped working when its key expires.
    refine ⟨trivial, trivial, trivial, trivial, trivial, trivial, trivial, trivial, ?_, trivial,
      trivial⟩
    show ∀ task ∈ _, _ → _
    decide +kernel
  · refine (trade_lock_protocol false none (inTurn.take 8)).2.2 ?_
    exact ⟨trivial, trivial, trivial, trivial, trivial, trivial, trivial, trivial, trivial⟩

end SuperTrading
