import SuperTrading.Logic.Runs
import Mathlib.Algebra.Order.Group.Nat
import Mathlib.Data.Int.Order.Basic
import Mathlib.Tactic.Linarith

/-!
# The Window of the Rate Limiter

`check_rate_limit` of `app/core/redis.py`: a counter in Redis that expires a window after it was
created. The script runs as one step; between its runs time passes, and a fault may strip the
counter of its expiry.

- **Layer A**: the commands of the script, on one key
- **Layer B**: what one call leaves
- **Layer C**: runs of calls, time and faults
- **Layer D**: what a run keeps
-/

namespace SuperTrading

open Logic

/-! ## Layer A: The commands -/

/-- A counter, and when it expires. Times are in milliseconds. -/
structure RateKey where
  count : ℕ
  expiresAt : Option ℕ := none
  deriving DecidableEq, Repr

/-- Redis, as far as one key goes. -/
structure RateRedis where
  now : ℕ
  key : Option RateKey := none
  deriving DecidableEq, Repr

namespace RateRedis

/-- The key that the commands see. One whose time is over is gone, deleted already or not. -/
def live (r : RateRedis) : Option RateKey :=
  r.key.filter fun key => key.expiresAt.all fun t => r.now ≤ t

/-- `INCR`: a missing key counts from zero, and gets no expiry. -/
def incr (r : RateRedis) : ℕ × RateRedis :=
  match r.live with
  | none => (1, { r with key := some { count := 1 } })
  | some key => (key.count + 1, { r with key := some { key with count := key.count + 1 } })

/-- `TTL`: the seconds left, -1 for a key that does not expire, -2 for none. -/
def ttl (r : RateRedis) : ℤ :=
  match r.live with
  | none => -2
  | some key => key.expiresAt.elim (-1) fun t => ((t - r.now + 500) / 1000 : ℕ)

/-- `EXPIRE`: no time at all deletes the key. -/
def expire (r : RateRedis) (seconds : ℕ) : RateRedis :=
  if seconds = 0 then { r with key := none }
  else
    { r with
      key := r.live.map fun key => { key with expiresAt := some (r.now + seconds * 1000) } }

/-- `_RATE_LIMIT_SCRIPT`. -/
def rateLimitScript (r : RateRedis) (windowSeconds : ℕ) : ℕ × RateRedis :=
  let (count, r) := r.incr
  (count, if r.ttl < 0 then r.expire windowSeconds else r)

/-- `check_rate_limit`. -/
def checkRateLimit (r : RateRedis) (limit : ℤ) (windowSeconds : ℕ) : Bool × RateRedis :=
  let (count, r) := r.rateLimitScript windowSeconds
  (decide ((count : ℤ) ≤ limit), r)

/-! ## Layer B: What one call leaves -/

variable {r : RateRedis} {key : RateKey} {limit : ℤ} {windowSeconds : ℕ}

theorem incr_of_live (hlive : r.live = some key) :
    r.incr =
      (key.count + 1, { r with key := some { key with count := key.count + 1 } }) := by
  simp only [incr, hlive]

theorem incr_of_none (hnone : r.live = none) :
    r.incr = (1, { r with key := some { count := 1 } }) := by
  simp only [incr, hnone]

/-- The expiry alone decides whether a key is still seen, so counting does not hide it. -/
theorem live_counted (hlive : r.live = some key) (count : ℕ) :
    ({ r with key := some { key with count := count } } : RateRedis).live =
      some { key with count := count } := by
  obtain ⟨-, hall⟩ := Option.filter_eq_some_iff.mp hlive
  exact Option.filter_eq_some_iff.mpr ⟨rfl, hall⟩

/-- A live key that expires is counted on, and its expiry stays. -/
theorem checkRateLimit_kept {t : ℕ} (hlive : r.live = some key)
    (hexpires : key.expiresAt = some t) :
    r.checkRateLimit limit windowSeconds =
      (decide (((key.count + 1 : ℕ) : ℤ) ≤ limit),
        { r with key := some { key with count := key.count + 1 } }) := by
  have hcounted := live_counted hlive (key.count + 1)
  have httl :
      ¬ ({ r with key := some { key with count := key.count + 1 } } : RateRedis).ttl < 0 := by
    rw [ttl, hcounted]
    simp only [hexpires, Option.elim_some, not_lt]
    exact Int.natCast_nonneg _
  simp only [checkRateLimit, rateLimitScript, incr_of_live hlive, if_neg httl]

theorem expire_of_live (hwindow : 0 < windowSeconds) (hlive : r.live = some key) :
    r.expire windowSeconds =
      { r with key := some { key with expiresAt := some (r.now + windowSeconds * 1000) } } := by
  rw [expire, if_neg hwindow.ne', hlive, Option.map_some]

/-- A live key that lost its expiry is counted on, and gets a window from now. -/
theorem checkRateLimit_repaired (hwindow : 0 < windowSeconds) (hlive : r.live = some key)
    (hlost : key.expiresAt = none) :
    r.checkRateLimit limit windowSeconds =
      (decide (((key.count + 1 : ℕ) : ℤ) ≤ limit),
        { r with
          key := some
            { count := key.count + 1
              expiresAt := some (r.now + windowSeconds * 1000) } }) := by
  have hcounted := live_counted hlive (key.count + 1)
  have httl : ({ r with key := some { key with count := key.count + 1 } } : RateRedis).ttl < 0 := by
    rw [ttl, hcounted]
    simp only [hlost, Option.elim_none]
    decide
  simp only [checkRateLimit, rateLimitScript, incr_of_live hlive, if_pos httl,
    expire_of_live hwindow hcounted]

/-- Without a live key the count starts over, with a window from now. -/
theorem checkRateLimit_created (hwindow : 0 < windowSeconds) (hnone : r.live = none) :
    r.checkRateLimit limit windowSeconds =
      (decide (1 ≤ limit),
        { r with
          key := some
            { count := 1
              expiresAt := some (r.now + windowSeconds * 1000) } }) := by
  have hfresh : ({ r with key := some { count := 1 } } : RateRedis).live = some { count := 1 } :=
    rfl
  have httl : ({ r with key := some { count := 1 } } : RateRedis).ttl < 0 := by
    rw [ttl, hfresh]
    exact Int.negSucc_lt_zero 0
  simp only [checkRateLimit, rateLimitScript, incr_of_none hnone, if_pos httl,
    expire_of_live hwindow hfresh, Nat.cast_one]

/-- The key expires, and no later than a window from now. -/
def ExpiresInWindow (r : RateRedis) (windowSeconds : ℕ) : Prop :=
  ∃ key t, r.key = some key ∧ key.expiresAt = some t ∧ r.now ≤ t ∧ t ≤ r.now + windowSeconds * 1000

/-- No expiry lies further ahead than a window. -/
def NoLater (r : RateRedis) (windowSeconds : ℕ) : Prop :=
  ∀ key t, r.key = some key → key.expiresAt = some t → t ≤ r.now + windowSeconds * 1000

theorem expiresInWindow_checkRateLimit (hwindow : 0 < windowSeconds) (h : r.NoLater windowSeconds)
    (limit : ℤ) : (r.checkRateLimit limit windowSeconds).2.ExpiresInWindow windowSeconds := by
  cases hlive : r.live with
  | none =>
    rw [checkRateLimit_created hwindow hlive]
    exact ⟨_, _, rfl, rfl, Nat.le_add_right .., le_refl _⟩
  | some key =>
    obtain ⟨hkey, hall⟩ := Option.filter_eq_some_iff.mp hlive
    cases hexpires : key.expiresAt with
    | none =>
      rw [checkRateLimit_repaired hwindow hlive hexpires]
      exact ⟨_, _, rfl, rfl, Nat.le_add_right .., le_refl _⟩
    | some t =>
      rw [checkRateLimit_kept hlive hexpires]
      have hnow : r.now ≤ t := by simpa [hexpires] using hall
      exact ⟨_, t, rfl, hexpires, hnow, h key t hkey hexpires⟩

end RateRedis

/-! ## Layer C: Runs -/

/-- A call as it was answered: whether it created the key, and whether it was allowed. -/
structure RateCall where
  created : Bool
  allowed : Bool
  deriving DecidableEq, Repr

/-- Redis, and the calls so far. -/
structure RateRun extends RateRedis where
  calls : List RateCall := []
  deriving DecidableEq, Repr

inductive RateEvent
  | call
  | pass (milliseconds : ℕ)
  /-- The server deletes a key whose time is over. -/
  | sweep
  /-- A fault strips the key of its expiry. -/
  | loseTtl
  deriving DecidableEq, Repr

namespace RateRun

/-- One call of `check_rate_limit`. -/
def call (limit : ℤ) (windowSeconds : ℕ) (w : RateRun) : RateRun :=
  let (allowed, redis) := w.checkRateLimit limit windowSeconds
  { toRateRedis := redis
    calls := w.calls ++
      [{ created := w.live.isNone
         allowed := allowed }] }

def step (limit : ℤ) (windowSeconds : ℕ) (w : RateRun) : RateEvent → RateRun
  | .call => w.call limit windowSeconds
  | .pass milliseconds => { w with now := w.now + milliseconds }
  | .sweep => { w with key := w.live }
  | .loseTtl => { w with key := w.live.map fun key => { key with expiresAt := none } }

/-- A key that was never created, or one that a fault left there without an expiry. -/
def start (now : ℕ) (stuck : Option ℕ) : RateRun :=
  { now := now
    key := stuck.map fun count => { count := count } }

/-- From one creation of the key to the next, no more calls than the limit are allowed. -/
def LimitKept (limit : ℤ) (calls : List RateCall) : Prop :=
  ∀ before first between after, calls = before ++ first :: between ++ after →
    first.created = true → (∀ c ∈ between, c.created = false) →
      (first :: between).countP RateCall.allowed ≤ limit.toNat

/-! ## Layer D: What a run keeps -/

variable {limit : ℤ} {windowSeconds : ℕ} {w : RateRun}

theorem noLater_step (hwindow : 0 < windowSeconds) (h : w.NoLater windowSeconds)
    (event : RateEvent) : (w.step limit windowSeconds event).NoLater windowSeconds := by
  cases event with
  -- A call starts a window or counts in the one that runs: either way it ends in a window's time.
  | call =>
    obtain ⟨key, t, hkey, hexpires, -, ht⟩ :=
      RateRedis.expiresInWindow_checkRateLimit hwindow h limit
    intro key' t' hkey' hexpires'
    cases hkey.symm.trans hkey'
    cases hexpires.symm.trans hexpires'
    exact ht
  -- Time passing only brings the end nearer.
  | pass milliseconds =>
    intro key t hkey hexpires
    have ht := h key t hkey hexpires
    show t ≤ w.now + milliseconds + windowSeconds * 1000
    omega
  | sweep =>
    intro key t hkey hexpires
    exact h key t (Option.filter_eq_some_iff.mp hkey).1 hexpires
  -- An expiry that is lost is no later one.
  | loseTtl =>
    intro key t hkey hexpires
    obtain ⟨key', -, rfl⟩ := Option.map_eq_some_iff.mp hkey
    cases hexpires

/-- What one call of a key does to it, and how it is answered. -/
theorem call_cases (hwindow : 0 < windowSeconds) (w : RateRun) (limit : ℤ) :
    (w.live = none ∧ ∃ t,
      (w.call limit windowSeconds).key = some { count := 1, expiresAt := some t } ∧
      (w.call limit windowSeconds).calls =
        w.calls ++ [{ created := true, allowed := decide (1 ≤ limit) }]) ∨
    (∃ key t, w.live = some key ∧ (∀ t', key.expiresAt = some t' → t' = t) ∧
      (w.call limit windowSeconds).key =
        some { count := key.count + 1, expiresAt := some t } ∧
      (w.call limit windowSeconds).calls =
        w.calls ++
          [{ created := false, allowed := decide (((key.count + 1 : ℕ) : ℤ) ≤ limit) }]) := by
  cases hlive : w.live with
  | none =>
    refine .inl ⟨rfl, w.now + windowSeconds * 1000, ?_⟩
    simp only [call, RateRedis.checkRateLimit_created hwindow hlive, hlive, Option.isNone_none,
      and_self]
  | some key =>
    cases hexpires : key.expiresAt with
    | none =>
      -- `TTL` answers -1 here, and the script sets the expiry that was lost.
      refine .inr ⟨key, w.now + windowSeconds * 1000, rfl, by simp [hexpires], ?_⟩
      simp only [call, RateRedis.checkRateLimit_repaired hwindow hlive hexpires, hlive,
        Option.isNone_some, and_self]
    | some t =>
      refine .inr ⟨key, t, rfl, by simp [hexpires], ?_⟩
      simp only [call, RateRedis.checkRateLimit_kept hlive hexpires, hlive, hexpires,
        Option.isNone_some, and_self]

@[simp] theorem now_call (hwindow : 0 < windowSeconds) (w : RateRun) (limit : ℤ) :
    (w.call limit windowSeconds).now = w.now := by
  cases hlive : w.live with
  | none => simp only [call, RateRedis.checkRateLimit_created hwindow hlive]
  | some key =>
    cases hexpires : key.expiresAt with
    | none => simp only [call, RateRedis.checkRateLimit_repaired hwindow hlive hexpires]
    | some t => simp only [call, RateRedis.checkRateLimit_kept hlive hexpires]

/-- The calls since the key was created are all in its count. -/
def Counted (limit : ℤ) (w : RateRun) : Prop :=
  LimitKept limit w.calls ∧
    ∀ key, w.live = some key → ∀ before first between, w.calls = before ++ first :: between →
      first.created = true → (∀ c ∈ between, c.created = false) →
        (first :: between).countP RateCall.allowed ≤ key.count

/-- Between calls the key that is seen keeps its count, and only a fault takes its expiry. -/
theorem live_step {event : RateEvent} (hcall : event ≠ .call) {key : RateKey}
    (hlive : (w.step limit windowSeconds event).live = some key) :
    ∃ key', w.live = some key' ∧ key.count = key'.count ∧
      (event ≠ .loseTtl → key = key') := by
  obtain ⟨hkey, hall⟩ := Option.filter_eq_some_iff.mp hlive
  cases event with
  | call => exact absurd rfl hcall
  | pass milliseconds =>
    refine ⟨key, Option.filter_eq_some_iff.mpr ⟨hkey, ?_⟩, rfl, fun _ => rfl⟩
    -- What has not expired later had not expired before.
    cases hexpires : key.expiresAt with
    | none => rfl
    | some t =>
      rw [hexpires] at hall
      have hlater : w.now + milliseconds ≤ t := of_decide_eq_true hall
      exact decide_eq_true (by omega)
  | sweep => exact ⟨key, hkey, rfl, fun _ => rfl⟩
  | loseTtl =>
    obtain ⟨key', hkey', rfl⟩ := Option.map_eq_some_iff.mp hkey
    exact ⟨key', hkey', rfl, fun h => absurd rfl h⟩

theorem calls_step {event : RateEvent} (hcall : event ≠ .call) :
    (w.step limit windowSeconds event).calls = w.calls := by
  cases event with
  | call => exact absurd rfl hcall
  | pass milliseconds => rfl
  | sweep => rfl
  | loseTtl => rfl

/-- With one more call there is one more stretch to look at, the one that ends with it. -/
theorem limitKept_concat {calls : List RateCall} {c : RateCall} (h : LimitKept limit calls)
    (hlast : ∀ before first between, calls ++ [c] = before ++ first :: between →
      first.created = true → (∀ c ∈ between, c.created = false) →
        (first :: between).countP RateCall.allowed ≤ limit.toNat) :
    LimitKept limit (calls ++ [c]) := by
  intro before first between after hcalls hfirst hbetween
  rcases List.eq_nil_or_concat after with rfl | ⟨after, c', rfl⟩
  · exact hlast before first between (by simpa using hcalls) hfirst hbetween
  · rw [List.concat_eq_append, ← List.append_assoc] at hcalls
    obtain ⟨hinit, -⟩ := List.append_inj' hcalls rfl
    exact h before first between after hinit hfirst hbetween

/-- A stretch that ends with a call of the key it began with is one call longer. -/
theorem stretch_of_kept {calls before between : List RateCall} {c first : RateCall}
    (hcalls : calls ++ [c] = before ++ first :: between) (hc : c.created = false)
    (hfirst : first.created = true) :
    ∃ between', between = between' ++ [c] ∧ calls = before ++ first :: between' := by
  rcases List.eq_nil_or_concat between with rfl | ⟨between', c', rfl⟩
  · obtain ⟨-, hlast⟩ := List.append_inj' hcalls rfl
    cases hlast
    rw [hc] at hfirst
    cases hfirst
  · rw [List.concat_eq_append, ← List.cons_append, ← List.append_assoc] at hcalls
    obtain ⟨hinit, hlast⟩ := List.append_inj' hcalls rfl
    cases hlast
    exact ⟨between', List.concat_eq_append, hinit⟩

/-- A stretch that ends with the call that created the key is that call. -/
theorem stretch_of_created {calls before between : List RateCall} {c first : RateCall}
    (hcalls : calls ++ [c] = before ++ first :: between) (hc : c.created = true)
    (hbetween : ∀ c ∈ between, c.created = false) : first = c ∧ between = [] := by
  rcases List.eq_nil_or_concat between with rfl | ⟨between', c', rfl⟩
  · obtain ⟨-, hlast⟩ := List.append_inj' hcalls rfl
    cases hlast
    exact ⟨rfl, rfl⟩
  · rw [List.concat_eq_append, ← List.cons_append, ← List.append_assoc] at hcalls
    obtain ⟨-, hlast⟩ := List.append_inj' hcalls rfl
    cases hlast
    have hkept := hbetween c (by simp)
    rw [hc] at hkept
    cases hkept

theorem counted_call (hwindow : 0 < windowSeconds) (h : w.Counted limit) :
    (w.call limit windowSeconds).Counted limit := by
  obtain ⟨hkept, hcount⟩ := h
  rcases call_cases hwindow w limit with ⟨-, t, hkey, hcalls⟩ | ⟨key, t, hlive, -, hkey, hcalls⟩
  · -- The new key has been called once.
    have hone : ∀ before first between,
        w.calls ++ [{ created := true, allowed := decide (1 ≤ limit) }] =
          before ++ first :: between →
        (∀ c ∈ between, c.created = false) →
          (first :: between).countP RateCall.allowed ≤ min 1 limit.toNat := by
      intro before first between hsplit hbetween
      obtain ⟨rfl, rfl⟩ := stretch_of_created hsplit rfl hbetween
      by_cases hlimit : 1 ≤ limit
      · simp [hlimit]
        omega
      · simp [hlimit]
    refine ⟨?_, fun key' hlive' before first between hsplit _ hbetween => ?_⟩
    · rw [hcalls]
      refine limitKept_concat hkept fun before first between hsplit _ hbetween => ?_
      exact (hone before first between hsplit hbetween).trans (min_le_right ..)
    · rw [hcalls] at hsplit
      have hkey' : key'.count = 1 := by
        have := (Option.filter_eq_some_iff.mp hlive').1
        rw [hkey] at this
        cases this
        rfl
      rw [hkey']
      exact (hone before first between hsplit hbetween).trans (min_le_left ..)
  · -- The key counts one more call, and the call is allowed only within the limit.
    have hmore : ∀ before first between,
        w.calls ++ [{ created := false, allowed := decide (((key.count + 1 : ℕ) : ℤ) ≤ limit) }] =
          before ++ first :: between →
        first.created = true → (∀ c ∈ between, c.created = false) →
          (first :: between).countP RateCall.allowed ≤ key.count + 1 ∧
          (first :: between).countP RateCall.allowed ≤ limit.toNat := by
      intro before first between hsplit hfirst hbetween
      obtain ⟨between', rfl, hbefore⟩ := stretch_of_kept hsplit rfl hfirst
      have hold : ∀ c ∈ between', c.created = false := fun c hc =>
        hbetween c (List.mem_append_left _ hc)
      have hle := hcount key hlive before first between' hbefore hfirst hold
      have hwithin := hkept before first between' [] (by simpa using hbefore) hfirst hold
      rw [← List.cons_append, List.countP_append]
      by_cases hlimit : ((key.count + 1 : ℕ) : ℤ) ≤ limit
      · simp only [hlimit, decide_true, List.countP_singleton, if_true]
        omega
      · simp only [hlimit, decide_false, List.countP_singleton, Bool.false_eq_true, if_false]
        omega
    refine ⟨?_, fun key' hlive' before first between hsplit hfirst hbetween => ?_⟩
    · rw [hcalls]
      refine limitKept_concat hkept fun before first between hsplit hfirst hbetween => ?_
      exact (hmore before first between hsplit hfirst hbetween).2
    · rw [hcalls] at hsplit
      have hkey' : key'.count = key.count + 1 := by
        have := (Option.filter_eq_some_iff.mp hlive').1
        rw [hkey] at this
        cases this
        rfl
      rw [hkey']
      exact (hmore before first between hsplit hfirst hbetween).1

theorem counted_step (hwindow : 0 < windowSeconds) (h : w.Counted limit) (event : RateEvent) :
    (w.step limit windowSeconds event).Counted limit := by
  by_cases hcall : event = .call
  · subst hcall
    exact counted_call hwindow h
  · rw [Counted, calls_step hcall]
    refine ⟨h.1, fun key hlive => ?_⟩
    obtain ⟨key', hlive', hcount, -⟩ := live_step hcall hlive
    rw [hcount]
    exact h.2 key' hlive'

theorem counted_start (limit : ℤ) (now : ℕ) (stuck : Option ℕ) :
    (start now stuck).Counted limit := by
  constructor
  · intro before first between after hcalls
    simp [start] at hcalls
  · intro key _ before first between hcalls
    simp [start] at hcalls

/-- Every call that creates the key is allowed, if any is. -/
def CreationsAllowed (limit : ℤ) (w : RateRun) : Prop :=
  ∀ c ∈ w.calls, c.created = true → c.allowed = decide (1 ≤ limit)

theorem creationsAllowed_step (hwindow : 0 < windowSeconds) (h : w.CreationsAllowed limit)
    (event : RateEvent) : (w.step limit windowSeconds event).CreationsAllowed limit := by
  by_cases hcall : event = .call
  · subst hcall
    intro c hc hcreated
    rcases call_cases hwindow w limit with ⟨-, t, -, hcalls⟩ | ⟨key, t, -, -, -, hcalls⟩
    · rw [step, hcalls] at hc
      rcases List.mem_append.mp hc with hold | hnew
      · exact h c hold hcreated
      · rw [List.mem_singleton.mp hnew]
    · rw [step, hcalls] at hc
      rcases List.mem_append.mp hc with hold | hnew
      · exact h c hold hcreated
      · rw [List.mem_singleton.mp hnew] at hcreated
        cases hcreated
  · rw [CreationsAllowed, calls_step hcall]
    exact h

/-- Since the first `n` calls the key was created anew, or it is still to go at `t`. -/
def Ending (n t : ℕ) (w : RateRun) : Prop :=
  n ≤ w.calls.length ∧
    ((∃ c ∈ w.calls.drop n, c.created = true) ∨ ∀ key, w.live = some key → key.expiresAt = some t)

theorem ending_step (hwindow : 0 < windowSeconds) {n t : ℕ} (h : w.Ending n t) {event : RateEvent}
    (hfault : event ≠ .loseTtl) : (w.step limit windowSeconds event).Ending n t := by
  obtain ⟨hn, hend⟩ := h
  by_cases hcall : event = .call
  · subst hcall
    have hdrop : ∀ c, (w.calls ++ [c]).drop n = w.calls.drop n ++ [c] := fun c =>
      List.drop_append_of_le_length hn
    rcases call_cases hwindow w limit with
      ⟨-, t', -, hcalls⟩ | ⟨key, t', hlive, hkept, hkey, hcalls⟩
    -- A call that creates the key settles it; any other leaves the expiry that it finds.
    · refine ⟨?_, .inl ?_⟩
      · rw [step, hcalls, List.length_append]
        omega
      · rw [step, hcalls, hdrop]
        exact ⟨_, List.mem_append_right _ (List.mem_singleton_self _), rfl⟩
    · refine ⟨?_, hend.imp ?_ ?_⟩
      · rw [step, hcalls, List.length_append]
        omega
      · rintro ⟨c, hc, hcreated⟩
        rw [step, hcalls, hdrop]
        exact ⟨c, List.mem_append_left _ hc, hcreated⟩
      · intro hexpires key' hlive'
        have hkey' := (Option.filter_eq_some_iff.mp hlive').1
        rw [step, hkey] at hkey'
        cases hkey'
        rw [hkept t (hexpires key hlive)]
  · rw [Ending, calls_step hcall]
    refine ⟨hn, hend.imp_right fun hexpires key hlive => ?_⟩
    obtain ⟨key', hlive', -, hsame⟩ := live_step hcall hlive
    rw [hsame hfault]
    exact hexpires key' hlive'

theorem ending_run (hwindow : 0 < windowSeconds) {n t : ℕ} (h : w.Ending n t)
    {later : List RateEvent} (hfaults : RateEvent.loseTtl ∉ later) :
    (run (step limit windowSeconds) w later).Ending n t := by
  induction later generalizing w with
  | nil => exact h
  | cons event later ih =>
    have hhead : event ≠ .loseTtl := fun he => hfaults (he ▸ List.mem_cons_self)
    have htail : RateEvent.loseTtl ∉ later := fun he => hfaults (List.mem_cons_of_mem _ he)
    exact ih (ending_step hwindow h hhead) htail

/-- Once its time is over, a key that was not created anew is by the next call. -/
theorem created_of_ending (hwindow : 0 < windowSeconds) {n t : ℕ} (h : w.Ending n t)
    (hover : t < w.now) :
    ∃ c ∈ (w.call limit windowSeconds).calls.drop n, c.created = true := by
  obtain ⟨hn, hend⟩ := h
  rcases call_cases hwindow w limit with ⟨-, t', -, hcalls⟩ | ⟨key, t', hlive, -, -, hcalls⟩
  · rw [hcalls, List.drop_append_of_le_length hn]
    exact ⟨_, List.mem_append_right _ (List.mem_singleton_self _), rfl⟩
  · rcases hend with ⟨c, hc, hcreated⟩ | hexpires
    · rw [hcalls, List.drop_append_of_le_length hn]
      exact ⟨c, List.mem_append_left _ hc, hcreated⟩
    · have hall := (Option.filter_eq_some_iff.mp hlive).2
      rw [hexpires key hlive] at hall
      have hnow : w.now ≤ t := of_decide_eq_true hall
      omega

section Reached

variable (hwindow : 0 < windowSeconds) (limit : ℤ) (now : ℕ) (stuck : Option ℕ)
  (events : List RateEvent)

include hwindow

theorem noLater_run :
    (run (step limit windowSeconds) (start now stuck) events).NoLater windowSeconds := by
  refine invariant_run (I := fun w : RateRun => w.NoLater windowSeconds)
    (fun w event h => noLater_step hwindow h event) events ?_
  intro key t hkey hexpires
  obtain ⟨count, -, rfl⟩ := Option.map_eq_some_iff.mp hkey
  cases hexpires

theorem counted_run : (run (step limit windowSeconds) (start now stuck) events).Counted limit :=
  invariant_run (I := Counted limit) (fun _ event h => counted_step hwindow h event) events
    (counted_start limit now stuck)

theorem creationsAllowed_run :
    (run (step limit windowSeconds) (start now stuck) events).CreationsAllowed limit :=
  invariant_run (I := CreationsAllowed limit)
    (fun _ event h => creationsAllowed_step hwindow h event) events
    fun _ hc => absurd hc List.not_mem_nil

end Reached

/-- The window of the limiter, in every state that calls, time and faults lead to. A call leaves a
key that expires within a window, and never puts off an expiry that is there. From one creation
of the key to the next no more calls than the limit are allowed. And without a further fault, some
call after it creates the key anew once a window is over, so that no key is refused forever. -/
theorem rate_window (hwindow : 0 < windowSeconds) (limit : ℤ) (now : ℕ) (stuck : Option ℕ)
    (events : List RateEvent) :
    let w := run (step limit windowSeconds) (start now stuck) events
    (w.call limit windowSeconds).ExpiresInWindow windowSeconds ∧
      (∀ key t, w.live = some key → key.expiresAt = some t →
        ∃ key', (w.call limit windowSeconds).live = some key' ∧ key'.expiresAt = some t) ∧
      LimitKept limit w.calls ∧
      ∀ later, RateEvent.loseTtl ∉ later →
        let v := run (step limit windowSeconds) (w.call limit windowSeconds) later
        w.now + windowSeconds * 1000 < v.now →
          ∃ c ∈ (v.call limit windowSeconds).calls.drop (w.call limit windowSeconds).calls.length,
            c.created = true ∧ (1 ≤ limit → c.allowed = true) := by
  intro w
  have hlater : w.NoLater windowSeconds := noLater_run hwindow limit now stuck events
  have hexpires := RateRedis.expiresInWindow_checkRateLimit hwindow hlater limit
  have hcounted : w.Counted limit := counted_run hwindow limit now stuck events
  have hallowed : w.CreationsAllowed limit := creationsAllowed_run hwindow limit now stuck events
  refine ⟨hexpires, fun key t hlive hkey => ?_, hcounted.1, ?_⟩
  · -- A key that is there is counted on, and keeps its expiry.
    refine ⟨{ key with count := key.count + 1 }, ?_, hkey⟩
    simp only [call, RateRedis.checkRateLimit_kept hlive hkey]
    exact RateRedis.live_counted hlive _
  · intro later hfaults v hover
    obtain ⟨key, t, hkey, hkeyExpires, -, ht⟩ := hexpires
    -- The expiry that this call leaves stands until the key is created anew.
    have hends : (w.call limit windowSeconds).Ending
        (w.call limit windowSeconds).calls.length t := by
      refine ⟨le_refl _, .inr fun key' hlive' => ?_⟩
      cases hkey.symm.trans (Option.filter_eq_some_iff.mp hlive').1
      exact hkeyExpires
    have hstill : v.Ending (w.call limit windowSeconds).calls.length t :=
      ending_run hwindow hends hfaults
    have hnow : (w.checkRateLimit limit windowSeconds).2.now = w.now := now_call hwindow w limit
    rw [hnow] at ht
    have hover' : t < v.now := lt_of_le_of_lt ht hover
    obtain ⟨c, hc, hcreated⟩ := @created_of_ending limit _ _ hwindow _ _ hstill hover'
    -- A call that creates the key starts at a count of one, within any limit.
    have hcalled : (v.call limit windowSeconds).CreationsAllowed limit := by
      have hv : v.CreationsAllowed limit :=
        invariant_run (I := CreationsAllowed limit)
          (fun _ event h => creationsAllowed_step hwindow h event) later
          (creationsAllowed_step hwindow hallowed .call)
      exact creationsAllowed_step hwindow hv .call
    refine ⟨c, hc, hcreated, fun hlimit => ?_⟩
    rw [hcalled c (List.mem_of_mem_drop hc) hcreated]
    exact decide_eq_true hlimit

/-- A poisoned key heals, and a fault in the middle of the next window only makes it longer. -/
theorem rate_window_healed :
    let events := [.call, .call, .pass 1001, .call, .loseTtl, .pass 900, .call, .call]
    let w := run (step 2 1) (start 0 (some 5)) events
    LimitKept 2 w.calls ∧ w.calls.map RateCall.allowed = [false, false, true, true, false] :=
  ⟨(rate_window (by decide) 2 0 (some 5)
    [.call, .call, .pass 1001, .call, .loseTtl, .pass 900, .call, .call]).2.2.1, by decide⟩

end RateRun

end SuperTrading
