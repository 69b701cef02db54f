import SuperTrading.Api.Options
import SuperTrading.Brokers.Scripted
import SuperTrading.Logic.Runs

/-!
# The Repeated-Rejection Breaker

Both evaluators refuse an order of an account with too many consecutive broker
rejections, a reducing order included, and the count starts over only when a new
order reaches the broker. Once tripped, the breaker therefore stays tripped, for
every run of requests on the stack.

- **Events**: requests of both endpoints, and a broker that changes by itself
- **Tripped**: no gate opens, and no event resets the count
-/

namespace SuperTrading

open SuperTrading.Logic

variable {β : Type} [Broker β]

/-! ## Section 1: Events -/

/-- What can happen to a user's stack between restarts. `broker` is any change of
the broker that no request of the user makes: margin added, orders filled. -/
inductive TradingEvent (β : Type)
  | order (env : CallEnv) (request : PlaceOrderRequest)
  | options (env : OptionsEnv) (request : ExecuteOptionsStrategyRequest)
  | broker (state : β)

def tradingStep (w : World β) : TradingEvent β → World β
  | .order env request => (w.placeOrder env request).world
  | .options env request => (w.executeOptionsStrategy env request).world
  | .broker state => { w with stack := { w.stack with broker := state } }

/-- Did the risk evaluation of a request approve it? -/
def Reply.approved {α : Type} (reply : Reply β α) : Bool :=
  match reply.decision with
  | none => false
  | some decision => decision.approved

/-- Some request of either endpoint is approved in this state. -/
def Approvable (w : World β) : Prop :=
  (∃ env request, (w.placeOrder env request).approved = true) ∨
  ∃ env request, (w.executeOptionsStrategy env request).approved = true

/-- As many consecutive rejections as the limit allows, or more. -/
def Tripped (w : World β) : Prop :=
  w.stack.limits.maxRepeatedRejections ≤ w.stack.repeatedRejections

/-! ## Section 2: Tripped for good -/

namespace Stack

@[simp] theorem seedQuote_limits (s : Stack β) (symbol : Symbol) (ltp : ℚ) (print : Bool) :
    (s.seedQuote symbol ltp print).limits = s.limits := by
  unfold seedQuote
  split <;> rfl

@[simp] theorem seedQuote_repeatedRejections (s : Stack β) (symbol : Symbol) (ltp : ℚ)
    (print : Bool) : (s.seedQuote symbol ltp print).repeatedRejections = s.repeatedRejections := by
  unfold seedQuote
  split <;> rfl

/-- What the breaker reads of a stack. -/
def SameCount (s s' : Stack β) : Prop :=
  s'.limits = s.limits ∧ s'.repeatedRejections = s.repeatedRejections

omit [Broker β] in
theorem sameCount_rollRiskWindow (s : Stack β) (now : Instant) :
    s.SameCount (s.rollRiskWindow now) := ⟨rfl, rfl⟩

theorem sameCount_prepared (s : Stack β) (env : CallEnv) (r : PlaceOrderRequest) :
    s.SameCount (s.prepared env r) := by
  constructor
  · exact seedQuote_limits ..
  · exact seedQuote_repeatedRejections ..

end Stack

omit [Broker β] in
theorem Tripped.of_sameCount {w w' : World β} (h : Tripped w)
    (hsame : w.stack.SameCount w'.stack) : Tripped w' := by
  unfold Tripped
  rw [hsame.1, hsame.2]
  exact h

/-- `POST /orders` on a tripped stack: no approval, and the stack stays tripped. -/
theorem Tripped.placeOrder {w : World β} (h : Tripped w) (env : CallEnv) (r : PlaceOrderRequest) :
    (w.placeOrder env r).approved = false ∧ Tripped (w.placeOrder env r).world := by
  rcases w.stack.gate_cases env r with ⟨refusal, s', decision, hgate, hs', hdecision⟩ |
    ⟨quote, decision, hgate, -, hd, happroved⟩
  · have hsame : w.stack.SameCount s' := by
      rcases hs' with rfl | rfl | rfl
      · exact ⟨rfl, rfl⟩
      · exact w.stack.sameCount_rollRiskWindow env.now
      · exact w.stack.sameCount_prepared env r
    simp only [World.placeOrder, hgate]
    refine ⟨?_, h.of_sameCount hsame⟩
    cases decision with
    | none => rfl
    | some d => exact hdecision d rfl
  · -- An approval would put the count below its limit.
    obtain ⟨hlimits, hcount⟩ := w.stack.sameCount_prepared env r
    rw [hd] at happroved
    have hlt := RiskEngine.rejections_lt_of_approved happroved
    have hlt' : w.stack.repeatedRejections < w.stack.limits.maxRepeatedRejections := by
      rw [← hlimits, ← hcount]
      exact hlt
    exact absurd h (not_le.mpr hlt')

/-- `POST /options/execute` on a tripped stack: the same. -/
theorem Tripped.executeOptionsStrategy {w : World β} (h : Tripped w) (env : OptionsEnv)
    (r : ExecuteOptionsStrategyRequest) :
    (w.executeOptionsStrategy env r).approved = false ∧
      Tripped (w.executeOptionsStrategy env r).world := by
  rcases w.stack.optionsGate_cases env r with ⟨refusal, s', decision, hgate, hs', hdecision⟩ |
    ⟨approved, decision, hgate, -, hd, happroved⟩
  · have hsame : w.stack.SameCount s' := by
      rcases hs' with rfl | rfl
      · exact ⟨rfl, rfl⟩
      · exact w.stack.sameCount_rollRiskWindow env.now
    simp only [World.executeOptionsStrategy, hgate]
    refine ⟨?_, h.of_sameCount hsame⟩
    cases decision with
    | none => rfl
    | some d => exact hdecision d rfl
  · -- The second evaluator runs the same check, reducing or not.
    rw [hd] at happroved
    have hlt : w.stack.repeatedRejections < w.stack.limits.maxRepeatedRejections :=
      OptionsRisk.rejections_lt_of_approved happroved
    exact absurd h (not_le.mpr hlt)

/-- Nothing that can happen to a tripped stack resets it. -/
theorem Tripped.step {w : World β} (h : Tripped w) (e : TradingEvent β) :
    Tripped (tradingStep w e) := by
  -- Neither endpoint gets past its gate, and the broker does not hold the count.
  cases e with
  | order env r => exact (h.placeOrder env r).2
  | options env r => exact (h.executeOptionsStrategy env r).2
  | broker state => exact h

theorem Tripped.not_approvable {w : World β} (h : Tripped w) : ¬ Approvable w := by
  rintro (⟨env, r, hr⟩ | ⟨env, r, hr⟩)
  · rw [(h.placeOrder env r).1] at hr
    cases hr
  · rw [(h.executeOptionsStrategy env r).1] at hr
    cases hr

theorem Tripped.run {w : World β} (h : Tripped w) (es : List (TradingEvent β)) :
    Tripped (run tradingStep w es) :=
  invariant_run (I := Tripped) (fun _ e hw => hw.step e) es h

/-- **The breaker is absorbing.** Once a stack has as many consecutive broker
rejections as its limit allows, no continuation of requests on it, whatever the
broker does meanwhile, ends in an approved order. -/
theorem rejection_breaker_absorbs {w : World β} (h : Tripped w) :
    ¬ ∃ es : List (TradingEvent β), Approvable (run tradingStep w es) := by
  rintro ⟨es, hes⟩
  exact (h.run es).not_approvable hes

/-! ## Section 3: A stack that trips -/

/-- A margin problem at the venue: it refuses three orders, then takes every order. -/
def shortOfMargin : ScriptedVenue :=
  { script := [.rejected "insufficient margin", .rejected "insufficient margin",
      .rejected "insufficient margin"] }

/-- Three buys of ACME at 100, each with a stop of its own. -/
def threeBuys : List (TradingEvent ScriptedVenue) :=
  [PlaceOrderRequest.market "ACME" .long 100 95, .market "ACME" .long 100 94,
    .market "ACME" .long 100 93].map (.order { now := 0, priceAgeSeconds := some 0 })

/-- The stack after the three buys were refused. -/
def trippedWorld : World ScriptedVenue :=
  run tradingStep { stack := Stack.build "u" shortOfMargin {} 0 } threeBuys

theorem tripped_trippedWorld : Tripped trippedWorld := by
  unfold Tripped
  decide +kernel

/-- Three refused buys trip the stack. The venue takes every order from then on, and
still no continuation on this stack ends in an approved one. -/
theorem trippedWorld_never_recovers :
    Tripped trippedWorld ∧ trippedWorld.stack.broker.script = [] ∧
      ¬ ∃ es : List (TradingEvent ScriptedVenue), Approvable (run tradingStep trippedWorld es) := by
  refine ⟨tripped_trippedWorld, by decide +kernel, ?_⟩
  rintro ⟨es, hes⟩
  exact (tripped_trippedWorld.run es).not_approvable hes

/-- The breaker absorbs the stack of the three buys. -/
theorem trippedWorld_absorbed :
    Tripped trippedWorld ∧
      ¬ ∃ es : List (TradingEvent ScriptedVenue), Approvable (run tradingStep trippedWorld es) :=
  ⟨tripped_trippedWorld, rejection_breaker_absorbs tripped_trippedWorld⟩

end SuperTrading
