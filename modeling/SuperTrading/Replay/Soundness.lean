import SuperTrading.Replay.Engine
import SuperTrading.Logic.Runs
import Mathlib.Tactic.Linarith

/-!
# Replay Soundness

The balance of a replay is what its trades have made of the one it started with, it stays within
what the journal holds, and no level that a candle hits is one the close would refuse.

- **Sound**: the invariant, with a level accepted for every one that is pending
- **Each action**: what it keeps, and what it leaves when it raises
- **Runs**: every state that the actions lead to
-/

namespace SuperTrading

open Logic
open Smc (Candle)

namespace ReplayEngine

/-! ## Section 1: The invariant -/

/-- The levels at which a candle closes the trade. -/
def Pending (trade : ReplayTrade) (level : ℚ) : Prop :=
  trade.stop = some level ∨ trade.target = some level

structure Sound (e : ReplayEngine) (start : ℚ) : Prop where
  started : e.startingBalance = start
  funded : |start| < maxJournalled
  closed : ∀ trade ∈ e.closedTrades, trade.pnl.isSome
  booked : e.balance = start + (e.closedTrades.filterMap ReplayTrade.pnl).sum
  within : |e.balance| < maxJournalled
  /-- A pending level was accepted against this balance: a close would change it, but also ends the
  trade. -/
  accepted : ∀ trade, e.openTrade = some trade → ∀ level, Pending trade level →
    Holds e.balance trade level

variable {e : ReplayEngine} {start : ℚ}

/-- Without trades, on a balance that the journal holds. -/
theorem Sound.of_fresh (hstart : e.startingBalance = start) (hfunded : |start| < maxJournalled)
    (hbalance : e.balance = start) (hopen : e.openTrade = none) (hclosed : e.closedTrades = []) :
    e.Sound start where
  started := hstart
  funded := hfunded
  closed := by simp [hclosed]
  booked := by simp [hclosed, hbalance]
  within := by rwa [hbalance]
  accepted := by simp [hopen]

/-- The clock is not part of it. -/
theorem Sound.withClock (h : e.Sound start) (clock : ReplayClock) :
    { e with clock := clock }.Sound start where
  started := h.started
  funded := h.funded
  closed := h.closed
  booked := h.booked
  within := h.within
  accepted := h.accepted

/-- A candle closes the trade at one of its levels. -/
theorem pending_of_hitBy {trade : ReplayTrade} {candle : Candle} {level : ℚ}
    (h : trade.hitBy candle = some level) : Pending trade level := by
  unfold ReplayTrade.hitBy at h
  split at h
  all_goals
    rcases Option.or_eq_some_iff.mp h with hstop | ⟨-, htarget⟩
    · exact .inl (Option.filter_eq_some_iff.mp hstop).1
    · exact .inr (Option.filter_eq_some_iff.mp htarget).1

/-! ## Section 2: Each action -/

/-- What `_open` does. -/
theorem open_cases (e : ReplayEngine) (direction : Direction) (quantity : ℚ) :
    (∃ message, e.open direction quantity = (.error message, e)) ∨
      ∃ trade, trade.stop = none ∧ trade.target = none ∧
        e.open direction quantity = (.ok trade, { e with openTrade := some trade }) := by
  unfold ReplayEngine.open
  split
  · exact .inl ⟨_, rfl⟩
  · exact .inr ⟨_, rfl, rfl, rfl⟩

theorem sound_open (h : e.Sound start) (direction : Direction) (quantity : ℚ) :
    (e.open direction quantity).2.Sound start := by
  rcases open_cases e direction quantity with ⟨message, hopen⟩ | ⟨trade, hstop, htarget, hopen⟩
  · rw [hopen]
    exact h
  · rw [hopen]
    refine ⟨h.started, h.funded, h.closed, h.booked, h.within, ?_⟩
    rintro _ ⟨⟩ level (hlevel | hlevel)
    · rw [hstop] at hlevel
      cases hlevel
    · rw [htarget] at hlevel
      cases hlevel

/-- What `set_stop` and `set_target` do. -/
theorem setLevel_cases (e : ReplayEngine) (price : ℚ) (change : ReplayTrade → ReplayTrade) :
    (∃ message, e.setLevel price change = (.error message, e)) ∨
      ∃ trade, e.openTrade = some trade ∧ Holds e.balance trade price ∧
        e.setLevel price change = (.ok (), { e with openTrade := some (change trade) }) := by
  unfold setLevel
  split
  · exact .inl ⟨_, rfl⟩
  · next trade hopen =>
    by_cases hholds : Holds e.balance trade price
    · exact .inr ⟨trade, hopen, hholds, if_pos hholds⟩
    · exact .inl ⟨_, if_neg hholds⟩

/-- A level that is set joins the accepted ones, if the trade keeps its terms and gets no other. -/
theorem sound_setLevel (h : e.Sound start) {price : ℚ} {change : ReplayTrade → ReplayTrade}
    (hpnl : ∀ trade, (change trade).pnlAt = trade.pnlAt)
    (hpending : ∀ trade level, Pending (change trade) level → level = price ∨ Pending trade level) :
    (e.setLevel price change).2.Sound start := by
  rcases setLevel_cases e price change with ⟨message, hset⟩ | ⟨trade, hopen, hholds, hset⟩
  · rw [hset]
    exact h
  · rw [hset]
    refine ⟨h.started, h.funded, h.closed, h.booked, h.within, ?_⟩
    -- The balance does not move while a trade is open: what was accepted stays acceptable.
    rintro _ ⟨⟩ level hlevel
    show |(change trade).pnlAt level| < _ ∧ |e.balance + (change trade).pnlAt level| < _
    rw [hpnl]
    rcases hpending trade level hlevel with rfl | hlevel
    · exact hholds
    · exact h.accepted trade hopen level hlevel

theorem setLevel_error {price : ℚ} {change : ReplayTrade → ReplayTrade} {message : String}
    (herror : (e.setLevel price change).1 = .error message) : (e.setLevel price change).2 = e := by
  rcases setLevel_cases e price change with ⟨_, hset⟩ | ⟨trade, -, -, hset⟩
  · rw [hset]
  · rw [hset] at herror
    cases herror

/-- What `close` does. -/
theorem close_cases (e : ReplayEngine) (price : Option ℚ) :
    (∃ message, e.close price = (.error message, e)) ∨
      ∃ trade closed exitPrice, e.openTrade = some trade ∧ Holds e.balance trade exitPrice ∧
        closed.pnl = some (trade.pnlAt exitPrice) ∧
        e.close price =
          (.ok closed,
            { e with
              balance := e.balance + trade.pnlAt exitPrice
              closedTrades := e.closedTrades ++ [closed]
              openTrade := none }) := by
  unfold close
  split
  · exact .inl ⟨_, rfl⟩
  · next trade hopen =>
    by_cases hholds : Holds e.balance trade (price.getD e.clock.currentCandle.close)
    · exact .inr ⟨trade, _, _, hopen, hholds, rfl, if_pos hholds⟩
    · exact .inl ⟨_, if_neg hholds⟩

/-- A price that the journal holds is not refused. -/
theorem close_of_holds {trade : ReplayTrade} {price : ℚ} (hopen : e.openTrade = some trade)
    (hholds : Holds e.balance trade price) : ∃ closed, (e.close (some price)).1 = .ok closed := by
  rw [close, hopen]
  simp only [Option.getD_some, if_pos hholds]
  exact ⟨_, rfl⟩

theorem sound_close (h : e.Sound start) (price : Option ℚ) : (e.close price).2.Sound start := by
  rcases close_cases e price with ⟨message, hclose⟩ |
    ⟨trade, closed, exitPrice, -, hholds, hpnl, hclose⟩
  · rw [hclose]
    exact h
  · rw [hclose]
    -- No trade is open behind a close, so no level is left to be hit at the new balance.
    refine ⟨h.started, h.funded, fun trade' htrade' => ?_, ?_, hholds.2, by simp⟩
    · rcases List.mem_append.mp htrade' with hold | hnew
      · exact h.closed trade' hold
      · rw [List.mem_singleton.mp hnew, hpnl]
        rfl
    · show e.balance + _ = start + _
      rw [List.filterMap_append, List.sum_append, h.booked]
      simp [hpnl, add_assoc]

/-- A candle that hits a level closes the trade there. -/
theorem checkStopTarget_sound (h : e.Sound start) (candle : Candle) :
    (e.checkStopTarget candle).1 = .ok () ∧ (e.checkStopTarget candle).2.Sound start := by
  unfold checkStopTarget
  split
  · exact ⟨rfl, h⟩
  · next level hhit =>
    obtain ⟨trade, hopen, hlevel⟩ := Option.bind_eq_some_iff.mp hhit
    obtain ⟨closed, hclosed⟩ :=
      close_of_holds hopen (h.accepted trade hopen level (pending_of_hitBy hlevel))
    refine ⟨?_, sound_close h (some level)⟩
    rw [hclosed]
    rfl

/-- However far the clock is moved, no close on the way is refused. -/
theorem advanceLoop_sound (h : e.Sound start) (candle : Candle) (steps : ℕ) :
    (∃ shown, (e.advanceLoop candle steps).1 = .ok shown) ∧
      (e.advanceLoop candle steps).2.Sound start := by
  induction steps generalizing e candle with
  | zero => exact ⟨⟨candle, rfl⟩, h⟩
  | succ steps ih =>
    rw [advanceLoop]
    split
    · exact ⟨⟨candle, rfl⟩, h⟩
    -- The clock moves first; the levels are checked on the candle that it moves to.
    · have hcheck := checkStopTarget_sound (h.withClock e.clock.nextCandle)
        e.clock.nextCandle.currentCandle
      dsimp only
      generalize checkStopTarget _ _ = checked at hcheck ⊢
      obtain ⟨result, e'⟩ := checked
      obtain ⟨hok, hsound⟩ := hcheck
      cases hok
      exact ih hsound _

/-- A level that is set is the stop or the target of the trade it was. -/
theorem sound_act (h : e.Sound start) (action : ReplayAction) : (e.step action).Sound start := by
  cases action with
  | buy quantity => exact sound_open h .long quantity
  | sell quantity => exact sound_open h .short quantity
  | setStop price =>
    refine sound_setLevel h (fun _ => rfl) fun trade level hlevel => ?_
    rcases hlevel with hstop | htarget
    · exact .inl (Option.some.inj hstop).symm
    · exact .inr (.inr htarget)
  | setTarget price =>
    refine sound_setLevel h (fun _ => rfl) fun trade level hlevel => ?_
    rcases hlevel with hstop | htarget
    · exact .inr (.inl hstop)
    · exact .inl (Option.some.inj htarget).symm
  | close price => exact sound_close h price
  | advance steps => exact (advanceLoop_sound h _ steps.toNat).2
  | reset => exact Sound.of_fresh h.started h.funded h.started rfl rfl

/-- An action that raises has changed nothing. -/
theorem act_error (h : e.Sound start) {action : ReplayAction} {message : String}
    (herror : (e.act action).1 = .error message) : (e.act action).2 = e := by
  cases action with
  | buy quantity =>
    rcases open_cases e .long quantity with ⟨_, hopen⟩ | ⟨trade, -, -, hopen⟩
    · exact congrArg Prod.snd hopen
    · simp [act, buy, hopen, Except.map] at herror
  | sell quantity =>
    rcases open_cases e .short quantity with ⟨_, hopen⟩ | ⟨trade, -, -, hopen⟩
    · exact congrArg Prod.snd hopen
    · simp [act, sell, hopen, Except.map] at herror
  | setStop price => exact setLevel_error herror
  | setTarget price => exact setLevel_error herror
  | close price =>
    rcases close_cases e price with ⟨_, hclose⟩ | ⟨_, _, _, -, -, -, hclose⟩
    · exact congrArg Prod.snd hclose
    · simp [act, hclose, Except.map] at herror
  | advance steps =>
    -- The loop never raises, or it would leave the clock where it got to.
    obtain ⟨⟨shown, hok⟩, -⟩ := advanceLoop_sound h e.clock.currentCandle steps.toNat
    simp [act, advance, hok, Except.map] at herror
  | reset => cases herror

/-! ## Section 3: Runs -/

/-- A replay, in every state that the actions on it lead to. The balance is the one it started
with and the P&L of its closed trades, and stays below what the journal holds. A stop or target
that is hit on the way never raises, and an action that does raise leaves the engine as it was. -/
theorem replay_sound (candles : List Candle) (h : 0 < candles.length) {startingBalance : ℚ}
    (hpos : 0 < startingBalance) (hlt : startingBalance < maxJournalled)
    (actions : List ReplayAction) :
    let e := run step (new candles startingBalance h) actions
    e.balance = startingBalance + (e.closedTrades.filterMap ReplayTrade.pnl).sum ∧
      (∀ trade ∈ e.closedTrades, trade.pnl.isSome) ∧
      |e.balance| < maxJournalled ∧
      (∀ steps, ∃ candle, (e.advance steps).1 = .ok candle) ∧
      ∀ action message, (e.act action).1 = .error message → (e.act action).2 = e := by
  intro e
  have hfunded : |startingBalance| < maxJournalled := by rwa [abs_of_pos hpos]
  have hnew : (new candles startingBalance h).Sound startingBalance :=
    Sound.of_fresh rfl hfunded rfl rfl rfl
  -- Every action keeps the invariant, also one that is refused.
  have hsound : e.Sound startingBalance :=
    invariant_run (I := fun e : ReplayEngine => e.Sound startingBalance)
      (fun _ action h => sound_act h action) actions hnew
  refine ⟨hsound.booked, hsound.closed, hsound.within, fun steps => ?_,
    fun action message herror => ?_⟩
  · exact (advanceLoop_sound hsound _ steps.toNat).1
  · exact act_error hsound herror

/-- A level that the journal could not hold is refused, the one that is hit later is booked. -/
theorem replay_sound_of_stop :
    let candles : List Candle :=
      [{ timestamp := 0, «open» := 100, high := 101, low := 99, close := 100 },
        { timestamp := 1, «open» := 99, high := 99, low := 94, close := 95 }]
    let actions := [.buy (10 ^ 10), .setStop 100000, .setStop 96, .advance 5, .close none]
    let e := run step (new candles 1000 (by decide)) actions
    e.closedTrades.map ReplayTrade.pnl = [some (-4 * 10 ^ 10)] ∧
      e.balance = 1000 + (e.closedTrades.filterMap ReplayTrade.pnl).sum := by
  intro candles actions e
  have h := replay_sound candles (by decide) (by decide : (0 : ℚ) < 1000)
    (by decide +kernel : (1000 : ℚ) < maxJournalled) actions
  exact ⟨by decide +kernel, h.1⟩

end ReplayEngine

end SuperTrading
