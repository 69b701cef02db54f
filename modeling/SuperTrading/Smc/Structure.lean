import SuperTrading.Smc.Swings
import Mathlib.Data.Finset.Insert

/-!
# Market Structure

`app/smc/structure.py`: BOS, CHoCH and MSS. A close beyond the most recent swing visible
at the candle breaks it, once; a break with the trend is a BOS, against it a CHoCH, and a
CHoCH that a BOS of its direction confirms is an MSS.
-/

namespace SuperTrading.Smc

open SuperTrading.Logic

/-! ## Section 1: The loop of `detect_structure_events` -/

/-- `pending` holds `swings_by_confirmation` from `swing_ptr` on. -/
structure StructureState where
  events : List StructureEvent := []
  trend : Option Direction := none
  brokenSwingIndices : Finset ℕ := ∅
  pending : List Swing
  visibleHighs : List Swing := []
  visibleLows : List Swing := []

/-- Is the close beyond the price in this direction? -/
def isBeyond (close price : ℚ) : Direction → Prop
  | .bullish => close > price
  | .bearish => close < price

instance (close price : ℚ) (direction : Direction) : Decidable (isBeyond close price direction) :=
  match direction with
  | .bullish => inferInstanceAs (Decidable (close > price))
  | .bearish => inferInstanceAs (Decidable (close < price))

namespace StructureState

/-- The inner `while`: the swings confirmed by now become visible. -/
def reveal (s : StructureState) (i : ℕ) : StructureState :=
  let confirmed := s.pending.takeWhile fun swing => swing.confirmedIndex ≤ i
  { s with
    pending := s.pending.dropWhile fun swing => swing.confirmedIndex ≤ i
    visibleHighs := s.visibleHighs ++ confirmed.filter fun swing => swing.swingType = .high
    visibleLows := s.visibleLows ++ confirmed.filter fun swing => swing.swingType ≠ .high }

/-- The swings that a break in this direction breaks. -/
def visible (s : StructureState) : Direction → List Swing
  | .bullish => s.visibleHighs
  | .bearish => s.visibleLows

/-- The two blocks of the loop's body, `if visible_highs` and `if visible_lows`. -/
def breakSwing (direction : Direction) (candle : Candle) (i : ℕ) (s : StructureState) :
    StructureState :=
  match (s.visible direction).getLast? with
  | none => s
  | some target =>
    if target.index ∉ s.brokenSwingIndices ∧ isBeyond candle.close target.price direction then
      { s with
        events := s.events ++
          [{ index := i
             timestamp := candle.timestamp
             eventType := if s.trend = some direction ∨ s.trend = none then .bos else .choch
             direction := direction
             brokenSwingIndex := target.index
             brokenPrice := target.price
             breakPrice := candle.close }]
        brokenSwingIndices := insert target.index s.brokenSwingIndices
        trend := some direction }
    else s

/-- One candle. -/
def step (s : StructureState) (entry : Candle × ℕ) : StructureState :=
  ((s.reveal entry.2).breakSwing .bullish entry.1 entry.2).breakSwing .bearish entry.1 entry.2

end StructureState

def detectStructureEvents (candles : List Candle) (swings : List Swing) : List StructureEvent :=
  (candles.zipIdx.foldl StructureState.step
    { pending := sortBy Swing.confirmedIndex swings }).events

/-! ## Section 2: `promote_confirmed_shifts` -/

structure ShiftState where
  mssEvents : List StructureEvent := []
  pending : Option StructureEvent := none

def ShiftState.step (s : ShiftState) (event : StructureEvent) : ShiftState :=
  match event.eventType, s.pending with
  | .choch, _ => { s with pending := some event }
  | .bos, some pending =>
    if event.direction = pending.direction then
      { mssEvents := s.mssEvents ++ [{ event with eventType := .mss }], pending := none }
    else { s with pending := none }
  | _, _ => s

def promoteConfirmedShifts (events : List StructureEvent) : List StructureEvent :=
  (events.foldl ShiftState.step {}).mssEvents

/-! ## Section 3: Structure is found online -/

namespace StructureState

variable {s : StructureState} {candle : Candle} {i : ℕ} {news : List Swing} {direction : Direction}

/-- The same state with more swings to come. -/
def awaiting (s : StructureState) (news : List Swing) : StructureState :=
  { s with pending := s.pending ++ news }

theorem takeWhile_append_of_not {p : Swing → Bool} {xs ys : List Swing}
    (h : ∀ y ∈ ys, p y = false) :
    (xs ++ ys).takeWhile p = xs.takeWhile p ∧ (xs ++ ys).dropWhile p = xs.dropWhile p ++ ys := by
  induction xs with
  | nil => cases ys <;> simp_all
  | cons x xs ih => cases hx : p x <;> simp [hx, ih]

/-- Swings that are not confirmed yet make no difference to the candle. -/
theorem reveal_awaiting (h : ∀ swing ∈ news, i < swing.confirmedIndex) :
    (s.awaiting news).reveal i = (s.reveal i).awaiting news := by
  have hlater : ∀ swing ∈ news, decide (swing.confirmedIndex ≤ i) = false := by simpa using h
  obtain ⟨htake, hdrop⟩ : _ ∧ (s.pending ++ news).dropWhile _ = _ := takeWhile_append_of_not hlater
  simp only [reveal, awaiting, htake, hdrop]

theorem breakSwing_awaiting :
    (s.awaiting news).breakSwing direction candle i =
      (s.breakSwing direction candle i).awaiting news := by
  have hvisible : (s.awaiting news).visible direction = s.visible direction := by
    cases direction <;> rfl
  have hbroken : (s.awaiting news).brokenSwingIndices = s.brokenSwingIndices := rfl
  cases hlast : (s.visible direction).getLast? with
  | none => simp [breakSwing, hvisible, hlast]
  | some target =>
    simp only [breakSwing, hvisible, hlast, hbroken]
    by_cases hbreak : target.index ∉ s.brokenSwingIndices ∧
        isBeyond candle.close target.price direction
    · rw [if_pos hbreak, if_pos hbreak]
      rfl
    · rw [if_neg hbreak, if_neg hbreak]

theorem step_awaiting (h : ∀ swing ∈ news, i < swing.confirmedIndex) :
    (s.awaiting news).step (candle, i) = (s.step (candle, i)).awaiting news := by
  simp only [step, reveal_awaiting h, breakSwing_awaiting]

theorem foldl_awaiting {entries : List (Candle × ℕ)}
    (h : ∀ swing ∈ news, ∀ entry ∈ entries, entry.2 < swing.confirmedIndex) :
    entries.foldl step (s.awaiting news) = (entries.foldl step s).awaiting news := by
  induction entries generalizing s with
  | nil => rfl
  | cons entry entries ih =>
    rw [List.foldl_cons, List.foldl_cons,
      step_awaiting fun swing hswing => h swing hswing entry List.mem_cons_self]
    exact ih fun swing hswing later hlater =>
      h swing hswing later (List.mem_cons_of_mem _ hlater)

/-- What a block writes is stamped with the candle. -/
theorem events_breakSwing (direction : Direction) (candle : Candle) (i : ℕ) (s : StructureState) :
    ∃ news, (s.breakSwing direction candle i).events = s.events ++ news ∧
      ∀ event ∈ news, event.index = i := by
  simp only [breakSwing]
  split
  · exact ⟨[], by simp⟩
  · split
    · exact ⟨_, rfl, by simp⟩
    · exact ⟨[], by simp⟩

theorem events_step (s : StructureState) (candle : Candle) (i : ℕ) :
    ∃ news, (s.step (candle, i)).events = s.events ++ news ∧ ∀ event ∈ news, event.index = i := by
  obtain ⟨ups, hups, hup⟩ := events_breakSwing .bullish candle i (s.reveal i)
  obtain ⟨downs, hdowns, hdown⟩ :=
    events_breakSwing .bearish candle i ((s.reveal i).breakSwing .bullish candle i)
  refine ⟨ups ++ downs, ?_, fun event hevent => ?_⟩
  · rw [step, hdowns, hups, List.append_assoc]
    rfl
  · rcases List.mem_append.mp hevent with hevent | hevent
    · exact hup event hevent
    · exact hdown event hevent

end StructureState

/-- Swings found online give structure found online. -/
theorem detectStructureEvents_online {detect : List Candle → List Swing}
    (h : Online Swing.confirmedIndex detect) :
    Online StructureEvent.index fun candles => detectStructureEvents candles (detect candles) where
  nil := by simp [detectStructureEvents]
  step candles candle := by
    obtain ⟨news, heq, hnews⟩ := h.step candles candle
    have hsorted : ∀ cs, sortBy Swing.confirmedIndex (detect cs) = detect cs := fun cs =>
      sortBy_of_pairwise _ (h.pairwise cs)
    -- Up to the new candle the new swings only wait.
    have hwait :
        candles.zipIdx.foldl StructureState.step { pending := detect (candles ++ [candle]) } =
        (candles.zipIdx.foldl StructureState.step { pending := detect candles }).awaiting news := by
      rw [heq]
      refine StructureState.foldl_awaiting (s := { pending := detect candles }) ?_
      intro swing hswing entry hentry
      rw [hnews swing hswing]
      have hlt := (List.mem_zipIdx hentry).2.1
      omega
    obtain ⟨events, hevents, hindex⟩ := StructureState.events_step
      ((candles.zipIdx.foldl StructureState.step { pending := detect candles }).awaiting news)
      candle candles.length
    refine ⟨events, ?_, hindex⟩
    simp only [detectStructureEvents, hsorted]
    rw [List.zipIdx_append, List.foldl_append, hwait, Nat.zero_add]
    exact hevents

theorem promoteConfirmedShifts_progressive :
    Progressive StructureEvent.index StructureEvent.index promoteConfirmedShifts := by
  apply progressive_foldl
  · rfl
  · intro s event
    simp only [ShiftState.step]
    split
    · exact ⟨[], by simp⟩
    · split
      · exact ⟨_, rfl, by simp⟩
      · exact ⟨[], by simp⟩
    · exact ⟨[], by simp⟩

end SuperTrading.Smc
