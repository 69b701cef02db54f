import SuperTrading.Smc.Structure
import Mathlib.Data.List.Chain

/-!
# The Grammar of Structure Events

What the loop of `detect_structure_events` writes, for any candles and any swings: one
invariant of its state, kept by each of the two blocks of its body. `promote_confirmed_shifts`
then reads the grammar off neighbouring events.

- **Layer A**: the swings a candle can break
- **Layer B**: one block of the loop's body
- **Layer C**: the invariant of the whole scan
- **Layer D**: shifts
-/

namespace SuperTrading.Smc

open SuperTrading.Logic

/-! ## Layer A: The swings a candle can break -/

/-- The type of swing that a break in this direction breaks. -/
def Direction.brokenType : Direction → SwingType
  | .bullish => .high
  | .bearish => .low

/-- The swings that are confirmed before candle `n` and are broken in this direction. -/
def breakable (swings : List Swing) (direction : Direction) (n : ℕ) : List Swing :=
  ((sortBy Swing.confirmedIndex swings).filter fun swing =>
    swing.swingType = direction.brokenType).filter fun swing => swing.confirmedIndex < n

/-- The swing that a break at candle `i` would break: the last one visible. -/
def breakTarget (swings : List Swing) (direction : Direction) (i : ℕ) : Option Swing :=
  (breakable swings direction (i + 1)).getLast?

section Breakable

variable {swings : List Swing} {direction : Direction} {i n : ℕ} {swing : Swing}

theorem of_breakTarget (h : breakTarget swings direction i = some swing) :
    swing ∈ swings ∧ swing.confirmedIndex ≤ i ∧ swing.swingType = direction.brokenType := by
  have hmem := List.mem_of_getLast? h
  simpa [breakable, Nat.lt_succ_iff] using hmem

/-- In a sorted list, the swings confirmed by now stand in front. -/
theorem takeWhile_confirmed (n : ℕ)
    (hsorted : swings.Pairwise fun a b => a.confirmedIndex ≤ b.confirmedIndex) :
    (swings.takeWhile fun swing => swing.confirmedIndex ≤ n) =
        swings.filter (fun swing => swing.confirmedIndex ≤ n) ∧
      (swings.dropWhile fun swing => swing.confirmedIndex ≤ n) =
        swings.filter fun swing => n < swing.confirmedIndex := by
  induction swings with
  | nil => simp
  | cons swing swings ih =>
    obtain ⟨hle, htail⟩ := List.pairwise_cons.mp hsorted
    by_cases hnow : swing.confirmedIndex ≤ n
    · simp [hnow, ih htail]
    · -- Whatever comes behind a swing that is not confirmed is not confirmed either.
      have hlater : ∀ later ∈ swings, n < later.confirmedIndex := fun later hlater =>
        (not_le.mp hnow).trans_le (hle later hlater)
      have hnone : swings.filter (fun swing => decide (swing.confirmedIndex ≤ n)) = [] := by
        simpa using hlater
      have hall : swings.filter (fun swing => decide (n < swing.confirmedIndex)) = swings := by
        simpa using hlater
      simp [hnow, hnone, hall, not_le.mp hnow]

/-- In a sorted list, what is confirmed at `n` stands right behind what is confirmed before. -/
theorem filter_confirmed_succ (n : ℕ)
    (hsorted : swings.Pairwise fun a b => a.confirmedIndex ≤ b.confirmedIndex) :
    swings.filter (fun swing => swing.confirmedIndex < n + 1) =
      swings.filter (fun swing => swing.confirmedIndex < n) ++
        swings.filter fun swing => swing.confirmedIndex = n := by
  induction swings with
  | nil => rfl
  | cons swing swings ih =>
    obtain ⟨hle, htail⟩ := List.pairwise_cons.mp hsorted
    specialize ih htail
    by_cases hlt : swing.confirmedIndex < n
    · have hnext : swing.confirmedIndex < n + 1 := Nat.lt_succ_of_lt hlt
      simp only [List.filter_cons, hnext, hlt, hlt.ne, decide_true, decide_false, if_true,
        Bool.false_eq_true, if_false, ih, List.cons_append]
    · -- From here on, none was confirmed before `n`.
      have hnone : ∀ s ∈ swing :: swings, ¬ s.confirmedIndex < n := by
        simpa using ⟨not_lt.mp hlt, fun later hlater => (not_lt.mp hlt).trans (hle later hlater)⟩
      have hbefore : (swing :: swings).filter (fun s => decide (s.confirmedIndex < n)) = [] := by
        simpa using hnone
      rw [hbefore, List.nil_append]
      apply List.filter_congr
      intro s hs
      rw [decide_eq_decide]
      have hge := hnone s hs
      omega

end Breakable

namespace StructureState

/-- The swings still to come, and those visible, when `n` candles are seen. -/
structure Revealed (swings : List Swing) (n : ℕ) (s : StructureState) : Prop where
  pending : s.pending = (sortBy Swing.confirmedIndex swings).filter fun swing =>
    n ≤ swing.confirmedIndex
  visible : ∀ direction, s.visible direction = breakable swings direction n

/-- `reveal` at the next candle. -/
theorem Revealed.reveal {swings : List Swing} {n : ℕ} {s : StructureState}
    (h : s.Revealed swings n) : (s.reveal n).Revealed swings (n + 1) := by
  have hsorted : s.pending.Pairwise fun a b => a.confirmedIndex ≤ b.confirmedIndex := by
    rw [h.pending]
    exact (pairwise_sortBy Swing.confirmedIndex swings).filter _
  obtain ⟨htake, hdrop⟩ := takeWhile_confirmed n hsorted
  constructor
  · show s.pending.dropWhile _ = _
    rw [hdrop, h.pending, List.filter_filter]
    apply List.filter_congr
    intro swing _
    simp only [← Bool.decide_and, decide_eq_decide]
    omega
  · intro direction
    have hrevealed : ((s.reveal n).visible direction) = s.visible direction ++
        (s.pending.takeWhile fun swing => swing.confirmedIndex ≤ n).filter
          fun swing => swing.swingType = direction.brokenType := by
      cases direction with
      | bullish => rfl
      | bearish =>
        show s.visibleLows ++ _ = s.visibleLows ++ _
        congr 1
        apply List.filter_congr
        intro swing _
        cases swing.swingType <;> rfl
    rw [hrevealed, h.visible direction, htake, h.pending, breakable, breakable,
      filter_confirmed_succ n ((pairwise_sortBy Swing.confirmedIndex swings).filter _)]
    -- Those revealed now are those confirmed at this very candle.
    congr 1
    rw [List.filter_filter, List.filter_filter, List.filter_filter]
    apply List.filter_congr
    intro swing _
    have hindex : swing.confirmedIndex = n ↔
        swing.confirmedIndex ≤ n ∧ n ≤ swing.confirmedIndex := by
      omega
    simp only [← Bool.decide_and, decide_eq_decide, hindex]
    tauto

/-! ## Layer B: One block of the loop's body -/

/-- The event a break writes. -/
def breakEvent (direction : Direction) (candle : Candle) (i : ℕ) (trend : Option Direction)
    (target : Swing) : StructureEvent :=
  { index := i
    timestamp := candle.timestamp
    eventType := if trend = some direction ∨ trend = none then .bos else .choch
    direction := direction
    brokenSwingIndex := target.index
    brokenPrice := target.price
    breakPrice := candle.close }

/-- A block leaves the state as it is, or breaks the last visible swing. -/
theorem breakSwing_cases (direction : Direction) (candle : Candle) (i : ℕ) (s : StructureState) :
    (s.breakSwing direction candle i = s ∧ ∀ target, (s.visible direction).getLast? = some target →
      isBeyond candle.close target.price direction → target.index ∈ s.brokenSwingIndices) ∨
    ∃ target, (s.visible direction).getLast? = some target ∧
      target.index ∉ s.brokenSwingIndices ∧ isBeyond candle.close target.price direction ∧
      s.breakSwing direction candle i =
        { s with
          events := s.events ++ [breakEvent direction candle i s.trend target]
          brokenSwingIndices := insert target.index s.brokenSwingIndices
          trend := some direction } := by
  unfold breakSwing
  cases hlast : (s.visible direction).getLast? with
  | none => simp
  | some target =>
    -- Only the most recent visible swing can be broken.
    by_cases hbreak : target.index ∉ s.brokenSwingIndices ∧
        isBeyond candle.close target.price direction
    · refine Or.inr ⟨target, rfl, hbreak.1, hbreak.2, ?_⟩
      simp only [if_pos hbreak]
      rfl
    · refine Or.inl ⟨by simp only [if_neg hbreak], ?_⟩
      rintro _ ⟨⟩ hbeyond
      by_contra hunbroken
      exact hbreak ⟨hunbroken, hbeyond⟩

/-- A block leaves the lists of swings alone. -/
theorem visible_breakSwing (direction direction' : Direction) (candle : Candle) (i : ℕ)
    (s : StructureState) :
    (s.breakSwing direction candle i).visible direction' = s.visible direction' ∧
      (s.breakSwing direction candle i).pending = s.pending := by
  rcases breakSwing_cases direction candle i s with ⟨hsame, -⟩ | ⟨target, -, -, -, heq⟩
  · rw [hsame]
    exact ⟨rfl, rfl⟩
  · rw [heq]
    cases direction' <;> exact ⟨rfl, rfl⟩

/-- What an event says of the swing it breaks: the last one visible, and the candle closed
beyond it. -/
def Breaks (swings : List Swing) (candles : List Candle) (event : StructureEvent) : Prop :=
  ∃ candle target, candles[event.index]? = some candle ∧
    breakTarget swings event.direction event.index = some target ∧
    isBeyond candle.close target.price event.direction ∧
    event.timestamp = candle.timestamp ∧ event.brokenSwingIndex = target.index ∧
    event.brokenPrice = target.price ∧ event.breakPrice = candle.close

/-- An event is of the kind that its direction and that of the event before it make it. -/
def Follows (before event : StructureEvent) : Prop :=
  event.eventType = if event.direction = before.direction then .bos else .choch

/-- What holds of the events wherever the loop stands. -/
structure Scanned (swings : List Swing) (candles : List Candle) (s : StructureState) : Prop where
  trend : s.trend = s.events.getLast?.map StructureEvent.direction
  broken : ∀ k, k ∈ s.brokenSwingIndices ↔ k ∈ s.events.map StructureEvent.brokenSwingIndex
  once : (s.events.map StructureEvent.brokenSwingIndex).Nodup
  ordered : s.events.Pairwise fun a b => a.index ≤ b.index
  first : ∀ event ∈ s.events.head?, event.eventType = .bos
  chain : s.events.IsChain Follows
  breaks : ∀ event ∈ s.events, Breaks swings candles event

section Block

variable {swings : List Swing} {candles : List Candle} {s : StructureState} {direction : Direction}
  {candle : Candle} {i : ℕ}

/-- A block keeps it. -/
theorem Scanned.breakSwing (h : s.Scanned swings candles) (hcandle : candles[i]? = some candle)
    (hvisible : s.visible direction = breakable swings direction (i + 1))
    (hle : ∀ event ∈ s.events, event.index ≤ i) :
    (s.breakSwing direction candle i).Scanned swings candles ∧
      ∀ event ∈ (s.breakSwing direction candle i).events, event.index ≤ i := by
  rcases breakSwing_cases direction candle i s with
    ⟨hsame, -⟩ | ⟨target, hlast, hunbroken, hbeyond, heq⟩
  · rw [hsame]
    exact ⟨h, hle⟩
  · rw [heq]
    have htarget : breakTarget swings direction i = some target := by
      rw [breakTarget, ← hvisible]
      exact hlast
    refine ⟨?_, ?_⟩
    · constructor
      · simp [breakEvent]
      · intro k
        simp [h.broken, breakEvent, or_comm, eq_comm]
      · -- The swing was unbroken, so its index is new.
        rw [List.map_append, List.nodup_append']
        refine ⟨h.once, List.nodup_singleton _, ?_⟩
        have hnew := mt (h.broken target.index).mpr hunbroken
        simpa [breakEvent] using hnew
      · rw [List.pairwise_append]
        refine ⟨h.ordered, List.pairwise_singleton _ _, ?_⟩
        intro event hevent news hnews
        rw [List.mem_singleton.mp hnews]
        exact hle event hevent
      · intro event hevent
        cases hevents : s.events with
        | nil =>
          -- The first event: there is no trend yet.
          have htrend : s.trend = none := by simp [h.trend, hevents]
          obtain rfl : breakEvent direction candle i s.trend target = event := by
            simpa [hevents] using hevent
          simp [breakEvent, htrend]
        | cons head events =>
          apply h.first
          simpa [hevents] using hevent
      · rw [List.isChain_append]
        refine ⟨h.chain, List.isChain_singleton _, ?_⟩
        intro before hbefore event hevent
        obtain rfl : breakEvent direction candle i s.trend target = event := by simpa using hevent
        have htrend : s.trend = some before.direction := by
          rw [h.trend, Option.mem_def.mp hbefore]
          rfl
        simp [Follows, breakEvent, htrend, eq_comm]
      · intro event hevent
        rcases List.mem_append.mp hevent with hevent | hevent
        · exact h.breaks event hevent
        · rw [List.mem_singleton.mp hevent]
          exact ⟨candle, target, hcandle, htarget, hbeyond, rfl, rfl, rfl, rfl⟩
    · intro event hevent
      rcases List.mem_append.mp hevent with hevent | hevent
      · exact hle event hevent
      · rw [List.mem_singleton.mp hevent]
        exact le_refl i

/-- Behind its block, a swing the candle closed beyond is broken. -/
theorem mem_broken_breakSwing {target : Swing}
    (hlast : (s.visible direction).getLast? = some target)
    (hbeyond : isBeyond candle.close target.price direction) :
    target.index ∈ (s.breakSwing direction candle i).brokenSwingIndices := by
  rcases breakSwing_cases direction candle i s with ⟨hsame, hbroken⟩ | ⟨target', hlast', -, -, heq⟩
  · rw [hsame]
    exact hbroken target hlast hbeyond
  · obtain rfl : target' = target := Option.some.inj (hlast'.symm.trans hlast)
    rw [heq]
    exact Finset.mem_insert_self _ _

theorem broken_subset_breakSwing (direction : Direction) (candle : Candle) (i : ℕ)
    (s : StructureState) :
    s.brokenSwingIndices ⊆ (s.breakSwing direction candle i).brokenSwingIndices := by
  rcases breakSwing_cases direction candle i s with ⟨hsame, -⟩ | ⟨target, -, -, -, heq⟩
  · rw [hsame]
  · rw [heq]
    exact Finset.subset_insert _ _

end Block

/-! ## Layer C: The invariant of the whole scan -/

/-- Every swing that a candle closed beyond while it was the last one visible is broken by then. -/
def Found (swings : List Swing) (candles : List Candle) (events : List StructureEvent) : Prop :=
  ∀ i candle direction target, candles[i]? = some candle →
    breakTarget swings direction i = some target → isBeyond candle.close target.price direction →
      ∃ event ∈ events, event.brokenSwingIndex = target.index ∧ event.index ≤ i

/-- The state of the loop behind the candles. -/
def scan (swings : List Swing) (candles : List Candle) : StructureState :=
  candles.zipIdx.foldl step { pending := sortBy Swing.confirmedIndex swings }

theorem scan_append (swings : List Swing) (candles : List Candle) (candle : Candle) :
    scan swings (candles ++ [candle]) = (scan swings candles).step (candle, candles.length) := by
  simp [scan, List.zipIdx_append]

structure ScanInv (swings : List Swing) (candles : List Candle) (s : StructureState) : Prop where
  revealed : s.Revealed swings candles.length
  scanned : s.Scanned swings candles
  past : ∀ event ∈ s.events, event.index < candles.length
  found : Found swings candles s.events

theorem scanInv_nil (swings : List Swing) : ScanInv swings [] (scan swings []) where
  revealed := by
    refine ⟨by simp [scan], fun direction => ?_⟩
    cases direction <;> simp [scan, visible, breakable]
  scanned :=
    { trend := rfl
      broken := by simp [scan]
      once := by simp [scan]
      ordered := by simp [scan]
      first := by simp [scan]
      chain := by simp [scan]
      breaks := by simp [scan] }
  past := by simp [scan]
  found := by simp [Found]

/-- An event speaks of the same candle in a longer series. -/
theorem Breaks.append {swings : List Swing} {candles : List Candle} {event : StructureEvent}
    (h : Breaks swings candles event) (candle : Candle) :
    Breaks swings (candles ++ [candle]) event := by
  obtain ⟨c, target, hc, hrest⟩ := h
  refine ⟨c, target, ?_, hrest⟩
  rw [List.getElem?_append_left (List.getElem?_eq_some_iff.mp hc).1]
  exact hc

/-- One candle keeps it. -/
theorem ScanInv.step {swings : List Swing} {candles : List Candle} {s : StructureState}
    (h : ScanInv swings candles s) (candle : Candle) :
    ScanInv swings (candles ++ [candle]) (s.step (candle, candles.length)) := by
  have hcandle : (candles ++ [candle])[candles.length]? = some candle := by simp
  have hrevealed := h.revealed.reveal
  -- Nothing is written while swings are revealed.
  have hscanned : (s.reveal candles.length).Scanned swings (candles ++ [candle]) :=
    { h.scanned with breaks := fun event hevent => (h.scanned.breaks event hevent).append candle }
  have hpast : ∀ event ∈ (s.reveal candles.length).events, event.index ≤ candles.length :=
    fun event hevent => (h.past event hevent).le
  -- The two blocks.
  set revealed := s.reveal candles.length with hrev
  set up := revealed.breakSwing .bullish candle candles.length with hup
  set down := up.breakSwing .bearish candle candles.length with hdown
  have hsee : ∀ direction, up.visible direction = breakable swings direction (candles.length + 1) :=
    fun direction => (visible_breakSwing ..).1.trans (hrevealed.visible direction)
  have hsee' : ∀ direction,
      down.visible direction = breakable swings direction (candles.length + 1) :=
    fun direction => (visible_breakSwing ..).1.trans (hsee direction)
  obtain ⟨hscannedUp, hpastUp⟩ := hscanned.breakSwing hcandle (hrevealed.visible .bullish) hpast
  obtain ⟨hscannedDown, hpastDown⟩ := hscannedUp.breakSwing hcandle (hsee .bearish) hpastUp
  have hstep : s.step (candle, candles.length) = down := rfl
  rw [hstep]
  constructor
  · rw [List.length_append, List.length_singleton]
    refine ⟨?_, hsee'⟩
    rw [hdown, (visible_breakSwing .bearish .bearish ..).2, hup,
      (visible_breakSwing .bullish .bullish ..).2]
    exact hrevealed.pending
  · exact hscannedDown
  · intro event hevent
    rw [List.length_append, List.length_singleton]
    exact Nat.lt_succ_of_le (hpastDown event hevent)
  · intro i c direction target hc htarget hbeyond
    by_cases hi : i < candles.length
    · -- An earlier candle: its event is still there.
      rw [List.getElem?_append_left hi] at hc
      obtain ⟨event, hevent, hindex, hle⟩ := h.found i c direction target hc htarget hbeyond
      obtain ⟨news, hnews, -⟩ := events_step s candle candles.length
      refine ⟨event, ?_, hindex, hle⟩
      rw [← hstep, hnews]
      exact List.mem_append_left _ hevent
    · -- The candle itself: behind the block of the direction the swing is broken.
      obtain ⟨hlt, -⟩ := List.getElem?_eq_some_iff.mp hc
      rw [List.length_append, List.length_singleton] at hlt
      obtain rfl : i = candles.length := by omega
      obtain rfl : candle = c := Option.some.inj (hcandle.symm.trans hc)
      have hbroken : target.index ∈ down.brokenSwingIndices := by
        cases direction with
        | bullish =>
          apply broken_subset_breakSwing
          apply mem_broken_breakSwing _ hbeyond
          rw [hrevealed.visible]
          exact htarget
        | bearish =>
          apply mem_broken_breakSwing _ hbeyond
          rw [hsee]
          exact htarget
      obtain ⟨event, hevent, hindex⟩ := List.mem_map.mp ((hscannedDown.broken _).mp hbroken)
      exact ⟨event, hevent, hindex, hpastDown event hevent⟩

theorem scanInv (swings : List Swing) (candles : List Candle) :
    ScanInv swings candles (scan swings candles) := by
  induction candles using List.reverseRecOn with
  | nil => exact scanInv_nil swings
  | append_singleton candles candle ih =>
    rw [scan_append]
    exact ih.step candle

end StructureState

/-! ## Layer D: Shifts -/

/-- For each BOS right behind a CHoCH, an MSS with the data of that BOS. -/
def confirmedShifts : List StructureEvent → List StructureEvent
  | before :: event :: events =>
    if before.eventType = .choch ∧ event.eventType = .bos then
      { event with eventType := .mss } :: confirmedShifts (event :: events)
    else confirmedShifts (event :: events)
  | _ => []

/-- What the scan holds behind an event: a CHoCH, until the next one. -/
def heldShift (event : StructureEvent) : Option StructureEvent :=
  if event.eventType = .choch then some event else none

theorem foldl_shiftState (before : StructureEvent) (events mss : List StructureEvent)
    (hchain : (before :: events).IsChain StructureState.Follows) :
    (events.foldl ShiftState.step { mssEvents := mss, pending := heldShift before }).mssEvents =
      mss ++ confirmedShifts (before :: events) := by
  induction events generalizing before mss with
  | nil => simp [confirmedShifts]
  | cons event events ih =>
    obtain ⟨hfollows, hrest⟩ := List.isChain_cons_cons.mp hchain
    rw [List.foldl_cons, confirmedShifts]
    by_cases hsame : event.direction = before.direction
    · have hbos : event.eventType = .bos := by simpa [StructureState.Follows, hsame] using hfollows
      have hheld : heldShift event = none := by simp [heldShift, hbos]
      by_cases hbefore : before.eventType = .choch
      · -- A BOS of the direction of the CHoCH that is held.
        have hstep : ShiftState.step { mssEvents := mss, pending := heldShift before } event =
            { mssEvents := mss ++ [{ event with eventType := .mss }],
              pending := heldShift event } := by
          simp [ShiftState.step, heldShift, hbefore, hbos, hsame]
        rw [hstep, ih event _ hrest, if_pos ⟨hbefore, hbos⟩, List.append_assoc]
        rfl
      · have hstep : ShiftState.step { mssEvents := mss, pending := heldShift before } event =
            { mssEvents := mss, pending := heldShift event } := by
          simp [ShiftState.step, heldShift, hbefore, hbos]
        rw [hstep, ih event _ hrest, if_neg fun h => hbefore h.1]
    · -- Another CHoCH takes the place of the one that is held.
      have hchoch : event.eventType = .choch := by
        simpa [StructureState.Follows, hsame] using hfollows
      have hstep : ShiftState.step { mssEvents := mss, pending := heldShift before } event =
          { mssEvents := mss, pending := heldShift event } := by
        simp [ShiftState.step, heldShift, hchoch]
      rw [hstep, ih event _ hrest, if_neg (by simp [hchoch])]

/-- What `detect_structure_events` may write. -/
structure EventGrammar (candles : List Candle) (swings : List Swing)
    (events : List StructureEvent) : Prop where
  ordered : events.Pairwise fun a b => a.index ≤ b.index
  first : ∀ event ∈ events.head?, event.eventType = .bos
  next : events.IsChain fun before event =>
    event.eventType = if event.direction = before.direction then .bos else .choch
  breaks : ∀ event ∈ events, ∃ candle swing, candles[event.index]? = some candle ∧
    swing ∈ swings ∧ swing.swingType = event.direction.brokenType ∧
    swing.confirmedIndex ≤ event.index ∧ isBeyond candle.close swing.price event.direction ∧
    event.timestamp = candle.timestamp ∧ event.brokenSwingIndex = swing.index ∧
    event.brokenPrice = swing.price ∧ event.breakPrice = candle.close
  once : (events.map StructureEvent.brokenSwingIndex).Nodup

/-- **Structure events have a grammar**, whatever the candles and the swings are, and the shifts
are read off it. -/
theorem detectStructureEvents_grammar (candles : List Candle) (swings : List Swing) :
    EventGrammar candles swings (detectStructureEvents candles swings) ∧
      promoteConfirmedShifts (detectStructureEvents candles swings) =
        confirmedShifts (detectStructureEvents candles swings) := by
  have hscanned := (StructureState.scanInv swings candles).scanned
  have hevents : detectStructureEvents candles swings =
      (StructureState.scan swings candles).events :=
    rfl
  rw [hevents]
  refine ⟨⟨hscanned.ordered, hscanned.first, hscanned.chain, ?_, hscanned.once⟩, ?_⟩
  · intro event hevent
    obtain ⟨candle, swing, hcandle, htarget, hrest⟩ := hscanned.breaks event hevent
    obtain ⟨hmem, hconfirmed, htype⟩ := of_breakTarget htarget
    exact ⟨candle, swing, hcandle, hmem, htype, hconfirmed, hrest⟩
  · have hfirst := hscanned.first
    have hchain := hscanned.chain
    cases hlist : (StructureState.scan swings candles).events with
    | nil => rfl
    | cons first events =>
      rw [hlist] at hfirst hchain
      have hbos : first.eventType = .bos := hfirst first rfl
      have hfold := foldl_shiftState first events [] hchain
      -- The first event is a BOS that nothing is held for.
      have hstart : ShiftState.step {} first = { mssEvents := [], pending := heldShift first } := by
        simp [ShiftState.step, heldShift, hbos]
      rw [promoteConfirmedShifts, List.foldl_cons, hstart]
      exact hfold

end SuperTrading.Smc
