import SuperTrading.Smc.EventGrammar
import SuperTrading.Smc.NoLookAhead

/-!
# Which Breaks Are Found

`detect_structure_events` keeps one set of broken candle indices for highs and lows. A candle
can be both, and then the first break of the one hides every break of the other: this, and
nothing else, makes the scan miss a break.
-/

namespace SuperTrading.Smc

open SuperTrading.Logic

/-! ## Section 1: The swing most recently confirmed -/

/-- The swing of this type most recently confirmed at or before candle `i`. -/
def MostRecent (swings : List Swing) (swingType : SwingType) (i : ℕ) (swing : Swing) : Prop :=
  swing ∈ swings ∧ swing.swingType = swingType ∧ swing.confirmedIndex ≤ i ∧
    ∀ other ∈ swings, other.swingType = swingType → other.confirmedIndex ≤ i →
      other.confirmedIndex ≤ swing.confirmedIndex

/-- In an ascending list the last element is the greatest. -/
theorem getLast?_eq_some_iff_greatest {α : Type*} {key : α → ℕ} {xs : List α} {x : α}
    (h : xs.Pairwise fun a b => key a < key b) :
    xs.getLast? = some x ↔ x ∈ xs ∧ ∀ y ∈ xs, key y ≤ key x := by
  induction xs using List.reverseRecOn with
  | nil => simp
  | append_singleton xs last _ =>
    obtain ⟨-, -, hlt⟩ := List.pairwise_append.mp h
    have hbelow : ∀ y ∈ xs, key y < key last := fun y hy => hlt y hy last (by simp)
    rw [List.getLast?_concat, Option.some.injEq]
    constructor
    · rintro rfl
      refine ⟨by simp, fun y hy => ?_⟩
      rcases List.mem_append.mp hy with hy | hy
      · exact (hbelow y hy).le
      · simp_all
    · rintro ⟨hx, hgreatest⟩
      -- An element in front of the last one is below it.
      rcases List.mem_append.mp hx with hx | hx
      · exact absurd (hgreatest last (by simp)) (not_le.mpr (hbelow x hx))
      · simp_all

section Detected

variable {candles : List Candle} {swingLength : ℕ}

theorem confirmedIndex_swingsOf {swing : Swing} (h : swing ∈ swingsOf candles swingLength) :
    swing.confirmedIndex = swing.index + swingLength := by
  have hmap := map_labelSwings (fun s => (s.index, s.confirmedIndex)) (fun _ _ => rfl)
    (sortBy Swing.index (foundSwings candles swingLength))
  have hmem : (swing.index, swing.confirmedIndex) ∈
      (sortBy Swing.index (foundSwings candles swingLength)).map
        fun s => (s.index, s.confirmedIndex) := by
    rw [← hmap]
    exact List.mem_map_of_mem h
  obtain ⟨found, hfound, heq⟩ := List.mem_map.mp hmem
  have hlag := confirmedIndex_foundSwings ((mem_sortBy _).mp hfound)
  simp only [Prod.mk.injEq] at heq
  omega

/-- Swings of one type are confirmed one after the other. -/
theorem ascending_swingsOf (candles : List Candle) (swingLength : ℕ) (swingType : SwingType) :
    ((swingsOf candles swingLength).filter fun swing => swing.swingType = swingType).Pairwise
      fun a b => a.confirmedIndex < b.confirmedIndex := by
  have hkeys := List.pairwise_map.mp (nodup_key_swingsOf candles swingLength)
  have hboth := ((swingsOf_online swingLength).pairwise candles).and hkeys
  apply (hboth.filter _).imp_of_mem
  rintro a b ha hb ⟨hle, hne⟩
  obtain ⟨ha, htype⟩ := List.mem_filter.mp ha
  obtain ⟨hb, htype'⟩ := List.mem_filter.mp hb
  have hlag := confirmedIndex_swingsOf ha
  have hlag' := confirmedIndex_swingsOf hb
  -- Confirmed together, they would be at one candle, and of one type.
  apply lt_of_le_of_ne hle
  intro heq
  apply hne
  simp only [decide_eq_true_eq] at htype htype'
  simp only [Swing.key, Prod.mk.injEq, htype, htype', and_true]
  omega

/-- The scan breaks the swing that was confirmed last. -/
theorem breakTarget_eq_some_iff {direction : Direction} {i : ℕ} {swing : Swing} :
    breakTarget (swingsOf candles swingLength) direction i = some swing ↔
      MostRecent (swingsOf candles swingLength) direction.brokenType i swing := by
  have hsorted : sortBy Swing.confirmedIndex (swingsOf candles swingLength) =
      swingsOf candles swingLength :=
    sortBy_of_pairwise _ ((swingsOf_online swingLength).pairwise candles)
  have hascending := (ascending_swingsOf candles swingLength direction.brokenType).filter
    fun swing => swing.confirmedIndex < i + 1
  rw [breakTarget, breakable, hsorted, getLast?_eq_some_iff_greatest hascending]
  simp only [List.mem_filter, decide_eq_true_eq, Nat.lt_succ_iff, MostRecent]
  constructor
  · rintro ⟨⟨⟨hmem, htype⟩, hle⟩, hgreatest⟩
    exact ⟨hmem, htype, hle, fun other hother hsame hnow => hgreatest other ⟨⟨hother, hsame⟩, hnow⟩⟩
  · rintro ⟨hmem, htype, hle, hgreatest⟩
    exact ⟨⟨⟨hmem, htype⟩, hle⟩, fun other hother => hgreatest other hother.1.1 hother.1.2 hother.2⟩

end Detected

/-! ## Section 2: Which breaks are found -/

/-- Candle `i` closes beyond a swing that is the most recent of its type. -/
def ClosesBeyond (candles : List Candle) (swings : List Swing) (direction : Direction)
    (swing : Swing) (i : ℕ) : Prop :=
  MostRecent swings direction.brokenType i swing ∧
    ∃ candle, candles[i]? = some candle ∧ isBeyond candle.close swing.price direction

/-- Whenever a candle closes beyond the most recent swing of a type, and no earlier event broke
that swing, an event at the candle breaks it. -/
def BreaksFound (candles : List Candle) (swings : List Swing) (events : List StructureEvent) :
    Prop :=
  ∀ direction swing i, ClosesBeyond candles swings direction swing i →
    (∀ event ∈ events, event.direction = direction → event.brokenSwingIndex = swing.index →
      ¬ event.index < i) →
    ∃ event ∈ events, event.index = i ∧ event.direction = direction ∧
      event.brokenSwingIndex = swing.index

/-- A candle is a swing high and a swing low, and each is the most recent of its type when a
candle closes beyond it. -/
def BrokenBothWays (candles : List Candle) (swings : List Swing) : Prop :=
  ∃ high low i j, high.index = low.index ∧
    ClosesBeyond candles swings .bullish high i ∧ ClosesBeyond candles swings .bearish low j

section Events

variable {candles : List Candle} {swings : List Swing} {events : List StructureEvent}

/-- Where breaks are found, a swing that a candle closed beyond is broken by some event. -/
theorem BreaksFound.broken (h : BreaksFound candles swings events) {direction : Direction}
    {swing : Swing} {i : ℕ} (hcloses : ClosesBeyond candles swings direction swing i) :
    ∃ event ∈ events, event.direction = direction ∧ event.brokenSwingIndex = swing.index := by
  by_cases hunbroken : ∀ event ∈ events, event.direction = direction →
      event.brokenSwingIndex = swing.index → ¬ event.index < i
  · obtain ⟨event, hevent, -, hrest⟩ := h direction swing i hcloses hunbroken
    exact ⟨event, hevent, hrest⟩
  · push Not at hunbroken
    obtain ⟨event, hevent, hdirection, hindex, -⟩ := hunbroken
    exact ⟨event, hevent, hdirection, hindex⟩

/-- An index is broken once, so not in both directions. -/
theorem BreaksFound.not_brokenBothWays (h : BreaksFound candles swings events)
    (honce : (events.map StructureEvent.brokenSwingIndex).Nodup) :
    ¬ BrokenBothWays candles swings := by
  rintro ⟨high, low, i, j, hsame, hhigh, hlow⟩
  obtain ⟨up, hup, hbullish, hupIndex⟩ := h.broken hhigh
  obtain ⟨down, hdown, hbearish, hdownIndex⟩ := h.broken hlow
  have heq : up = down := by
    apply List.inj_on_of_nodup_map honce hup hdown
    rw [hupIndex, hdownIndex, hsame]
  rw [heq, hbearish] at hbullish
  cases hbullish

end Events

/-- **Breaks are found exactly where no candle is broken both ways.** -/
theorem breaksFound_iff {candles : List Candle} {swingLength : ℕ} {swings : List Swing}
    (h : detectSwings candles swingLength = .ok swings) :
    BreaksFound candles swings (detectStructureEvents candles swings) ↔
      ¬ BrokenBothWays candles swings := by
  obtain rfl : swingsOf candles swingLength = swings := by
    simp only [detectSwings] at h
    split at h
    · cases h
    · exact Except.ok.inj h
  have hscan := StructureState.scanInv (swingsOf candles swingLength) candles
  have hevents : detectStructureEvents candles (swingsOf candles swingLength) =
      (StructureState.scan (swingsOf candles swingLength) candles).events := rfl
  rw [hevents]
  constructor
  · -- Every event breaks one swing, so a candle beyond both leaves one unfound.
    intro hfound
    exact hfound.not_brokenBothWays hscan.scanned.once
  · -- A swing that is closed beyond was broken at that candle or before.
    intro hways direction swing i hcloses hunbroken
    obtain ⟨hrecent, candle, hcandle, hbeyond⟩ := hcloses
    obtain ⟨event, hevent, hindex, hle⟩ := hscan.found i candle direction swing hcandle
      (breakTarget_eq_some_iff.mpr hrecent) hbeyond
    by_cases hdirection : event.direction = direction
    · have hnow : event.index = i :=
        le_antisymm hle (not_lt.mp (hunbroken event hevent hdirection hindex))
      exact ⟨event, hevent, hnow, hdirection, hindex⟩
    · -- The event broke the other swing of the same candle.
      exfalso
      obtain ⟨candle', swing', hcandle', htarget, hbeyond', -, hindex', -, -⟩ :=
        hscan.scanned.breaks event hevent
      have hcloses' : ClosesBeyond candles (swingsOf candles swingLength) event.direction swing'
          event.index := ⟨breakTarget_eq_some_iff.mp htarget, candle', hcandle', hbeyond'⟩
      have hcloses : ClosesBeyond candles (swingsOf candles swingLength) direction swing i :=
        ⟨hrecent, candle, hcandle, hbeyond⟩
      have hsame : swing'.index = swing.index := hindex'.symm.trans hindex
      apply hways
      cases direction with
      | bullish =>
        have hother : event.direction = .bearish := by
          cases hd : event.direction with
          | bullish => exact absurd hd hdirection
          | bearish => rfl
        rw [hother] at hcloses'
        exact ⟨swing, swing', i, event.index, hsame.symm, hcloses, hcloses'⟩
      | bearish =>
        have hother : event.direction = .bullish := by
          cases hd : event.direction with
          | bullish => rfl
          | bearish => exact absurd hd hdirection
        rw [hother] at hcloses'
        exact ⟨swing', swing, event.index, i, hsame, hcloses', hcloses⟩

/-! ## Section 3: A wide candle -/

/-- The second candle is a swing high only. The fourth closes above it. -/
def narrowCandle : List Candle :=
  [barAt 0 0 10 8 9, barAt 0 1 20 9 9, barAt 0 2 10 8 9, barAt 0 3 26 8 25]

theorem breaksFound_narrowCandle :
    BreaksFound narrowCandle (swingsOf narrowCandle 1)
      (detectStructureEvents narrowCandle (swingsOf narrowCandle 1)) := by
  have hdistinct : ∀ a ∈ swingsOf narrowCandle 1, ∀ b ∈ swingsOf narrowCandle 1,
      a.swingType = .high → b.swingType = .low → a.index ≠ b.index := by decide +kernel
  have hiff := @breaksFound_iff narrowCandle 1 _ rfl
  apply hiff.mpr
  rintro ⟨high, low, i, j, hsame, ⟨⟨hhigh, hhighType, -⟩, -⟩, ⟨⟨hlow, hlowType, -⟩, -⟩⟩
  exact hdistinct high hhigh low hlow hhighType hlowType hsame

/-- The second candle is a swing high and a swing low. The fourth closes above its high, the
fifth below its low. -/
def wideCandle : List Candle :=
  [barAt 0 0 10 8 9, barAt 0 1 20 2 9, barAt 0 2 10 8 9, barAt 0 3 26 8 25, barAt 0 4 24 1 1]

/-- The close of the fifth candle below the unbroken low of the second has no event. -/
theorem wideCandle_break_missed :
    detectSwings wideCandle 1 = .ok (swingsOf wideCandle 1) ∧
      ¬ BreaksFound wideCandle (swingsOf wideCandle 1)
        (detectStructureEvents wideCandle (swingsOf wideCandle 1)) := by
  refine ⟨rfl, fun h => ?_⟩
  let low : Swing :=
    { index := 1
      confirmedIndex := 2
      timestamp := 60000000
      price := 2
      swingType := .low }
  have hlow : MostRecent (swingsOf wideCandle 1) Direction.bearish.brokenType 4 low := by
    unfold MostRecent
    decide +kernel
  -- The close is below the low, whose index is that of the high and counts as broken.
  have hclose : isBeyond (barAt 0 4 24 1 1).close low.price .bearish := by decide +kernel
  have hunbroken : ∀ event ∈ detectStructureEvents wideCandle (swingsOf wideCandle 1),
      event.direction ≠ .bearish := by decide +kernel
  obtain ⟨event, hevent, -, hdirection, -⟩ := h .bearish low 4 ⟨hlow, _, rfl, hclose⟩
    fun event hevent hdirection => absurd hdirection (hunbroken event hevent)
  exact hunbroken event hevent hdirection

end SuperTrading.Smc
