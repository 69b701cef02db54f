import SuperTrading.Smc.Types
import Mathlib.Data.List.Induction
import Mathlib.Order.Bounds.Basic

/-!
# The Opening Range

`detect_opening_ranges` of `app/ict/opening_range.py`: one pass over the candles, with the session
that is current and its extremes so far. A date gets a range from its first candle at or after
the open, also where that candle comes behind the window.

- **Detection**
- **The candles of a range**: which ones the pass takes the extremes of
- **One candle**
- **The opening window**: when the extremes are those of the window
-/

namespace SuperTrading

open Smc (Candle)

/-- `datetime.time`. -/
structure ClockTime where
  hour : ℕ
  minute : ℕ
  second : ℕ := 0
  microsecond : ℕ := 0
  hour_lt : hour < 24 := by decide
  minute_lt : minute < 60 := by decide
  second_lt : second < 60 := by decide
  microsecond_lt : microsecond < 1000000 := by decide

/-- In microseconds. -/
def ClockTime.sinceMidnight (t : ClockTime) : ℤ :=
  (t.hour * 60 + t.minute) * Timestamp.microsPerMinute + (t.second * 1000000 + t.microsecond)

/-- The hour and the minute. -/
def ClockTime.onTheMinute (t : ClockTime) : ℤ :=
  (t.hour * 60 + t.minute) * Timestamp.microsPerMinute

/-- The date and time that the timestamp is written as. Candles of one timezone compare by it. -/
def Smc.Candle.wallClock (c : Candle) : ℤ := c.timestamp + c.utcOffset

/-! ## Section 1: Detection -/

structure OpeningRange where
  sessionDate : ℤ
  high : ℚ
  low : ℚ
  startIndex : ℕ
  endIndex : ℕ
  deriving DecidableEq, Repr

/-- The locals of a session, which are `None` as long as there is none. -/
structure OpeningSession where
  currentDate : ℤ
  windowEnd : ℤ
  high : ℚ
  low : ℚ
  startIndex : ℕ
  deriving DecidableEq, Repr

def OpeningSession.range (session : OpeningSession) (endIndex : ℕ) : OpeningRange where
  sessionDate := session.currentDate
  high := session.high
  low := session.low
  startIndex := session.startIndex
  endIndex := endIndex

/-- The locals of the loop. -/
structure OpeningLoop where
  ranges : List OpeningRange := []
  current : Option OpeningSession := none
  deriving DecidableEq, Repr

/-- The ranges, once the current session is closed. -/
def OpeningLoop.closed (s : OpeningLoop) (endIndex : ℕ) : List OpeningRange :=
  s.ranges ++ (s.current.map fun session => session.range endIndex).toList

/-- `timestamp.replace(hour=..., minute=..., second=0, microsecond=0)`, on a date. -/
def sessionStart (sessionOpen : ClockTime) (date : ℤ) : ℤ :=
  date * Timestamp.microsPerDay + sessionOpen.onTheMinute

def windowEnd (sessionOpen : ClockTime) (durationMinutes date : ℤ) : ℤ :=
  sessionStart sessionOpen date + durationMinutes * Timestamp.microsPerMinute

/-- One candle of the loop, at its index. -/
def OpeningLoop.step (sessionOpen : ClockTime) (durationMinutes : ℤ) (s : OpeningLoop)
    (indexed : Candle × ℕ) : OpeningLoop :=
  let (candle, i) := indexed
  if s.current.map OpeningSession.currentDate ≠ some candle.date ∧
      sessionStart sessionOpen candle.date ≤ candle.wallClock then
    { ranges := s.closed (i - 1)
      current := some
        { currentDate := candle.date
          windowEnd := windowEnd sessionOpen durationMinutes candle.date
          high := candle.high
          low := candle.low
          startIndex := i } }
  else
    match s.current with
    | none => s
    | some session =>
      if candle.wallClock < session.windowEnd then
        { s with
          current := some
            { session with
              high := max session.high candle.high
              low := min session.low candle.low } }
      else s

def openingLoop (candles : List Candle) (sessionOpen : ClockTime) (durationMinutes : ℤ) :
    OpeningLoop :=
  candles.zipIdx.foldl (OpeningLoop.step sessionOpen durationMinutes) {}

def detectOpeningRanges (candles : List Candle) (sessionOpen : ClockTime)
    (durationMinutes : ℤ := 15) : List OpeningRange :=
  (openingLoop candles sessionOpen durationMinutes).closed (candles.length - 1)

/-! ## Section 2: The candles of a range -/

section Counted

variable (sessionOpen : ClockTime) (durationMinutes : ℤ)

/-- The candles of a date from the open on. -/
def fromOpen (candles : List Candle) (date : ℤ) : List Candle :=
  candles.filter fun c => c.date = date ∧ sessionStart sessionOpen date ≤ c.wallClock

/-- The first of them, and those before the end of the window. -/
def counted (candles : List Candle) (date : ℤ) : List Candle :=
  match fromOpen sessionOpen candles date with
  | [] => []
  | first :: rest =>
    first :: rest.filter fun c => c.wallClock < windowEnd sessionOpen durationMinutes date

/-- The greatest high and the lowest low. -/
def Spans (candles : List Candle) (high low : ℚ) : Prop :=
  IsGreatest (Candle.high '' {c | c ∈ candles}) high ∧
    IsLeast (Candle.low '' {c | c ∈ candles}) low

variable {sessionOpen durationMinutes} {candles pre : List Candle} {candle : Candle} {date : ℤ}

theorem mem_fromOpen {c : Candle} : c ∈ fromOpen sessionOpen candles date ↔
    c ∈ candles ∧ c.date = date ∧ sessionStart sessionOpen date ≤ c.wallClock := by
  simp [fromOpen, List.mem_filter]

theorem mem_fromOpen_of_counted {c : Candle}
    (h : c ∈ counted sessionOpen durationMinutes candles date) :
    c ∈ fromOpen sessionOpen candles date := by
  unfold counted at h
  split at h
  · cases h
  · next hfrom =>
    rw [hfrom]
    rcases List.mem_cons.mp h with rfl | h
    · exact List.mem_cons_self
    · exact List.mem_cons_of_mem _ (List.mem_of_mem_filter h)

theorem counted_eq_nil : counted sessionOpen durationMinutes candles date = [] ↔
    fromOpen sessionOpen candles date = [] := by
  unfold counted
  split
  · next hfrom => exact iff_of_true rfl hfrom
  · next hfrom => exact iff_of_false (List.cons_ne_nil _ _) (hfrom ▸ List.cons_ne_nil _ _)

/-- A candle of another date, or before the open, is not counted. -/
theorem counted_append_of_not
    (h : ¬ (candle.date = date ∧ sessionStart sessionOpen date ≤ candle.wallClock)) :
    counted sessionOpen durationMinutes (pre ++ [candle]) date =
      counted sessionOpen durationMinutes pre date := by
  have hfrom : fromOpen sessionOpen (pre ++ [candle]) date = fromOpen sessionOpen pre date := by
    simp [fromOpen, List.filter_append, h]
  rw [counted, counted, hfrom]

/-- The first candle from the open on is counted, and then those in the window. -/
theorem counted_append (hdate : candle.date = date)
    (hopen : sessionStart sessionOpen date ≤ candle.wallClock) :
    counted sessionOpen durationMinutes (pre ++ [candle]) date =
      if counted sessionOpen durationMinutes pre date = [] ∨
          candle.wallClock < windowEnd sessionOpen durationMinutes date then
        counted sessionOpen durationMinutes pre date ++ [candle]
      else counted sessionOpen durationMinutes pre date := by
  have hfrom : fromOpen sessionOpen (pre ++ [candle]) date =
      fromOpen sessionOpen pre date ++ [candle] := by
    simp [fromOpen, List.filter_append, hdate, hopen]
  rw [counted, hfrom]
  cases hpre : fromOpen sessionOpen pre date with
  | nil => simp [counted_eq_nil.mpr hpre]
  | cons first rest =>
    have hcounted : counted sessionOpen durationMinutes pre date = first ::
        rest.filter fun c => c.wallClock < windowEnd sessionOpen durationMinutes date := by
      rw [counted, hpre]
    rw [hcounted]
    -- Behind the first candle, only the window decides.
    by_cases hwindow : candle.wallClock < windowEnd sessionOpen durationMinutes date
    · simp [List.filter_append, hwindow]
    · simp [List.filter_append, hwindow]

theorem Spans.append {high low : ℚ} (h : Spans candles high low) (candle : Candle) :
    Spans (candles ++ [candle]) (max high candle.high) (min low candle.low) := by
  have hset : {c | c ∈ candles ++ [candle]} = insert candle {c | c ∈ candles} := by
    ext c
    simp [or_comm]
  rw [Spans, hset, Set.image_insert_eq, Set.image_insert_eq, max_comm, min_comm]
  exact ⟨h.1.insert _, h.2.insert _⟩

theorem spans_singleton (candle : Candle) : Spans [candle] candle.high candle.low := by
  simp [Spans]

theorem Spans.ne_nil {high low : ℚ} (h : Spans candles high low) : candles ≠ [] := by
  rintro rfl
  obtain ⟨c, hc, -⟩ := h.1.1
  cases hc

end Counted

/-! ## Section 3: One candle -/

section Loop

variable {sessionOpen : ClockTime} {durationMinutes : ℤ} {pre : List Candle} {candle : Candle}
  {s : OpeningLoop}

/-- What the loop knows behind some of the candles. -/
structure OpeningLoop.Sound (sessionOpen : ClockTime) (durationMinutes : ℤ) (pre : List Candle)
    (s : OpeningLoop) : Prop where
  ranges : ∀ r ∈ s.ranges,
    Spans (counted sessionOpen durationMinutes pre r.sessionDate) r.high r.low
  current : ∀ session ∈ s.current,
    Spans (counted sessionOpen durationMinutes pre session.currentDate) session.high session.low ∧
      session.windowEnd = windowEnd sessionOpen durationMinutes session.currentDate ∧
      ∀ r ∈ s.ranges, r.sessionDate < session.currentDate
  covers : ∀ date, counted sessionOpen durationMinutes pre date ≠ [] →
    (∃ r ∈ s.ranges, r.sessionDate = date) ∨ ∃ session ∈ s.current, session.currentDate = date
  first : s.current = none → s.ranges = []

/-- The date starts at its midnight. -/
theorem date_mul_le_wallClock (c : Candle) : c.date * Timestamp.microsPerDay ≤ c.wallClock :=
  Int.ediv_mul_le _ (by decide)

theorem date_mono {c c' : Candle} (h : c.wallClock ≤ c'.wallClock) : c.date ≤ c'.date :=
  Int.ediv_le_ediv (by decide) h

/-- The window of an earlier date has ended. -/
theorem windowEnd_le_wallClock
    (hmidnight : sessionOpen.onTheMinute + durationMinutes * Timestamp.microsPerMinute ≤
      Timestamp.microsPerDay) {date : ℤ} (h : date < candle.date) :
    windowEnd sessionOpen durationMinutes date ≤ candle.wallClock := by
  have hday := date_mul_le_wallClock candle
  have hnext : (date + 1) * Timestamp.microsPerDay ≤ candle.date * Timestamp.microsPerDay :=
    Int.mul_le_mul_of_nonneg_right h (by decide)
  unfold windowEnd sessionStart
  rw [Int.add_mul, one_mul] at hnext
  omega

namespace OpeningLoop.Sound

/-- The current session has started. -/
theorem started (h : s.Sound sessionOpen durationMinutes pre)
    (hlast : ∀ c ∈ pre, c.wallClock ≤ candle.wallClock) {session : OpeningSession}
    (hcurrent : session ∈ s.current) :
    session.currentDate ≤ candle.date ∧
      sessionStart sessionOpen session.currentDate ≤ candle.wallClock := by
  obtain ⟨hspans, -, -⟩ := h.current session hcurrent
  obtain ⟨c, hc⟩ := List.exists_mem_of_ne_nil _ hspans.ne_nil
  obtain ⟨hmem, hdate, hopen⟩ := mem_fromOpen.mp (mem_fromOpen_of_counted hc)
  exact ⟨hdate ▸ date_mono (hlast c hmem), hopen.trans (hlast c hmem)⟩

/-- A candle that is not counted changes nothing. -/
theorem uncounted (h : s.Sound sessionOpen durationMinutes pre)
    (hsame : ∀ date, counted sessionOpen durationMinutes (pre ++ [candle]) date =
      counted sessionOpen durationMinutes pre date) :
    s.Sound sessionOpen durationMinutes (pre ++ [candle]) where
  ranges r hr := by
    rw [hsame]
    exact h.ranges r hr
  current session hcurrent := by
    rw [hsame]
    exact h.current session hcurrent
  covers date := by
    rw [hsame]
    exact h.covers date
  first := h.first

/-- A new session closes the one before it. -/
theorem opened (h : s.Sound sessionOpen durationMinutes pre)
    (hlast : ∀ c ∈ pre, c.wallClock ≤ candle.wallClock)
    (hnew : s.current.map OpeningSession.currentDate ≠ some candle.date)
    (hopen : sessionStart sessionOpen candle.date ≤ candle.wallClock) (i : ℕ) :
    OpeningLoop.Sound sessionOpen durationMinutes (pre ++ [candle])
      { ranges := s.closed (i - 1)
        current := some
          { currentDate := candle.date
            windowEnd := windowEnd sessionOpen durationMinutes candle.date
            high := candle.high
            low := candle.low
            startIndex := i } } := by
  -- The ranges that are closed by now are of earlier dates.
  have hclosed : ∀ r ∈ s.closed (i - 1), r.sessionDate < candle.date ∧
      Spans (counted sessionOpen durationMinutes pre r.sessionDate) r.high r.low := by
    intro r hr
    rcases List.mem_append.mp hr with hr | hr
    · refine ⟨?_, h.ranges r hr⟩
      cases hcurrent : s.current with
      | none =>
        rw [h.first hcurrent] at hr
        cases hr
      | some session =>
        obtain ⟨-, -, hearlier⟩ := h.current session hcurrent
        exact (hearlier r hr).trans_le (h.started hlast hcurrent).1
    · obtain ⟨session, hcurrent, rfl⟩ := Option.map_eq_some_iff.mp (Option.mem_toList.mp hr)
      refine ⟨lt_of_le_of_ne (h.started hlast hcurrent).1 fun hdate => hnew ?_,
        (h.current session hcurrent).1⟩
      rw [hcurrent, ← hdate]
      rfl
  -- So nothing of the candle's date has been counted.
  have hnone : counted sessionOpen durationMinutes pre candle.date = [] := by
    by_contra hsome
    rcases h.covers candle.date hsome with ⟨r, hr, hdate⟩ | ⟨session, hcurrent, hdate⟩
    · exact (hclosed r (List.mem_append_left _ hr)).1.ne hdate
    · exact hnew (Option.map_eq_some_iff.mpr ⟨session, hcurrent, hdate⟩)
  have hself : counted sessionOpen durationMinutes (pre ++ [candle]) candle.date = [candle] := by
    rw [counted_append rfl hopen, if_pos (.inl hnone), hnone, List.nil_append]
  have hothers : ∀ date, candle.date ≠ date →
      counted sessionOpen durationMinutes (pre ++ [candle]) date =
        counted sessionOpen durationMinutes pre date := fun date hne =>
    counted_append_of_not fun hboth => hne hboth.1
  constructor
  · intro r hr
    rw [hothers _ (hclosed r hr).1.ne']
    exact (hclosed r hr).2
  · rintro _ ⟨⟩
    refine ⟨?_, rfl, fun r hr => (hclosed r hr).1⟩
    rw [hself]
    exact spans_singleton candle
  · intro date hcounted
    by_cases hdate : candle.date = date
    · exact .inr ⟨_, rfl, hdate⟩
    · rw [hothers date hdate] at hcounted
      rcases h.covers date hcounted with ⟨r, hr, hrdate⟩ | ⟨session, hcurrent, hsdate⟩
      · exact .inl ⟨r, List.mem_append_left _ hr, hrdate⟩
      · refine .inl ⟨session.range (i - 1), List.mem_append_right _ ?_, hsdate⟩
        exact Option.mem_toList.mpr (Option.map_eq_some_iff.mpr ⟨session, hcurrent, rfl⟩)
  · exact fun hcurrent => nomatch hcurrent

/-- **One candle** of the loop, behind those before it. -/
theorem step (h : s.Sound sessionOpen durationMinutes pre)
    (hmidnight : sessionOpen.onTheMinute + durationMinutes * Timestamp.microsPerMinute ≤
      Timestamp.microsPerDay)
    (hlast : ∀ c ∈ pre, c.wallClock ≤ candle.wallClock) (i : ℕ) :
    (s.step sessionOpen durationMinutes (candle, i)).Sound sessionOpen durationMinutes
      (pre ++ [candle]) := by
  unfold OpeningLoop.step
  dsimp only
  split_ifs with hnew
  · exact h.opened hlast hnew.1 hnew.2 i
  split
  · next hcurrent =>
    -- Without a session, a candle that opens none is before the open.
    refine h.uncounted fun date => counted_append_of_not ?_
    rintro ⟨rfl, hopen⟩
    exact hnew ⟨by rw [hcurrent]; exact Option.some_ne_none _ |>.symm, hopen⟩
  · next session hcurrent =>
    obtain ⟨hspans, hend, hearlier⟩ := h.current session hcurrent
    obtain ⟨hdate, hstarted⟩ := h.started hlast hcurrent
    split_ifs with hwindow
    · -- Behind an earlier date the window has ended, so the session is that of the candle's date.
      have hsame : candle.date = session.currentDate := by
        refine (hdate.lt_or_eq.resolve_left fun hlt => ?_).symm
        have hended := windowEnd_le_wallClock hmidnight hlt
        rw [← hend] at hended
        exact absurd hwindow (not_lt.mpr hended)
      have hothers : ∀ date, candle.date ≠ date →
          counted sessionOpen durationMinutes (pre ++ [candle]) date =
            counted sessionOpen durationMinutes pre date := fun date hne =>
        counted_append_of_not fun hboth => hne hboth.1
      have hself : counted sessionOpen durationMinutes (pre ++ [candle]) session.currentDate =
          counted sessionOpen durationMinutes pre session.currentDate ++ [candle] := by
        rw [counted_append hsame hstarted, if_pos (.inr (hend ▸ hwindow))]
      constructor
      · intro r hr
        rw [hothers _ (hsame ▸ (hearlier r hr).ne')]
        exact h.ranges r hr
      · rintro _ ⟨⟩
        refine ⟨?_, hend, hearlier⟩
        rw [hself]
        exact hspans.append candle
      · intro date hcounted
        by_cases hcandle : candle.date = date
        · exact .inr ⟨_, rfl, hsame.symm.trans hcandle⟩
        · rw [hothers date hcandle] at hcounted
          rcases h.covers date hcounted with hr | ⟨session', hcurrent', hsdate⟩
          · exact .inl hr
          · cases hcurrent.symm.trans hcurrent'
            exact absurd (hsame.trans hsdate) hcandle
      · exact fun hnone => nomatch hnone
    · -- Behind the window nothing is counted, once the date has a first candle.
      refine h.uncounted fun date => ?_
      by_cases hcounts : candle.date = date ∧ sessionStart sessionOpen date ≤ candle.wallClock
      · obtain ⟨rfl, hopen⟩ := hcounts
        have hsame : session.currentDate = candle.date := by
          by_contra hne
          refine hnew ⟨?_, hopen⟩
          rw [hcurrent, Option.map_some]
          exact fun heq => hne (Option.some.inj heq)
        rw [counted_append rfl hopen, if_neg]
        rintro (hnil | hbefore)
        · exact hspans.ne_nil (hsame ▸ hnil)
        · exact hwindow (by rwa [hend, hsame])
      · exact counted_append_of_not hcounts

end OpeningLoop.Sound

theorem openingLoop_sound
    (hmidnight : sessionOpen.onTheMinute + durationMinutes * Timestamp.microsPerMinute ≤
      Timestamp.microsPerDay) {candles : List Candle}
    (hascending : candles.Pairwise fun c c' => c.wallClock ≤ c'.wallClock) :
    (openingLoop candles sessionOpen durationMinutes).Sound sessionOpen durationMinutes
      candles := by
  induction candles using List.reverseRecOn with
  | nil => exact ⟨fun _ hr => (nomatch hr), fun _ hs => (nomatch hs), fun _ h => absurd rfl h,
      fun _ => rfl⟩
  | append_singleton pre candle ih =>
    obtain ⟨hpre, -, hlast⟩ := List.pairwise_append.mp hascending
    have hstep := (ih hpre).step hmidnight
      (fun c hc => hlast c hc candle (List.mem_singleton_self candle)) pre.length
    have hloop : openingLoop (pre ++ [candle]) sessionOpen durationMinutes =
        (openingLoop pre sessionOpen durationMinutes).step sessionOpen durationMinutes
          (candle, pre.length) := by
      simp [openingLoop, List.zipIdx_append, List.foldl_append]
    rw [hloop]
    exact hstep

end Loop

/-! ## Section 4: The opening window -/

section Window

variable (candles : List Candle) (sessionOpen : ClockTime) (durationMinutes : ℤ)

def Smc.Candle.timeOfDay (c : Candle) : ℤ := c.wallClock - c.date * Timestamp.microsPerDay

/-- Does the candle start in the opening window of its date? -/
def InOpening (c : Candle) : Prop :=
  sessionOpen.sinceMidnight ≤ c.timeOfDay ∧
    c.timeOfDay < sessionOpen.sinceMidnight + durationMinutes * Timestamp.microsPerMinute

instance (c : Candle) : Decidable (InOpening sessionOpen durationMinutes c) :=
  inferInstanceAs (Decidable (_ ∧ _))

def openingCandles (date : ℤ) : List Candle :=
  candles.filter fun c => c.date = date ∧ InOpening sessionOpen durationMinutes c

/-- A date has a range exactly if it has a candle in its opening window, and the range spans those
candles. -/
def OpeningRangesExact : Prop :=
  ∀ date,
    ((∃ r ∈ detectOpeningRanges candles sessionOpen durationMinutes, r.sessionDate = date) ↔
      ∃ c ∈ candles, c.date = date ∧ InOpening sessionOpen durationMinutes c) ∧
    ∀ r ∈ detectOpeningRanges candles sessionOpen durationMinutes, r.sessionDate = date →
      Spans (openingCandles candles sessionOpen durationMinutes date) r.high r.low

/-- For each candle of the one list there is one in the other that is as high, and one that is as
low. -/
def Reached (some others : List Candle) : Prop :=
  ∀ c ∈ some, (∃ c' ∈ others, c.high ≤ c'.high) ∧ ∃ c' ∈ others, c'.low ≤ c.low

/-- On every date, the candles that are counted and those in the opening window reach as far as
one another. -/
def CountsOpening : Prop :=
  ∀ date,
    Reached (counted sessionOpen durationMinutes candles date)
        (openingCandles candles sessionOpen durationMinutes date) ∧
      Reached (openingCandles candles sessionOpen durationMinutes date)
        (counted sessionOpen durationMinutes candles date)

variable {candles sessionOpen durationMinutes}

theorem mem_openingCandles {date : ℤ} {c : Candle} :
    c ∈ openingCandles candles sessionOpen durationMinutes date ↔
      c ∈ candles ∧ c.date = date ∧ InOpening sessionOpen durationMinutes c := by
  simp [openingCandles, List.mem_filter]

theorem reached_refl (candles : List Candle) : Reached candles candles :=
  fun c hc => ⟨⟨c, hc, le_refl _⟩, c, hc, le_refl _⟩

theorem Reached.of_spans {cs others : List Candle} {high low : ℚ} (h : Spans cs high low)
    (h' : Spans others high low) : Reached cs others := by
  intro c hc
  obtain ⟨top, htop, hhigh⟩ := h'.1.1
  obtain ⟨bottom, hbottom, hlow⟩ := h'.2.1
  exact ⟨⟨top, htop, hhigh ▸ h.1.2 ⟨c, hc, rfl⟩⟩, bottom, hbottom, hlow ▸ h.2.2 ⟨c, hc, rfl⟩⟩

/-- Lists that reach as far as one another span the same. -/
theorem Spans.of_reached {cs others : List Candle} {high low : ℚ} (h : Spans cs high low)
    (hthere : Reached cs others) (hback : Reached others cs) : Spans others high low := by
  have hhigh : ∀ c ∈ others, c.high ≤ high := by
    intro c hc
    obtain ⟨⟨top, htop, hle⟩, -⟩ := hback c hc
    exact hle.trans (h.1.2 ⟨top, htop, rfl⟩)
  have hlow : ∀ c ∈ others, low ≤ c.low := by
    intro c hc
    obtain ⟨-, bottom, hbottom, hle⟩ := hback c hc
    exact (h.2.2 ⟨bottom, hbottom, rfl⟩).trans hle
  obtain ⟨top, htop, htopHigh⟩ := h.1.1
  obtain ⟨bottom, hbottom, hbottomLow⟩ := h.2.1
  obtain ⟨⟨c, hc, hcHigh⟩, -⟩ := hthere top htop
  obtain ⟨-, c', hc', hcLow⟩ := hthere bottom hbottom
  -- The candle that reaches as far as the extreme one is the extreme of its own list.
  refine ⟨⟨⟨c, hc, le_antisymm (hhigh c hc) (htopHigh ▸ hcHigh)⟩, ?_⟩,
    ⟨⟨c', hc', le_antisymm (hbottomLow ▸ hcLow) (hlow c' hc')⟩, ?_⟩⟩
  · rintro _ ⟨c, hc, rfl⟩
    exact hhigh c hc
  · rintro _ ⟨c, hc, rfl⟩
    exact hlow c hc

theorem onTheMinute_le (t : ClockTime) : t.onTheMinute ≤ t.sinceMidnight := by
  unfold ClockTime.sinceMidnight ClockTime.onTheMinute
  omega

/-- The candles in the opening window come from the open on. -/
theorem openingCandles_eq_nil {date : ℤ}
    (h : counted sessionOpen durationMinutes candles date = []) :
    openingCandles candles sessionOpen durationMinutes date = [] := by
  refine List.eq_nil_iff_forall_not_mem.mpr fun c hc => ?_
  obtain ⟨hmem, rfl, hopen, -⟩ := mem_openingCandles.mp hc
  have hfrom : c ∈ fromOpen sessionOpen candles c.date := by
    refine mem_fromOpen.mpr ⟨hmem, rfl, ?_⟩
    have hminute := onTheMinute_le sessionOpen
    unfold sessionStart
    unfold Smc.Candle.timeOfDay at hopen
    omega
  rw [counted_eq_nil.mp h] at hfrom
  cases hfrom

/-- The ranges that are reported, and what they span. -/
theorem detectOpeningRanges_spec
    (hmidnight : sessionOpen.onTheMinute + durationMinutes * Timestamp.microsPerMinute ≤
      Timestamp.microsPerDay)
    (hascending : candles.Pairwise fun c c' => c.wallClock ≤ c'.wallClock) :
    (∀ r ∈ detectOpeningRanges candles sessionOpen durationMinutes,
      Spans (counted sessionOpen durationMinutes candles r.sessionDate) r.high r.low) ∧
    ∀ date, counted sessionOpen durationMinutes candles date ≠ [] →
      ∃ r ∈ detectOpeningRanges candles sessionOpen durationMinutes, r.sessionDate = date := by
  have hsound := openingLoop_sound hmidnight hascending
  unfold detectOpeningRanges
  constructor
  · -- A reported range is a finished session's, or the one that is still open at the end.
    intro r hr
    rcases List.mem_append.mp hr with hr | hr
    · exact hsound.ranges r hr
    · obtain ⟨session, hcurrent, rfl⟩ := Option.map_eq_some_iff.mp (Option.mem_toList.mp hr)
      exact (hsound.current session hcurrent).1
  · -- A date with a counted candle has been finished, or is the open one.
    intro date hcounted
    rcases hsound.covers date hcounted with ⟨r, hr, hdate⟩ | ⟨session, hcurrent, hdate⟩
    · exact ⟨r, List.mem_append_left _ hr, hdate⟩
    · refine ⟨session.range (candles.length - 1), List.mem_append_right _ ?_, hdate⟩
      exact Option.mem_toList.mpr (Option.map_eq_some_iff.mpr ⟨session, hcurrent, rfl⟩)

/-- The ranges are exact if and only if what is counted reaches as far as the opening window. -/
theorem openingRangesExact_iff
    (hmidnight : sessionOpen.onTheMinute + durationMinutes * Timestamp.microsPerMinute ≤
      Timestamp.microsPerDay)
    (hascending : candles.Pairwise fun c c' => c.wallClock ≤ c'.wallClock) :
    OpeningRangesExact candles sessionOpen durationMinutes ↔
      CountsOpening candles sessionOpen durationMinutes := by
  obtain ⟨hspans, hcovers⟩ := detectOpeningRanges_spec hmidnight hascending
  refine forall_congr' fun date => ?_
  by_cases hnil : counted sessionOpen durationMinutes candles date = []
  · -- Nothing is counted, so there is no range, and nothing in the window.
    have hopening := openingCandles_eq_nil hnil
    have hnone : ∀ r ∈ detectOpeningRanges candles sessionOpen durationMinutes,
        r.sessionDate ≠ date := by
      rintro r hr rfl
      exact (hspans r hr).ne_nil hnil
    rw [hnil, hopening]
    refine iff_of_true ⟨iff_of_false ?_ ?_, ?_⟩ ⟨reached_refl [], reached_refl []⟩
    · rintro ⟨r, hr, hdate⟩
      exact hnone r hr hdate
    · rintro ⟨c, hc⟩
      have hmem := mem_openingCandles.mpr hc
      rw [hopening] at hmem
      cases hmem
    · exact fun r hr hdate => absurd hdate (hnone r hr)
  · obtain ⟨r, hr, rfl⟩ := hcovers date hnil
    constructor
    · rintro ⟨-, hexact⟩
      have hopening := hexact r hr rfl
      exact ⟨.of_spans (hspans r hr) hopening, .of_spans hopening (hspans r hr)⟩
    · rintro ⟨hthere, hback⟩
      have hopening : ∀ r' ∈ detectOpeningRanges candles sessionOpen durationMinutes,
          r'.sessionDate = r.sessionDate →
            Spans (openingCandles candles sessionOpen durationMinutes r.sessionDate)
              r'.high r'.low := fun r' hr' hdate =>
        (hdate ▸ hspans r' hr').of_reached hthere hback
      obtain ⟨c, hc⟩ := List.exists_mem_of_ne_nil _ (hopening r hr rfl).ne_nil
      exact ⟨iff_of_true ⟨r, hr, rfl⟩ ⟨c, mem_openingCandles.mp hc⟩, hopening⟩

/-- With an open on the minute the window is what comes from the open on, up to its end. -/
theorem openingCandles_eq_filter (hminute : sessionOpen.sinceMidnight = sessionOpen.onTheMinute)
    (date : ℤ) : openingCandles candles sessionOpen durationMinutes date =
      (fromOpen sessionOpen candles date).filter fun c =>
        c.wallClock < windowEnd sessionOpen durationMinutes date := by
  rw [fromOpen, List.filter_filter, openingCandles]
  refine List.filter_congr fun c _ => ?_
  rw [← Bool.decide_and, decide_eq_decide]
  unfold InOpening Smc.Candle.timeOfDay windowEnd sessionStart
  rw [hminute]
  constructor
  · rintro ⟨rfl, hopen, hend⟩
    omega
  · rintro ⟨hend, rfl, hopen⟩
    omega

/-- With an open on the minute it is enough that no date starts behind its window. -/
theorem countsOpening_iff_of_onTheMinute
    (hminute : sessionOpen.sinceMidnight = sessionOpen.onTheMinute)
    (hascending : candles.Pairwise fun c c' => c.wallClock ≤ c'.wallClock) :
    CountsOpening candles sessionOpen durationMinutes ↔
      ∀ c ∈ candles, sessionOpen.sinceMidnight ≤ c.timeOfDay →
        ∃ c' ∈ candles, c'.date = c.date ∧ InOpening sessionOpen durationMinutes c' := by
  constructor
  · -- The date's first counted candle is in the window, being an opening one.
    intro hcounts c hc hopen
    have hfrom : c ∈ fromOpen sessionOpen candles c.date := by
      refine mem_fromOpen.mpr ⟨hc, rfl, ?_⟩
      unfold sessionStart
      unfold Smc.Candle.timeOfDay at hopen
      omega
    have hne : counted sessionOpen durationMinutes candles c.date ≠ [] := fun hnil => by
      rw [counted_eq_nil.mp hnil] at hfrom
      cases hfrom
    obtain ⟨first, hfirst⟩ := List.exists_mem_of_ne_nil _ hne
    obtain ⟨⟨c', hc', -⟩, -⟩ := (hcounts c.date).1 first hfirst
    exact ⟨c', mem_openingCandles.mp hc'⟩
  · intro hopens date
    suffices hsame : counted sessionOpen durationMinutes candles date =
        openingCandles candles sessionOpen durationMinutes date by
      rw [hsame]
      exact ⟨reached_refl _, reached_refl _⟩
    -- With an open on the minute the opening candles are those from the open on, up to the end.
    rw [openingCandles_eq_filter hminute, counted]
    cases hfrom : fromOpen sessionOpen candles date with
    | nil => rfl
    | cons first rest =>
      -- The first candle from the open on is not behind one in the window.
      have hfirst : first ∈ fromOpen sessionOpen candles date := hfrom ▸ List.mem_cons_self
      obtain ⟨hmem, rfl, hopen⟩ := mem_fromOpen.mp hfirst
      obtain ⟨c', hc', hdate, hin⟩ := hopens first hmem (by
        unfold sessionStart at hopen
        unfold Smc.Candle.timeOfDay
        omega)
      have hwindow : c' ∈ openingCandles candles sessionOpen durationMinutes first.date :=
        mem_openingCandles.mpr ⟨hc', hdate, hin⟩
      rw [openingCandles_eq_filter hminute, hfrom] at hwindow
      obtain ⟨hlater, hend⟩ := List.mem_filter.mp hwindow
      have hsorted : (first :: rest).Pairwise fun c c' => c.wallClock ≤ c'.wallClock :=
        hfrom ▸ hascending.filter _
      have hle : first.wallClock ≤ c'.wallClock := by
        rcases List.mem_cons.mp hlater with rfl | hrest
        · exact le_refl _
        · exact List.rel_of_pairwise_cons hsorted hrest
      have hbefore : first.wallClock < windowEnd sessionOpen durationMinutes first.date :=
        hle.trans_lt (of_decide_eq_true hend)
      rw [List.filter_cons, if_pos (decide_eq_true hbefore)]

/-- **The opening range is that of the opening window** exactly if the candles that are counted
reach as far as those in the window: for an open on the minute, exactly if every date with a
candle at or after the open has one in the window. -/
theorem opening_range_exact
    (hmidnight : sessionOpen.sinceMidnight + durationMinutes * Timestamp.microsPerMinute ≤
      Timestamp.microsPerDay)
    (hascending : candles.Pairwise fun c c' => c.wallClock ≤ c'.wallClock) :
    (OpeningRangesExact candles sessionOpen durationMinutes ↔
      CountsOpening candles sessionOpen durationMinutes) ∧
    (sessionOpen.sinceMidnight = sessionOpen.onTheMinute →
      (CountsOpening candles sessionOpen durationMinutes ↔
        ∀ c ∈ candles, sessionOpen.sinceMidnight ≤ c.timeOfDay →
          ∃ c' ∈ candles, c'.date = c.date ∧ InOpening sessionOpen durationMinutes c')) := by
  have hminute := onTheMinute_le sessionOpen
  exact ⟨openingRangesExact_iff (by omega) hascending,
    fun hon => countsOpening_iff_of_onTheMinute hon hascending⟩

end Window

/-- A candle of 1970-01-01, at a minute of the day. -/
def candleAt (hour minute : ℕ) (low high : ℚ) : Candle where
  timestamp := (hour * 60 + minute) * Timestamp.microsPerMinute
  «open» := low
  high := high
  low := low
  close := high

def quarterPastNine : ClockTime where
  hour := 9
  minute := 15

/-- Before the open, in the window, and behind it. -/
theorem opening_range_exact_of_day :
    OpeningRangesExact [candleAt 9 0 90 110, candleAt 9 15 99 101, candleAt 9 29 98 102,
      candleAt 9 30 80 120] quarterPastNine 15 :=
  ((opening_range_exact (by decide +kernel) (by decide +kernel)).1).mpr
    (((opening_range_exact (by decide +kernel) (by decide +kernel)).2 (by decide +kernel)).mpr
      (by decide +kernel))

/-- A day whose first candle comes behind the window gets the range of that candle. -/
theorem late_candle_is_a_range :
    detectOpeningRanges [candleAt 10 0 80 120] quarterPastNine 15 = [⟨0, 120, 80, 0, 0⟩] ∧
      ¬ OpeningRangesExact [candleAt 10 0 80 120] quarterPastNine 15 := by
  have hrange : detectOpeningRanges [candleAt 10 0 80 120] quarterPastNine 15 =
      [⟨0, 120, 80, 0, 0⟩] := by decide +kernel
  refine ⟨hrange, fun hexact => ?_⟩
  obtain ⟨c, hc, -, hin⟩ := (hexact 0).1.mp ⟨_, hrange ▸ List.mem_singleton_self _, rfl⟩
  rw [List.mem_singleton.mp hc] at hin
  revert hin
  decide +kernel

end SuperTrading
