import SuperTrading.Ict.KillZones
import SuperTrading.Logic.HighWater
import SuperTrading.Market.Aggregation
import SuperTrading.Paper.Engine
import SuperTrading.Smc.Spelling

/-!
# Instants and Spellings

What the analysis, the kill zones, the buckets and the risk window make of one list of candles
in two spellings. Kill zones and all buckets but the weekly ones are arithmetic on instants.
The other three read the local calendar: a weekly bucket starts at the local midnight of a
Monday, session levels form where the local day or week changes, and the risk window resets
where the latest local day advances.

- **Buckets**: the weekly one tells any two offsets apart
- **Resets**: the latest local day so far is all they depend on
- **The law**: what is left of it, part by part
-/

namespace SuperTrading

open SuperTrading.Logic
open Smc (Candle)

/-! ## Section 1: Buckets -/

/-- Where the bucket of each candle starts. -/
def bucketStarts (t : Timeframe) (sessionOpen : ℕ) (candles : List Candle) : List Timestamp :=
  candles.map fun c => bucketStart c.timestamp t.minutes sessionOpen c.utcOffset

theorem minutes_eq_week_iff (t : Timeframe) : t.minutes = weekMinutes ↔ t = .w1 := by
  cases t <;> simp [Timeframe.minutes, weekMinutes]

/-- Only the weekly buckets read the offset. -/
theorem bucketStart_of_ne_week {minutes : ℕ} (h : minutes ≠ weekMinutes) (t : Timestamp)
    (sessionOpen : ℕ) (o o' : ℤ) :
    bucketStart t minutes sessionOpen o = bucketStart t minutes sessionOpen o' := by
  simp only [bucketStart, if_neg h]

/-- Two spellings have the same Monday midnight only if they are in one offset: local Mondays
are whole weeks apart, and offsets less than two days. -/
theorem bucketStart_week_iff {o o' : ℤ} (ho : |o| < Timestamp.microsPerDay)
    (ho' : |o'| < Timestamp.microsPerDay) (t : Timestamp) (sessionOpen : ℕ) :
    bucketStart t weekMinutes sessionOpen o = bucketStart t weekMinutes sessionOpen o' ↔
      o = o' := by
  refine ⟨fun h => ?_, fun h => by rw [h]⟩
  rw [abs_lt] at ho ho'
  have hmondays : ∀ date date' : ℤ, (date - (date + 3) % 7) * Timestamp.microsPerDay - o =
      (date' - (date' + 3) % 7) * Timestamp.microsPerDay - o' → o = o' := by
    intro date date' heq
    simp only [Timestamp.microsPerDay] at heq ho ho'
    omega
  exact hmondays _ _ h

/-! ## Section 2: Resets -/

namespace RiskWindow

/-- Does a candle reset the day's counters, and does it reset the week's? -/
def resetsAt (w : RiskWindow) (c : Candle) : Bool × Bool :=
  (w.riskDay.any fun day => decide (day < c.date),
    w.riskWeek.any fun week => decide (week < c.isoWeek))

/-- `roll` clears what the candle resets, and raises the marks. -/
theorem roll_candle (w : RiskWindow) (c : Candle) :
    w.roll c.timestamp c.utcOffset =
      { w with
        tradesToday := if (w.resetsAt c).1 then 0 else w.tradesToday
        dailyPnl := if (w.resetsAt c).1 then 0 else w.dailyPnl
        weeklyPnl := if (w.resetsAt c).2 then 0 else w.weeklyPnl
        riskDay := some ((w.riskDay.map fun day => max day c.date).getD c.date)
        riskWeek := some ((w.riskWeek.map fun week => max week c.isoWeek).getD c.isoWeek) } :=
  rfl

/-- The resets of a window that is rolled over a list of candles. -/
def resets (w : RiskWindow) : List Candle → List (Bool × Bool)
  | [] => []
  | c :: cs => w.resetsAt c :: (w.roll c.timestamp c.utcOffset).resets cs

theorem fst_resets (w : RiskWindow) (cs : List Candle) :
    (w.resets cs).map Prod.fst = passes w.riskDay (cs.map Candle.date) := by
  induction cs generalizing w with
  | nil => rfl
  | cons c cs ih =>
    rw [resets, List.map_cons, ih, roll_candle]
    rfl

theorem snd_resets (w : RiskWindow) (cs : List Candle) :
    (w.resets cs).map Prod.snd = passes w.riskWeek (cs.map Candle.isoWeek) := by
  induction cs generalizing w with
  | nil => rfl
  | cons c cs ih =>
    rw [resets, List.map_cons, ih, roll_candle]
    rfl

/-- The latest week so far is that of the latest day. -/
theorem runningMax_isoWeek (cs : List Candle) :
    runningMax (cs.map Candle.isoWeek) =
      (runningMax (cs.map Candle.date)).map fun date => (date + 3) / 7 := by
  have hweek : cs.map Candle.isoWeek = (cs.map Candle.date).map fun date => (date + 3) / 7 := by
    rw [List.map_map]
    rfl
  have hmono : Monotone fun date : ℤ => (date + 3) / 7 := fun a b hab =>
    Int.ediv_le_ediv (by decide) (by omega)
  rw [hweek, runningMax_map hmono]

/-- Every window resets at the same candles of two lists exactly when the latest local day so
far is the same at every candle. -/
theorem resets_eq_iff (cs cs' : List Candle) :
    (∀ w : RiskWindow, w.resets cs = w.resets cs') ↔
      runningMax (cs.map Candle.date) = runningMax (cs'.map Candle.date) := by
  constructor
  · intro h
    rw [← passes_eq_iff]
    intro mark
    have hday := congrArg (List.map Prod.fst) (h { riskDay := mark })
    rwa [fst_resets, fst_resets] at hday
  · intro h w
    have hday := (passes_eq_iff _ _).mpr h w.riskDay
    have hweek : runningMax (cs.map Candle.isoWeek) = runningMax (cs'.map Candle.isoWeek) := by
      rw [runningMax_isoWeek, runningMax_isoWeek, h]
    have hweek' := (passes_eq_iff _ _).mpr hweek w.riskWeek
    rw [List.zip_of_prod (fst_resets w cs) (snd_resets w cs), hday, hweek',
      ← List.zip_of_prod (fst_resets w cs') (snd_resets w cs')]

end RiskWindow

/-! ## Section 3: The law -/

/-- The same instant and the same bar, in an offset of less than a day. -/
def Respelling (c c' : Candle) : Prop :=
  c.toUtc = c'.toUtc ∧ |c.utcOffset| < Timestamp.microsPerDay ∧
    |c'.utcOffset| < Timestamp.microsPerDay

instance (c c' : Candle) : Decidable (Respelling c c') :=
  inferInstanceAs (Decidable (c.toUtc = c'.toUtc ∧ |c.utcOffset| < Timestamp.microsPerDay ∧
    |c'.utcOffset| < Timestamp.microsPerDay))

/-- One list of candles in two spellings. -/
def Respelled (candles candles' : List Candle) : Prop := List.Forall₂ Respelling candles candles'

/-- The spelling makes no difference to anything computed from the candles. -/
structure SpellingsAgree (candles candles' : List Candle) : Prop where
  analysis : ∀ cfg, Smc.analyze cfg candles = Smc.analyze cfg candles'
  killZones : ∀ zones,
    candles.map (activeKillZones · zones) = candles'.map (activeKillZones · zones)
  buckets : ∀ t sessionOpen,
    bucketStarts t sessionOpen candles = bucketStarts t sessionOpen candles'
  resets : ∀ w : RiskWindow, w.resets candles = w.resets candles'

section Law

variable {candles candles' : List Candle}

theorem Respelled.toUtc (h : Respelled candles candles') :
    candles.map Candle.toUtc = candles'.map Candle.toUtc := by
  induction h with
  | nil => rfl
  | cons hcandle _ ih => rw [List.map_cons, List.map_cons, hcandle.1, ih]

/-- Without a change of offset there is only one spelling. -/
theorem Respelled.eq_of_utcOffset (h : Respelled candles candles')
    (hoffset : candles.map Candle.utcOffset = candles'.map Candle.utcOffset) :
    candles = candles' := by
  induction h with
  | nil => rfl
  | @cons c c' _ _ hcandle _ ih =>
    obtain ⟨hhead, htail⟩ := List.cons.inj hoffset
    have hback : ∀ c : Candle, { c.toUtc with utcOffset := c.utcOffset } = c := fun c => rfl
    have hcandle' : c = c' := by rw [← hback c, ← hback c', hcandle.1, hhead]
    rw [hcandle', ih htail]

/-- The weekly buckets tell every change of offset. -/
theorem Respelled.bucketStarts_week_iff (h : Respelled candles candles') (sessionOpen : ℕ) :
    bucketStarts .w1 sessionOpen candles = bucketStarts .w1 sessionOpen candles' ↔
      candles.map Candle.utcOffset = candles'.map Candle.utcOffset := by
  induction h with
  | nil => simp [bucketStarts]
  | @cons c c' cs cs' hcandle _ ih =>
    obtain ⟨hutc, ho, ho'⟩ := hcandle
    have htime : c.timestamp = c'.timestamp := (congrArg Candle.timestamp hutc :)
    have hhead := bucketStart_week_iff ho ho' c'.timestamp sessionOpen
    unfold bucketStarts at ih ⊢
    rw [List.map_cons, List.map_cons, List.map_cons, List.map_cons, List.cons.injEq,
      List.cons.injEq, ih, htime]
    exact and_congr_left fun _ => hhead

/-- Buckets of less than a week are the same in every spelling. -/
theorem Respelled.bucketStarts_eq (h : Respelled candles candles') {t : Timeframe} (ht : t ≠ .w1)
    (sessionOpen : ℕ) :
    bucketStarts t sessionOpen candles = bucketStarts t sessionOpen candles' := by
  have hminutes : t.minutes ≠ weekMinutes := mt (minutes_eq_week_iff t).mp ht
  induction h with
  | nil => rfl
  | @cons c c' cs cs' hcandle _ ih =>
    have htime : c.timestamp = c'.timestamp := (congrArg Candle.timestamp hcandle.1 :)
    unfold bucketStarts at ih ⊢
    rw [List.map_cons, List.map_cons, ih, htime, bucketStart_of_ne_week hminutes]

/-- `_utc_hour` takes the offset off again. -/
theorem utcHour_toUtc (c : Candle) : utcHour c.toUtc = utcHour c := by
  simp [utcHour, Candle.toUtc]

theorem Respelled.activeKillZones_eq (h : Respelled candles candles') (zones : List KillZone) :
    candles.map (activeKillZones · zones) = candles'.map (activeKillZones · zones) := by
  have hutc : ∀ cs : List Candle, (cs.map Candle.toUtc).map (activeKillZones · zones) =
      cs.map (activeKillZones · zones) := by
    intro cs
    rw [List.map_map]
    refine List.map_congr_left fun c _ => ?_
    simp only [Function.comp_apply, activeKillZones, utcHour_toUtc]
  rw [← hutc candles, h.toUtc, hutc]

/-- What is left of the law that timestamps denote instants. As a whole it holds of the lists
that no offset changes in, since the weekly buckets tell any other. The kill zones and the
other buckets never tell two spellings apart; the analysis does where the local day or week
changes between other candles, and the risk window where the latest local day is another. -/
theorem spellings_agree_iff (h : Respelled candles candles') :
    (SpellingsAgree candles candles' ↔
      candles.map Candle.utcOffset = candles'.map Candle.utcOffset) ∧
    (∀ zones, candles.map (activeKillZones · zones) = candles'.map (activeKillZones · zones)) ∧
    (∀ t sessionOpen, t ≠ .w1 →
      bucketStarts t sessionOpen candles = bucketStarts t sessionOpen candles') ∧
    (∀ sessionOpen, bucketStarts .w1 sessionOpen candles = bucketStarts .w1 sessionOpen candles' ↔
      candles.map Candle.utcOffset = candles'.map Candle.utcOffset) ∧
    ((∀ cfg, Smc.analyze cfg candles = Smc.analyze cfg candles') ↔
      Smc.changes Candle.date candles = Smc.changes Candle.date candles' ∧
        Smc.changes Candle.isoWeek candles = Smc.changes Candle.isoWeek candles') ∧
    ((∀ w : RiskWindow, w.resets candles = w.resets candles') ↔
      runningMax (candles.map Candle.date) = runningMax (candles'.map Candle.date)) := by
  refine ⟨⟨fun hagree => ?_, fun hoffset => ?_⟩, h.activeKillZones_eq, fun t sessionOpen ht => ?_,
    h.bucketStarts_week_iff, Smc.analyze_eq_iff h.toUtc, RiskWindow.resets_eq_iff _ _⟩
  · exact (h.bucketStarts_week_iff _).mp (hagree.buckets .w1 sessionOpenMinutesUtc)
  · rw [h.eq_of_utcOffset hoffset]
    exact ⟨fun _ => rfl, fun _ => rfl, fun _ _ => rfl, fun _ => rfl⟩
  · exact h.bucketStarts_eq ht sessionOpen

end Law

/-! ## Section 4: A Sunday evening -/

/-- 18:00 and 19:00 UTC on Sunday, 1970-01-04. -/
def sundayEvening : List Candle :=
  [18, 19].map fun hour =>
    { timestamp := 3 * Timestamp.microsPerDay + hour * Timestamp.microsPerHour
      «open» := 100
      high := 101
      low := 99
      close := 100 }

/-- The same candles in Mumbai, where the second one comes on Monday. -/
def mumbaiEvening : List Candle :=
  sundayEvening.map fun c => { c with utcOffset := 330 * Timestamp.microsPerMinute }

theorem respelled_evening : Respelled sundayEvening mumbaiEvening :=
  .cons (by decide) (.cons (by decide) .nil)

theorem spellings_agree_iff_evening :
    Respelled sundayEvening mumbaiEvening ∧
      (SpellingsAgree sundayEvening mumbaiEvening ↔
        sundayEvening.map Candle.utcOffset = mumbaiEvening.map Candle.utcOffset) :=
  ⟨respelled_evening, (spellings_agree_iff respelled_evening).1⟩

/-- In Mumbai the same two candles form the levels of a day and of a week, reset a fresh risk
window, and lie in another week. -/
theorem evening_spellings_differ :
    Respelled sundayEvening mumbaiEvening ∧
      ((Smc.analyze {} sundayEvening).toOption.map fun c => c.liquidityPools.length) = some 0 ∧
      ((Smc.analyze {} mumbaiEvening).toOption.map fun c => c.liquidityPools.length) = some 4 ∧
      ({} : RiskWindow).resets sundayEvening = [(false, false), (false, false)] ∧
      ({} : RiskWindow).resets mumbaiEvening = [(false, false), (true, true)] ∧
      bucketStarts .w1 sessionOpenMinutesUtc sundayEvening ≠
        bucketStarts .w1 sessionOpenMinutesUtc mumbaiEvening ∧
      ¬ SpellingsAgree sundayEvening mumbaiEvening := by
  have hweek : bucketStarts .w1 sessionOpenMinutesUtc sundayEvening ≠
      bucketStarts .w1 sessionOpenMinutesUtc mumbaiEvening := by decide
  refine ⟨respelled_evening, by decide +kernel, by decide +kernel, by decide, by decide, hweek, ?_⟩
  intro hagree
  exact hweek (hagree.buckets _ _)

end SuperTrading
