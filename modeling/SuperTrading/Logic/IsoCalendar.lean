import Mathlib.Data.Prod.Lex
import Mathlib.Algebra.Order.Group.Int
import Mathlib.Tactic.Linarith

/-!
# The ISO Calendar

Days are numbered from 1, a Monday, the first day of year 1 of the proleptic Gregorian calendar.
`isocalendar` is the year and the week that ISO 8601 gives a day, as `datetime.date` computes
them. The weeks of the years follow one another without a gap, so that the pairs are ordered as
the Mondays of their weeks are.
-/

namespace SuperTrading.Logic

/-! ## Section 1: Years -/

/-- `_days_before_year`. -/
def daysBeforeYear (year : ℤ) : ℤ :=
  (year - 1) * 365 + (year - 1) / 4 - (year - 1) / 100 + (year - 1) / 400

/-- The year of a day: cycles of 400, 100 and 4 years are taken off one after the other. -/
def yearOf (ordinal : ℤ) : ℤ :=
  let n := ordinal - 1
  let n400 := n / 146097
  let n := n % 146097
  let n100 := n / 36524
  let n := n % 36524
  let n4 := n / 1461
  let n := n % 1461
  let n1 := n / 365
  let year := n400 * 400 + 1 + n100 * 100 + n4 * 4 + n1
  -- The last day of a cycle is day 366 of the year before.
  if n1 = 4 ∨ n100 = 4 then year - 1 else year

theorem daysBeforeYear_succ (year : ℤ) :
    daysBeforeYear year + 365 ≤ daysBeforeYear (year + 1) ∧
      daysBeforeYear (year + 1) ≤ daysBeforeYear year + 366 := by
  simp only [daysBeforeYear]
  omega

/-- A year by the cycles before it. -/
theorem daysBeforeYear_cycles {n400 n100 n4 n1 : ℤ} (h100 : 0 ≤ n100 ∧ n100 ≤ 3)
    (h4 : 0 ≤ n4 ∧ n4 ≤ 24) (h1 : 0 ≤ n1 ∧ n1 ≤ 3) :
    daysBeforeYear (n400 * 400 + 1 + n100 * 100 + n4 * 4 + n1) =
      n400 * 146097 + n100 * 36524 + n4 * 1461 + n1 * 365 := by
  have hfours : (n400 * 400 + 1 + n100 * 100 + n4 * 4 + n1 - 1) / 4 =
      n400 * 100 + n100 * 25 + n4 := by omega
  have hhundreds : (n400 * 400 + 1 + n100 * 100 + n4 * 4 + n1 - 1) / 100 = n400 * 4 + n100 := by
    omega
  have hcycles : (n400 * 400 + 1 + n100 * 100 + n4 * 4 + n1 - 1) / 400 = n400 := by omega
  rw [daysBeforeYear, hfours, hhundreds, hcycles]
  omega

/-- The day lies in its year. -/
theorem daysBeforeYear_yearOf (ordinal : ℤ) :
    daysBeforeYear (yearOf ordinal) < ordinal ∧
      ordinal ≤ daysBeforeYear (yearOf ordinal + 1) := by
  simp only [yearOf]
  set n400 := (ordinal - 1) / 146097 with hn400
  set n100 := (ordinal - 1) % 146097 / 36524 with hn100
  set n4 := (ordinal - 1) % 146097 % 36524 / 1461 with hn4
  set n1 := (ordinal - 1) % 146097 % 36524 % 1461 / 365 with hn1
  split
  · next hlast =>
    rcases hlast with h1 | h100
    · -- The last day of four years. The 25th four of a century has only three whole years left.
      have hyear := @daysBeforeYear_cycles n400 n100 n4 3 (by omega) (by omega) (by omega)
      have hnext := @daysBeforeYear_cycles n400 n100 (n4 + 1) 0 (by omega) (by omega) (by omega)
      have hthis : n400 * 400 + 1 + n100 * 100 + n4 * 4 + n1 - 1 =
          n400 * 400 + 1 + n100 * 100 + n4 * 4 + 3 := by omega
      have hsucc : n400 * 400 + 1 + n100 * 100 + n4 * 4 + 3 + 1 =
          n400 * 400 + 1 + n100 * 100 + (n4 + 1) * 4 + 0 := by omega
      rw [hthis, hsucc, hyear, hnext]
      omega
    · -- The last day of four centuries.
      have hyear := @daysBeforeYear_cycles n400 3 24 3 (by omega) (by omega) (by omega)
      have hnext := @daysBeforeYear_cycles (n400 + 1) 0 0 0 (by omega) (by omega) (by omega)
      have hthis : n400 * 400 + 1 + n100 * 100 + n4 * 4 + n1 - 1 =
          n400 * 400 + 1 + 3 * 100 + 24 * 4 + 3 := by omega
      have hsucc : n400 * 400 + 1 + 3 * 100 + 24 * 4 + 3 + 1 =
          (n400 + 1) * 400 + 1 + 0 * 100 + 0 * 4 + 0 := by omega
      rw [hthis, hsucc, hyear, hnext]
      omega
  · next hwhole =>
    have hyear := @daysBeforeYear_cycles n400 n100 n4 n1 (by omega) (by omega) (by omega)
    have hnext := daysBeforeYear_succ (n400 * 400 + 1 + n100 * 100 + n4 * 4 + n1)
    omega

/-! ## Section 2: Weeks -/

/-- `_isoweek1monday`: the Monday of the week of the year that has its first Thursday. -/
def isoWeek1Monday (year : ℤ) : ℤ :=
  let firstday := daysBeforeYear year + 1
  let firstweekday := (firstday + 6) % 7
  let week1monday := firstday - firstweekday
  if firstweekday > 3 then week1monday + 7 else week1monday

/-- `isocalendar()[:2]`. -/
def isocalendar (ordinal : ℤ) : ℤ × ℤ :=
  let year := yearOf ordinal
  let week := (ordinal - isoWeek1Monday year) / 7
  if week < 0 then (year - 1, (ordinal - isoWeek1Monday (year - 1)) / 7 + 1)
  else if week ≥ 52 ∧ ordinal ≥ isoWeek1Monday (year + 1) then (year + 1, 1)
  else (year, week + 1)

/-- The first Monday is at most three days from the first day. -/
theorem isoWeek1Monday_bounds (year : ℤ) :
    daysBeforeYear year - 2 ≤ isoWeek1Monday year ∧
      isoWeek1Monday year ≤ daysBeforeYear year + 4 ∧ (isoWeek1Monday year - 1) % 7 = 0 := by
  simp only [isoWeek1Monday]
  split <;> omega

/-- An ISO year has at least 52 weeks. -/
theorem isoWeek1Monday_succ (year : ℤ) :
    isoWeek1Monday year + 364 ≤ isoWeek1Monday (year + 1) := by
  have hyear := daysBeforeYear_succ year
  have hthis := isoWeek1Monday_bounds year
  have hnext := isoWeek1Monday_bounds (year + 1)
  omega

/-- The pair names the ISO year that holds the day, and counts the weeks from its first Monday. -/
theorem isocalendar_spec (ordinal : ℤ) :
    isoWeek1Monday (isocalendar ordinal).1 ≤ ordinal ∧
      ordinal < isoWeek1Monday ((isocalendar ordinal).1 + 1) ∧
      (isocalendar ordinal).2 = (ordinal - isoWeek1Monday (isocalendar ordinal).1) / 7 + 1 := by
  obtain ⟨hafter, hbefore⟩ := daysBeforeYear_yearOf ordinal
  have hlast := isoWeek1Monday_bounds (yearOf ordinal - 1)
  have hthis := isoWeek1Monday_bounds (yearOf ordinal)
  have hnext := isoWeek1Monday_bounds (yearOf ordinal + 1)
  have hlater := isoWeek1Monday_bounds (yearOf ordinal + 1 + 1)
  have hlastYear := daysBeforeYear_succ (yearOf ordinal - 1)
  have hnextYear := daysBeforeYear_succ (yearOf ordinal + 1)
  rw [sub_add_cancel] at hlastYear
  simp only [isocalendar]
  split
  · -- Before the first Monday: the last week of the ISO year before.
    next hneg =>
    dsimp only
    rw [sub_add_cancel]
    omega
  · split
    · next hnextWeek =>
      dsimp only
      omega
    · next hsame =>
      have hthisYear := isoWeek1Monday_succ (yearOf ordinal)
      dsimp only
      omega

/-! ## Section 3: The order of the weeks -/

theorem isoWeek1Monday_mono {year year' : ℤ} (h : year ≤ year') :
    isoWeek1Monday year ≤ isoWeek1Monday year' := by
  induction year', h using Int.leInduction with
  | base => exact le_refl _
  | succ year' _ ih => exact ih.trans (by linarith [isoWeek1Monday_succ year'])

/-- The week that a day lies in, counted from that of day 1. -/
def weekNumber (ordinal : ℤ) : ℤ := (ordinal - 1) / 7

/-- The week of a day, by the year and the week that name it. -/
theorem weekNumber_eq (ordinal : ℤ) :
    weekNumber ordinal =
      weekNumber (isoWeek1Monday (isocalendar ordinal).1) + (isocalendar ordinal).2 - 1 := by
  obtain ⟨hafter, hbefore, hweek⟩ := isocalendar_spec ordinal
  have hmonday := isoWeek1Monday_bounds (isocalendar ordinal).1
  simp only [weekNumber]
  omega

/-- The weeks of an ISO year come before those of a later one. -/
theorem weekNumber_lt_of_year_lt {m n : ℤ} (h : (isocalendar m).1 < (isocalendar n).1) :
    weekNumber m < weekNumber n := by
  obtain ⟨-, hbefore, -⟩ := isocalendar_spec m
  obtain ⟨hafter, -, -⟩ := isocalendar_spec n
  have hmonday := isoWeek1Monday_bounds ((isocalendar m).1 + 1)
  have hmono := isoWeek1Monday_mono (Int.add_one_le_iff.mpr h)
  simp only [weekNumber]
  omega

/-- **The ISO order**: the pairs are ordered as the weeks are. -/
theorem isocalendar_lt_iff (m n : ℤ) :
    toLex (isocalendar m) < toLex (isocalendar n) ↔ weekNumber m < weekNumber n := by
  rw [Prod.Lex.toLex_lt_toLex]
  have hm := weekNumber_eq m
  have hn := weekNumber_eq n
  rcases lt_trichotomy (isocalendar m).1 (isocalendar n).1 with hlt | heq | hgt
  · exact ⟨fun _ => weekNumber_lt_of_year_lt hlt, fun _ => Or.inl hlt⟩
  · rw [heq] at hm ⊢
    omega
  · have hafter := weekNumber_lt_of_year_lt hgt
    omega

theorem isocalendar_eq_iff (m n : ℤ) :
    isocalendar m = isocalendar n ↔ weekNumber m = weekNumber n := by
  constructor
  · intro h
    rw [weekNumber_eq m, weekNumber_eq n, h]
  · intro h
    have hmn := (isocalendar_lt_iff m n).not
    have hnm := (isocalendar_lt_iff n m).not
    apply toLex_inj.mp
    apply le_antisymm
    · exact not_lt.mp (hnm.mpr (by omega))
    · exact not_lt.mp (hmn.mpr (by omega))

/-- The last day of 2018, and the Sunday and the Monday about the end of the last week of 2020. -/
example : isocalendar 737059 = (2019, 1) ∧ isocalendar 737793 = (2020, 53) ∧
    isocalendar 737794 = (2021, 1) := by decide

end SuperTrading.Logic
