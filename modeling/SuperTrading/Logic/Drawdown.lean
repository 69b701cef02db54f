import Mathlib.Algebra.Order.Group.Defs
import Mathlib.Algebra.Order.Group.MinMax
import Mathlib.Algebra.BigOperators.Group.List.Basic
import Mathlib.Order.Bounds.Basic

/-!
# Drawdowns

How far a series falls from a point to one that is not before it. The greatest of these falls
is a maximum over pairs of points, and one pass that keeps the peak so far finds it.

- `Falls`: the falls of a series
- `totals`: the running totals of a series of changes
- `belowPeak`: how far each point lies under the peak so far
- `greatestFall`: the one pass
-/

namespace SuperTrading.Logic

variable {α : Type*} [AddCommGroup α] [LinearOrder α]

/-! ## Section 1: The falls of a series -/

/-- The falls of a series: from its point `i` to its point `j`, which is not before it. -/
def Falls (points : List α) : Set α :=
  { d | ∃ (i j : ℕ) (x y : α), i ≤ j ∧ points[i]? = some x ∧ points[j]? = some y ∧ d = x - y }

omit [LinearOrder α] in
@[simp] theorem falls_nil : Falls ([] : List α) = ∅ := by
  ext d
  simp [Falls]

omit [LinearOrder α] in
/-- A fall begins at the first point or later. -/
theorem mem_falls_cons {x d : α} {points : List α} :
    d ∈ Falls (x :: points) ↔ (∃ y ∈ x :: points, d = x - y) ∨ d ∈ Falls points := by
  constructor
  · rintro ⟨i, j, top, low, hij, hi, hj, rfl⟩
    cases i with
    | zero =>
      cases hi
      exact .inl ⟨low, List.mem_of_getElem? hj, rfl⟩
    | succ i =>
      obtain ⟨j, rfl⟩ : ∃ k, j = k + 1 := ⟨j - 1, by omega⟩
      exact .inr ⟨i, j, top, low, by omega, hi, hj, rfl⟩
  · rintro (⟨y, hy, rfl⟩ | ⟨i, j, top, low, hij, hi, hj, rfl⟩)
    · obtain ⟨j, hj⟩ := List.mem_iff_getElem?.mp hy
      exact ⟨0, j, x, y, Nat.zero_le j, rfl, hj, rfl⟩
    · exact ⟨i + 1, j + 1, top, low, by omega, hi, hj, rfl⟩

/-- The running totals of a series of changes, the one it starts from left out. -/
def totals : α → List α → List α
  | _, [] => []
  | total, change :: changes => (total + change) :: totals (total + change) changes

omit [LinearOrder α] in
theorem getLast?_totals (total : α) (changes : List α) :
    (total :: totals total changes).getLast? = some (total + changes.sum) := by
  induction changes generalizing total with
  | nil => simp [totals]
  | cons change changes ih =>
    rw [totals, List.getLast?_cons_cons, ih, List.sum_cons, add_assoc]

/-! ## Section 2: One pass -/

/-- How far each point lies under the peak so far. -/
def belowPeak : α → List α → List α
  | _, [] => []
  | peak, x :: points => (max peak x - x) :: belowPeak (max peak x) points

/-- The greatest of `best` and the falls below a peak that only rises. -/
def greatestFall (best : α) : α → List α → α
  | _, [] => best
  | peak, x :: points => greatestFall (max best (max peak x - x)) (max peak x) points

/-- The pass takes the maximum of its curve. -/
theorem greatestFall_eq_foldl (best peak : α) (points : List α) :
    greatestFall best peak points = (belowPeak peak points).foldl max best := by
  induction points generalizing best peak with
  | nil => rfl
  | cons x points ih => exact ih _ _

variable [IsOrderedAddMonoid α]

/-- Whatever bounds the pass bounds what it started from, the falls from the peak, and the falls
of the points. -/
theorem greatestFall_le_iff {best peak b : α} {points : List α} :
    greatestFall best peak points ≤ b ↔
      best ≤ b ∧ (∀ y ∈ points, peak - y ≤ b) ∧ ∀ d ∈ Falls points, d ≤ b := by
  induction points generalizing best peak with
  | nil => simp [greatestFall]
  | cons x points ih =>
    -- A fall from the new peak is one from the old peak or one from `x`.
    have hpeak : ∀ y, max peak x - y = max (peak - y) (x - y) :=
      fun y => (max_sub_sub_right ..).symm
    simp only [greatestFall, ih, mem_falls_cons, List.forall_mem_cons, hpeak, max_le_iff]
    constructor
    · rintro ⟨⟨hbest, hx, h0⟩, hpoints, hfalls⟩
      refine ⟨hbest, ⟨hx, fun y hy => (hpoints y hy).1⟩, ?_⟩
      rintro d (⟨y, hy, rfl⟩ | hd)
      · rcases List.mem_cons.mp hy with rfl | hy
        · exact h0
        · exact (hpoints y hy).2
      · exact hfalls d hd
    · rintro ⟨hbest, ⟨hx, hpoints⟩, hfalls⟩
      refine ⟨⟨hbest, hx, hfalls _ (.inl ⟨x, List.mem_cons_self, rfl⟩)⟩, fun y hy => ?_,
        fun d hd => hfalls d (.inr hd)⟩
      exact ⟨hpoints y hy, hfalls _ (.inl ⟨y, List.mem_cons_of_mem _ hy, rfl⟩)⟩

omit [IsOrderedAddMonoid α] in
/-- The pass ends with one of them. -/
theorem greatestFall_mem (best peak : α) (points : List α) :
    greatestFall best peak points = best ∨
      (∃ y ∈ points, greatestFall best peak points = peak - y) ∨
      greatestFall best peak points ∈ Falls points := by
  induction points generalizing best peak with
  | nil => exact .inl rfl
  | cons x points ih =>
    have hfirst : x - x ∈ Falls (x :: points) :=
      mem_falls_cons.mpr (.inl ⟨x, List.mem_cons_self, rfl⟩)
    simp only [greatestFall]
    rcases ih (max best (max peak x - x)) (max peak x) with h | ⟨y, hy, h⟩ | h
    · -- The greatest is the start, or the fall to this point.
      rw [h]
      rcases max_choice best (max peak x - x) with hmax | hmax
      · exact .inl hmax
      · rcases max_choice peak x with hpeak | hpeak
        · exact .inr (.inl ⟨x, List.mem_cons_self, by rw [hmax, hpeak]⟩)
        · exact .inr (.inr (by rw [hmax, hpeak]; exact hfirst))
    · rw [h]
      rcases max_choice peak x with hpeak | hpeak
      · exact .inr (.inl ⟨y, List.mem_cons_of_mem _ hy, by rw [hpeak]⟩)
      · refine .inr (.inr ?_)
        rw [hpeak]
        exact mem_falls_cons.mpr (.inl ⟨y, List.mem_cons_of_mem _ hy, rfl⟩)
    · exact .inr (.inr (mem_falls_cons.mpr (.inr h)))

/-- From the first point on, the one pass finds the greatest fall. -/
theorem isGreatest_greatestFall (x : α) (points : List α) :
    IsGreatest (Falls (x :: points)) (greatestFall 0 x points) := by
  have hzero : (0 : α) ∈ Falls (x :: points) :=
    mem_falls_cons.mpr (.inl ⟨x, List.mem_cons_self, (sub_self x).symm⟩)
  constructor
  · rcases greatestFall_mem 0 x points with h | ⟨y, hy, h⟩ | h
    · rw [h]
      exact hzero
    · rw [h]
      exact mem_falls_cons.mpr (.inl ⟨y, List.mem_cons_of_mem _ hy, rfl⟩)
    · exact mem_falls_cons.mpr (.inr h)
  · intro d hd
    obtain ⟨h0, hpoints, hfalls⟩ := greatestFall_le_iff.mp (le_refl (greatestFall 0 x points))
    rcases mem_falls_cons.mp hd with ⟨y, hy, rfl⟩ | hd
    · rcases List.mem_cons.mp hy with rfl | hy
      · rwa [sub_self]
      · exact hpoints y hy
    · exact hfalls d hd

end SuperTrading.Logic
