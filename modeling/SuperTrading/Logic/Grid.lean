import Mathlib.Algebra.Order.Group.Int
import Mathlib.Tactic.Ring
import Mathlib.Tactic.Linarith

/-!
# Grids of Instants

`gridFloor size offset t` is the last point not after `t` of the grid with the given step
through the given point.
-/

namespace SuperTrading.Logic

def gridFloor (size offset t : ℤ) : ℤ := (t - offset) / size * size + offset

variable {size offset s t : ℤ}

theorem gridFloor_le (hsize : 0 < size) : gridFloor size offset t ≤ t := by
  have hle := Int.ediv_mul_le (t - offset) hsize.ne'
  simp only [gridFloor]
  omega

theorem lt_gridFloor_add (hsize : 0 < size) : t < gridFloor size offset t + size := by
  have hlt := Int.lt_ediv_add_one_mul_self (t - offset) hsize
  rw [add_mul, one_mul] at hlt
  simp only [gridFloor]
  omega

theorem gridFloor_mono (hsize : 0 < size) (h : s ≤ t) :
    gridFloor size offset s ≤ gridFloor size offset t := by
  have hdiv : (s - offset) / size ≤ (t - offset) / size := Int.ediv_le_ediv hsize (by omega)
  have hmul := mul_le_mul_of_nonneg_right hdiv hsize.le
  simp only [gridFloor]
  omega

theorem gridFloor_idem (hsize : 0 < size) :
    gridFloor size offset (gridFloor size offset t) = gridFloor size offset t := by
  simp only [gridFloor, add_sub_cancel_right, Int.mul_ediv_cancel _ hsize.ne']

/-- Two points of the grid are a step apart. -/
theorem add_le_of_lt_of_gridFloor (hsize : 0 < size) (hs : gridFloor size offset s = s)
    (ht : gridFloor size offset t = t) (h : s < t) : s + size ≤ t := by
  simp only [gridFloor] at hs ht
  have hlt : (s - offset) / size < (t - offset) / size := by
    by_contra hle
    have hmul := mul_le_mul_of_nonneg_right (not_lt.mp hle) hsize.le
    omega
  have hmul := mul_le_mul_of_nonneg_right (Int.add_one_le_iff.mpr hlt) hsize.le
  rw [add_mul, one_mul] at hmul
  omega

theorem gridFloor_eq_self_iff : gridFloor size offset t = t ↔ size ∣ t - offset := by
  constructor
  · intro h
    exact ⟨(t - offset) / size, by rw [gridFloor] at h; linarith⟩
  · intro h
    rw [gridFloor, Int.ediv_mul_cancel h]
    ring

/-- A point of a fine grid and the one of a coarse grid before it lie in the same coarse step,
unless the fine step that holds `t` begins before the coarse one: the fine points lie
`(offset - offset') % size` behind the coarse ones. -/
theorem gridFloor_gridFloor_iff {size' offset' : ℤ} (hsize : 0 < size) (hsize' : 0 < size')
    (hdvd : size ∣ size') :
    gridFloor size' offset' (gridFloor size offset t) = gridFloor size' offset' t ↔
      (offset - offset') % size ≤ t - gridFloor size' offset' t := by
  set fine := gridFloor size offset t with hfine
  set coarse := gridFloor size' offset' t with hcoarse
  have hnonneg : 0 ≤ (offset - offset') % size := Int.emod_nonneg _ hsize.ne'
  have hlt : (offset - offset') % size < size := Int.emod_lt_of_pos _ hsize
  -- Both points lie on their grids, and the grids part by the residue.
  have hfineGrid : size ∣ fine - offset := gridFloor_eq_self_iff.mp (gridFloor_idem hsize)
  have hcoarseGrid : size' ∣ coarse - offset' :=
    gridFloor_eq_self_iff.mp (gridFloor_idem hsize')
  have hresidue : size ∣ offset - offset' - (offset - offset') % size := Int.dvd_self_sub_emod
  constructor
  · intro h
    have hle : coarse ≤ fine := h ▸ gridFloor_le hsize'
    have hdiff : size ∣ fine - coarse - (offset - offset') % size := by
      have hsum := Int.dvd_add (Int.dvd_sub hfineGrid (hdvd.trans hcoarseGrid)) hresidue
      convert hsum using 1
      ring
    have hbehind : 0 ≤ fine - coarse - (offset - offset') % size := by
      by_contra hneg
      have hstep := Int.le_of_dvd (by omega) (Int.dvd_neg.mpr hdiff)
      omega
    have hbefore : fine ≤ t := gridFloor_le hsize
    omega
  · intro h
    -- The first fine point of the coarse step is not after `t`.
    have hpoint : gridFloor size offset (coarse + (offset - offset') % size) =
        coarse + (offset - offset') % size := by
      rw [gridFloor_eq_self_iff]
      have hsum := Int.dvd_sub (hdvd.trans hcoarseGrid) hresidue
      convert hsum using 1
      ring
    have hfirst : coarse + (offset - offset') % size ≤ fine := by
      rw [← hpoint]
      exact gridFloor_mono hsize (by omega)
    apply le_antisymm
    · exact gridFloor_mono hsize' (gridFloor_le hsize)
    · calc coarse = gridFloor size' offset' coarse := (gridFloor_idem hsize').symm
        _ ≤ gridFloor size' offset' fine := gridFloor_mono hsize' (by omega)

/-- A grid on a coarser clock: `size` and `offset` count ticks of length `unit`. -/
theorem gridFloor_scale {unit : ℤ} (hunit : 0 < unit) :
    ((t / unit - offset) / size * size + offset) * unit =
      gridFloor (size * unit) (offset * unit) t := by
  have hdiv : (t - offset * unit) / (size * unit) = (t / unit - offset) / size := by
    rw [mul_comm size unit, ← Int.ediv_ediv_of_nonneg hunit.le,
      Int.sub_mul_ediv_right _ _ hunit.ne']
  rw [gridFloor, hdiv]
  ring

end SuperTrading.Logic
