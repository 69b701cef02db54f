import Mathlib.Data.Int.Log
import Mathlib.Data.Rat.Floor
import Mathlib.Tactic.Linarith
import Mathlib.Tactic.Positivity

/-!
# Rounding

The nearest integer and the nearest double, where of two that are equally near the even one is
taken.

- **Integers**: `roundHalfEven` is monotone and at most a half away
- **Doubles**: `toDouble` is at most half a unit in the last place away, and does not pass an
  integer of up to 53 bits
-/

namespace SuperTrading.Logic

/-! ## Section 1: Integers -/

/-- Round to the nearest integer, ties to even. -/
def roundHalfEven (q : ℚ) : ℤ :=
  -- `q = f + r` with `0 ≤ r < 1`.
  let f := q.floor
  let r := q - f
  if r < 1 / 2 then f
  else if 1 / 2 < r then f + 1
  else if f % 2 = 0 then f else f + 1

theorem floor_le_roundHalfEven (q : ℚ) : q.floor ≤ roundHalfEven q := by
  simp only [roundHalfEven]
  split_ifs <;> omega

theorem roundHalfEven_le_floor_add_one (q : ℚ) : roundHalfEven q ≤ q.floor + 1 := by
  simp only [roundHalfEven]
  split_ifs <;> omega

theorem roundHalfEven_mono {q q' : ℚ} (h : q ≤ q') : roundHalfEven q ≤ roundHalfEven q' := by
  have hfloor : q.floor ≤ q'.floor := Rat.floor_monotone h
  rcases hfloor.lt_or_eq with hlt | heq
  · -- Whatever the remainders, there is an integer in between.
    have hup := roundHalfEven_le_floor_add_one q
    have hdown := floor_le_roundHalfEven q'
    omega
  · have hrest : q - q.floor ≤ q' - q'.floor := by rw [heq]; linarith
    simp only [roundHalfEven, heq] at hrest ⊢
    split_ifs <;> first | omega | (exfalso; linarith)

theorem roundHalfEven_intCast (n : ℤ) : roundHalfEven n = n := by
  have hfloor : (n : ℚ).floor = n := Rat.floor_intCast n
  simp [roundHalfEven, hfloor]

/-- Rounding goes up by a half at most. -/
theorem roundHalfEven_le (q : ℚ) : (roundHalfEven q : ℚ) ≤ q + 1 / 2 := by
  have hfloor : (q.floor : ℚ) ≤ q := Rat.floor_le q
  simp only [roundHalfEven]
  split_ifs <;> push_cast <;> linarith

theorem le_roundHalfEven_of_le {n : ℤ} {q : ℚ} (h : (n : ℚ) ≤ q) : n ≤ roundHalfEven q :=
  roundHalfEven_intCast n ▸ roundHalfEven_mono h

/-! ## Section 2: Doubles -/

/-- The unit in the last of the 53 binary places of a double of this magnitude. -/
def ulp (q : ℚ) : ℚ := 2 ^ (max (Int.log 2 |q|) (-1022) - 52)

/-- The double nearest to a number that is not beyond the largest one. -/
def toDouble (q : ℚ) : ℚ := roundHalfEven (q / ulp q) * ulp q

example : toDouble (1 / 10) = 3602879701896397 / 2 ^ 55 := by decide +kernel

variable {q : ℚ}

theorem ulp_pos (q : ℚ) : 0 < ulp q := zpow_pos (by norm_num) _

/-- Numbers of `n` binary places before the point have `53 - n` behind it. -/
theorem ulp_le {n : ℕ} (hn : 0 < n) (h : |q| < 2 ^ n) : ulp q ≤ 2 ^ ((n : ℤ) - 53) := by
  have hlog : Int.log 2 |q| < n := by
    rcases (abs_nonneg q).eq_or_lt with hzero | hpos
    · rw [← hzero, Int.log_zero_right]
      omega
    · rw [← Int.lt_zpow_iff_log_lt (by norm_num) hpos]
      exact_mod_cast h
  exact zpow_le_zpow_right₀ (by norm_num) (by omega)

/-- Integers of up to 53 binary places are whole numbers of units. -/
theorem exists_mul_ulp_eq_one (h : |q| < 2 ^ 53) : ∃ d : ℕ, (d : ℚ) * ulp q = 1 := by
  have hlog : max (Int.log 2 |q|) (-1022) - 52 ≤ 0 := by
    rcases (abs_nonneg q).eq_or_lt with hzero | hpos
    · rw [← hzero, Int.log_zero_right]
      omega
    · have hlt : Int.log 2 |q| < 53 := by
        rw [← Int.lt_zpow_iff_log_lt (by norm_num) hpos]
        exact_mod_cast h
      omega
  obtain ⟨e, he⟩ := Int.eq_ofNat_of_zero_le (neg_nonneg.mpr hlog)
  refine ⟨2 ^ e, ?_⟩
  rw [ulp, ← neg_neg (max _ _ - 52), he, zpow_neg, zpow_natCast]
  push_cast
  exact mul_inv_cancel₀ (by positivity)

/-- Rounding goes up by half a unit at most. -/
theorem toDouble_le (q : ℚ) : toDouble q ≤ q + ulp q / 2 := by
  have hround := mul_le_mul_of_nonneg_right (roundHalfEven_le (q / ulp q)) (ulp_pos q).le
  rw [add_mul, div_mul_cancel₀ _ (ulp_pos q).ne'] at hround
  rw [toDouble]
  linarith

/-- Rounding does not go down past an integer. -/
theorem intCast_le_toDouble {n : ℤ} (hq : |q| < 2 ^ 53) (h : (n : ℚ) ≤ q) : n ≤ toDouble q := by
  obtain ⟨d, hd⟩ := exists_mul_ulp_eq_one hq
  have hunits : ((n * d : ℤ) : ℚ) ≤ q / ulp q := by
    rw [le_div_iff₀ (ulp_pos q)]
    push_cast
    rwa [mul_assoc, hd, mul_one]
  have hround : ((n * d : ℤ) : ℚ) ≤ roundHalfEven (q / ulp q) := by
    exact_mod_cast le_roundHalfEven_of_le hunits
  calc (n : ℚ) = (n * d : ℤ) * ulp q := by push_cast; rw [mul_assoc, hd, mul_one]
    _ ≤ toDouble q := mul_le_mul_of_nonneg_right hround (ulp_pos q).le

/-- The double lies between the same multiples of `w` as the number, if the next one is more than
half a unit away. -/
theorem floor_toDouble_div {w : ℕ} (hw : 0 < w) (hq : |q| < 2 ^ 53)
    (h : q + ulp q / 2 < (⌊q / w⌋ + 1) * w) : ⌊toDouble q / w⌋ = ⌊q / w⌋ := by
  have hwpos : (0 : ℚ) < w := by exact_mod_cast hw
  have hfloor : ((⌊q / w⌋ * w : ℤ) : ℚ) ≤ q := by
    have hle := Int.floor_le (q / w)
    rw [le_div_iff₀ hwpos] at hle
    exact_mod_cast hle
  rw [Int.floor_eq_iff, le_div_iff₀ hwpos, div_lt_iff₀ hwpos]
  constructor
  · have hle := intCast_le_toDouble hq hfloor
    push_cast at hle
    exact hle
  · exact (toDouble_le q).trans_lt h

end SuperTrading.Logic
