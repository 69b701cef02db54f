import SuperTrading.Options.PayoffShape
import Mathlib.Algebra.BigOperators.Ring.List

/-!
# Breakevens

`compute_payoff_summary` finds where the payoff crosses 0 by joining its samples. Between two
samples the payoff leaves the line that joins them wherever a strike lies in between, and the
strikes in between decide whether the crossing that is reported is one, and the only one.

- **One cell**: the payoff against the line that joins two samples
- **The report**: which crossings are reported
- **Exactness**: what the strikes between two samples have to satisfy
-/

namespace SuperTrading

open SuperTrading.Logic

/-! ## Section 1: One cell -/

/-- How far a strike between `l` and `r` bends the line from `l` to `r` at `x`. -/
def tent (strike l r x : ℚ) : ℚ := max 0 (min ((r - strike) * (x - l)) ((strike - l) * (r - x)))

/-- The pull of all strikes between `l` and `r` on the line from `l` to `r`. -/
def pull (legs : List OptionLeg) (l r x : ℚ) : ℚ :=
  (legs.map fun leg => leg.weight * tent leg.strike l r x).sum

/-- Where the line from `l` to `r` is 0. -/
def chordZero (legs : List OptionLeg) (l r : ℚ) : ℚ :=
  l + (r - l) * (-totalPayoff legs l) / (totalPayoff legs r - totalPayoff legs l)

/-- What two neighbouring samples report. -/
def cellBreakeven (legs : List OptionLeg) (l r : ℚ) : Option ℚ :=
  if totalPayoff legs l = 0 then some l
  else if totalPayoff legs l * totalPayoff legs r < 0 then some (chordZero legs l r)
  else none

section Cell

variable {legs : List OptionLeg} {l r x : ℚ}

/-- A hinge, by its chord and its tent. -/
theorem hinge_chord (strike : ℚ) (hl : l ≤ x) (hr : x ≤ r) :
    (r - l) * max (x - strike) 0 =
      (r - x) * max (l - strike) 0 + (x - l) * max (r - strike) 0 - tent strike l r x := by
  unfold tent
  rcases le_total strike l with hkl | hlk
  · have hmin : min ((r - strike) * (x - l)) ((strike - l) * (r - x)) ≤ 0 :=
      (min_le_right _ _).trans (mul_nonpos_of_nonpos_of_nonneg (by linarith) (by linarith))
    rw [max_eq_left hmin, max_eq_left (by linarith), max_eq_left (by linarith),
      max_eq_left (by linarith)]
    ring
  rcases le_total r strike with hrk | hkr
  · have hmin : min ((r - strike) * (x - l)) ((strike - l) * (r - x)) ≤ 0 :=
      (min_le_left _ _).trans (mul_nonpos_of_nonpos_of_nonneg (by linarith) (by linarith))
    rw [max_eq_left hmin, max_eq_right (by linarith), max_eq_right (by linarith),
      max_eq_right (by linarith)]
    ring
  -- The two slopes of the tent meet at the strike.
  have hgap : (r - strike) * (x - l) - (strike - l) * (r - x) = (x - strike) * (r - l) := by ring
  have hleft : 0 ≤ (r - strike) * (x - l) := mul_nonneg (by linarith) (by linarith)
  have hright : 0 ≤ (strike - l) * (r - x) := mul_nonneg (by linarith) (by linarith)
  rcases le_total x strike with hxk | hkx
  · have hle : (r - strike) * (x - l) ≤ (strike - l) * (r - x) := by
      have hneg := mul_nonpos_of_nonpos_of_nonneg (sub_nonpos.mpr hxk) (by linarith : 0 ≤ r - l)
      linarith
    rw [min_eq_left hle, max_eq_right hleft, max_eq_right (by linarith),
      max_eq_right (by linarith), max_eq_left (by linarith)]
    ring
  · have hle : (strike - l) * (r - x) ≤ (r - strike) * (x - l) := by
      have hpos := mul_nonneg (sub_nonneg.mpr hkx) (by linarith : 0 ≤ r - l)
      linarith
    rw [min_eq_right hle, max_eq_right hright, max_eq_left (by linarith),
      max_eq_right (by linarith), max_eq_left (by linarith)]
    ring

/-- Puts bend as calls do. -/
theorem legPayoff_chord (leg : OptionLeg) (hl : l ≤ x) (hr : x ≤ r) :
    (r - l) * legPayoff leg x =
      (r - x) * legPayoff leg l + (x - l) * legPayoff leg r -
        leg.weight * tent leg.strike l r x := by
  have hhinge := hinge_chord leg.strike hl hr
  simp only [legPayoff_eq, legIntrinsicValue]
  cases leg.optionType with
  | call => linear_combination leg.weight * hhinge
  | put =>
    simp only [PiecewiseAffine.max_sub_eq leg.strike]
    linear_combination leg.weight * hhinge

/-- **Between two samples the payoff is the line that joins them, less the pull of the
strikes.** -/
theorem totalPayoff_chord (hl : l ≤ x) (hr : x ≤ r) :
    (r - l) * totalPayoff legs x =
      (r - x) * totalPayoff legs l + (x - l) * totalPayoff legs r - pull legs l r x := by
  unfold totalPayoff pull
  induction legs with
  | nil => simp
  | cons leg legs ih =>
    simp only [List.map_cons, List.sum_cons]
    linear_combination legPayoff_chord leg hl hr + ih

/-- A line that changes sign is 0 in between. -/
theorem chordZero_spec (hlr : l < r) (hcross : totalPayoff legs l * totalPayoff legs r < 0) :
    l < chordZero legs l r ∧ chordZero legs l r < r ∧
      (r - chordZero legs l r) * totalPayoff legs l +
        (chordZero legs l r - l) * totalPayoff legs r = 0 := by
  unfold chordZero
  generalize totalPayoff legs l = u at hcross ⊢
  generalize totalPayoff legs r = v at hcross ⊢
  -- The zero divides the cell in the ratio of the two samples.
  have hratio : 0 < -u / (v - u) ∧ -u / (v - u) < 1 := by
    rcases mul_neg_iff.mp hcross with ⟨hu, hv⟩ | ⟨hu, hv⟩
    · have hneg : v - u < 0 := by linarith
      refine ⟨div_pos_of_neg_of_neg (by linarith) hneg, ?_⟩
      rw [div_lt_one_of_neg hneg]
      linarith
    · have hpos : 0 < v - u := by linarith
      refine ⟨div_pos (by linarith) hpos, ?_⟩
      rw [div_lt_one hpos]
      linarith
  have hne : v - u ≠ 0 := by
    intro heq
    simp [heq] at hratio
  have hlen : 0 < r - l := sub_pos.mpr hlr
  have hscaled : (r - l) * (-u / (v - u)) < (r - l) * 1 := mul_lt_mul_of_pos_left hratio.2 hlen
  rw [mul_div_assoc]
  refine ⟨by linarith [mul_pos hlen hratio.1], by linarith, ?_⟩
  field_simp
  ring

/-- The line's zero is one of the payoff exactly if the strikes do not pull there. -/
theorem totalPayoff_chordZero (hlr : l < r)
    (hcross : totalPayoff legs l * totalPayoff legs r < 0) :
    totalPayoff legs (chordZero legs l r) = 0 ↔ pull legs l r (chordZero legs l r) = 0 := by
  obtain ⟨hl, hr, hzero⟩ := chordZero_spec hlr hcross
  have hchord := @totalPayoff_chord legs l r _ hl.le hr.le
  have hlen : r - l ≠ 0 := (sub_pos.mpr hlr).ne'
  rw [hzero, zero_sub] at hchord
  constructor
  · intro hpayoff
    rw [hpayoff, mul_zero] at hchord
    linarith
  · intro hpull
    rw [hpull, neg_zero] at hchord
    exact (mul_eq_zero.mp hchord).resolve_left hlen

/-- The line's zero divides the cell in the ratio of the two samples. -/
theorem chordZero_ratio (hlr : l < r) (hcross : totalPayoff legs l * totalPayoff legs r < 0) :
    ∃ scale, 0 < scale ∧ chordZero legs l r - l = scale * |totalPayoff legs l| ∧
      r - chordZero legs l r = scale * |totalPayoff legs r| := by
  obtain ⟨hl, hr, hzero⟩ := chordZero_spec hlr hcross
  generalize chordZero legs l r = z at hl hr hzero ⊢
  have hul : totalPayoff legs l ≠ 0 := left_ne_zero_of_mul hcross.ne
  have hlow : 0 < |totalPayoff legs l| := abs_pos.mpr hul
  refine ⟨(z - l) / |totalPayoff legs l|, div_pos (sub_pos.mpr hl) hlow, ?_, ?_⟩
  · field_simp
  · rw [div_mul_eq_mul_div, eq_div_iff hlow.ne']
    rcases mul_neg_iff.mp hcross with ⟨hu, hv⟩ | ⟨hu, hv⟩
    · rw [abs_of_pos hu, abs_of_neg hv]
      linarith
    · rw [abs_of_neg hu, abs_of_pos hv]
      linarith

/-- The weights of the strikes between two samples, each by how far the strike lets the line come
from the sample it is nearer to. -/
def strikeBalance (legs : List OptionLeg) (l r : ℚ) : ℚ :=
  (legs.map fun leg =>
    if l < leg.strike ∧ leg.strike < r then
      leg.weight * min ((r - leg.strike) * |totalPayoff legs l|)
        ((leg.strike - l) * |totalPayoff legs r|)
    else 0).sum

/-- At the line's zero the strikes do not pull exactly if their weights balance. -/
theorem pull_chordZero (hlr : l < r) (hcross : totalPayoff legs l * totalPayoff legs r < 0) :
    pull legs l r (chordZero legs l r) = 0 ↔ strikeBalance legs l r = 0 := by
  obtain ⟨scale, hscale, hleft, hright⟩ := chordZero_ratio hlr hcross
  have hlow : 0 ≤ |totalPayoff legs l| := abs_nonneg _
  have hhigh : 0 ≤ |totalPayoff legs r| := abs_nonneg _
  -- At the line's zero both arms of a tent are scaled by the same number.
  have htent : ∀ strike, tent strike l r (chordZero legs l r) =
      if l < strike ∧ strike < r then
        scale * min ((r - strike) * |totalPayoff legs l|) ((strike - l) * |totalPayoff legs r|)
      else 0 := by
    intro strike
    rw [tent, hleft, hright, mul_left_comm (r - strike), mul_left_comm (strike - l),
      ← mul_min_of_nonneg _ _ hscale.le]
    split_ifs with hin
    · -- Inside the cell the lower arm is positive; outside one of the two is not.
      refine max_eq_right (mul_nonneg hscale.le (le_min ?_ ?_))
      · exact mul_nonneg (sub_nonneg.mpr hin.2.le) hlow
      · exact mul_nonneg (sub_nonneg.mpr hin.1.le) hhigh
    · refine max_eq_left (mul_nonpos_of_nonneg_of_nonpos hscale.le ?_)
      rcases not_and_or.mp hin with hout | hout
      · exact (min_le_right _ _).trans (mul_nonpos_of_nonpos_of_nonneg
          (sub_nonpos.mpr (not_lt.mp hout)) hhigh)
      · exact (min_le_left _ _).trans (mul_nonpos_of_nonpos_of_nonneg
          (sub_nonpos.mpr (not_lt.mp hout)) hlow)
  -- So the pull is the balance of the weights, scaled.
  have hscaled : pull legs l r (chordZero legs l r) = scale * strikeBalance legs l r := by
    rw [pull, strikeBalance, ← List.sum_map_mul_left]
    refine congrArg List.sum (List.map_congr_left fun leg _ => ?_)
    rw [htent]
    split_ifs
    · ring
    · rw [mul_zero, mul_zero]
  rw [hscaled, mul_eq_zero, or_iff_right hscale.ne']

/-- On which side of the line's zero a price lies, by the two samples. -/
theorem le_chordZero_iff (hlr : l < r) (hcross : totalPayoff legs l * totalPayoff legs r < 0)
    (k : ℚ) :
    (k ≤ chordZero legs l r ↔
      (k - l) * |totalPayoff legs r| ≤ (r - k) * |totalPayoff legs l|) ∧
    (chordZero legs l r ≤ k ↔
      (r - k) * |totalPayoff legs l| ≤ (k - l) * |totalPayoff legs r|) := by
  obtain ⟨scale, hscale, hleft, hright⟩ := chordZero_ratio hlr hcross
  have hul : 0 < |totalPayoff legs l| := abs_pos.mpr (left_ne_zero_of_mul hcross.ne)
  have hur : 0 < |totalPayoff legs r| := abs_pos.mpr (right_ne_zero_of_mul hcross.ne)
  generalize chordZero legs l r = z at hleft hright ⊢
  -- Both sides say how `k - z` compares with 0.
  have hgap : (r - k) * |totalPayoff legs l| - (k - l) * |totalPayoff legs r| =
      (z - k) * (|totalPayoff legs l| + |totalPayoff legs r|) := by
    linear_combination |totalPayoff legs l| * hright - |totalPayoff legs r| * hleft
  have hsum : 0 < |totalPayoff legs l| + |totalPayoff legs r| := add_pos hul hur
  constructor
  · rw [← sub_nonneg, ← sub_nonneg (a := (r - k) * _), hgap, mul_nonneg_iff_of_pos_right hsum]
  · rw [← sub_nonpos, ← sub_nonpos (a := (r - k) * _), hgap, ← not_lt, ← not_lt,
      mul_pos_iff_of_pos_right hsum]

/-- The points of a cell that decide its signs: its ends and the strikes inside. -/
def Corner (legs : List OptionLeg) (l r a : ℚ) : Prop :=
  a = l ∨ a = r ∨ a ∈ strikes legs ∧ l < a ∧ a < r

/-- What the strikes between two neighbouring samples have to satisfy. Where the samples change
sign, the weights of the strikes balance, and each strike stays on the side of the sample it is
nearer to, counted by the samples; elsewhere no two corners lie on different sides. -/
structure CellExact (legs : List OptionLeg) (l r : ℚ) : Prop where
  crossing : totalPayoff legs l * totalPayoff legs r < 0 →
    strikeBalance legs l r = 0 ∧
      ∀ k ∈ strikes legs, l < k → k < r →
        ((k - l) * |totalPayoff legs r| ≤ (r - k) * |totalPayoff legs l| →
          0 ≤ totalPayoff legs l * totalPayoff legs k) ∧
        ((r - k) * |totalPayoff legs l| ≤ (k - l) * |totalPayoff legs r| →
          0 ≤ totalPayoff legs r * totalPayoff legs k)
  quiet : ¬ totalPayoff legs l * totalPayoff legs r < 0 →
    ∀ a b, Corner legs l r a → Corner legs l r b → 0 ≤ totalPayoff legs a * totalPayoff legs b

/-- The same of the line's zero, which is what the cell reports. -/
theorem crossing_iff (hlr : l < r) (hcross : totalPayoff legs l * totalPayoff legs r < 0) :
    (strikeBalance legs l r = 0 ∧
      ∀ k ∈ strikes legs, l < k → k < r →
        ((k - l) * |totalPayoff legs r| ≤ (r - k) * |totalPayoff legs l| →
          0 ≤ totalPayoff legs l * totalPayoff legs k) ∧
        ((r - k) * |totalPayoff legs l| ≤ (k - l) * |totalPayoff legs r| →
          0 ≤ totalPayoff legs r * totalPayoff legs k)) ↔
    totalPayoff legs (chordZero legs l r) = 0 ∧
      ∀ k ∈ strikes legs, l < k → k < r →
        (k ≤ chordZero legs l r → 0 ≤ totalPayoff legs l * totalPayoff legs k) ∧
        (chordZero legs l r ≤ k → 0 ≤ totalPayoff legs r * totalPayoff legs k) := by
  rw [totalPayoff_chordZero hlr hcross, pull_chordZero hlr hcross]
  simp only [(le_chordZero_iff hlr hcross _).1, (le_chordZero_iff hlr hcross _).2]

/-- Two numbers on the side of a third are on one side. -/
theorem mul_nonneg_of_side {s u v : ℚ} (hs : s ≠ 0) (hu : 0 ≤ s * u) (hv : 0 ≤ s * v) :
    0 ≤ u * v := by
  have hprod : 0 ≤ s ^ 2 * (u * v) := by
    have heq : s ^ 2 * (u * v) = s * u * (s * v) := by ring
    rw [heq]
    exact mul_nonneg hu hv
  exact nonneg_of_mul_nonneg_right hprod (by positivity)

/-- In an exact cell, prices with no reported crossing between them are on one side. -/
theorem CellExact.side (h : CellExact legs l r) (hlr : l < r) {p q : ℚ} (hlp : l ≤ p)
    (hpq : p ≤ q) (hqr : q ≤ r)
    (hnone : ∀ b ∈ cellBreakeven legs l r, ¬ (p ≤ b ∧ b ≤ q)) :
    0 ≤ totalPayoff legs p * totalPayoff legs q := by
  have hbends := piecewiseAffine_totalPayoff legs
  by_cases hcross : totalPayoff legs l * totalPayoff legs r < 0
  · obtain ⟨hl, hr, -⟩ := chordZero_spec hlr hcross
    obtain ⟨hzero, hknots⟩ := (crossing_iff hlr hcross).mp (h.crossing hcross)
    have hul : totalPayoff legs l ≠ 0 := left_ne_zero_of_mul hcross.ne
    have hur : totalPayoff legs r ≠ 0 := right_ne_zero_of_mul hcross.ne
    have hreported : chordZero legs l r ∈ cellBreakeven legs l r := by
      simp [cellBreakeven, hul, hcross]
    -- The reported zero is on one side of both prices.
    rcases lt_or_ge (chordZero legs l r) p with hzp | hpz
    · have hside : ∀ x, chordZero legs l r ≤ x → x ≤ r →
          0 ≤ totalPayoff legs r * totalPayoff legs x := by
        intro x hzx hxr
        refine hbends.side_of_knots (by rw [hzero, mul_zero]) (mul_self_nonneg _) ?_ hzx hxr
        exact fun k hk hzk hkr => (hknots k hk (hl.trans hzk) hkr).2 hzk.le
      exact mul_nonneg_of_side hur (hside p hzp.le (hpq.trans hqr))
        (hside q (hzp.le.trans hpq) hqr)
    · have hqz : q < chordZero legs l r := by
        by_contra hzq
        exact hnone _ hreported ⟨hpz, not_lt.mp hzq⟩
      have hside : ∀ x, l ≤ x → x ≤ chordZero legs l r →
          0 ≤ totalPayoff legs l * totalPayoff legs x := by
        intro x hlx hxz
        refine hbends.side_of_knots (mul_self_nonneg _) (by rw [hzero, mul_zero]) ?_ hlx hxz
        exact fun k hk hlk hkz => (hknots k hk hlk (hkz.trans hr)).1 hkz.le
      exact mul_nonneg_of_side hul (hside p hlp hpz) (hside q (hlp.trans hpq) hqz.le)
  · -- A corner is on the side of every point, and so every point on the side of each other.
    have hcorners := h.quiet hcross
    have hpoint : ∀ a, Corner legs l r a → ∀ x, l ≤ x → x ≤ r →
        0 ≤ totalPayoff legs a * totalPayoff legs x := by
      intro a ha x hlx hxr
      exact hbends.side_of_knots (hcorners a l ha (.inl rfl)) (hcorners a r ha (.inr (.inl rfl)))
        (fun k hk hlk hkr => hcorners a k ha (.inr (.inr ⟨hk, hlk, hkr⟩))) hlx hxr
    refine hbends.side_of_knots ?_ ?_ ?_ (hlp.trans hpq) hqr
    · rw [mul_comm]
      exact hpoint l (.inl rfl) p hlp (hpq.trans hqr)
    · rw [mul_comm]
      exact hpoint r (.inr (.inl rfl)) p hlp (hpq.trans hqr)
    · intro k hk hlk hkr
      rw [mul_comm]
      exact hpoint k (.inr (.inr ⟨hk, hlk, hkr⟩)) p hlp (hpq.trans hqr)

end Cell

/-! ## Section 2: The report -/

/-- One cell's report stands before the reports of the rest. -/
theorem payoffBreakevens_cons (legs : List OptionLeg) (l r : ℚ) (prices : List ℚ) :
    payoffBreakevens (computePayoffCurve legs (l :: r :: prices)) =
      (cellBreakeven legs l r).toList ++
        payoffBreakevens (computePayoffCurve legs (r :: prices)) := by
  simp only [computePayoffCurve, List.map_cons, payoffBreakevens, cellBreakeven, chordZero]
  split_ifs <;> rfl

theorem mem_payoffBreakevens (legs : List OptionLeg) (price : ℕ → ℚ) (n first : ℕ) (b : ℚ) :
    b ∈ payoffBreakevens (computePayoffCurve legs ((List.range' first (n + 1)).map price)) ↔
      ∃ i, first ≤ i ∧ i < first + n ∧ b ∈ cellBreakeven legs (price i) (price (i + 1)) := by
  induction n generalizing first with
  | zero =>
    constructor
    · intro h
      simp [computePayoffCurve, payoffBreakevens] at h
    · rintro ⟨i, hle, hlt, -⟩
      omega
  | succ n ih =>
    have hprices : (List.range' first (n + 1 + 1)).map price =
        price first :: price (first + 1) :: (List.range' (first + 2) n).map price := by
      simp [List.range'_succ]
    have hrest : price (first + 1) :: (List.range' (first + 2) n).map price =
        (List.range' (first + 1) (n + 1)).map price := by
      simp [List.range'_succ]
    rw [hprices, payoffBreakevens_cons, List.mem_append, Option.mem_toList, hrest, ih]
    -- The first cell, or one of the others.
    constructor
    · rintro (hb | ⟨i, hle, hlt, hb⟩)
      · exact ⟨first, le_rfl, by omega, hb⟩
      · exact ⟨i, by omega, by omega, hb⟩
    · rintro ⟨i, hle, hlt, hb⟩
      rcases hle.eq_or_lt with rfl | hlt'
      · exact .inl hb
      · exact .inr ⟨i, hlt', by omega, hb⟩

section Report

variable {legs : List OptionLeg}

/-- A reported breakeven is that of one of the 2000 cells. -/
theorem mem_breakevens {b : ℚ} :
    b ∈ payoffBreakevens (computePayoffCurve legs (payoffPriceRange legs)) ↔
      ∃ i < 2000, b ∈ cellBreakeven legs (samplePrice legs i) (samplePrice legs (i + 1)) := by
  rw [payoffPriceRange_eq, List.range_eq_range']
  simpa using mem_payoffBreakevens legs (samplePrice legs) 2000 0 b

theorem samplePrice_lt (hpos : 0 < highestStrike legs) {i j : ℕ} (hij : i < j) :
    samplePrice legs i < samplePrice legs j := by
  have hcast : (i : ℚ) < j := by exact_mod_cast hij
  unfold samplePrice
  gcongr

theorem samplePrice_le (hpos : 0 < highestStrike legs) {i j : ℕ} (hij : i ≤ j) :
    samplePrice legs i ≤ samplePrice legs j := by
  rcases hij.eq_or_lt with rfl | hlt
  · exact le_rfl
  · exact (samplePrice_lt hpos hlt).le

/-- A cell reports a price of its own, its low end or one inside. -/
theorem cellBreakeven_bounds {l r b : ℚ} (hlr : l < r) (hb : b ∈ cellBreakeven legs l r) :
    l ≤ b ∧ b < r := by
  unfold cellBreakeven at hb
  split_ifs at hb with hzero hcross
  · cases hb
    exact ⟨le_rfl, hlr⟩
  · cases hb
    obtain ⟨hl, hr, -⟩ := chordZero_spec hlr hcross
    exact ⟨hl.le, hr⟩
  · cases hb

/-- What is reported inside a cell, the cell has reported. -/
theorem cell_of_reported (hpos : 0 < highestStrike legs) {i j : ℕ} {b : ℚ}
    (hb : b ∈ cellBreakeven legs (samplePrice legs j) (samplePrice legs (j + 1)))
    (hlow : samplePrice legs i ≤ b) (hhigh : b < samplePrice legs (i + 1)) : j = i := by
  obtain ⟨hl, hr⟩ := cellBreakeven_bounds (samplePrice_lt hpos (Nat.lt_succ_self j)) hb
  rcases lt_trichotomy j i with hlt | heq | hlt
  · have hle := samplePrice_le hpos (Nat.succ_le_of_lt hlt)
    exact absurd (hr.trans_le (hle.trans hlow)) (lt_irrefl _)
  · exact heq
  · have hle := samplePrice_le hpos (Nat.succ_le_of_lt hlt)
    exact absurd (hhigh.trans_le (hle.trans hl)) (lt_irrefl _)

end Report

/-! ## Section 3: Exactness -/

/-- Every reported breakeven is a zero of the payoff, and between any two prices of the sampled
range where the payoff has different signs one is reported. -/
structure BreakevensExact (legs : List OptionLeg) (payoff : PayoffResult) : Prop where
  sound : ∀ b ∈ payoff.breakevens, totalPayoff legs b = 0
  complete : ∀ p q, 0 ≤ p → p < q → q ≤ highestStrike legs * (3 / 2) →
    totalPayoff legs p * totalPayoff legs q < 0 → ∃ b ∈ payoff.breakevens, p ≤ b ∧ b ≤ q

section Exact

variable {legs : List OptionLeg}

/-- Prices of the range with no reported crossing between them are on one side, if every cell
is exact. The induction is on the cells up to the higher price. -/
theorem side_of_cells (hpos : 0 < highestStrike legs)
    (hcells : ∀ i < 2000, CellExact legs (samplePrice legs i) (samplePrice legs (i + 1))) {n : ℕ}
    (hn : n ≤ 2000) {p q : ℚ} (hp : 0 ≤ p) (hpq : p ≤ q) (hq : q ≤ samplePrice legs n)
    (hnone : ∀ b ∈ payoffBreakevens (computePayoffCurve legs (payoffPriceRange legs)),
      ¬ (p ≤ b ∧ b ≤ q)) :
    0 ≤ totalPayoff legs p * totalPayoff legs q := by
  induction n generalizing q with
  | zero =>
    rw [samplePrice_zero] at hq
    have hpq' : p = q := le_antisymm hpq (hq.trans hp)
    rw [hpq']
    exact mul_self_nonneg _
  | succ n ih =>
    have hstep := samplePrice_lt hpos (Nat.lt_succ_self n)
    have hcellNone : ∀ b ∈ cellBreakeven legs (samplePrice legs n) (samplePrice legs (n + 1)),
        ¬ (p ≤ b ∧ b ≤ q) := fun b hb => hnone b (mem_breakevens.mpr ⟨n, hn, hb⟩)
    rcases le_total q (samplePrice legs n) with hqn | hnq
    · exact ih (by omega) hpq hqn hnone
    rcases le_total (samplePrice legs n) p with hnp | hpn
    · exact (hcells n hn).side hstep hnp hpq hq hcellNone
    · -- The low end of the last cell lies between the prices, and is no zero: it would be reported.
      have hend : totalPayoff legs (samplePrice legs n) ≠ 0 := by
        intro hzero
        refine hcellNone (samplePrice legs n) ?_ ⟨hpn, hnq⟩
        simp [cellBreakeven, hzero]
      have hbelow := ih (by omega) hpn le_rfl fun b hb hbetween =>
        hnone b hb ⟨hbetween.1, hbetween.2.trans hnq⟩
      have habove := (hcells n hn).side hstep le_rfl hnq hq fun b hb hbetween =>
        hcellNone b hb ⟨hpn.trans hbetween.1, hbetween.2⟩
      rw [mul_comm] at hbelow
      exact mul_nonneg_of_side hend hbelow habove

/-- An exact report leaves every cell exact. -/
theorem cellExact_of_exact (hpos : 0 < highestStrike legs) {payoff : PayoffResult}
    (hreport : payoff.breakevens =
      payoffBreakevens (computePayoffCurve legs (payoffPriceRange legs)))
    (h : BreakevensExact legs payoff) {i : ℕ} (hi : i < 2000) :
    CellExact legs (samplePrice legs i) (samplePrice legs (i + 1)) := by
  have hstep := samplePrice_lt hpos (Nat.lt_succ_self i)
  have hlow : 0 ≤ samplePrice legs i := by
    rw [← samplePrice_zero legs]
    exact samplePrice_le hpos (Nat.zero_le i)
  have hhigh : samplePrice legs (i + 1) ≤ highestStrike legs * (3 / 2) := by
    rw [← samplePrice_last]
    exact samplePrice_le hpos hi
  -- Two points of the cell on different sides have its own report between them.
  have hbetween : ∀ a b, samplePrice legs i ≤ a → a < b → b ≤ samplePrice legs (i + 1) →
      totalPayoff legs a * totalPayoff legs b < 0 →
      ∃ t ∈ cellBreakeven legs (samplePrice legs i) (samplePrice legs (i + 1)),
        a ≤ t ∧ t ≤ b := by
    intro a b hla hab hbr hcross
    obtain ⟨t, ht, hat, htb⟩ := h.complete a b (hlow.trans hla) hab (hbr.trans hhigh) hcross
    have hzero := h.sound t ht
    have hne : t ≠ samplePrice legs (i + 1) := by
      intro heq
      have hbt : b = t := le_antisymm (hbr.trans heq.ge) htb
      rw [hbt, hzero, mul_zero] at hcross
      exact absurd hcross (lt_irrefl _)
    rw [hreport, mem_breakevens] at ht
    obtain ⟨j, -, hj⟩ := ht
    have hji := cell_of_reported hpos hj (hla.trans hat) (lt_of_le_of_ne (htb.trans hbr) hne)
    exact ⟨t, hji ▸ hj, hat, htb⟩
  constructor
  · intro hcross
    obtain ⟨hl, hr, -⟩ := chordZero_spec hstep hcross
    have hul := left_ne_zero_of_mul hcross.ne
    have hown : cellBreakeven legs (samplePrice legs i) (samplePrice legs (i + 1)) =
        some (chordZero legs (samplePrice legs i) (samplePrice legs (i + 1))) := by
      simp [cellBreakeven, hul, hcross]
    have hzero : totalPayoff legs (chordZero legs (samplePrice legs i)
        (samplePrice legs (i + 1))) = 0 := by
      apply h.sound
      rw [hreport, mem_breakevens]
      exact ⟨i, hi, hown⟩
    refine (crossing_iff hstep hcross).mpr ⟨hzero, fun k _ hlk hkr => ⟨?_, ?_⟩⟩
    · intro hkz
      by_contra hneg
      obtain ⟨t, ht, -, htk⟩ := hbetween _ k le_rfl hlk hkr.le (not_le.mp hneg)
      rw [hown] at ht
      cases ht
      -- The strike would be the zero itself.
      rw [le_antisymm hkz htk, hzero, mul_zero] at hneg
      exact hneg le_rfl
    · intro hzk
      by_contra hneg
      rw [mul_comm] at hneg
      obtain ⟨t, ht, hkt, -⟩ := hbetween k _ hlk.le hkr le_rfl (not_le.mp hneg)
      rw [hown] at ht
      cases ht
      rw [le_antisymm hkt hzk, hzero, zero_mul] at hneg
      exact hneg le_rfl
  · intro hquiet
    -- What a cell without a crossing reports is its low end, a zero.
    have hordered : ∀ a b, samplePrice legs i ≤ a → a < b → b ≤ samplePrice legs (i + 1) →
        0 ≤ totalPayoff legs a * totalPayoff legs b := by
      intro a b hla hab hbr
      by_contra hneg
      obtain ⟨t, ht, hat, -⟩ := hbetween a b hla hab hbr (not_le.mp hneg)
      unfold cellBreakeven at ht
      split_ifs at ht with hzero
      · cases ht
        rw [le_antisymm hat hla, hzero, zero_mul] at hneg
        exact hneg le_rfl
      · cases ht
    have hcorner : ∀ a, Corner legs (samplePrice legs i) (samplePrice legs (i + 1)) a →
        samplePrice legs i ≤ a ∧ a ≤ samplePrice legs (i + 1) := by
      rintro a (rfl | rfl | ⟨-, hla, har⟩)
      · exact ⟨le_rfl, hstep.le⟩
      · exact ⟨hstep.le, le_rfl⟩
      · exact ⟨hla.le, har.le⟩
    intro a b ha hb
    rcases lt_trichotomy a b with hab | rfl | hba
    · exact hordered a b (hcorner a ha).1 hab (hcorner b hb).2
    · exact mul_self_nonneg _
    · rw [mul_comm]
      exact hordered b a (hcorner b hb).1 hba (hcorner a ha).2

end Exact

/-- **The breakevens are exact exactly if the strikes inside the cells do not disturb them.** -/
theorem breakevensExact_iff (legs : List OptionLeg) (hne : legs ≠ [])
    (hstrikes : ∀ leg ∈ legs, 0 < leg.strike) :
    ∃ payoff, computePayoffSummary legs = .ok payoff ∧
      (BreakevensExact legs payoff ↔
        ∀ i < 2000, CellExact legs (samplePrice legs i) (samplePrice legs (i + 1))) := by
  have hpos := highestStrike_pos hne hstrikes
  obtain ⟨payoff, -, hok, hreport, -⟩ := summary_spec hne hstrikes
  refine ⟨payoff, hok, fun h i hi => cellExact_of_exact hpos hreport h hi, fun hcells => ⟨?_, ?_⟩⟩
  · intro b hb
    rw [hreport, mem_breakevens] at hb
    obtain ⟨i, hi, hb⟩ := hb
    have hstep := samplePrice_lt hpos (Nat.lt_succ_self i)
    unfold cellBreakeven at hb
    split_ifs at hb with hzero hcross
    · cases hb
      exact hzero
    · cases hb
      exact ((crossing_iff hstep hcross).mp ((hcells i hi).crossing hcross)).1
    · cases hb
  · intro p q hp hpq hq hcross
    -- Without a reported zero between them, two prices lie on one side.
    by_contra hnone
    rw [← samplePrice_last] at hq
    have hside := side_of_cells hpos hcells le_rfl hp hpq.le hq fun b hb hbetween =>
      hnone ⟨b, hreport ▸ hb, hbetween⟩
    exact absurd hcross (not_lt.mpr hside)

theorem breakevensExact_iff_longCall :
    ∃ payoff, computePayoffSummary longCall = .ok payoff ∧
      (BreakevensExact longCall payoff ↔
        ∀ i < 2000, CellExact longCall (samplePrice longCall i) (samplePrice longCall (i + 1))) :=
  breakevensExact_iff longCall (by simp [longCall]) (by simp [longCall])

/-- A call bought for 0.01 breaks even at 100.01; the report is 99.99, where the whole premium
is lost. -/
theorem longCall_breaks_even_elsewhere :
    ∃ payoff, computePayoffSummary longCall = .ok payoff ∧ 9999 / 100 ∈ payoff.breakevens ∧
      totalPayoff longCall (9999 / 100) = -1 / 100 ∧ ¬ BreakevensExact longCall payoff := by
  obtain ⟨payoff, -, hok, hreport, -⟩ :=
    @summary_spec longCall (by simp [longCall]) (by simp [longCall])
  have hcell : 9999 / 100 ∈ cellBreakeven longCall (samplePrice longCall 1333)
      (samplePrice longCall 1334) := by decide +kernel
  have hmem : 9999 / 100 ∈ payoff.breakevens := by
    rw [hreport, mem_breakevens]
    exact ⟨1333, by norm_num, hcell⟩
  have hvalue : totalPayoff longCall (9999 / 100) = -1 / 100 := by decide +kernel
  refine ⟨payoff, hok, hmem, hvalue, fun hexact => ?_⟩
  have hzero := hexact.sound _ hmem
  rw [hvalue] at hzero
  norm_num at hzero

end SuperTrading
