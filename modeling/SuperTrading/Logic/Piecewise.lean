import Mathlib.Algebra.Order.Field.Basic
import Mathlib.Tactic.Linarith
import Mathlib.Tactic.LinearCombination
import Mathlib.Tactic.Ring

/-!
# Piecewise Affine Functions

A function is affine off a list of knots if it runs along its chord over every interval that
has no knot strictly inside. Sums and multiples of such functions are affine off the same
knots, and what holds at the knots and at the ends of an interval holds in between.

- `Chordal`, `PiecewiseAffine`: the notions, and what keeps them
- `exists_cell`: every point lies in a cell without knots inside
- **Hinges**: the functions that bend at one knot
- **Bounds**: a bound at the knots and at the ends is a bound in between
-/

namespace SuperTrading.Logic

variable {𝕜 : Type*} [Field 𝕜] [LinearOrder 𝕜]

/-- `f` runs along its chord from `l` to `r`. -/
def Chordal (f : 𝕜 → 𝕜) (l r : 𝕜) : Prop :=
  ∀ x, l ≤ x → x ≤ r → (r - l) * f x = (r - x) * f l + (x - l) * f r

/-- `f` runs along its chord wherever no knot lies strictly inside. -/
def PiecewiseAffine (knots : List 𝕜) (f : 𝕜 → 𝕜) : Prop :=
  ∀ l r, l ≤ r → (∀ k ∈ knots, k ≤ l ∨ r ≤ k) → Chordal f l r

variable {knots : List 𝕜} {f g : 𝕜 → 𝕜} {a b x : 𝕜}

/-! ## Section 1: What keeps it -/

namespace PiecewiseAffine

theorem const (c : 𝕜) : PiecewiseAffine knots fun _ => c := by
  intro l r _ _ x _ _
  ring

theorem add (hf : PiecewiseAffine knots f) (hg : PiecewiseAffine knots g) :
    PiecewiseAffine knots fun x => f x + g x := by
  intro l r hlr hfree x hl hr
  have hfx := hf l r hlr hfree x hl hr
  have hgx := hg l r hlr hfree x hl hr
  linear_combination hfx + hgx

theorem const_mul (c : 𝕜) (hf : PiecewiseAffine knots f) :
    PiecewiseAffine knots fun x => c * f x := by
  intro l r hlr hfree x hl hr
  linear_combination c * hf l r hlr hfree x hl hr

theorem neg (hf : PiecewiseAffine knots f) : PiecewiseAffine knots fun x => -f x := by
  intro l r hlr hfree x hl hr
  linear_combination -hf l r hlr hfree x hl hr

/-- A sum has the knots of its terms. -/
theorem sum {α : Type*} {terms : List α} {term : α → 𝕜 → 𝕜}
    (h : ∀ t ∈ terms, PiecewiseAffine knots (term t)) :
    PiecewiseAffine knots fun x => (terms.map fun t => term t x).sum := by
  induction terms with
  | nil => exact const 0
  | cons t terms ih =>
    simp only [List.map_cons, List.sum_cons]
    exact (h t List.mem_cons_self).add (ih fun t' ht' => h t' (List.mem_cons_of_mem _ ht'))

end PiecewiseAffine

/-! ## Section 2: Cells -/

omit [Field 𝕜] in
/-- Between two ends, every point lies in a cell that has no knot strictly inside, whose ends
are knots or the two ends. -/
theorem exists_cell (knots : List 𝕜) (ha : a ≤ x) (hb : x ≤ b) :
    ∃ l r, a ≤ l ∧ l ≤ x ∧ x ≤ r ∧ r ≤ b ∧ (l = a ∨ l ∈ knots) ∧ (r = b ∨ r ∈ knots) ∧
      ∀ k ∈ knots, k ≤ l ∨ r ≤ k := by
  induction knots with
  | nil => exact ⟨a, b, le_rfl, ha, hb, le_rfl, .inl rfl, .inl rfl, by simp⟩
  | cons k knots ih =>
    obtain ⟨l, r, hal, hlx, hxr, hrb, hl, hr, hfree⟩ := ih
    have hl' : l = a ∨ l ∈ k :: knots := hl.imp_right (List.mem_cons_of_mem _)
    have hr' : r = b ∨ r ∈ k :: knots := hr.imp_right (List.mem_cons_of_mem _)
    -- A new knot strictly inside the cell cuts it at itself.
    by_cases hinside : l < k ∧ k < r
    · rcases le_total x k with hxk | hkx
      · refine ⟨l, k, hal, hlx, hxk, hinside.2.le.trans hrb, hl', .inr List.mem_cons_self, ?_⟩
        intro k' hk'
        rcases List.mem_cons.mp hk' with rfl | hk'
        · exact .inr le_rfl
        · exact (hfree k' hk').imp_right hinside.2.le.trans
      · refine ⟨k, r, hal.trans hinside.1.le, hkx, hxr, hrb, .inr List.mem_cons_self, hr', ?_⟩
        intro k' hk'
        rcases List.mem_cons.mp hk' with rfl | hk'
        · exact .inl le_rfl
        · exact (hfree k' hk').imp_left fun hle => hle.trans hinside.1.le
    · refine ⟨l, r, hal, hlx, hxr, hrb, hl', hr', ?_⟩
      intro k' hk'
      rcases List.mem_cons.mp hk' with rfl | hk'
      · by_cases hle : k' ≤ l
        · exact .inl hle
        · exact .inr (not_lt.mp fun hlt => hinside ⟨not_le.mp hle, hlt⟩)
      · exact hfree k' hk'

variable [IsStrictOrderedRing 𝕜]

/-! ## Section 3: Hinges -/

namespace PiecewiseAffine

/-- A rising hinge bends at its knot. -/
theorem hinge (k : 𝕜) (hk : k ∈ knots) : PiecewiseAffine knots fun x => max (x - k) 0 := by
  intro l r hlr hfree x hl hr
  dsimp only
  rcases hfree k hk with hle | hle
  · rw [max_eq_left (by linarith), max_eq_left (by linarith), max_eq_left (by linarith)]
    ring
  · rw [max_eq_right (by linarith), max_eq_right (by linarith), max_eq_right (by linarith)]
    ring

/-- A falling hinge is a rising one less a line. -/
theorem max_sub_eq (k x : 𝕜) : max (k - x) 0 = max (x - k) 0 + (k - x) := by
  rcases le_total x k with hle | hle
  · rw [max_eq_left (by linarith), max_eq_right (by linarith)]
    ring
  · rw [max_eq_right (by linarith), max_eq_left (by linarith)]
    ring

theorem fallingHinge (k : 𝕜) (hk : k ∈ knots) :
    PiecewiseAffine knots fun x => max (k - x) 0 := by
  have hline : PiecewiseAffine knots fun x => k - x := by
    intro l r _ _ x _ _
    ring
  rw [funext (max_sub_eq k)]
  exact (hinge k hk).add hline

end PiecewiseAffine

/-! ## Section 4: Bounds -/

/-- A chord stays above what both its ends are above. -/
theorem Chordal.le {l r m : 𝕜} (h : Chordal f l r) (hl : m ≤ f l) (hr : m ≤ f r) (hlx : l ≤ x)
    (hxr : x ≤ r) : m ≤ f x := by
  rcases hlx.eq_or_lt with rfl | hlt
  · exact hl
  · have hlen : 0 < r - l := by linarith
    have hchord := h x hlx hxr
    have hle : (r - l) * m ≤ (r - l) * f x := by
      rw [hchord]
      calc (r - l) * m = (r - x) * m + (x - l) * m := by ring
        _ ≤ (r - x) * f l + (x - l) * f r :=
          add_le_add (mul_le_mul_of_nonneg_left hl (by linarith))
            (mul_le_mul_of_nonneg_left hr (by linarith))
    exact le_of_mul_le_mul_left hle hlen

namespace PiecewiseAffine

/-- What bounds the ends and the knots inside from below bounds the interval. -/
theorem le_of_knots {m : 𝕜} (h : PiecewiseAffine knots f) (hma : m ≤ f a) (hmb : m ≤ f b)
    (hknots : ∀ k ∈ knots, a < k → k < b → m ≤ f k) (ha : a ≤ x) (hb : x ≤ b) : m ≤ f x := by
  obtain ⟨l, r, hal, hlx, hxr, hrb, hl, hr, hfree⟩ := exists_cell knots ha hb
  -- Both ends of the cell around the point are bounded.
  have hend : ∀ c, a ≤ c → c ≤ b → (c = a ∨ c = b ∨ c ∈ knots) → m ≤ f c := by
    intro c hac hcb hc
    rcases hac.eq_or_lt with rfl | hac
    · exact hma
    rcases hcb.eq_or_lt with rfl | hcb
    · exact hmb
    rcases hc with rfl | rfl | hc
    · exact hma
    · exact hmb
    · exact hknots c hc hac hcb
  have hml := hend l hal ((hlx.trans hxr).trans hrb) (hl.imp_right .inr)
  have hmr := hend r (hal.trans (hlx.trans hxr)) hrb (.inr hr)
  exact (h l r (hlx.trans hxr) hfree).le hml hmr hlx hxr

/-- What bounds the ends and the knots inside from above bounds the interval. -/
theorem ge_of_knots {m : 𝕜} (h : PiecewiseAffine knots f) (hma : f a ≤ m) (hmb : f b ≤ m)
    (hknots : ∀ k ∈ knots, a < k → k < b → f k ≤ m) (ha : a ≤ x) (hb : x ≤ b) : f x ≤ m := by
  have hneg := h.neg.le_of_knots (neg_le_neg hma) (neg_le_neg hmb)
    (fun k hk hak hkb => neg_le_neg (hknots k hk hak hkb)) ha hb
  exact neg_le_neg_iff.mp hneg

/-- The side of the axis that the ends and the knots inside share, all points share. -/
theorem side_of_knots {s : 𝕜} (h : PiecewiseAffine knots f) (ha : 0 ≤ s * f a) (hb : 0 ≤ s * f b)
    (hknots : ∀ k ∈ knots, a < k → k < b → 0 ≤ s * f k) (hax : a ≤ x) (hxb : x ≤ b) :
    0 ≤ s * f x :=
  (h.const_mul s).le_of_knots ha hb hknots hax hxb

end PiecewiseAffine

end SuperTrading.Logic
