import Mathlib.Algebra.Order.Field.Basic
import Mathlib.Logic.Function.Basic
import Mathlib.Tactic.FieldSimp
import Mathlib.Tactic.Linarith
import Mathlib.Tactic.Ring

/-!
# Netting Lots

A lot is what one account holds of one instrument after netting every fill: a
signed quantity and the average price it was taken on at. A fill on the same
side adds at a weighted average price, a fill on the other side realizes profit
or loss on the part it closes, and a fill larger than the lot opens the rest at
its own price.

A flat lot has no average price; the structure records that as average 0, so
that two books agree on a flat lot whatever they remember about it.
-/

namespace SuperTrading.Logic

/-! ## Section 1: Lots -/

/-- A netted holding: signed quantity and average price, the latter 0 when flat. -/
@[ext] structure Lot (K : Type*) [Zero K] where
  qty : K
  avg : K
  flat : qty = 0 → avg = 0

namespace Lot

section Pairs

variable {K : Type*} [Zero K]

/-- Nothing held. -/
def empty : Lot K := ⟨0, 0, fun _ => rfl⟩

@[simp] theorem empty_qty : (empty : Lot K).qty = 0 := rfl

theorem eq_empty_of_qty {l : Lot K} (h : l.qty = 0) : l = empty :=
  Lot.ext h (l.flat h)

variable [DecidableEq K]

/-- The lot a quantity and a price describe; the price of a flat lot is dropped. -/
def ofPair (q a : K) : Lot K := ⟨q, if q = 0 then 0 else a, fun h => by simp [h]⟩

@[simp] theorem ofPair_qty (q a : K) : (ofPair q a).qty = q := rfl

theorem ofPair_avg {q : K} (hq : q ≠ 0) (a : K) : (ofPair q a).avg = a := by
  simp [ofPair, hq]

@[simp] theorem ofPair_zero (a : K) : ofPair 0 a = empty := by
  simp [ofPair, empty]

/-- Two pairs describe one lot when their quantities agree and, unless that
quantity is 0, their prices do. -/
theorem ofPair_eq_ofPair {q q' a a' : K} (hq : q = q') (ha : q ≠ 0 → a = a') :
    ofPair q a = ofPair q' a' := by
  subst hq
  by_cases h : q = 0
  · simp [h]
  · rw [ha h]

end Pairs

/-! ## Section 2: Fills -/

variable {K : Type*} [Field K] [LinearOrder K]

/-- Two nonzero sizes are on one side when their product is not negative. -/
theorem sameSide_iff [IsStrictOrderedRing K] {q s : K} (hq : q ≠ 0) (hs : s ≠ 0) :
    (0 < q ↔ 0 < s) ↔ 0 ≤ q * s := by
  rcases lt_or_gt_of_ne hq with hq | hq <;> rcases lt_or_gt_of_ne hs with hs | hs
  · simp [not_lt.mpr hq.le, not_lt.mpr hs.le, (mul_pos_of_neg_of_neg hq hs).le]
  · simp [not_lt.mpr hq.le, hs, hq]
  · simp [hq, not_lt.mpr hs.le, hs]
  · simp [hq, hs, (mul_pos hq hs).le]

/-- An opposing fill leaves the other side held exactly when it is the larger. -/
theorem crosses_iff [IsStrictOrderedRing K] {q s : K} (h : q * s < 0) :
    (q + s ≠ 0 ∧ ¬(0 < q + s ↔ 0 < q)) ↔ |q| < |s| := by
  -- Opposite signs: the lot is long and the fill a sale, or the other way round.
  rcases mul_neg_iff.mp h with ⟨hq, hs⟩ | ⟨hq, hs⟩
  · rw [abs_of_pos hq, abs_of_neg hs]
    constructor
    · rintro ⟨hne, hside⟩
      by_contra hcon
      exact hside ⟨fun _ => hq, fun _ => lt_of_le_of_ne (by linarith) (Ne.symm hne)⟩
    · intro hlt
      exact ⟨by linarith, fun hside => absurd (hside.mpr hq) (by linarith)⟩
  · rw [abs_of_neg hq, abs_of_pos hs]
    constructor
    · rintro ⟨hne, hside⟩
      by_contra hcon
      exact hside ⟨fun hpos => by linarith, fun hpos => by linarith⟩
    · intro hlt
      exact ⟨by linarith, fun hside => absurd (hside.mp (by linarith)) (by linarith)⟩

/-- The lot after a fill of signed size `s` at price `p`. -/
def fill (l : Lot K) (s p : K) : Lot K :=
  ofPair (l.qty + s)
    (if 0 ≤ l.qty * s then (l.avg * l.qty + p * s) / (l.qty + s)
      else if |l.qty| < |s| then p else l.avg)

/-- The profit or loss that fill realizes: the closed part times the move from
the average price, signed by the side that was held. -/
def realized (l : Lot K) (s p : K) : K :=
  if 0 ≤ l.qty * s then 0
  else min |s| |l.qty| * (p - l.avg) * (if 0 < l.qty then 1 else -1)

@[simp] theorem fill_qty (l : Lot K) (s p : K) : (l.fill s p).qty = l.qty + s := rfl

theorem fill_empty {s : K} (hs : s ≠ 0) (p : K) : (empty : Lot K).fill s p = ofPair s p := by
  refine ofPair_eq_ofPair (by simp) fun _ => ?_
  simp [empty, mul_div_assoc, div_self hs]

@[simp] theorem realized_empty (s p : K) : (empty : Lot K).realized s p = 0 := by
  simp [realized]

/-- How much of the lot that fill closes. -/
def closed (l : Lot K) (s : K) : K := if 0 ≤ l.qty * s then 0 else min |s| |l.qty|

@[simp] theorem closed_empty (s : K) : (empty : Lot K).closed s = 0 := by
  simp [closed]

/-- A fill realizes nothing if it closes nothing, or closes at the average price. -/
theorem realized_eq_zero_iff [IsStrictOrderedRing K] (l : Lot K) (s p : K) :
    l.realized s p = 0 ↔ l.closed s = 0 ∨ p = l.avg := by
  unfold realized closed
  by_cases hside : 0 ≤ l.qty * s
  · simp [hside]
  · have hsign : (if 0 < l.qty then (1 : K) else -1) ≠ 0 := by split <;> simp
    rw [if_neg hside, if_neg hside, mul_eq_zero, mul_eq_zero, sub_eq_zero]
    constructor
    · rintro (hpart | hone)
      · exact hpart
      · exact absurd hone hsign
    · exact Or.inl

end Lot

/-! ## Section 3: Accounts -/

/-- The lots of an account, one for each instrument, and the cash it realized. -/
structure NetBook (ι K : Type*) [Zero K] where
  lots : ι → Lot K
  cash : K

namespace NetBook

variable {ι K : Type*} [DecidableEq ι] [Field K] [LinearOrder K]

/-- The account that never traded. -/
def empty : NetBook ι K := ⟨fun _ => Lot.empty, 0⟩

/-- One fill: the instrument's lot takes it and the cash takes what it realizes. -/
def fill (b : NetBook ι K) (i : ι) (s p : K) : NetBook ι K :=
  ⟨Function.update b.lots i ((b.lots i).fill s p), b.cash + (b.lots i).realized s p⟩

end NetBook

/-! ## Section 4: Reductions -/

section Reductions

variable {K : Type*} [Field K] [LinearOrder K]

/-- A holding that went from `q` to `q'` grew in no direction: it is no larger in
magnitude, and not on the other side. -/
def Shrinks (q q' : K) : Prop := |q'| ≤ |q| ∧ 0 ≤ q * q'

variable [IsStrictOrderedRing K]

theorem Shrinks.refl (q : K) : Shrinks q q := ⟨le_refl _, mul_self_nonneg q⟩

theorem Shrinks.trans {q q' q'' : K} (h : Shrinks q q') (h' : Shrinks q' q'') :
    Shrinks q q'' := by
  refine ⟨h'.1.trans h.1, ?_⟩
  rcases eq_or_ne q' 0 with rfl | hne
  · -- Flat in between, so flat at the end.
    have hq'' : q'' = 0 := abs_nonpos_iff.mp (by simpa using h'.1)
    rw [hq'', mul_zero]
  · -- Divide the product of the two side conditions by the square in the middle.
    have hpos : 0 < q' * q' := mul_self_pos.mpr hne
    have hprod : 0 ≤ (q' * q') * (q * q'') := by
      calc (0 : K) ≤ (q * q') * (q' * q'') := mul_nonneg h.2 h'.2
        _ = (q' * q') * (q * q'') := by ring
    exact nonneg_of_mul_nonneg_right hprod hpos

/-- What opposes a holding still opposes what is left of it. -/
theorem Shrinks.opposed {q q' s : K} (h : Shrinks q q') (hs : q * s ≤ 0) : q' * s ≤ 0 := by
  -- What is flat opposes nothing and shrinks to nothing.
  rcases eq_or_ne q 0 with rfl | hne
  · have hq' : q' = 0 := abs_nonpos_iff.mp (by simpa using h.1)
    rw [hq', zero_mul]
  · have hpos : 0 < q * q := mul_self_pos.mpr hne
    have hprod : (q * q) * (q' * s) ≤ 0 := by
      calc (q * q) * (q' * s) = (q * q') * (q * s) := by ring
        _ ≤ 0 := mul_nonpos_of_nonneg_of_nonpos h.2 hs
    by_contra hcon
    exact absurd hprod (not_le.mpr (mul_pos hpos (not_le.mp hcon)))

/-- An opposing fill no larger than the holding shrinks it. -/
theorem shrinks_add {q s : K} (hside : q * s ≤ 0) (hsize : |s| ≤ |q|) : Shrinks q (q + s) := by
  -- Both sides of the market: a long sells no more than it has, a short buys back no more than
  -- it owes.
  rcases le_total 0 q with hq | hq
  · rw [abs_of_nonneg hq] at hsize
    have hs := abs_le.mp hsize
    rcases hq.eq_or_lt with rfl | hpos
    · have h0 : s = 0 := le_antisymm hs.2 (by simpa using hs.1)
      rw [h0, add_zero]
      exact Shrinks.refl 0
    · have hneg : s ≤ 0 := nonpos_of_mul_nonpos_right hside hpos
      refine ⟨?_, mul_nonneg hq (by linarith)⟩
      rw [abs_of_nonneg hq, abs_of_nonneg (by linarith)]
      linarith
  · rw [abs_of_nonpos hq] at hsize
    have hs := abs_le.mp hsize
    rcases hq.eq_or_lt with rfl | hneg
    · have h0 : s = 0 := le_antisymm (by simpa using hs.2) (by simpa using hs.1)
      rw [h0, add_zero]
      exact Shrinks.refl 0
    · have hpos : 0 ≤ s := by
        by_contra hcon
        exact absurd hside (not_le.mpr (mul_pos_of_neg_of_neg hneg (not_le.mp hcon)))
      refine ⟨?_, mul_nonneg_of_nonpos_of_nonpos hq (by linarith)⟩
      rw [abs_of_nonpos hq, abs_of_nonpos (by linarith)]
      linarith

end Reductions

end SuperTrading.Logic
