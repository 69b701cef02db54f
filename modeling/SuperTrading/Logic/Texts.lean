import Mathlib.Data.Int.Notation
import Mathlib.Data.List.Basic
import Mathlib.Data.Rat.Defs

/-!
# Texts of Numbers

The decimal text of an integer tells the integer, the text of a rational the rational, and a
text that ends in a separator and a part without it tells that part.
-/

namespace SuperTrading.Logic

/-! ## Section 1: Digits -/

theorem not_mem_toDigits {c : Char} (h : c.isDigit = false) (n : ℕ) : c ∉ Nat.toDigits 10 n := by
  intro hmem
  rw [Nat.isDigit_of_mem_toDigits (by simp) (by simp) hmem] at h
  cases h

theorem toDigits_inj {m n : ℕ} (h : Nat.toDigits 10 m = Nat.toDigits 10 n) : m = n := by
  rw [← Nat.ofDigitChars_toDigits (b := 10) (n := m) (by simp) (by simp), h,
    Nat.ofDigitChars_toDigits (by simp) (by simp)]

/-- The characters of an integer's text. -/
theorem toList_repr (a : ℤ) : (Int.repr a).toList =
    if 0 ≤ a then Nat.toDigits 10 a.toNat else '-' :: Nat.toDigits 10 (-a).toNat := by
  rw [Int.repr_eq_if]
  split <;> simp

/-- A character that is neither a digit nor the sign is in no integer's text. -/
theorem not_mem_repr {c : Char} (h : c.isDigit = false) (hsign : c ≠ '-') (a : ℤ) :
    c ∉ (Int.repr a).toList := by
  rw [toList_repr]
  split
  · exact not_mem_toDigits h _
  · simp [not_mem_toDigits h, hsign]

theorem repr_inj {a b : ℤ} (h : Int.repr a = Int.repr b) : a = b := by
  have hlist := congrArg String.toList h
  rw [toList_repr, toList_repr] at hlist
  -- A sign starts no text of digits.
  have hsign : ∀ m n : ℕ, Nat.toDigits 10 m ≠ '-' :: Nat.toDigits 10 n := fun m n heq =>
    not_mem_toDigits (c := '-') (by rfl) m (heq ▸ List.mem_cons_self)
  split_ifs at hlist with ha hb hb
  · have hdigits := toDigits_inj hlist
    omega
  · exact absurd hlist (hsign _ _)
  · exact absurd hlist.symm (hsign _ _)
  · have hdigits := toDigits_inj (List.cons.inj hlist).2
    omega

/-! ## Section 2: The last part of a text -/

/-- What follows the last separator. -/
theorem eq_of_append_cons {α : Type*} {sep : α} {xs xs' ys ys' : List α} (hys : sep ∉ ys)
    (hys' : sep ∉ ys') (h : xs ++ sep :: ys = xs' ++ sep :: ys') : ys = ys' := by
  -- One of the two separators stands first; if they are not the same, the other part has it.
  rcases List.append_eq_append_iff.mp h with ⟨zs, -, heq⟩ | ⟨zs, -, heq⟩
  · cases zs with
    | nil => exact (List.cons.inj heq).2
    | cons z zs =>
      have hmem : sep ∈ ys := (List.cons.inj heq).2 ▸ List.mem_append_right zs List.mem_cons_self
      exact absurd hmem hys
  · cases zs with
    | nil => exact (List.cons.inj heq).2.symm
    | cons z zs =>
      have hmem : sep ∈ ys' := (List.cons.inj heq).2 ▸ List.mem_append_right zs List.mem_cons_self
      exact absurd hmem hys'

/-- A text is known by what stands before and behind its last separator. -/
theorem append_cons_inj {α : Type*} {sep : α} {xs xs' ys ys' : List α} (hys : sep ∉ ys)
    (hys' : sep ∉ ys') (h : xs ++ sep :: ys = xs' ++ sep :: ys') : xs = xs' ∧ ys = ys' := by
  have hlast := eq_of_append_cons hys hys' h
  subst hlast
  exact ⟨List.append_cancel_right h, rfl⟩

/-! ## Section 3: Rationals -/

/-- The text of a rational: its numerator, and its denominator behind a slash if there is one. -/
theorem toList_toString_rat (q : ℚ) : (toString q).toList =
    if q.den = 1 then (Int.repr q.num).toList
    else (Int.repr q.num).toList ++ '/' :: (Int.repr q.den).toList := by
  have htext : toString q = if q.den = 1 then toString q.num else s!"{q.num}/{q.den}" := rfl
  rw [htext]
  split
  · rfl
  · simp [toString, toList_repr (q.den : ℤ)]

/-- A character that is no digit, sign or slash is in no rational's text. -/
theorem not_mem_toString_rat {c : Char} (h : c.isDigit = false) (hsign : c ≠ '-') (hslash : c ≠ '/')
    (q : ℚ) : c ∉ (toString q).toList := by
  rw [toList_toString_rat]
  split
  · exact not_mem_repr h hsign _
  · simp [not_mem_repr h hsign, hslash]

theorem toString_rat_inj {p q : ℚ} (h : toString p = toString q) : p = q := by
  have hlist := congrArg String.toList h
  rw [toList_toString_rat, toList_toString_rat] at hlist
  have hslash : ∀ a : ℤ, '/' ∉ (Int.repr a).toList := not_mem_repr (by rfl) (by simp)
  split_ifs at hlist with hp hq hq
  · exact Rat.ext (repr_inj (String.toList_inj.mp hlist)) (hp.trans hq.symm)
  · exact absurd (hlist ▸ List.mem_append_right _ List.mem_cons_self) (hslash p.num)
  · exact absurd (hlist ▸ List.mem_append_right _ List.mem_cons_self) (hslash q.num)
  · have hden := eq_of_append_cons (hslash p.den) (hslash q.den) hlist
    rw [hden] at hlist
    have hnum := repr_inj (String.toList_inj.mp (List.append_cancel_right hlist))
    have hden' : (p.den : ℤ) = q.den := repr_inj (String.toList_inj.mp hden)
    exact Rat.ext hnum (by exact_mod_cast hden')

end SuperTrading.Logic
