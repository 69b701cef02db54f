import SuperTrading.Logic.Texts
import Mathlib.Data.Int.Log
import Mathlib.Data.Rat.Floor
import Mathlib.Tactic.FieldSimp
import Mathlib.Tactic.Linarith
import Mathlib.Tactic.Positivity

/-!
# Texts of Floats

`repr` of a float: its decimals, of which there is at least one, or from `1e+16` on and below
`0.0001` a significand and an exponent of at least two digits. A rational that no number of
decimals writes out is no float, and is written as a fraction. The text tells the number.

- **Layout**: decimals, exponents, and the text
- **Reading back**: what the parts of a text tell, and the whole of it
-/

namespace SuperTrading.Logic

/-! ## Section 1: Layout -/

/-- The least number of decimals, up to a bound, that writes the number out. -/
def decimalsUpTo (bound : ℕ) (q : ℚ) : Option ℕ :=
  (List.range (bound + 1)).find? fun f => decide (q.den ∣ 10 ^ f)

/-- A magnitude in units of the last of `f` decimals. -/
def scaled (f : ℕ) (q : ℚ) : ℕ := q.num.natAbs * (10 ^ f / q.den)

/-- `n` with zeros in front of it, in `f` digits. -/
def padded (f n : ℕ) : List Char :=
  List.replicate (f - (Nat.toDigits 10 n).length) '0' ++ Nat.toDigits 10 n

/-- `n` units of the last of `f` decimals. -/
def decimalChars (f n : ℕ) : List Char :=
  if f = 0 then Nat.toDigits 10 n
  else Nat.toDigits 10 (n / 10 ^ f) ++ '.' :: padded f (n % 10 ^ f)

def exponentChars (e : ℤ) : List Char :=
  (if e < 0 then '-' else '+') ::
    ((if e.natAbs < 10 then ['0'] else []) ++ Nat.toDigits 10 e.natAbs)

/-- The text of a magnitude that `f` decimals write out. -/
def magnitudeChars (f : ℕ) (q : ℚ) : List Char :=
  if q = 0 ∨ 1 / 10 ^ 4 ≤ |q| ∧ |q| < 10 ^ 16 then decimalChars (max f 1) (scaled (max f 1) q)
  else
    let e := Int.log 10 |q|
    let significand := q / 10 ^ e
    let bound := f + e.natAbs
    let f' := (decimalsUpTo bound significand).getD bound
    decimalChars f' (scaled f' significand) ++ 'e' :: exponentChars e

def floatChars (q : ℚ) : List Char :=
  match decimalsUpTo q.den.log2 q with
  | some f => (if q < 0 then ['-'] else []) ++ magnitudeChars f q
  | none => (toString q).toList

/-- `repr(q)`. -/
def reprFloat (q : ℚ) : String := String.ofList (floatChars q)

example : [2, -1 / 10, 10 ^ 15 + 1 / 2, 12 * 10 ^ 15, -3 / 80000].map floatChars =
    [['2', '.', '0'], ['-', '0', '.', '1'], "1000000000000000.5".toList, "1.2e+16".toList,
      "-3.75e-05".toList] := by decide +kernel

/-! ## Section 2: Reading back -/

section Parts

variable {q : ℚ} {f : ℕ}

theorem den_dvd_iff {k : ℕ} (hk : k ≠ 0) : q.den ∣ k ↔ ∃ z : ℤ, q * k = z := by
  constructor
  · rintro ⟨d, rfl⟩
    refine ⟨q.num * d, ?_⟩
    push_cast
    rw [← mul_assoc, Rat.mul_den_eq_num]
  · rintro ⟨z, hz⟩
    have hkq : (k : ℚ) ≠ 0 := by exact_mod_cast hk
    have hq : q = Rat.divInt z k := by
      rw [Rat.divInt_eq_div, eq_div_iff (by exact_mod_cast hk), ← hz]
      norm_cast
    have hdvd := Rat.den_dvd z k
    rw [← hq] at hdvd
    exact_mod_cast hdvd

theorem cast_scaled (h : q.den ∣ 10 ^ f) : (scaled f q : ℚ) = |q| * 10 ^ f := by
  obtain ⟨d, hd⟩ := h
  have hden : (q.den : ℚ) ≠ 0 := by exact_mod_cast q.den_nz
  have habs : |q| = q.num.natAbs / q.den := by
    conv_lhs => rw [← Rat.num_div_den q]
    rw [abs_div, Nat.abs_cast, Nat.cast_natAbs, Int.cast_abs]
  have hpow : (10 : ℚ) ^ f = q.den * d := by exact_mod_cast hd
  rw [scaled, hd, Nat.mul_div_cancel_left _ q.den_pos, habs, hpow]
  push_cast
  field_simp

theorem dvd_of_decimalsUpTo {bound : ℕ} (h : decimalsUpTo bound q = some f) : q.den ∣ 10 ^ f := by
  rw [decimalsUpTo] at h
  have hfound := List.find?_some h
  exact of_decide_eq_true hfound

/-- Shifting the point of a number takes as many decimals more at the most. -/
theorem den_div_zpow_dvd (h : q.den ∣ 10 ^ f) (e : ℤ) :
    (q / 10 ^ e).den ∣ 10 ^ (f + e.natAbs) := by
  obtain ⟨z, hz⟩ := (den_dvd_iff (by positivity)).mp h
  rw [den_dvd_iff (by positivity)]
  -- The shift that is left over is to the left.
  obtain ⟨d, hd⟩ := Int.eq_ofNat_of_zero_le (show 0 ≤ (e.natAbs : ℤ) - e by omega)
  refine ⟨z * 10 ^ d, ?_⟩
  have hshift : (10 : ℚ) ^ e.natAbs = 10 ^ e * 10 ^ d := by
    rw [← zpow_natCast, ← zpow_natCast, ← zpow_add₀ (by norm_num)]
    congr 1
    omega
  have hne : (10 : ℚ) ^ e ≠ 0 := zpow_ne_zero _ (by norm_num)
  push_cast at hz ⊢
  rw [← hz, pow_add, hshift]
  field_simp

theorem significand_dvd {bound : ℕ} (h : q.den ∣ 10 ^ bound) :
    q.den ∣ 10 ^ (decimalsUpTo bound q).getD bound := by
  cases hf : decimalsUpTo bound q with
  | none => exact h
  | some f => exact dvd_of_decimalsUpTo hf

/-- The units of the last decimal tell the magnitude. -/
theorem abs_eq_of_scaled_eq {q' : ℚ} (h : q.den ∣ 10 ^ f) (h' : q'.den ∣ 10 ^ f)
    (heq : scaled f q = scaled f q') : |q| = |q'| := by
  have hcast : (scaled f q : ℚ) = scaled f q' := by rw [heq]
  rw [cast_scaled h, cast_scaled h'] at hcast
  exact mul_right_cancel₀ (by positivity) hcast

end Parts

section Chars

variable {f f' n n' : ℕ} {c : Char}

theorem ofDigitChars_padded (f n : ℕ) : Nat.ofDigitChars 10 (padded f n) 0 = n := by
  rw [padded, Nat.ofDigitChars_append, Nat.ofDigitChars_replicate_zero, mul_zero,
    Nat.ofDigitChars_toDigits (by simp) (by simp)]

theorem length_padded (hf : f ≠ 0) (hn : n < 10 ^ f) : (padded f n).length = f := by
  have hle := (Nat.length_toDigits_le_iff (by norm_num) (Nat.pos_of_ne_zero hf)).mpr hn
  rw [padded, List.length_append, List.length_replicate]
  omega

theorem isDigit_of_mem_padded (h : c ∈ padded f n) : c.isDigit = true := by
  rcases List.mem_append.mp h with hzero | hdigit
  · rw [List.eq_of_mem_replicate hzero]
    rfl
  · exact Nat.isDigit_of_mem_toDigits (by simp) (by simp) hdigit

theorem not_mem_padded (h : c.isDigit = false) : c ∉ padded f n := fun hmem => by
  rw [isDigit_of_mem_padded hmem] at h
  cases h

theorem not_mem_decimalChars (h : c.isDigit = false) (hdot : c ≠ '.') : c ∉ decimalChars f n := by
  rw [decimalChars]
  split
  · exact not_mem_toDigits h n
  · simp [not_mem_toDigits h, not_mem_padded h, hdot]

/-- Decimals tell how many they are, and of what. -/
theorem decimalChars_inj (h : decimalChars f n = decimalChars f' n') : f = f' ∧ n = n' := by
  have hpoint : ∀ m : ℕ, '.' ∉ Nat.toDigits 10 m := not_mem_toDigits (by rfl)
  have hlt : ∀ f n : ℕ, n % 10 ^ f < 10 ^ f := fun f n => Nat.mod_lt _ (by positivity)
  rw [decimalChars, decimalChars] at h
  split_ifs at h with hf hf' hf'
  · exact ⟨hf.trans hf'.symm, toDigits_inj h⟩
  · exact absurd (h ▸ List.mem_append_right _ List.mem_cons_self) (hpoint n)
  · exact absurd (h ▸ List.mem_append_right _ List.mem_cons_self) (hpoint n')
  · obtain ⟨hwhole, hfraction⟩ := append_cons_inj (not_mem_padded (by rfl))
      (not_mem_padded (by rfl)) h
    have hlength := congrArg List.length hfraction
    rw [length_padded hf (hlt f n), length_padded hf' (hlt f' n')] at hlength
    subst hlength
    have hrest := congrArg (Nat.ofDigitChars 10 · 0) hfraction
    simp only [ofDigitChars_padded] at hrest
    refine ⟨rfl, ?_⟩
    rw [← Nat.div_add_mod n (10 ^ f), ← Nat.div_add_mod n' (10 ^ f), toDigits_inj hwhole, hrest]

/-- The sign and the size of an exponent. -/
theorem exponentChars_inj {e e' : ℤ} (h : exponentChars e = exponentChars e') : e = e' := by
  obtain ⟨hsign, hdigits⟩ := List.cons.inj h
  -- A zero in front does not change the size.
  have hsize : ∀ e : ℤ, Nat.ofDigitChars 10
      ((if e.natAbs < 10 then ['0'] else []) ++ Nat.toDigits 10 e.natAbs) 0 = e.natAbs := by
    intro e
    split
    · rw [Nat.ofDigitChars_append]
      exact Nat.ofDigitChars_toDigits (by simp) (by simp)
    · exact Nat.ofDigitChars_toDigits (by simp) (by simp)
  have habs := congrArg (Nat.ofDigitChars 10 · 0) hdigits
  simp only [hsize] at habs
  split_ifs at hsign
  · omega
  · cases hsign
  · cases hsign
  · omega

theorem not_mem_exponentChars {e : ℤ} (h : c.isDigit = false) (hminus : c ≠ '-') (hplus : c ≠ '+') :
    c ∉ exponentChars e := by
  have hzero : c ≠ '0' := fun heq => by
    rw [heq] at h
    cases h
  rw [exponentChars]
  split_ifs <;> simp [not_mem_toDigits h, hminus, hplus, hzero]

end Chars

section Text

variable {q q' : ℚ} {f f' : ℕ} {c : Char}

theorem magnitudeChars_inj (h : q.den ∣ 10 ^ f) (h' : q'.den ∣ 10 ^ f')
    (heq : magnitudeChars f q = magnitudeChars f' q') : |q| = |q'| := by
  have hdecimals : ∀ f n : ℕ, 'e' ∉ decimalChars f n := fun f n =>
    not_mem_decimalChars (by rfl) (by simp)
  have hexponent : ∀ e : ℤ, 'e' ∉ exponentChars e := fun e =>
    not_mem_exponentChars (by rfl) (by simp) (by simp)
  have hmax : ∀ {q : ℚ} {f : ℕ}, q.den ∣ 10 ^ f → q.den ∣ 10 ^ max f 1 := fun h =>
    h.trans (pow_dvd_pow 10 (le_max_left _ _))
  rw [magnitudeChars, magnitudeChars] at heq
  dsimp only at heq
  split_ifs at heq
  · obtain ⟨hf, hunits⟩ := decimalChars_inj heq
    rw [← hf] at hunits
    exact abs_eq_of_scaled_eq (hmax h) (hf ▸ hmax h') hunits
  -- Only one of the two has an exponent.
  · exact absurd (heq ▸ List.mem_append_right _ List.mem_cons_self) (hdecimals _ _)
  · exact absurd (heq ▸ List.mem_append_right _ List.mem_cons_self) (hdecimals _ _)
  · obtain ⟨hdigits, hshift⟩ := append_cons_inj (hexponent _) (hexponent _) heq
    obtain ⟨hf, hunits⟩ := decimalChars_inj hdigits
    have hpow := exponentChars_inj hshift
    rw [← hf] at hunits
    have hdvd := significand_dvd (den_div_zpow_dvd h (Int.log 10 |q|))
    have hdvd' := significand_dvd (den_div_zpow_dvd h' (Int.log 10 |q'|))
    have habs := abs_eq_of_scaled_eq hdvd (hf ▸ hdvd') hunits
    rw [abs_div, abs_div, hpow] at habs
    exact (div_left_inj' (abs_ne_zero.mpr (zpow_ne_zero _ (by norm_num)))).mp habs

/-- The text of a magnitude starts with a digit. -/
theorem magnitudeChars_ne_sign (cs : List Char) : magnitudeChars f q ≠ '-' :: cs := by
  -- Either spelling starts with the digits of a number.
  have hdigits : ∀ f n : ℕ, ∃ m rest, decimalChars f n = Nat.toDigits 10 m ++ rest := by
    intro f n
    rw [decimalChars]
    split
    · exact ⟨n, [], (List.append_nil _).symm⟩
    · exact ⟨_, _, rfl⟩
  have hstart : ∃ m rest, magnitudeChars f q = Nat.toDigits 10 m ++ rest := by
    rw [magnitudeChars]
    split
    · exact hdigits _ _
    · dsimp only
      obtain ⟨m, rest, hm⟩ := hdigits _ _
      exact ⟨m, _, by rw [hm, List.append_assoc]⟩
  obtain ⟨m, rest, hm⟩ := hstart
  obtain ⟨d, ds, hd⟩ := List.exists_cons_of_ne_nil (Nat.toDigits_ne_nil (n := m) (b := 10))
  rw [hm, hd, List.cons_append]
  -- A sign is no digit.
  intro heq
  have hsign : '-' ∉ Nat.toDigits 10 m := not_mem_toDigits (by rfl) m
  rw [hd, (List.cons.inj heq).1] at hsign
  exact hsign List.mem_cons_self

theorem slash_not_mem_magnitudeChars : '/' ∉ magnitudeChars f q := by
  have hdecimals : ∀ f n : ℕ, '/' ∉ decimalChars f n := fun f n =>
    not_mem_decimalChars (by rfl) (by simp)
  rw [magnitudeChars]
  split
  · exact hdecimals _ _
  · simp [hdecimals, not_mem_exponentChars]

/-- What is written as a fraction has a denominator. -/
theorem slash_mem_toString (h : decimalsUpTo q.den.log2 q = none) : '/' ∈ (toString q).toList := by
  rw [decimalsUpTo, List.find?_eq_none] at h
  have hden : q.den ≠ 1 := by
    intro hone
    exact h 0 (by simp) (by simp [hone])
  rw [toList_toString_rat, if_neg hden]
  exact List.mem_append_right _ List.mem_cons_self

theorem floatChars_of_some (hf : decimalsUpTo q.den.log2 q = some f) :
    floatChars q = (if q < 0 then ['-'] else []) ++ magnitudeChars f q := by
  rw [floatChars, hf]

theorem floatChars_of_none (hf : decimalsUpTo q.den.log2 q = none) :
    floatChars q = (toString q).toList := by
  rw [floatChars, hf]

/-- Only fractions have a slash. -/
theorem slash_mem_floatChars_iff : '/' ∈ floatChars q ↔ decimalsUpTo q.den.log2 q = none := by
  cases hf : decimalsUpTo q.den.log2 q with
  | none =>
    rw [floatChars_of_none hf]
    exact iff_of_true (slash_mem_toString hf) rfl
  | some f =>
    rw [floatChars_of_some hf]
    split <;> simp [slash_not_mem_magnitudeChars]

theorem floatChars_inj (h : floatChars q = floatChars q') : q = q' := by
  have hslash := h ▸ slash_mem_floatChars_iff (q := q)
  rw [slash_mem_floatChars_iff] at hslash
  cases hf : decimalsUpTo q.den.log2 q with
  | none =>
    rw [floatChars_of_none hf, floatChars_of_none (hslash.mpr hf)] at h
    exact toString_rat_inj (String.toList_inj.mp h)
  | some f =>
    cases hf' : decimalsUpTo q'.den.log2 q' with
    | none =>
      rw [hslash.mp hf'] at hf
      cases hf
    | some f' =>
      have hdvd := dvd_of_decimalsUpTo hf
      have hdvd' := dvd_of_decimalsUpTo hf'
      rw [floatChars_of_some hf, floatChars_of_some hf'] at h
      -- A sign is in front of both or of none.
      split_ifs at h with hq hq' hq'
      · have habs := magnitudeChars_inj hdvd hdvd' (List.cons.inj h).2
        rw [abs_of_neg hq, abs_of_neg hq'] at habs
        exact neg_injective habs
      · exact absurd h.symm (magnitudeChars_ne_sign _)
      · exact absurd h (magnitudeChars_ne_sign _)
      · have habs := magnitudeChars_inj hdvd hdvd' h
        rwa [abs_of_nonneg (not_lt.mp hq), abs_of_nonneg (not_lt.mp hq')] at habs

/-- The text of a float tells the float. -/
theorem reprFloat_inj (h : reprFloat q = reprFloat q') : q = q' :=
  floatChars_inj (String.ofList_injective h)

/-- The characters of a float's text. -/
theorem not_mem_reprFloat (h : c.isDigit = false) (hc : c ∉ ['-', '+', '.', 'e', '/']) :
    c ∉ (reprFloat q).toList := by
  simp only [List.mem_cons, List.not_mem_nil, or_false, not_or] at hc
  obtain ⟨hminus, hplus, hdot, he, hslash⟩ := hc
  have hdecimals : ∀ f n : ℕ, c ∉ decimalChars f n := fun f n => not_mem_decimalChars h hdot
  have hmagnitude : ∀ f : ℕ, c ∉ magnitudeChars f q := by
    intro f
    rw [magnitudeChars]
    split
    · exact hdecimals _ _
    · simp [hdecimals, not_mem_exponentChars h hminus hplus, he]
  rw [reprFloat, String.toList_ofList, floatChars]
  split
  · split <;> simp [hmagnitude, hminus]
  · exact not_mem_toString_rat h hminus hslash q

end Text

end SuperTrading.Logic
