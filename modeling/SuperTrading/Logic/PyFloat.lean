import SuperTrading.Logic.PyText
import Mathlib.Algebra.Order.Ring.Rat
import Mathlib.Data.Nat.Digits.Defs

/-!
# Floats and What Converts to Them

The floats of Python, as rationals with two infinities and a value that is no number. What a
number loses to the precision of a double is not kept; the ends of the range are: a conversion
raises, overflows or vanishes there.

- **Values**
- **Conversions**: `float` of an integer, and of a text
-/

namespace SuperTrading.Logic

/-! ## Section 1: Values -/

inductive PyFloat
  | finite (value : ℚ)
  | infinity (negative : Bool)
  | nan
  deriving DecidableEq, Repr

namespace PyFloat

/-- The number that a float is, if `math.isfinite`. -/
def value? : PyFloat → Option ℚ
  | finite value => some value
  | infinity _ => none
  | nan => none

theorem value?_eq_some {x : PyFloat} {value : ℚ} : x.value? = some value ↔ x = finite value := by
  cases x <;> simp [value?]

def neg : PyFloat → PyFloat
  | finite value => finite (-value)
  | infinity negative => infinity !negative
  | nan => nan

/-- From here on a magnitude is closer to the next power of two than to the largest double. -/
@[irreducible] def overflowBound : ℕ := 2 ^ 1024 - 2 ^ 970

/-- Up to here a magnitude is as close to zero as to the smallest double. -/
@[irreducible] def underflowBound : ℚ := 1 / 2 ^ 1075

/-- The float of a magnitude. -/
def ofMagnitude (q : ℚ) : PyFloat :=
  if overflowBound ≤ q then infinity false
  else if q ≤ underflowBound then finite 0
  else finite q

/-! ## Section 2: Conversions -/

/-- `float(n)`; `none` is its `OverflowError`. -/
def ofInt (n : ℤ) : Option PyFloat :=
  if n.natAbs < overflowBound then some (finite n) else none

/-- The ASCII character that `float` reads a code point as. `decimal` is the value of a decimal
digit of any script. -/
def asciiPoint (decimal : ℕ → Option ℕ) (c : ℕ) : ℕ :=
  if c < 127 then c
  else if isSpacePoint c then 32
  -- A question mark is in no number.
  else (decimal c).elim 63 (48 + ·)

def isAsciiSpace (c : ℕ) : Bool := (9 ≤ c && c ≤ 13) || c == 32

def isAsciiDigit (c : ℕ) : Bool := 48 ≤ c && c ≤ 57

def lowerPoint (c : ℕ) : ℕ := if 65 ≤ c ∧ c ≤ 90 then c + 32 else c

/-- A sign in front of a text, and the text behind it. -/
def takeSign : Text → Bool × Text
  | 43 :: rest => (false, rest)
  | 45 :: rest => (true, rest)
  | t => (false, t)

/-- The digits in front of a text, and the text behind them. Underscores stand between digits
only. -/
def takeDigits (t : Text) : Option (List ℕ × Text) :=
  let isPart := fun c => isAsciiDigit c || c == 95
  let groups := (t.takeWhile isPart).splitOn 95
  if groups.length = 1 ∨ [] ∉ groups then
    some (groups.flatten.map (· - 48), t.dropWhile isPart)
  else none

/-- A decimal significand and an exponent as a float. -/
def ofDecimal (digits : List ℕ) (exponent : ℤ) : PyFloat :=
  let significant := digits.dropWhile (· = 0)
  let magnitude : ℤ := significant.length + exponent
  let significand : ℕ := Nat.ofDigits 10 significant.reverse
  if significant = [] then finite 0
  -- Beyond the ends of the range no power is taken.
  else if 310 < magnitude then infinity false
  else if magnitude < -330 then finite 0
  else if 0 ≤ exponent then ofMagnitude (significand * 10 ^ exponent.toNat)
  else ofMagnitude (significand / 10 ^ (-exponent).toNat)

/-- An exponent, up to the end of the text. -/
def takeExponent : Text → Option ℤ
  | [] => some 0
  | e :: rest =>
    if e = 101 then
      let (negative, rest) := takeSign rest
      (takeDigits rest).bind fun (digits, rest) =>
        if digits ≠ [] ∧ rest = [] then
          let size : ℕ := Nat.ofDigits 10 digits.reverse
          some (if negative then -size else size)
        else none
    else none

/-- A number without a sign. -/
def ofNumber (t : Text) : Option PyFloat := do
  let (whole, rest) ← takeDigits t
  let (fraction, rest) ←
    match rest with
    | 46 :: rest => takeDigits rest
    | _ => some ([], rest)
  let exponent ← takeExponent rest
  if whole ++ fraction = [] then none
  else some (ofDecimal (whole ++ fraction) (exponent - fraction.length))

/-- `float(t)`; `none` is its `ValueError`. -/
def ofText (decimal : ℕ → Option ℕ) (t : Text) : Option PyFloat :=
  let (negative, t) := takeSign (trim isAsciiSpace (t.map (asciiPoint decimal)))
  let t := t.map lowerPoint
  let magnitude :=
    if t = text "inf" ∨ t = text "infinity" then some (infinity false)
    else if t = text "nan" then some nan
    else ofNumber t
  magnitude.map fun x => if negative then x.neg else x

example : ofText (fun _ => none) (text " -1_000.5E-1 ") = some (finite (-20010 / 200)) := by
  decide +kernel

end PyFloat

end SuperTrading.Logic
