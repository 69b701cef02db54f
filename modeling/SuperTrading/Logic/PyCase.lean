import SuperTrading.Logic.PyText
import Mathlib.Data.String.Basic

/-!
# Upper and Lower Case

`str.upper` and `str.lower` of Python, as far as a comparison with an ASCII word can tell: the
ASCII letters, and the other characters whose image is ASCII. A character whose image is not
stays as it is, and a text with one of them is no ASCII word either way.
-/

namespace SuperTrading.Logic

/-- `c.lower()`: `K`, the sign of the kelvin, is the one character from outside ASCII. -/
def lowerChar (c : Char) : Char :=
  if c.toNat = 0x212A then 'k' else c.toLower

/-- The characters from outside ASCII whose `upper()` is ASCII: `ß`, the dotless `ı`, the long
`ſ`, and the ligatures. -/
def upperOutside : List (ℕ × List Char) :=
  [(0xDF, ['S', 'S']), (0x131, ['I']), (0x17F, ['S']), (0xFB00, ['F', 'F']), (0xFB01, ['F', 'I']),
    (0xFB02, ['F', 'L']), (0xFB03, ['F', 'F', 'I']), (0xFB04, ['F', 'F', 'L']),
    (0xFB05, ['S', 'T']), (0xFB06, ['S', 'T'])]

/-- `c.upper()`. -/
def upperChar (c : Char) : List Char :=
  ((upperOutside.find? fun entry => entry.1 = c.toNat).map Prod.snd).getD [c.toUpper]

/-- `text.lower()`. -/
def lower (text : String) : String := String.ofList (text.toList.map lowerChar)

/-- `text.upper()`. -/
def upper (text : String) : String := String.ofList (text.toList.flatMap upperChar)

example : lower "Bullish" = "bullish" ∧ upper "ſell" = "SELL" ∧ upper "new_york" = "NEW_YORK" := by
  decide +kernel

/-- What is stripped has no case. -/
theorem lowerChar_of_isSpace {c : Char} (h : isSpace c = true) : lowerChar c = c := by
  have hpoint : ¬ c.toNat = 0x212A ∧ ¬ (65 ≤ c.toNat ∧ c.toNat ≤ 90) := by
    simp only [isSpace, Bool.or_eq_true, Bool.and_eq_true, decide_eq_true_iff, List.contains_eq_mem,
      List.mem_cons, List.not_mem_nil, or_false] at h
    omega
  have hupper : ¬ (c.val ≥ 'A'.val ∧ c.val ≤ 'Z'.val) := fun hc => hpoint.2
    ⟨UInt32.le_iff_toNat_le.mp hc.1, UInt32.le_iff_toNat_le.mp hc.2⟩
  rw [lowerChar, if_neg hpoint.1]
  exact dif_neg hupper

/-- A text that is a word but for its case has nothing to strip. -/
theorem strip_of_lower {text word : String} (h : lower text = word)
    (hword : ∀ c ∈ word.toList, isSpace c = false) : strip text = text := by
  apply strip_of_clean
  intro c hc
  by_contra hspace
  rw [Bool.not_eq_false] at hspace
  have hmem : lowerChar c ∈ word.toList := by
    rw [← h, lower, String.toList_ofList]
    exact List.mem_map_of_mem hc
  rw [lowerChar_of_isSpace hspace] at hmem
  simp [hword c hmem] at hspace

end SuperTrading.Logic
