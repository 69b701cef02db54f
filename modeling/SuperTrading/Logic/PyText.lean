import Mathlib.Data.List.DropRight

/-!
# Splitting and Stripping Texts

`str.split` at a character and `str.strip` of Python, on texts as lists of characters, and what
they make of a text that was put together from parts.

- **Lists**: dropping from both ends
- **Texts**: splitting and stripping
- **Code points**: texts that hold what is no character
-/

namespace SuperTrading.Logic

/-! ## Section 1: Lists -/

section Lists

variable {α : Type*} {p : α → Bool} {pad xs : List α}

/-- Drop what satisfies `p` from both ends. -/
def trim (p : α → Bool) (xs : List α) : List α := (xs.dropWhile p).rdropWhile p

/-- A list without anything to drop is left alone. -/
theorem trim_of_clean (h : ∀ x ∈ xs, p x = false) : trim p xs = xs := by
  have hdrop : xs.dropWhile p = xs := by
    cases xs with
    | nil => rfl
    | cons x xs => exact List.dropWhile_cons_of_neg (by simp [h x List.mem_cons_self])
  rw [trim, hdrop, List.rdropWhile_eq_self_iff]
  intro hne
  simp [h _ (List.getLast_mem hne)]

/-- Padding in front is dropped. -/
theorem trim_append_of_pad (h : ∀ x ∈ pad, p x = true) : trim p (pad ++ xs) = trim p xs := by
  unfold trim
  rw [List.dropWhile_append_of_pos h]

end Lists

/-! ## Section 2: Texts -/

/-- The characters that `str.strip` drops. -/
def isSpace (c : Char) : Bool :=
  (9 ≤ c.toNat && c.toNat ≤ 13) || (28 ≤ c.toNat && c.toNat ≤ 32) ||
    (8192 ≤ c.toNat && c.toNat ≤ 8202) ||
    [133, 160, 5760, 8232, 8233, 8239, 8287, 12288].contains c.toNat

/-- `text.strip()`. -/
def strip (text : String) : String := String.ofList (trim isSpace text.toList)

/-- `text.split(sep)`. -/
def split (sep : Char) (text : String) : List String :=
  (text.toList.splitOn sep).map String.ofList

theorem split_append (sep : Char) (s t : String) :
    split sep (s ++ String.singleton sep ++ t) = split sep s ++ split sep t := by
  have hlist : (s ++ String.singleton sep ++ t).toList = s.toList ++ sep :: t.toList := by simp
  rw [split, hlist, List.splitOn_append_cons_self, List.map_append]
  rfl

theorem split_of_not_mem {sep : Char} {text : String} (h : sep ∉ text.toList) :
    split sep text = [text] := by
  rw [split, List.splitOn_eq_singleton h, List.map_singleton, String.ofList_toList]

theorem strip_of_clean {text : String} (h : ∀ c ∈ text.toList, isSpace c = false) :
    strip text = text := by
  rw [strip, trim_of_clean h, String.ofList_toList]

theorem strip_append_of_pad {pad : String} (h : ∀ c ∈ pad.toList, isSpace c = true)
    (text : String) : strip (pad ++ text) = strip text := by
  rw [strip, String.toList_append, trim_append_of_pad h, strip]

/-! ## Section 3: Code points -/

/-- A text as its code points. A lone surrogate is one, and is no `Char`. -/
abbrev Text := List ℕ

def text (s : String) : Text := s.toList.map Char.toNat

/-- The code points that `str.strip` drops. -/
def isSpacePoint (c : ℕ) : Bool :=
  (9 ≤ c && c ≤ 13) || (28 ≤ c && c ≤ 32) || (8192 ≤ c && c ≤ 8202) ||
    [133, 160, 5760, 8232, 8233, 8239, 8287, 12288].contains c

end SuperTrading.Logic
