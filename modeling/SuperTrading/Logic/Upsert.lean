import Mathlib.Data.List.Basic

/-!
# Overwriting a Row, or Appending One

A table is a list of rows. A write overwrites the rows of a kind, if there are any, and appends
a new row if there are none. Done twice, it changes nothing the second time exactly if what it
leaves is of the kind again.

- **Upsert**: one row
- **Missing rows**: a batch of rows, of which those are appended whose key the table lacks
-/

namespace SuperTrading.Logic

variable {α : Type*}

/-! ## Section 1: Upsert -/

/-- Overwrite the rows of the kind, or append a new one. -/
def upsert (isRow : α → Bool) (overwrite : α → α) (new : α) (rows : List α) : List α :=
  if rows.any isRow then rows.map fun old => if isRow old then overwrite old else old
  else rows ++ [new]

variable {isRow : α → Bool} {overwrite : α → α} {new : α} {rows : List α}

theorem upsert_of_any (h : rows.any isRow = true) : upsert isRow overwrite new rows =
    rows.map fun old => if isRow old then overwrite old else old := if_pos h

theorem upsert_of_none (h : rows.any isRow = false) :
    upsert isRow overwrite new rows = rows ++ [new] := if_neg (Bool.eq_false_iff.mp h)

/-- A count that an overwrite leaves grows with an appended row alone. -/
theorem countP_upsert (f : α → Bool) (hkept : ∀ old, isRow old = true → f (overwrite old) = f old) :
    (upsert isRow overwrite new rows).countP f =
      rows.countP f + if rows.any isRow = false ∧ f new = true then 1 else 0 := by
  cases hany : rows.any isRow with
  | true =>
    rw [upsert_of_any hany, List.countP_map]
    simp only [Bool.true_eq_false, false_and, if_false, Nat.add_zero]
    apply List.countP_congr
    intro old _
    simp only [Function.comp]
    cases hold : isRow old with
    | true => rw [if_pos rfl, hkept old hold]
    | false => rw [if_neg Bool.false_ne_true]
  | false =>
    rw [upsert_of_none hany, List.countP_append, List.countP_singleton]
    simp

/-- Is a row of the kind left? -/
theorem any_upsert (hkind : ∀ old, isRow old = true → isRow (overwrite old) = isRow new) :
    (upsert isRow overwrite new rows).any isRow = isRow new := by
  cases hany : rows.any isRow with
  | true =>
    rw [upsert_of_any hany, Bool.eq_iff_iff, List.any_map, List.any_eq_true]
    obtain ⟨row, hrow, hisRow⟩ := List.any_eq_true.mp hany
    constructor
    · rintro ⟨old, -, hleft⟩
      cases hold : isRow old with
      | true => simpa [hold, hkind old hold] using hleft
      | false => simp [hold] at hleft
    · intro hnew
      exact ⟨row, hrow, by simp [hisRow, hkind row hisRow, hnew]⟩
  | false =>
    rw [upsert_of_none hany, List.any_append, hany]
    simp

/-- **A second write changes nothing exactly if the first left a row of the kind.** -/
theorem upsert_upsert_iff (hkind : ∀ old, isRow old = true → isRow (overwrite old) = isRow new)
    (hagain : ∀ old, isRow old = true → overwrite (overwrite old) = overwrite old)
    (hnew : overwrite new = new) :
    upsert isRow overwrite new (upsert isRow overwrite new rows) =
      upsert isRow overwrite new rows ↔ isRow new = true := by
  have hany : (upsert isRow overwrite new rows).any isRow = isRow new := any_upsert hkind
  cases hisRow : isRow new with
  | true =>
    rw [hisRow] at hany
    simp only [iff_true]
    rw [upsert_of_any hany]
    cases hfirst : rows.any isRow with
    | true =>
      rw [upsert_of_any hfirst, List.map_map]
      apply List.map_congr_left
      intro old _
      simp only [Function.comp]
      cases hold : isRow old with
      | true => simp [hagain old hold]
      | false => simp [hold]
    | false =>
      have hothers : ∀ old ∈ rows, ¬ isRow old = true := by
        simpa using hfirst
      rw [upsert_of_none hfirst, List.map_append, List.map_singleton, if_pos hisRow, hnew]
      congr 1
      conv_rhs => rw [← List.map_id rows]
      exact List.map_congr_left fun old hold => if_neg (hothers old hold)
  | false =>
    rw [hisRow] at hany
    rw [upsert_of_none hany]
    -- The second write has appended a row.
    simp

/-! ## Section 2: Missing rows -/

section Missing

variable {κ : Type*} [BEq κ] [LawfulBEq κ] {key : α → κ} {existing : List κ} {rows news : List α}

/-- Append the rows of a batch whose keys are not among the existing ones. -/
def insertMissing (key : α → κ) (existing : List κ) (rows news : List α) : List α :=
  rows ++ news.filter fun row => key row ∉ existing

/-- A key that is there gets no row, and one that is missing a row for each in the batch. -/
theorem count_insertMissing
    (hexisting : ∀ row ∈ news, key row ∈ existing ↔ key row ∈ rows.map key) (k : κ) :
    ((insertMissing key existing rows news).map key).count k =
      (rows.map key).count k + if k ∈ rows.map key then 0 else (news.map key).count k := by
  rw [insertMissing, List.map_append, List.count_append]
  congr 1
  split_ifs with hthere
  · rw [List.count_eq_zero]
    intro hwritten
    obtain ⟨row, hrow, rfl⟩ := List.mem_map.mp hwritten
    obtain ⟨hnew, hmissing⟩ := List.mem_filter.mp hrow
    exact of_decide_eq_true hmissing ((hexisting row hnew).mpr hthere)
  · rw [List.count_eq_countP, List.count_eq_countP, List.countP_map, List.countP_map,
      List.countP_filter]
    refine List.countP_congr fun row hrow => ?_
    simp only [Function.comp, Bool.and_eq_true, beq_iff_eq, decide_eq_true_eq]
    refine and_iff_left_of_imp ?_
    rintro rfl
    exact fun hmem => hthere ((hexisting row hrow).mp hmem)

/-- **A key that had its one row, or none, still has exactly if the batch has no two rows for a
key that is missing.** -/
theorem count_insertMissing_iff
    (hexisting : ∀ row ∈ news, key row ∈ existing ↔ key row ∈ rows.map key) {k : κ}
    {seen : Prop} [Decidable seen]
    (honce : (rows.map key).count k = if seen then 1 else 0) :
    ((insertMissing key existing rows news).map key).count k =
        (if seen ∨ k ∈ news.map key then 1 else 0) ↔
      (k ∉ rows.map key → (news.map key).count k ≤ 1) := by
  rw [count_insertMissing hexisting, honce]
  have hthere : k ∈ rows.map key ↔ seen := by
    rw [← List.count_pos_iff, honce]
    split_ifs with hseen <;> simp [hseen]
  have hbatch : 0 < (news.map key).count k ↔ k ∈ news.map key := List.count_pos_iff
  -- A key that is there is written no more; one that is not, as often as it comes.
  by_cases hseen : seen
  · simp [hthere, hseen]
  · by_cases hnew : k ∈ news.map key
    · have hpos := hbatch.mpr hnew
      simp only [hthere, hseen, hnew, or_true, if_true, if_false, not_false_iff, true_imp_iff]
      omega
    · have hzero := List.count_eq_zero.mpr hnew
      simp [hthere, hseen, hnew, hzero]

end Missing

end SuperTrading.Logic
