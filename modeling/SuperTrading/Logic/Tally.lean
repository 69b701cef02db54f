import Mathlib.Algebra.Order.Group.Abs
import SuperTrading.Logic.Dict

/-!
# Tallies

A tally adds up amounts by key: `d[k] = d.get(k, 0) + v`, over a list of keyed amounts.
Amounts of one key net, so the sizes of the totals can only be smaller than the sizes of
the amounts. They are the same where no key has two amounts that matter.
-/

namespace SuperTrading.Logic.Dict

variable {κ M : Type*} [DecidableEq κ] [AddCommGroup M]

/-- One amount more under its key. -/
def count (d : Dict κ M) (e : κ × M) : Dict κ M := d.set e.1 ((d.get? e.1).getD 0 + e.2)

/-- The total of each key. -/
def tally (es : List (κ × M)) : Dict κ M := es.foldl count empty

theorem getD_count (d : Dict κ M) (e : κ × M) (k : κ) :
    ((d.count e).get? k).getD 0 = (d.get? k).getD 0 + if e.1 = k then e.2 else 0 := by
  unfold count
  rw [get?_set]
  by_cases hk : e.1 = k
  · subst hk
    simp
  · simp [hk]

variable [LinearOrder M] [IsOrderedAddMonoid M]

/-- An amount changes the sizes by what it changes the size of its key's total. -/
theorem sum_abs_count (d : Dict κ M) (e : κ × M) :
    ((d.count e).values.map fun v => |v|).sum =
      (d.values.map fun v => |v|).sum + (|(d.get? e.1).getD 0 + e.2| - |(d.get? e.1).getD 0|) := by
  unfold count
  rw [sum_values_set]
  cases d.get? e.1 with
  | none => simp
  | some v =>
    simp only [Option.elim_some, Option.getD_some]
    abel

/-- Netting loses size, and never gains any. -/
theorem sum_abs_tally_le (es : List (κ × M)) :
    ((tally es).values.map fun v => |v|).sum ≤ (es.map fun e => |e.2|).sum := by
  have hgen : ∀ (es : List (κ × M)) (d : Dict κ M),
      ((es.foldl count d).values.map fun v => |v|).sum ≤
        (d.values.map fun v => |v|).sum + (es.map fun e => |e.2|).sum := by
    intro es
    induction es with
    | nil => intro d; simp
    | cons e es ih =>
      intro d
      have hnet : |(d.get? e.1).getD 0 + e.2| - |(d.get? e.1).getD 0| ≤ |e.2| := by
        rw [sub_le_iff_le_add, add_comm |e.2|]
        exact abs_add_le _ _
      rw [List.foldl_cons, List.map_cons, List.sum_cons, ← add_assoc]
      refine (ih _).trans (add_le_add_left ?_ _)
      rw [sum_abs_count]
      exact add_le_add_right hnet _
  simpa [tally, empty, values] using hgen es empty

/-- Nothing nets where two amounts of one key are never both nonzero. -/
theorem sum_abs_tally {es : List (κ × M)}
    (h : es.Pairwise fun e e' => e.1 = e'.1 → e.2 = 0 ∨ e'.2 = 0) :
    ((tally es).values.map fun v => |v|).sum = (es.map fun e => |e.2|).sum := by
  have hgen : ∀ (es : List (κ × M)) (d : Dict κ M),
      (es.Pairwise fun e e' => e.1 = e'.1 → e.2 = 0 ∨ e'.2 = 0) →
      (∀ e ∈ es, (d.get? e.1).getD 0 = 0 ∨ e.2 = 0) →
      ((es.foldl count d).values.map fun v => |v|).sum =
        (d.values.map fun v => |v|).sum + (es.map fun e => |e.2|).sum := by
    intro es
    induction es with
    | nil => intro d _ _; simp
    | cons e es ih =>
      intro d hpair hfree
      obtain ⟨hhead, hrest⟩ := List.pairwise_cons.mp hpair
      have hnet : |(d.get? e.1).getD 0 + e.2| - |(d.get? e.1).getD 0| = |e.2| := by
        rcases hfree e List.mem_cons_self with hzero | hzero <;> simp [hzero]
      rw [List.foldl_cons, ih _ hrest, sum_abs_count, hnet, List.map_cons, List.sum_cons,
        add_assoc]
      -- What the key of a later amount holds is still nothing, or the amount is.
      intro e' he'
      rw [getD_count]
      rcases hfree e' (List.mem_cons_of_mem _ he') with hzero | hzero
      · by_cases hkey : e.1 = e'.1
        · rcases hhead e' he' hkey with hamount | hamount
          · simp [hzero, hamount]
          · exact .inr hamount
        · simp [hzero, hkey]
      · exact .inr hzero
  simpa [tally, empty, values] using hgen es empty h fun e _ => .inl rfl

end SuperTrading.Logic.Dict
