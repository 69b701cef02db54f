import Mathlib.Data.List.Sort
import Mathlib.Order.Defs.LinearOrder

/-!
# Stable Sorting by a Key

`sortBy key xs` sorts by a key and keeps equal keys in the order they came in.
-/

namespace SuperTrading.Logic

variable {α κ : Type*} [LinearOrder κ] (key : α → κ)

def sortBy (xs : List α) : List α := xs.insertionSort fun a b => key a ≤ key b

@[simp] theorem mem_sortBy {xs : List α} {x : α} : x ∈ sortBy key xs ↔ x ∈ xs :=
  List.mem_insertionSort _

theorem sortBy_perm (xs : List α) : (sortBy key xs).Perm xs := List.perm_insertionSort _ xs

theorem pairwise_sortBy (xs : List α) : (sortBy key xs).Pairwise fun a b => key a ≤ key b :=
  haveI : Std.Total fun a b : α => key a ≤ key b := ⟨fun _ _ => le_total _ _⟩
  haveI : IsTrans α fun a b : α => key a ≤ key b := ⟨fun _ _ _ => le_trans⟩
  List.pairwise_insertionSort _ xs

/-- What is in order stays as it is. -/
theorem sortBy_of_pairwise {xs : List α} (h : xs.Pairwise fun a b => key a ≤ key b) :
    sortBy key xs = xs :=
  h.insertionSort_eq

theorem filter_orderedInsert (p : α → Bool) (a : α) {xs : List α}
    (h : xs.Pairwise fun a b => key a ≤ key b) :
    (xs.orderedInsert (fun a b => key a ≤ key b) a).filter p =
      if p a then (xs.filter p).orderedInsert (fun a b => key a ≤ key b) a else xs.filter p := by
  induction xs with
  | nil => simp [List.filter_cons]
  | cons b xs ih =>
    obtain ⟨hb, hxs⟩ := List.pairwise_cons.mp h
    rw [List.orderedInsert_cons]
    by_cases hab : key a ≤ key b
    · rw [if_pos hab, List.filter_cons]
      split
      · -- Whatever comes first behind `a`, its key is not below that of `a`.
        cases hrest : (b :: xs).filter p with
        | nil => rfl
        | cons c rest =>
          have hc : c ∈ b :: xs := (List.mem_filter.mp (hrest ▸ List.mem_cons_self)).1
          have hac : key a ≤ key c := by
            rcases List.mem_cons.mp hc with rfl | hc
            · exact hab
            · exact hab.trans (hb c hc)
          rw [List.orderedInsert_cons, if_pos hac]
      · rfl
    · rw [if_neg hab, List.filter_cons, ih hxs, List.filter_cons]
      by_cases hpa : p a = true <;> by_cases hpb : p b = true <;> simp [hpa, hpb, hab]

/-- A part of the list is sorted as it stands in the sorted list. -/
theorem filter_sortBy (p : α → Bool) (xs : List α) :
    (sortBy key xs).filter p = sortBy key (xs.filter p) := by
  induction xs with
  | nil => rfl
  | cons a xs ih =>
    have hsorted := filter_orderedInsert key p a (pairwise_sortBy key xs)
    rw [ih] at hsorted
    rw [List.filter_cons]
    split at hsorted
    · next hpa =>
      rw [if_pos hpa]
      exact hsorted
    · next hpa =>
      rw [if_neg hpa]
      exact hsorted

/-- Sorted lists are equal if they have the same elements of each key, in the same order. -/
theorem eq_of_filter_key_eq {xs ys : List α} (hxs : xs.Pairwise fun a b => key a ≤ key b)
    (hys : ys.Pairwise fun a b => key a ≤ key b)
    (h : ∀ k, xs.filter (fun a => key a = k) = ys.filter (fun a => key a = k)) : xs = ys := by
  induction xs generalizing ys with
  | nil =>
    refine (List.eq_nil_iff_forall_not_mem.mpr fun y hy => ?_).symm
    have hmem : y ∈ ys.filter (fun a => key a = key y) :=
      List.mem_filter.mpr ⟨hy, decide_eq_true rfl⟩
    rw [← h (key y)] at hmem
    exact absurd hmem List.not_mem_nil
  | cons x xs ih =>
    cases ys with
    | nil =>
      have hmem : x ∈ (x :: xs).filter (fun a => key a = key x) :=
        List.mem_filter.mpr ⟨List.mem_cons_self, decide_eq_true rfl⟩
      rw [h (key x)] at hmem
      exact absurd hmem List.not_mem_nil
    | cons y ys =>
      obtain ⟨hx, hxsTail⟩ := List.pairwise_cons.mp hxs
      obtain ⟨hy, hysTail⟩ := List.pairwise_cons.mp hys
      -- The smallest key is that of either head.
      have hkey : key x = key y := by
        have hxmem : x ∈ (y :: ys).filter (fun a => key a = key x) := by
          rw [← h (key x)]
          exact List.mem_filter.mpr ⟨List.mem_cons_self, decide_eq_true rfl⟩
        have hymem : y ∈ (x :: xs).filter (fun a => key a = key y) := by
          rw [h (key y)]
          exact List.mem_filter.mpr ⟨List.mem_cons_self, decide_eq_true rfl⟩
        apply le_antisymm
        · rcases List.mem_cons.mp (List.mem_filter.mp hymem).1 with rfl | hmem
          · exact le_refl _
          · exact hx y hmem
        · rcases List.mem_cons.mp (List.mem_filter.mp hxmem).1 with rfl | hmem
          · exact le_refl _
          · exact hy x hmem
      -- The heads are then the first of the same key, and the tails are sorted.
      have hhead := h (key x)
      rw [List.filter_cons, List.filter_cons, if_pos (decide_eq_true rfl),
        if_pos (decide_eq_true hkey.symm)] at hhead
      obtain ⟨rfl, htail⟩ := List.cons.inj hhead
      congr 1
      refine ih hxsTail hysTail fun k => ?_
      by_cases hk : key x = k
      · exact hk ▸ htail
      · simpa [List.filter_cons, hk] using h k

/-- **Lists that differ in the order of different keys only are sorted to the same list.** -/
theorem sortBy_congr {xs ys : List α}
    (h : ∀ k, xs.filter (fun a => key a = k) = ys.filter (fun a => key a = k)) :
    sortBy key xs = sortBy key ys := by
  refine eq_of_filter_key_eq key (pairwise_sortBy key xs) (pairwise_sortBy key ys) fun k => ?_
  rw [filter_sortBy, filter_sortBy, h k]

end SuperTrading.Logic
