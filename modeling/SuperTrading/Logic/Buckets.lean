import SuperTrading.Logic.Dict
import SuperTrading.Logic.SortBy
import Mathlib.Data.List.Sort
import Mathlib.Data.List.Induction

/-!
# Items in Buckets

Items are collected in a dictionary under the key of their bucket, and the buckets are gone
through in the order of their keys, the items of each in the order of their times.

- `collect`: the dictionary
- `bucketKeys`: its keys in order
- `bucketOf`: the items of one key, in order

Where keys follow times, the buckets one behind the other are the items in order, and buckets of
buckets are buckets.
-/

namespace SuperTrading.Logic

/-! ## Section 1: Lists in strict order -/

section Ordered

variable {α τ : Type*} [LinearOrder τ] (time : α → τ)

/-- A list in strict order of time is known by its members. -/
theorem eq_of_strict_of_mem_iff {xs ys : List α} (hxs : xs.Pairwise fun a b => time a < time b)
    (hys : ys.Pairwise fun a b => time a < time b) (h : ∀ a, a ∈ xs ↔ a ∈ ys) : xs = ys := by
  have hirrefl : Std.Irrefl fun a b : α => time a < time b := ⟨fun a => lt_irrefl _⟩
  have hanti : Std.Antisymm fun a b : α => time a < time b :=
    ⟨fun a b hab hba => absurd hba (lt_asymm hab)⟩
  exact List.Pairwise.eq_of_mem_iff hxs hys h

/-- Items of distinct times are sorted strictly. -/
theorem strict_sortBy {xs : List α} (h : (xs.map time).Nodup) :
    (sortBy time xs).Pairwise fun a b => time a < time b := by
  have hnodup : (sortBy time xs).Pairwise fun a b => time a ≠ time b := by
    rw [← List.pairwise_map]
    exact ((sortBy_perm time xs).map time).nodup_iff.mpr h
  apply ((pairwise_sortBy time xs).and hnodup).imp
  intro a b hab
  exact lt_of_le_of_ne hab.1 hab.2

/-- The order in which items of distinct times come in does not matter. -/
theorem sortBy_eq_of_perm {xs ys : List α} (h : xs.Perm ys) (hnodup : (xs.map time).Nodup) :
    sortBy time xs = sortBy time ys := by
  apply eq_of_strict_of_mem_iff time (strict_sortBy time hnodup)
  · exact strict_sortBy time ((h.map time).nodup_iff.mp hnodup)
  · intro a
    rw [mem_sortBy, mem_sortBy, h.mem_iff]

end Ordered

theorem nodup_map_filter {α τ : Type*} {time : α → τ} {xs : List α} (h : (xs.map time).Nodup)
    (p : α → Bool) : ((xs.filter p).map time).Nodup :=
  h.sublist (List.filter_sublist.map time)

/-- A member on the left has its partner on the right. -/
theorem exists_of_mem_forall₂ {α β : Type*} {R : α → β → Prop} {xs : List α} {ys : List β}
    (h : List.Forall₂ R xs ys) {x : α} (hx : x ∈ xs) : ∃ y ∈ ys, R x y := by
  induction h with
  | nil => cases hx
  | cons hR _ ih =>
    rcases List.mem_cons.mp hx with rfl | hx
    · exact ⟨_, List.mem_cons_self, hR⟩
    · obtain ⟨y, hy, hR⟩ := ih hx
      exact ⟨y, List.mem_cons_of_mem _ hy, hR⟩

/-! ## Section 2: The dictionary -/

section Collect

variable {α κ : Type*} [DecidableEq κ] (key : α → κ)

/-- `d.setdefault(key, []).append(x)`. -/
def collectOne (d : Dict κ (List α)) (x : α) : Dict κ (List α) :=
  d.set (key x) ((d.get? (key x)).getD [] ++ [x])

def collect (xs : List α) : Dict κ (List α) := xs.foldl (collectOne key) Dict.empty

variable {key}

/-- The dictionary holds the items of each key, in the order they came in. -/
theorem getD_collect (xs : List α) (k : κ) :
    ((collect key xs).get? k).getD [] = xs.filter fun x => key x = k := by
  induction xs using List.reverseRecOn with
  | nil => rfl
  | append_singleton xs x ih =>
    have hstep : collect key (xs ++ [x]) = collectOne key (collect key xs) x := by
      simp [collect, List.foldl_append]
    rw [hstep, collectOne, Dict.get?_set, List.filter_append]
    by_cases hk : key x = k
    · subst hk
      simp [ih]
    · simp [hk, ih]

theorem get?_collect_isSome (xs : List α) (k : κ) :
    ((collect key xs).get? k).isSome = true ↔ ∃ x ∈ xs, key x = k := by
  induction xs using List.reverseRecOn with
  | nil => simp [collect]
  | append_singleton xs x ih =>
    have hstep : collect key (xs ++ [x]) = collectOne key (collect key xs) x := by
      simp [collect, List.foldl_append]
    rw [hstep, collectOne, Dict.get?_set]
    by_cases hk : key x = k
    · simp [hk]
    · simp [hk, ih]

theorem mem_keys_collect {xs : List α} {k : κ} :
    k ∈ (collect key xs).entries.map Prod.fst ↔ ∃ x ∈ xs, key x = k := by
  rw [← get?_collect_isSome, List.mem_map]
  constructor
  · rintro ⟨e, he, rfl⟩
    rw [(Dict.mem_entries_iff _).mp he]
    rfl
  · intro h
    obtain ⟨v, hv⟩ := Option.isSome_iff_exists.mp h
    exact ⟨(k, v), (Dict.mem_entries_iff _).mpr hv, rfl⟩

end Collect

/-! ## Section 3: The buckets in order -/

section Buckets

variable {α κ τ : Type*} [LinearOrder κ] [LinearOrder τ] (key : α → κ) (time : α → τ)

/-- `sorted(buckets)`. -/
def bucketKeys (xs : List α) : List κ := sortBy id ((collect key xs).entries.map Prod.fst)

/-- The items of one key, in the order of their times. -/
def bucketOf (xs : List α) (k : κ) : List α := sortBy time (xs.filter fun x => key x = k)

variable {key time} {xs : List α} {k : κ} {x : α}

@[simp] theorem mem_bucketKeys : k ∈ bucketKeys key xs ↔ ∃ x ∈ xs, key x = k := by
  rw [bucketKeys, mem_sortBy, mem_keys_collect]

@[simp] theorem mem_bucketOf : x ∈ bucketOf key time xs k ↔ x ∈ xs ∧ key x = k := by
  simp [bucketOf]

theorem strict_bucketKeys (xs : List α) : (bucketKeys key xs).Pairwise (· < ·) := by
  apply strict_sortBy id
  rw [List.map_id]
  exact (collect key xs).nodup

theorem bucketOf_ne_nil (time : α → τ) (h : k ∈ bucketKeys key xs) :
    bucketOf key time xs k ≠ [] := by
  obtain ⟨x, hx, hk⟩ := mem_bucketKeys.mp h
  exact List.ne_nil_of_mem (mem_bucketOf.mpr ⟨hx, hk⟩)

theorem bucketKeys_eq_of_perm {ys : List α} (h : xs.Perm ys) :
    bucketKeys key xs = bucketKeys key ys := by
  apply eq_of_strict_of_mem_iff id (strict_bucketKeys xs) (strict_bucketKeys ys)
  intro k
  simp only [mem_bucketKeys, h.mem_iff]

theorem bucketOf_eq_of_perm {ys : List α} (h : xs.Perm ys) (hnodup : (xs.map time).Nodup) :
    bucketOf key time xs k = bucketOf key time ys k :=
  sortBy_eq_of_perm time (h.filter _) (nodup_map_filter hnodup _)

/-- Keys that are worked out first and put beside the items are the keys of the items. -/
theorem bucketKeys_map_pair (xs : List α) :
    bucketKeys Prod.fst (xs.map fun x => (key x, x)) = bucketKeys key xs := by
  apply eq_of_strict_of_mem_iff id (strict_bucketKeys _) (strict_bucketKeys xs)
  intro k
  simp

theorem getD_collect_map_pair (xs : List α) (k : κ) :
    (((collect Prod.fst (xs.map fun x => (key x, x))).get? k).getD []).map Prod.snd =
      ((collect key xs).get? k).getD [] := by
  rw [getD_collect, getD_collect, List.filter_map, List.map_map]
  exact List.map_id _

/-- **Buckets of buckets**: where keys follow times, the items of a coarse bucket are those of its
fine buckets, one behind the other. -/
theorem sortBy_filter_eq_flatMap (hmono : ∀ x ∈ xs, ∀ y ∈ xs, time x ≤ time y → key x ≤ key y)
    (hnodup : (xs.map time).Nodup) (p : κ → Bool) :
    sortBy time (xs.filter fun x => p (key x)) =
      ((bucketKeys key xs).filter p).flatMap (bucketOf key time xs) := by
  apply eq_of_strict_of_mem_iff time
  · exact strict_sortBy time (nodup_map_filter hnodup _)
  · -- Buckets ascend in time because their keys do.
    rw [List.pairwise_flatMap]
    constructor
    · intro k _
      exact strict_sortBy time (nodup_map_filter hnodup _)
    · apply ((strict_bucketKeys xs).filter p).imp
      intro k k' hlt x hx y hy
      obtain ⟨hxmem, rfl⟩ := mem_bucketOf.mp hx
      obtain ⟨hymem, rfl⟩ := mem_bucketOf.mp hy
      by_contra hnot
      exact absurd (hmono y hymem x hxmem (not_lt.mp hnot)) (not_le.mpr hlt)
  · intro x
    simp only [mem_sortBy, List.mem_filter, List.mem_flatMap, mem_bucketKeys, mem_bucketOf]
    constructor
    · rintro ⟨hx, hp⟩
      exact ⟨key x, ⟨⟨x, hx, rfl⟩, hp⟩, hx, rfl⟩
    · rintro ⟨_, ⟨-, hp⟩, hx, rfl⟩
      exact ⟨hx, hp⟩

/-- The buckets one behind the other are the items in order. -/
theorem sortBy_eq_flatMap (hmono : ∀ x ∈ xs, ∀ y ∈ xs, time x ≤ time y → key x ≤ key y)
    (hnodup : (xs.map time).Nodup) :
    sortBy time xs = (bucketKeys key xs).flatMap (bucketOf key time xs) := by
  have h := sortBy_filter_eq_flatMap hmono hnodup fun _ => true
  simpa using h

end Buckets

end SuperTrading.Logic
