import Mathlib.Algebra.BigOperators.Group.List.Basic
import Mathlib.Algebra.Group.Basic
import Mathlib.Data.List.Nodup
import Mathlib.Tactic.Abel

/-!
# Insertion-Ordered Dictionaries

A dictionary keeps its entries in the order their keys were first inserted:
overwriting a key keeps its place, deleting it and inserting it again moves it
to the end. `AList.insert` moves an overwritten key to the front instead, so
iteration over the entries needs this order of its own.

- **Entries**: association lists and their three updates
- **Dict**: entries whose keys are pairwise distinct
- **Lookup**: how `get?` reads through each update
- **Sums**: how a sum over the values moves under each update
-/

namespace SuperTrading.Logic

variable {κ ν : Type*} [DecidableEq κ]

/-! ## Section 1: Entries -/

/-- The value the entries hold for a key. -/
def lookupEntry (k : κ) : List (κ × ν) → Option ν
  | [] => none
  | e :: es => if e.1 = k then some e.2 else lookupEntry k es

/-- Overwrite the key where it stands, or append it. -/
def setEntry (k : κ) (v : ν) : List (κ × ν) → List (κ × ν)
  | [] => [(k, v)]
  | e :: es => if e.1 = k then (k, v) :: es else e :: setEntry k v es

/-- Drop the key, keeping the order of the rest. -/
def eraseEntry (k : κ) : List (κ × ν) → List (κ × ν)
  | [] => []
  | e :: es => if e.1 = k then es else e :: eraseEntry k es

theorem lookupEntry_eq_none {k : κ} {es : List (κ × ν)} :
    lookupEntry k es = none ↔ k ∉ es.map Prod.fst := by
  induction es with
  | nil => simp [lookupEntry]
  | cons e es ih =>
    by_cases he : e.1 = k
    · simp [lookupEntry, he]
    · simp only [lookupEntry, if_neg he, ih, List.map_cons, List.mem_cons, not_or]
      exact ⟨fun h => ⟨fun hk => he hk.symm, h⟩, fun h => h.2⟩

theorem lookupEntry_setEntry (k j : κ) (v : ν) (es : List (κ × ν)) :
    lookupEntry j (setEntry k v es) = if k = j then some v else lookupEntry j es := by
  induction es with
  | nil => simp [setEntry, lookupEntry]
  | cons e es ih =>
    by_cases he : e.1 = k
    · subst he
      by_cases hj : e.1 = j <;> simp [setEntry, lookupEntry, hj]
    · simp only [setEntry, if_neg he, lookupEntry, ih]
      by_cases hj : e.1 = j
      · -- The head holds `j`, so `j` is not the key that was written.
        have hkj : k ≠ j := fun h => he (hj.trans h.symm)
        simp [hj, hkj]
      · simp [hj]

theorem setEntry_setEntry (k : κ) (v w : ν) (es : List (κ × ν)) :
    setEntry k w (setEntry k v es) = setEntry k w es := by
  induction es with
  | nil => simp [setEntry]
  | cons e es ih =>
    by_cases he : e.1 = k
    · simp [setEntry, he]
    · simp [setEntry, he, ih]

theorem mem_keys_setEntry {k j : κ} {v : ν} {es : List (κ × ν)} :
    j ∈ (setEntry k v es).map Prod.fst ↔ j = k ∨ j ∈ es.map Prod.fst := by
  have hs := lookupEntry_setEntry k j v es
  -- Membership of a key is read off the lookup of the updated entries.
  constructor
  · intro hj
    by_contra hcon
    obtain ⟨hne, hes⟩ := not_or.mp hcon
    rw [if_neg (Ne.symm hne), lookupEntry_eq_none.mpr hes] at hs
    exact lookupEntry_eq_none.mp hs hj
  · intro hj
    by_contra hcon
    rw [lookupEntry_eq_none.mpr hcon] at hs
    rcases hj with rfl | hj
    · simp at hs
    · by_cases hk : k = j
      · simp [hk] at hs
      · rw [if_neg hk] at hs
        exact lookupEntry_eq_none.mp hs.symm hj

theorem nodup_setEntry (k : κ) (v : ν) {es : List (κ × ν)} (h : (es.map Prod.fst).Nodup) :
    ((setEntry k v es).map Prod.fst).Nodup := by
  induction es with
  | nil => simp [setEntry]
  | cons e es ih =>
    obtain ⟨hne, hes⟩ := List.nodup_cons.mp h
    by_cases he : e.1 = k
    · subst he
      simpa [setEntry] using h
    · simp only [setEntry, if_neg he, List.map_cons, List.nodup_cons]
      refine ⟨fun hmem => ?_, ih hes⟩
      -- A key of the updated tail is the new key or an old one, and `e.1` is neither.
      rcases mem_keys_setEntry.mp hmem with hk | hmem
      · exact he hk
      · exact hne hmem

theorem eraseEntry_sublist (k : κ) (es : List (κ × ν)) : (eraseEntry k es).Sublist es := by
  induction es with
  | nil => exact List.Sublist.refl _
  | cons e es ih =>
    by_cases he : e.1 = k
    · simp [eraseEntry, he]
    · simpa [eraseEntry, he] using ih.cons_cons e

theorem lookupEntry_eraseEntry (k j : κ) {es : List (κ × ν)} (h : (es.map Prod.fst).Nodup) :
    lookupEntry j (eraseEntry k es) = if k = j then none else lookupEntry j es := by
  induction es with
  | nil => simp [eraseEntry, lookupEntry]
  | cons e es ih =>
    obtain ⟨hne, hes⟩ := List.nodup_cons.mp h
    by_cases he : e.1 = k
    · subst he
      by_cases hj : e.1 = j
      · -- Distinct keys: the tail does not hold the erased key a second time.
        subst hj
        simpa [eraseEntry] using lookupEntry_eq_none.mpr hne
      · simp [eraseEntry, lookupEntry, hj]
    · simp only [eraseEntry, if_neg he, lookupEntry, ih hes]
      by_cases hj : e.1 = j
      · have hkj : k ≠ j := fun hk => he (hj.trans hk.symm)
        simp [hj, hkj]
      · simp [hj]

theorem mem_iff_lookupEntry {k : κ} {v : ν} {es : List (κ × ν)} (h : (es.map Prod.fst).Nodup) :
    (k, v) ∈ es ↔ lookupEntry k es = some v := by
  induction es with
  | nil => simp [lookupEntry]
  | cons e es ih =>
    obtain ⟨hne, hes⟩ := List.nodup_cons.mp h
    by_cases he : e.1 = k
    · subst he
      have hnot : (e.1, v) ∉ es := fun hmem => hne (List.mem_map.mpr ⟨(e.1, v), hmem, rfl⟩)
      simp only [lookupEntry, if_true, List.mem_cons, hnot, or_false, Option.some.injEq]
      exact ⟨fun h => (congrArg Prod.snd h).symm, fun h => Prod.ext rfl h.symm⟩
    · -- The head has another key, so both sides go on with the tail.
      have hcons : (k, v) ≠ e := fun hk => he (congrArg Prod.fst hk).symm
      simp only [lookupEntry, if_neg he, List.mem_cons, hcons, false_or]
      exact ih hes

/-! ## Section 2: Dictionaries -/

/-- A dictionary: entries in insertion order, one for each key. -/
structure Dict (κ ν : Type*) where
  entries : List (κ × ν)
  nodup : (entries.map Prod.fst).Nodup

namespace Dict

/-- The dictionary without entries. -/
def empty : Dict κ ν := ⟨[], List.nodup_nil⟩

/-- `d.get(k)`. -/
def get? (d : Dict κ ν) (k : κ) : Option ν := lookupEntry k d.entries

/-- `d[k] = v`. -/
def set (d : Dict κ ν) (k : κ) (v : ν) : Dict κ ν :=
  ⟨setEntry k v d.entries, nodup_setEntry k v d.nodup⟩

/-- `d.pop(k, None)`. -/
def erase (d : Dict κ ν) (k : κ) : Dict κ ν :=
  ⟨eraseEntry k d.entries, d.nodup.sublist ((eraseEntry_sublist k d.entries).map _)⟩

/-- Rewrite the value a key holds; nothing happens to a key that holds none. -/
def modify (d : Dict κ ν) (k : κ) (f : ν → ν) : Dict κ ν :=
  match d.get? k with
  | some v => d.set k (f v)
  | none => d

/-- `d.values()`, in insertion order. -/
def values (d : Dict κ ν) : List ν := d.entries.map Prod.snd

/-! ## Section 3: Lookup -/

@[simp] theorem get?_empty (k : κ) : (empty : Dict κ ν).get? k = none := rfl

theorem get?_set (d : Dict κ ν) (k j : κ) (v : ν) :
    (d.set k v).get? j = if k = j then some v else d.get? j :=
  lookupEntry_setEntry k j v d.entries

@[simp] theorem get?_set_self (d : Dict κ ν) (k : κ) (v : ν) : (d.set k v).get? k = some v := by
  simp [get?_set]

theorem get?_set_of_ne (d : Dict κ ν) {k j : κ} (h : k ≠ j) (v : ν) :
    (d.set k v).get? j = d.get? j := by
  simp [get?_set, h]

theorem get?_erase (d : Dict κ ν) (k j : κ) :
    (d.erase k).get? j = if k = j then none else d.get? j :=
  lookupEntry_eraseEntry k j d.nodup

@[simp] theorem get?_erase_self (d : Dict κ ν) (k : κ) : (d.erase k).get? k = none := by
  simp [get?_erase]

theorem get?_erase_of_ne (d : Dict κ ν) {k j : κ} (h : k ≠ j) :
    (d.erase k).get? j = d.get? j := by
  simp [get?_erase, h]

theorem get?_modify (d : Dict κ ν) (k j : κ) (f : ν → ν) :
    (d.modify k f).get? j = if k = j then (d.get? j).map f else d.get? j := by
  unfold modify
  cases hk : d.get? k with
  | none =>
    by_cases hj : k = j
    · subst hj
      simp [hk]
    · simp [hj]
  | some v =>
    rw [get?_set]
    by_cases hj : k = j
    · subst hj
      simp [hk]
    · simp [hj]

theorem set_set (d : Dict κ ν) (k : κ) (v w : ν) : (d.set k v).set k w = d.set k w := by
  simp only [set, setEntry_setEntry]

theorem modify_modify (d : Dict κ ν) (k : κ) (f g : ν → ν) :
    (d.modify k f).modify k g = d.modify k (fun v => g (f v)) := by
  cases hk : d.get? k with
  | none => simp [modify, hk]
  | some v => simp [modify, hk, set_set]

theorem mem_entries_iff (d : Dict κ ν) {k : κ} {v : ν} :
    (k, v) ∈ d.entries ↔ d.get? k = some v :=
  mem_iff_lookupEntry d.nodup

theorem mem_values_iff (d : Dict κ ν) {v : ν} : v ∈ d.values ↔ ∃ k, d.get? k = some v := by
  simp only [values, List.mem_map, Prod.exists, exists_eq_right, mem_entries_iff]

/-- A write leaves the entries of a kind that neither the old entry nor the new one is of. -/
theorem filter_entries_set_of_not (d : Dict κ ν) {k : κ} {v : ν} {p : κ × ν → Bool}
    (hnew : p (k, v) = false) (hold : ∀ v', d.get? k = some v' → p (k, v') = false) :
    (d.set k v).entries.filter p = d.entries.filter p := by
  have hgen : ∀ es : List (κ × ν), (∀ v', lookupEntry k es = some v' → p (k, v') = false) →
      (setEntry k v es).filter p = es.filter p := by
    intro es hes
    induction es with
    | nil => simp [setEntry, hnew]
    | cons e es ih =>
      obtain ⟨k', v'⟩ := e
      by_cases hk : k' = k
      · subst hk
        have hdropped := hes v' (by simp [lookupEntry])
        simp [setEntry, hnew, hdropped]
      · have hes' : ∀ v', lookupEntry k es = some v' → p (k, v') = false := by
          simpa [lookupEntry, hk] using hes
        simp only [setEntry, if_neg hk, List.filter_cons, ih hes']
  exact hgen d.entries hold

/-- Entries of other keys stay where they are. -/
theorem filter_entries_set (d : Dict κ ν) {k : κ} {p : κ → Bool} (h : p k = false) (v : ν) :
    ((d.set k v).entries.filter fun e => p e.1) = d.entries.filter fun e => p e.1 :=
  d.filter_entries_set_of_not h fun _ _ => h

/-- A key has one entry at most. -/
theorem filter_entries_key (d : Dict κ ν) (k : κ) :
    (d.entries.filter fun e => e.1 = k) = ((d.get? k).map fun v => (k, v)).toList := by
  have hgen : ∀ es : List (κ × ν), (es.map Prod.fst).Nodup →
      (es.filter fun e => e.1 = k) = ((lookupEntry k es).map fun v => (k, v)).toList := by
    intro es
    induction es with
    | nil => intro _; rfl
    | cons e es ih =>
      intro hnodup
      obtain ⟨hne, hes⟩ := List.nodup_cons.mp hnodup
      by_cases he : e.1 = k
      · subst he
        have hrest : (es.filter fun e' => e'.1 = e.1) = [] :=
          List.filter_eq_nil_iff.mpr fun e' he' heq =>
            hne (of_decide_eq_true heq ▸ List.mem_map_of_mem he')
        simp [lookupEntry, hrest]
      · simp [lookupEntry, he, ih hes]
  exact hgen d.entries d.nodup

/-- With one key at most, the entries are that key's. -/
theorem entries_of_lone (d : Dict κ ν) {k : κ} (h : ∀ j, j ≠ k → d.get? j = none) :
    d.entries = ((d.get? k).map fun v => (k, v)).toList := by
  rw [← filter_entries_key, eq_comm, List.filter_eq_self]
  intro e he
  by_contra hne
  have hnone : d.get? e.1 = none := h e.1 (by simpa using hne)
  rw [(mem_entries_iff d).mp (show (e.1, e.2) ∈ d.entries from he)] at hnone
  cases hnone

theorem entries_set_of_fresh (d : Dict κ ν) {k : κ} (h : d.get? k = none) (v : ν) :
    (d.set k v).entries = d.entries ++ [(k, v)] := by
  have hgen : ∀ es : List (κ × ν), lookupEntry k es = none →
      setEntry k v es = es ++ [(k, v)] := by
    intro es
    induction es with
    | nil => intro _; rfl
    | cons e es ih =>
      intro hes
      by_cases he : e.1 = k
      · simp [lookupEntry, he] at hes
      · simp only [lookupEntry, if_neg he] at hes
        simp [setEntry, he, ih hes]
  -- The induction runs over the entries; the keys need not be distinct for it.
  exact hgen d.entries h

/-- `{key(v): v for v in vs}`: of the values with one key the last one stays. -/
def index (key : ν → κ) (vs : List ν) : Dict κ ν := vs.foldl (fun d v => d.set (key v) v) empty

theorem get?_index (key : ν → κ) (vs : List ν) (k : κ) :
    (index key vs).get? k = (vs.filter fun v => key v = k).getLast? := by
  have hgen : ∀ (vs : List ν) (d : Dict κ ν),
      (vs.foldl (fun d v => d.set (key v) v) d).get? k =
        (vs.filter fun v => key v = k).getLast?.or (d.get? k) := by
    intro vs
    induction vs with
    | nil => intro d; rfl
    | cons v vs ih =>
      intro d
      rw [List.foldl_cons, ih]
      by_cases hv : key v = k
      · rw [hv, get?_set_self, List.filter_cons_of_pos (by simp [hv]), List.getLast?_cons]
        cases (vs.filter fun v => key v = k).getLast? <;> rfl
      · rw [get?_set_of_ne _ hv, List.filter_cons_of_neg (by simp [hv])]
  rw [index, hgen, get?_empty, Option.or_none]

/-- An index without repeated keys has every value. -/
theorem get?_index_of_mem {key : ν → κ} {vs : List ν} (hnodup : (vs.map key).Nodup) {v : ν}
    (hv : v ∈ vs) : (index key vs).get? (key v) = some v := by
  have hone : (vs.filter fun w => key w = key v) = [v] := by
    induction vs with
    | nil => cases hv
    | cons w vs ih =>
      obtain ⟨hne, hrest⟩ := List.nodup_cons.mp hnodup
      rcases List.mem_cons.mp hv with rfl | hv
      · have hnone : (vs.filter fun w => key w = key v) = [] := by
          rw [List.filter_eq_nil_iff]
          intro w hw heq
          exact hne (of_decide_eq_true heq ▸ List.mem_map_of_mem hw)
        simp [hnone]
      · have hother : key w ≠ key v := fun heq => hne (heq ▸ List.mem_map_of_mem hv)
        rw [List.filter_cons_of_neg (by simp [hother]), ih hrest hv]
  rw [get?_index, hone]
  rfl

/-- An index without repeated keys keeps the order of the values. -/
theorem entries_index {key : ν → κ} {vs : List ν} (hnodup : (vs.map key).Nodup) :
    (index key vs).entries = vs.map fun v => (key v, v) := by
  -- From any dictionary on, as long as no key of the list is in it.
  have hgen : ∀ (vs : List ν) (d : Dict κ ν), (vs.map key).Nodup →
      (∀ v ∈ vs, d.get? (key v) = none) →
      (vs.foldl (fun d v => d.set (key v) v) d).entries =
        d.entries ++ vs.map fun v => (key v, v) := by
    intro vs
    induction vs with
    | nil => intro d _ _; simp
    | cons v vs ih =>
      intro d hkeys hfresh
      obtain ⟨hne, hrest⟩ := List.nodup_cons.mp hkeys
      rw [List.foldl_cons, ih _ hrest]
      · rw [entries_set_of_fresh d (hfresh v List.mem_cons_self)]
        simp
      · intro w hw
        have hother : key v ≠ key w := fun heq => hne (heq ▸ List.mem_map_of_mem hw)
        rw [get?_set_of_ne d hother]
        exact hfresh w (List.mem_cons_of_mem _ hw)
  exact hgen vs empty hnodup fun v _ => get?_empty _

/-! ## Section 4: Sums over the values -/

variable {M : Type*} [AddCommGroup M]

/-- Overwriting a key moves a sum over the entries by the difference of its two terms. -/
theorem sum_entries_set (d : Dict κ ν) (k : κ) (v : ν) (f : κ → ν → M) :
    ((d.set k v).entries.map fun e => f e.1 e.2).sum =
      (d.entries.map fun e => f e.1 e.2).sum + f k v - (d.get? k).elim 0 (f k) := by
  -- The head's own term is what an overwritten key gives up.
  have hgen : ∀ es : List (κ × ν),
      ((setEntry k v es).map fun e => f e.1 e.2).sum =
        (es.map fun e => f e.1 e.2).sum + f k v - (lookupEntry k es).elim 0 (f k) := by
    intro es
    induction es with
    | nil => simp [setEntry, lookupEntry]
    | cons e es ih =>
      by_cases he : e.1 = k
      · subst he
        simp only [setEntry, lookupEntry, if_true, List.map_cons, List.sum_cons, Option.elim_some]
        abel
      · simp only [setEntry, lookupEntry, if_neg he, List.map_cons, List.sum_cons, ih]
        abel
  exact hgen d.entries

/-- Overwriting a key moves a sum by the difference of the two values it held. -/
theorem sum_values_set (d : Dict κ ν) (k : κ) (v : ν) (f : ν → M) :
    ((d.set k v).values.map f).sum = (d.values.map f).sum + f v - (d.get? k).elim 0 f := by
  simpa [values, Function.comp_def] using sum_entries_set d k v fun _ => f

end Dict

end SuperTrading.Logic
