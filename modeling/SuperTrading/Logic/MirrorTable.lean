import SuperTrading.Logic.Dict

/-!
# Mirrored Tables

A table of rows by key that is brought up to date with a list of values, each under a key. A value
whose key is new gets a row of its own; a row that is there is written over, but for the columns
that it was made with.

- **Filter and map**: the rows that are not deleted, and a write to every row
- **Upsert**: one value, then a list of them
- **Mirror**: the table holds a list of values, as far as it holds rows of theirs
-/

namespace SuperTrading.Logic

variable {κ ν α : Type*} [DecidableEq κ]

/-! ## Section 1: Filter and map -/

namespace Dict

/-- The entries that pass. -/
def filter (d : Dict κ ν) (p : ν → Bool) : Dict κ ν :=
  ⟨d.entries.filter fun e => p e.2, d.nodup.sublist (List.filter_sublist.map _)⟩

theorem get?_filter (d : Dict κ ν) (p : ν → Bool) (k : κ) :
    (d.filter p).get? k = (d.get? k).filter p := by
  ext v
  rw [← mem_entries_iff, Option.filter_eq_some_iff, ← mem_entries_iff]
  exact List.mem_filter

/-- Write to every value. -/
def mapValues (d : Dict κ ν) (f : ν → ν) : Dict κ ν :=
  ⟨d.entries.map fun e => (e.1, f e.2), by simpa [Function.comp_def] using d.nodup⟩

theorem get?_mapValues (d : Dict κ ν) (f : ν → ν) (k : κ) :
    (d.mapValues f).get? k = (d.get? k).map f := by
  have hgen : ∀ es : List (κ × ν),
      lookupEntry k (es.map fun e => (e.1, f e.2)) = (lookupEntry k es).map f := by
    intro es
    induction es with
    | nil => rfl
    | cons e es ih => by_cases he : e.1 = k <;> simp [lookupEntry, he, ih]
  exact hgen d.entries

/-- A key that is set to what it holds already. -/
theorem set_of_get? {d : Dict κ ν} {k : κ} {v : ν} (h : d.get? k = some v) : d.set k v = d := by
  have hgen : ∀ es : List (κ × ν), lookupEntry k es = some v → setEntry k v es = es := by
    intro es
    induction es with
    | nil => intro hes; cases hes
    | cons e es ih =>
      intro hes
      by_cases he : e.1 = k
      · rw [lookupEntry, if_pos he] at hes
        rw [setEntry, if_pos he, ← he, ← Option.some.inj hes]
      · rw [lookupEntry, if_neg he] at hes
        rw [setEntry, if_neg he, ih hes]
  obtain ⟨entries, nodup⟩ := d
  simp only [set, hgen entries h]

end Dict

/-! ## Section 2: Upsert -/

section Upsert

variable {make : α → ν} {write : α → ν → ν}

/-- Write a value over the row of its key, which is made if there is none. -/
def upsertRow (make : α → ν) (write : α → ν → ν) (table : Dict κ ν) (item : κ × α) : Dict κ ν :=
  table.set item.1 (write item.2 ((table.get? item.1).getD (make item.2)))

/-- Write the values over their rows, one after the other. -/
def upsertRows (make : α → ν) (write : α → ν → ν) (table : Dict κ ν) (items : List (κ × α)) :
    Dict κ ν :=
  items.foldl (upsertRow make write) table

/-- A key without a value keeps its row. -/
theorem get?_upsertRows_of_notMem {table : Dict κ ν} {items : List (κ × α)} {k : κ}
    (h : k ∉ items.map Prod.fst) :
    (upsertRows make write table items).get? k = table.get? k := by
  induction items generalizing table with
  | nil => rfl
  | cons item items ih =>
    rw [List.map_cons, List.mem_cons, not_or] at h
    show (upsertRows make write (upsertRow make write table item) items).get? k = _
    rw [ih h.2, upsertRow, Dict.get?_set_of_ne _ (Ne.symm h.1)]

/-- A value is written over the row that its key had before the list. -/
theorem get?_upsertRows_of_mem {table : Dict κ ν} {items : List (κ × α)}
    (hnodup : (items.map Prod.fst).Nodup) {k : κ} {a : α} (h : (k, a) ∈ items) :
    (upsertRows make write table items).get? k =
      some (write a ((table.get? k).getD (make a))) := by
  induction items generalizing table with
  | nil => cases h
  | cons item items ih =>
    rw [List.map_cons, List.nodup_cons] at hnodup
    show (upsertRows make write (upsertRow make write table item) items).get? k = _
    rcases List.mem_cons.mp h with heq | hmem
    · obtain ⟨rfl, rfl⟩ := Prod.mk.inj heq
      rw [get?_upsertRows_of_notMem hnodup.1, upsertRow, Dict.get?_set_self]
    · have hne : item.1 ≠ k := fun heq =>
        hnodup.1 (heq ▸ List.mem_map_of_mem hmem)
      rw [ih hnodup.2 hmem, upsertRow, Dict.get?_set_of_ne _ hne]

end Upsert

/-! ## Section 3: Mirror -/

section Mirror

variable {make : α → ν} {write : α → ν → ν} {owned : ν → Prop} {table : Dict κ ν}

/-- The rows that are owned are those of the values, each under its key. -/
def Mirror (row : α → ν) (owned : ν → Prop) (table : Dict κ ν) (items : List (κ × α)) : Prop :=
  ∀ k r, table.get? k = some r ∧ owned r ↔ ∃ a, (k, a) ∈ items ∧ row a = r

/-- New values over a table. Under its key a value may change, as long as the columns stay that a
row is made with; and a new key is free. -/
structure Succeeds (make : α → ν) (write : α → ν → ν) (row : α → ν) (owned : ν → Prop)
    (table : Dict κ ν) (items items' : List (κ × α)) : Prop where
  nodup : (items'.map Prod.fst).Nodup
  owned : ∀ a, owned (row a)
  made : ∀ a, write a (make a) = row a
  written : ∀ k a', (k, a') ∈ items' →
    (∃ a, (k, a) ∈ items ∧ write a' (row a) = row a') ∨ table.get? k = none
  kept : ∀ item ∈ items, item.1 ∈ items'.map Prod.fst

variable {row : α → ν} {items items' : List (κ × α)}

/-- A new value is its row. -/
theorem Succeeds.get?_of_mem (hs : Succeeds make write row owned table items items')
    (h : Mirror row owned table items) {k : κ} {a' : α} (hmem : (k, a') ∈ items') :
    (upsertRows make write table items').get? k = some (row a') := by
  rw [get?_upsertRows_of_mem hs.nodup hmem]
  rcases hs.written k a' hmem with ⟨a, ha, hwrite⟩ | hnone
  · rw [((h k (row a)).mpr ⟨a, ha, rfl⟩).1, Option.getD_some, hwrite]
  · rw [hnone, Option.getD_none, hs.made]

/-- **Bringing a mirror up to date.** -/
theorem Mirror.upsertRows (h : Mirror row owned table items)
    (hs : Succeeds make write row owned table items items') :
    Mirror row owned (upsertRows make write table items') items' := by
  intro k r
  constructor
  · rintro ⟨hget, hr⟩
    by_cases hk : k ∈ items'.map Prod.fst
    · obtain ⟨⟨k, a'⟩, hmem, rfl⟩ := List.mem_map.mp hk
      exact ⟨a', hmem, Option.some.inj ((hs.get?_of_mem h hmem).symm.trans hget)⟩
    · -- An owned row without a value had none before either.
      rw [get?_upsertRows_of_notMem hk] at hget
      obtain ⟨a, hmem, -⟩ := (h k r).mp ⟨hget, hr⟩
      exact absurd (hs.kept _ hmem) hk
  · rintro ⟨a', hmem, rfl⟩
    exact ⟨hs.get?_of_mem h hmem, hs.owned a'⟩

/-- It leaves the rows of others. -/
theorem Mirror.get?_upsertRows_others (h : Mirror row owned table items)
    (hs : Succeeds make write row owned table items items') (k : κ) {r : ν} (hr : ¬ owned r) :
    (Logic.upsertRows make write table items').get? k = some r ↔ table.get? k = some r := by
  by_cases hk : k ∈ items'.map Prod.fst
  · -- The row of such a key is owned, before and after.
    obtain ⟨⟨k, a'⟩, hmem, rfl⟩ := List.mem_map.mp hk
    rw [hs.get?_of_mem h hmem]
    refine iff_of_false (fun heq => hr (Option.some.inj heq ▸ hs.owned a')) fun hget => ?_
    rcases hs.written k a' hmem with ⟨a, ha, -⟩ | hnone
    · have hthere := (h k (row a)).mpr ⟨a, ha, rfl⟩
      exact hr (Option.some.inj (hthere.1.symm.trans hget) ▸ hthere.2)
    · rw [hnone] at hget
      cases hget
  · rw [get?_upsertRows_of_notMem hk]

/-- What is done to the rows of others leaves a mirror. -/
theorem Mirror.congr {table' : Dict κ ν} (h : Mirror row owned table items)
    (hsame : ∀ k r, owned r → (table'.get? k = some r ↔ table.get? k = some r)) :
    Mirror row owned table' items := by
  intro k r
  rw [← h k r]
  exact and_congr_left fun hr => hsame k r hr

end Mirror

end SuperTrading.Logic
