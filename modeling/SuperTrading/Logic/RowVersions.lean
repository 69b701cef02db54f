import SuperTrading.Logic.Dict
import Mathlib.Data.List.Dedup

/-!
# Row Versions under Read Committed

A table with at most one uncommitted version of a row, held by the transaction that has
the row's lock. A transaction reads its own version and otherwise the committed one; an
update waits for a lock held by another and then reads again.

- **Writing**: an uncommitted version of one row
- **Reading**: what a transaction sees of a row, and the rows of a snapshot
- **Ending**: rollback and commit, and what each leaves of a row
-/

namespace SuperTrading.Logic

variable {κ τ ρ : Type*} [DecidableEq κ]

structure VersionedTable (κ τ ρ : Type*) [DecidableEq κ] where
  committed : Dict κ ρ
  pending : Dict κ (τ × ρ) := Dict.empty

namespace VersionedTable

variable {table : VersionedTable κ τ ρ} {t : τ} {j k : κ} {version : ρ}

/-! ## Section 1: Writing -/

/-- Write a version under the row's lock. -/
def write (table : VersionedTable κ τ ρ) (t : τ) (k : κ) (version : ρ) : VersionedTable κ τ ρ :=
  { table with pending := table.pending.set k (t, version) }

theorem get?_pending_write : (table.write t k version).pending.get? j =
    if k = j then some (t, version) else table.pending.get? j :=
  Dict.get?_set _ _ _ _

@[simp] theorem committed_write : (table.write t k version).committed = table.committed := rfl

/-! ## Section 2: Reading -/

variable [DecidableEq τ]

/-- The version of a row that a transaction sees. -/
def visible (table : VersionedTable κ τ ρ) (t : τ) (k : κ) : Option ρ :=
  match table.pending.get? k with
  | some (holder, version) => if holder = t then some version else table.committed.get? k
  | none => table.committed.get? k

/-- Must the transaction wait for another one to write the row? -/
def isHeldByOther (table : VersionedTable κ τ ρ) (t : τ) (k : κ) : Bool :=
  (table.pending.get? k).any fun held => held.1 ≠ t

/-- The rows that a statement of the transaction finds in its snapshot. -/
def select (table : VersionedTable κ τ ρ) (t : τ) (p : ρ → Bool) : List κ :=
  ((table.committed.entries.map Prod.fst ++ table.pending.entries.map Prod.fst).dedup).filter
    fun k => (table.visible t k).any p

theorem visible_of_pending (h : table.pending.get? k = some (t, version)) :
    table.visible t k = some version := by
  simp [visible, h]

/-- Where a transaction has written nothing it sees what is committed. -/
theorem visible_of_not_pending (h : ∀ version, table.pending.get? k ≠ some (t, version)) :
    table.visible t k = table.committed.get? k := by
  unfold visible
  cases hheld : table.pending.get? k with
  | none => rfl
  | some held =>
    obtain ⟨holder, version⟩ := held
    have hne : holder ≠ t := fun heq => h version (heq ▸ hheld)
    exact if_neg hne

/-- A row that nobody else holds is free, or holds the transaction's own version. -/
theorem isHeldByOther_eq_false : table.isHeldByOther t k = false ↔
    ∀ holder version, table.pending.get? k = some (holder, version) → holder = t := by
  unfold isHeldByOther
  cases table.pending.get? k with
  | none => simp
  | some held =>
    obtain ⟨holder, version⟩ := held
    simp

theorem isHeldByOther_of_not_pending (h : table.pending.get? k = none) :
    table.isHeldByOther t k = false := by
  simp [isHeldByOther, h]

/-- The snapshot holds every row that the transaction sees meet the condition. -/
theorem mem_select {p : ρ → Bool} :
    k ∈ table.select t p ↔ ∃ row, table.visible t k = some row ∧ p row = true := by
  rw [select, List.mem_filter, List.mem_dedup, List.mem_append, Option.any_eq_true]
  refine ⟨fun h => h.2, fun h => ⟨?_, h⟩⟩
  obtain ⟨row, hrow, -⟩ := h
  by_contra hnot
  rw [not_or] at hnot
  have hcommitted : table.committed.get? k = none := lookupEntry_eq_none.mpr hnot.1
  have hpending : table.pending.get? k = none := lookupEntry_eq_none.mpr hnot.2
  simp [visible, hcommitted, hpending] at hrow

/-! ## Section 3: Ending -/

/-- Forget the uncommitted versions of a transaction, and its locks. -/
def rollback (table : VersionedTable κ τ ρ) (t : τ) : VersionedTable κ τ ρ :=
  { table with
    pending :=
      { entries := table.pending.entries.filter fun e => e.2.1 ≠ t
        nodup := table.pending.nodup.sublist (List.filter_sublist.map _) } }

/-- Commit the versions of a transaction, and release its locks. -/
def commit (table : VersionedTable κ τ ρ) (t : τ) : VersionedTable κ τ ρ :=
  { table.rollback t with
    committed := table.pending.entries.foldl
      (fun rows e => if e.2.1 = t then rows.set e.1 e.2.2 else rows) table.committed }

@[simp] theorem committed_rollback : (table.rollback t).committed = table.committed := rfl

@[simp] theorem pending_commit : (table.commit t).pending = (table.rollback t).pending := rfl

/-- The end of a transaction leaves the versions of the others. -/
theorem get?_pending_rollback {holder : τ} :
    (table.rollback t).pending.get? k = some (holder, version) ↔
      table.pending.get? k = some (holder, version) ∧ holder ≠ t := by
  rw [← Dict.mem_entries_iff, ← Dict.mem_entries_iff]
  simp [rollback, List.mem_filter]

/-- A transaction that has written nothing leaves the table as it is. -/
theorem rollback_eq_self (h : ∀ k version, table.pending.get? k ≠ some (t, version)) :
    table.rollback t = table := by
  have hall : ∀ k holder version, (k, holder, version) ∈ table.pending.entries → ¬ holder = t := by
    intro k holder version he heq
    exact h k version (table.pending.mem_entries_iff.mp (heq ▸ he))
  cases table with
  | mk committed pending =>
    cases pending with
    | mk entries nodup =>
      simp only [rollback, VersionedTable.mk.injEq, Dict.mk.injEq, List.filter_eq_self, true_and]
      rintro ⟨k, holder, version⟩ he
      exact decide_eq_true (hall k holder version he)

/-- A committed transaction leaves what it saw. -/
theorem get?_committed_commit : (table.commit t).committed.get? k = table.visible t k := by
  have hgen : ∀ (es : List (κ × τ × ρ)) (rows : Dict κ ρ), (es.map Prod.fst).Nodup →
      (es.foldl (fun rows e => if e.2.1 = t then rows.set e.1 e.2.2 else rows) rows).get? k =
        match lookupEntry k es with
        | some (holder, version) => if holder = t then some version else rows.get? k
        | none => rows.get? k := by
    intro es
    induction es with
    | nil => intro rows _; rfl
    | cons e es ih =>
      intro rows hnodup
      obtain ⟨hne, hes⟩ := List.nodup_cons.mp hnodup
      rw [List.foldl_cons, ih _ hes]
      by_cases hkey : e.1 = k
      · -- The key has no other entry, so what the head wrote stays.
        have hrest : lookupEntry k es = none := lookupEntry_eq_none.mpr (hkey ▸ hne)
        by_cases hheld : e.2.1 = t <;> simp [lookupEntry, hkey, hheld, hrest]
      · have hget : (if e.2.1 = t then rows.set e.1 e.2.2 else rows).get? k = rows.get? k := by
          split
          · exact Dict.get?_set_of_ne _ hkey _
          · rfl
        simp only [lookupEntry, if_neg hkey, hget]
  exact hgen _ _ table.pending.nodup

end VersionedTable

end SuperTrading.Logic
