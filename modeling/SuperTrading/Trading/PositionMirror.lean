import SuperTrading.Logic.Upsert
import SuperTrading.Trading.PositionRoundTrip

/-!
# The Mirror of a Position

`persist_position` overwrites the one open row of a position, or inserts a row. A flat position
that has no open row gets a closed one, and at every further write another.

- **Writing**: `persist_position` as an upsert, twice and for other engines
- **Abandoning**: `abandon_position_mirrors`
-/

namespace SuperTrading

open SuperTrading.Logic

namespace Db

variable {db : Db} {p : PositionRecord} {mode : ExecutionMode} {sourceKey : String}

/-! ## Section 1: Writing -/

theorem persistPosition_eq_upsert (db : Db) (p : PositionRecord) (mode : ExecutionMode)
    (sourceKey : String) : db.persistPosition p mode sourceKey =
      { db with
        positions := upsert (isOpenRowOf p.symbol mode sourceKey)
          (fun _ => positionRow p mode sourceKey) (positionRow p mode sourceKey)
          db.positions } := by
  unfold persistPosition upsert
  dsimp only
  split <;> rfl

/-- **A position that is written twice is left as it is by the second write exactly if it is
open.** -/
theorem persistPosition_twice_iff (db : Db) (p : PositionRecord) (mode : ExecutionMode)
    (sourceKey : String) :
    (db.persistPosition p mode sourceKey).persistPosition p mode sourceKey =
      db.persistPosition p mode sourceKey ↔ p.isOpen = true := by
  have hrow : isOpenRowOf p.symbol mode sourceKey (positionRow p mode sourceKey) = p.isOpen := by
    rw [isOpenRowOf_positionRow]
    simp
  have htwice := @upsert_upsert_iff _ (isOpenRowOf p.symbol mode sourceKey)
    (fun _ => positionRow p mode sourceKey) (positionRow p mode sourceKey) db.positions
    (fun _ _ => rfl) (fun _ _ => rfl) rfl
  rw [hrow] at htwice
  rw [persistPosition_eq_upsert, persistPosition_eq_upsert]
  refine Iff.trans ⟨fun h => congrArg Db.positions h, fun h => ?_⟩ htwice
  exact congrArg (fun rows => ({ db with positions := rows } : Db)) h

/-- Is there an open row of the symbol? -/
theorem any_isOpenRowOf (symbol : Symbol) : db.positions.any (isOpenRowOf symbol mode sourceKey) =
    false ↔ db.openRowsOf mode sourceKey symbol = [] := by
  rw [openRowsOf, List.filter_eq_nil_iff, List.any_eq_false]

/-- The rows of an engine grow where the position has no open one. -/
theorem countP_source_persistPosition (key : String) :
    ((db.persistPosition p mode sourceKey).positions.countP fun row => row.sourceKey = key) =
      (db.positions.countP fun row => row.sourceKey = key) +
        if db.openRowsOf mode sourceKey p.symbol = [] ∧ sourceKey = key then 1 else 0 := by
  have hkept : ∀ old, isOpenRowOf p.symbol mode sourceKey old = true →
      decide ((positionRow p mode sourceKey).sourceKey = key) = decide (old.sourceKey = key) := by
    intro old hold
    rw [(isOpenRowOf_iff.mp hold).2.2.1]
    rfl
  have hcount := @countP_upsert _ _ _ (positionRow p mode sourceKey) db.positions
    (fun row => decide (row.sourceKey = key)) hkept
  rw [persistPosition_eq_upsert]
  refine hcount.trans (congrArg _ (if_congr ?_ rfl rfl))
  rw [any_isOpenRowOf, decide_eq_true_eq]
  rfl

/-- The rows of one engine's book are no rows of another's. -/
theorem isOpenRowOf_of_ne {key : String} (hne : sourceKey ≠ key) {symbol symbol' : Symbol}
    {row : PositionRow} (h : isOpenRowOf symbol mode sourceKey row = true) :
    isOpenRowOf symbol' mode key row = false := by
  rw [Bool.eq_false_iff]
  intro hother
  exact hne ((isOpenRowOf_iff.mp h).2.2.1.symm.trans (isOpenRowOf_iff.mp hother).2.2.1)

theorem openRowsOf_persistPosition_of_ne {key : String} (hne : sourceKey ≠ key) (symbol : Symbol) :
    (db.persistPosition p mode sourceKey).openRowsOf mode key symbol =
      db.openRowsOf mode key symbol := by
  have hnew : isOpenRowOf symbol mode key (positionRow p mode sourceKey) = false := by
    rw [Bool.eq_false_iff]
    intro hrow
    exact hne (isOpenRowOf_iff.mp hrow).2.2.1
  rw [persistPosition_eq_upsert]
  unfold openRowsOf upsert
  split
  · refine filter_overwrite_of_not (fun old hold => ?_) hnew db.positions
    exact isOpenRowOf_of_ne hne hold
  · rw [List.filter_append, List.filter_singleton, hnew]
    exact List.append_nil _

/-! ## Section 2: Abandoning -/

/-- The `where` of `abandon_position_mirrors`. -/
def isOpenMirror (mode : ExecutionMode) (sourceKey : String) (row : PositionRow) : Bool :=
  row.executionMode = mode ∧ row.sourceKey = sourceKey ∧ row.isOpen

/-- `abandon_position_mirrors`: how many rows were retired, and the rows. -/
def abandonPositionMirrors (db : Db) (mode : ExecutionMode) (sourceKey : String) : ℕ × Db :=
  (db.positions.countP (isOpenMirror mode sourceKey),
    { db with
      positions := db.positions.map fun row =>
        if isOpenMirror mode sourceKey row then
          { row with
            isOpen := false
            unrealizedPnl := 0 }
        else row })

/-- No row comes or goes. -/
theorem countP_source_abandon (key : String) :
    ((db.abandonPositionMirrors mode sourceKey).2.positions.countP fun row =>
      row.sourceKey = key) = db.positions.countP fun row => row.sourceKey = key := by
  show (db.positions.map _).countP _ = _
  rw [List.countP_map]
  apply List.countP_congr
  intro row _
  simp only [Function.comp]
  split <;> rfl

/-- The open rows of other engines stay. -/
theorem openRowsOf_abandon_of_ne {key : String} (hne : sourceKey ≠ key) (symbol : Symbol) :
    (db.abandonPositionMirrors mode sourceKey).2.openRowsOf mode key symbol =
      db.openRowsOf mode key symbol := by
  show (db.positions.map _).filter _ = db.positions.filter _
  induction db.positions with
  | nil => rfl
  | cons row rows ih =>
    rw [List.map_cons, List.filter_cons, List.filter_cons, ih]
    cases hmirror : isOpenMirror mode sourceKey row with
    | true =>
      -- A row that is retired was none of the other engine's.
      have hother : row.sourceKey ≠ key := by
        rw [(of_decide_eq_true hmirror).2.1]
        exact hne
      simp [isOpenRowOf, hother]
    | false => simp

end Db

end SuperTrading
