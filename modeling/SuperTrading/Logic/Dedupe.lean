import SuperTrading.Logic.Runs
import Mathlib.Algebra.Order.Monoid.Canonical.Defs

/-!
# Keys That Are Used Once

A gateway lets a request through unless it knows the request's key. It knows the
keys in its memory and keeps a journal of them; a restart clears the memory and
reads back what the journal holds from within a window. This is that gateway as
one of its keys sees it.

- `KeyState`: what the gateway holds on the key, and when the key was used
- `KeyMove`: time passes, the key is entered, the process restarts
- `UsedOnce`: used once, and again only after the window
-/

namespace SuperTrading.Logic

/-- What a gateway holds on one key: whether memory knows it, the time of its
journal row, and the times at which it was let through. -/
structure KeyState (τ : Type*) where
  clock : τ
  known : Bool := false
  row : Option τ := none
  uses : List τ := []

inductive KeyMove (τ : Type*)
  | wait (elapsed : τ)
  | enter
  | restart

/-- The first use is followed by no other within the window. -/
def UsedOnce {τ : Type*} [Add τ] [LT τ] (window : τ) (uses : List τ) : Prop :=
  ∀ first later, uses = first :: later → ∀ t ∈ later, first + window < t

namespace KeyState

variable {τ : Type*} [AddCommMonoid τ] [LinearOrder τ]

/-- A known key is not let through. A new one is, and is journaled before anything
else happens; a key that has a row keeps it. -/
def move (window : τ) (k : KeyState τ) : KeyMove τ → KeyState τ
  | .wait elapsed => { k with clock := k.clock + elapsed }
  | .enter =>
    if k.known then k
    else
      { k with
        known := true
        row := k.row.or (some k.clock)
        uses := k.uses ++ [k.clock] }
  | .restart => { k with known := k.row.any fun t => decide (k.clock ≤ t + window) }

/-- Never used; or first used when its row says, known for as long as the window
lasts, and used again only after it. -/
def Sound (window : τ) (k : KeyState τ) : Prop :=
  (k.uses = [] ∧ k.row = none) ∨
  ∃ first later, k.uses = first :: later ∧ k.row = some first ∧
    (k.known = true ∨ first + window < k.clock) ∧ ∀ t ∈ later, first + window < t

theorem Sound.usedOnce {window : τ} {k : KeyState τ} (h : k.Sound window) :
    UsedOnce window k.uses := by
  intro first later huses
  rcases h with ⟨hnone, -⟩ | ⟨first', later', huses', -, -, hlater⟩
  · rw [hnone] at huses
    cases huses
  · rw [huses'] at huses
    obtain ⟨rfl, rfl⟩ := List.cons.inj huses
    exact hlater

/-- Every move keeps a key sound. -/
theorem Sound.move [CanonicallyOrderedAdd τ] {window : τ} {k : KeyState τ} (h : k.Sound window)
    (m : KeyMove τ) : (k.move window m).Sound window := by
  cases m with
  -- Time only moves the clock forward, so a window that is over stays over.
  | wait elapsed =>
    rcases h with hunused | ⟨first, later, huses, hrow, hknown, hlater⟩
    · exact Or.inl hunused
    · refine Or.inr ⟨first, later, huses, hrow, ?_, hlater⟩
      exact hknown.imp_right fun hlt => hlt.trans_le le_self_add
  -- Only an unknown key is let through: it is new, or was forgotten.
  | enter =>
    cases hmemory : k.known with
    | true =>
      have hsame : k.move window .enter = k := by simp [KeyState.move, hmemory]
      rwa [hsame]
    | false =>
      simp only [KeyState.move, hmemory]
      rcases h with ⟨huses, hrow⟩ | ⟨first, later, huses, hrow, hknown, hlater⟩
      · exact Or.inr ⟨k.clock, [], by simp [huses], by simp [hrow], Or.inl rfl, by simp⟩
      · -- Forgotten, so the window of its first use is over.
        have hover : first + window < k.clock := by
          rcases hknown with h | h
          · rw [hmemory] at h
            cases h
          · exact h
        refine Or.inr ⟨first, later ++ [k.clock], by simp [huses], by simp [hrow], Or.inl rfl, ?_⟩
        intro t ht
        rcases List.mem_append.mp ht with ht | ht
        · exact hlater t ht
        · rw [List.mem_singleton.mp ht]
          exact hover
  -- The row decides what is remembered: known again, or past the window.
  | restart =>
    rcases h with hunused | ⟨first, later, huses, hrow, -, hlater⟩
    · exact Or.inl hunused
    · refine Or.inr ⟨first, later, huses, hrow, ?_, hlater⟩
      simp only [KeyState.move, hrow, Option.any_some, decide_eq_true_eq]
      exact le_or_gt k.clock (first + window)

end KeyState

end SuperTrading.Logic
