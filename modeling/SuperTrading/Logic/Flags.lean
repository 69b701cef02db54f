import SuperTrading.Logic.Runs
import Mathlib.Data.List.Induction

/-!
# Flags over Runs

A flag that some events raise and some events lower, each in the states that let them. After a run
it is up exactly if it was raised and not lowered since.

- **Section 1**: what an event does to a flag
- **Section 2**: the last word of a run
-/

namespace SuperTrading.Logic

variable {σ ε : Type*} {step : σ → ε → σ} {flag : σ → Prop} {raises lowers : σ → ε → Prop}

/-! ## Section 1: Flags -/

/-- An event raises the flag, lowers it or leaves it as it is. -/
def Flag (step : σ → ε → σ) (flag : σ → Prop) (raises lowers : σ → ε → Prop) : Prop :=
  ∀ s e, flag (step s e) ↔ raises s e ∨ flag s ∧ ¬ lowers s e

/-- The flag was raised in the run, and not lowered since. -/
def RaisedSince (step : σ → ε → σ) (raises lowers : σ → ε → Prop) (s : σ) (es : List ε) : Prop :=
  ∃ before e after, es = before ++ e :: after ∧ raises (run step s before) e ∧
    Each step (fun s e => ¬ lowers s e) (run step s (before ++ [e])) after

/-! ## Section 2: Runs -/

theorem run_append (s : σ) (es es' : List ε) :
    run step s (es ++ es') = run step (run step s es) es' :=
  List.foldl_append

theorem each_concat {C : σ → ε → Prop} {s : σ} {es : List ε} {e : ε} :
    Each step C s (es ++ [e]) ↔ Each step C s es ∧ C (run step s es) e := by
  induction es generalizing s with
  | nil => simp [Each]
  | cons e' es ih => simp only [List.cons_append, Each, ih, run_cons, and_assoc]

theorem raisedSince_concat {s : σ} {es : List ε} {e : ε} :
    RaisedSince step raises lowers s (es ++ [e]) ↔
      raises (run step s es) e ∨
        RaisedSince step raises lowers s es ∧ ¬ lowers (run step s es) e := by
  constructor
  · rintro ⟨before, e', after, hsplit, hraise, hkept⟩
    -- The event that raised it is the last one, or the last one stands behind it.
    rcases List.eq_nil_or_concat after with rfl | ⟨after, last, rfl⟩
    · obtain ⟨rfl, hlast⟩ := List.append_inj' hsplit rfl
      cases hlast
      exact .inl hraise
    · rw [List.concat_eq_append, ← List.cons_append, ← List.append_assoc] at hsplit
      obtain ⟨rfl, hlast⟩ := List.append_inj' hsplit rfl
      cases hlast
      obtain ⟨hkept, hlast⟩ := each_concat.mp (List.concat_eq_append ▸ hkept)
      rw [← run_append, ← List.append_cons] at hlast
      exact .inr ⟨⟨before, e', after, rfl, hraise, hkept⟩, hlast⟩
  · rintro (hraise | ⟨⟨before, e', after, rfl, hraise, hkept⟩, hlast⟩)
    · exact ⟨es, e, [], rfl, hraise, trivial⟩
    · refine ⟨before, e', after ++ [e], by simp, hraise, each_concat.mpr ⟨hkept, ?_⟩⟩
      rwa [← run_append, ← List.append_cons]

/-- **The last word on a flag**: it was raised and not lowered since, or up all along. -/
theorem Flag.run_iff (h : Flag step flag raises lowers) (s : σ) (es : List ε) :
    flag (run step s es) ↔
      RaisedSince step raises lowers s es ∨ flag s ∧ Each step (fun s e => ¬ lowers s e) s es := by
  induction es using List.reverseRecOn with
  | nil => simp [RaisedSince, Each]
  | append_singleton es e ih =>
    rw [run_append, run_cons, run_nil, h, ih, raisedSince_concat, each_concat]
    tauto

/-- From a state in which it is down. -/
theorem Flag.run_iff_of_not (h : Flag step flag raises lowers) {s : σ} (hdown : ¬ flag s)
    (es : List ε) : flag (run step s es) ↔ RaisedSince step raises lowers s es := by
  rw [h.run_iff]
  exact or_iff_left fun hup => hdown hup.1

end SuperTrading.Logic
