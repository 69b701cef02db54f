import Mathlib.Data.List.Basic
import Mathlib.Tactic.Tauto

/-!
# Runs of a Deterministic System

A system is a step function `step : σ → ε → σ`; the environment picks the
events. This module packages the induction over a run once, for properties of
every visited state and for conditions on every step taken.

- `run`: the state after a list of events
- `Throughout`: a property of every visited state, the first one included
- `Each`: a condition on every step, read in the state before it
- `emitted`: what the steps give out, read off the states on either side of each
- `Returns`: a computation that does not raise
- Calls that interleave are a list, each known by its position
-/

namespace SuperTrading.Logic

universe u

variable {σ ε : Type*}

/-- The state reached from `s` by the events `es`. -/
def run (step : σ → ε → σ) (s : σ) (es : List ε) : σ := es.foldl step s

/-- `P` holds of every state visited by the run, from `s` on. -/
def Throughout (step : σ → ε → σ) (P : σ → Prop) : σ → List ε → Prop
  | s, [] => P s
  | s, e :: es => P s ∧ Throughout step P (step s e) es

/-- `C` holds of every step of the run, read in the state before the step. -/
def Each (step : σ → ε → σ) (C : σ → ε → Prop) : σ → List ε → Prop
  | _, [] => True
  | s, e :: es => C s e ∧ Each step C (step s e) es

/-- What the steps of the run give out, each with the event it came with. -/
def emitted {β : Type*} (step : σ → ε → σ) (out : σ → σ → List β) : σ → List ε → List (ε × β)
  | _, [] => []
  | s, e :: es => (out s (step s e)).map (fun b => (e, b)) ++ emitted step out (step s e) es

instance decidableEach (step : σ → ε → σ) (C : σ → ε → Prop) [∀ s e, Decidable (C s e)] (s : σ)
    (es : List ε) : Decidable (Each step C s es) :=
  match es with
  | [] => isTrue trivial
  | e :: es =>
    have := decidableEach step C (step s e) es
    inferInstanceAs (Decidable (C s e ∧ Each step C (step s e) es))

section Basics

variable {step : σ → ε → σ} {P Q I : σ → Prop} {C : σ → ε → Prop}

@[simp] theorem run_nil (s : σ) : run step s [] = s := rfl

@[simp] theorem run_cons (s : σ) (e : ε) (es : List ε) :
    run step s (e :: es) = run step (step s e) es := rfl

/-- Every visited state is the state after some prefix of the events. -/
theorem throughout_iff_states {s : σ} {es : List ε} :
    Throughout step P s es ↔ ∀ pre, pre <+: es → P (run step s pre) := by
  induction es generalizing s with
  | nil => simp [Throughout, List.prefix_nil]
  | cons e es ih =>
    simp only [Throughout, ih]
    constructor
    · rintro ⟨hs, htail⟩ pre hpre
      -- The empty prefix gives the first state, any other starts with the first event.
      cases pre with
      | nil => exact hs
      | cons p pre =>
        obtain ⟨rfl, htl⟩ := List.cons_prefix_cons.mp hpre
        exact htail pre htl
    · intro h
      refine ⟨h [] (List.nil_prefix), fun pre hpre => ?_⟩
      exact h (e :: pre) (List.cons_prefix_cons.mpr ⟨rfl, hpre⟩)

theorem Throughout.last {s : σ} {es : List ε} (h : Throughout step P s es) :
    P (run step s es) :=
  throughout_iff_states.mp h es (List.prefix_refl es)

theorem Throughout.mono (hPQ : ∀ s, P s → Q s) {s : σ} {es : List ε}
    (h : Throughout step P s es) : Throughout step Q s es := by
  rw [throughout_iff_states] at h ⊢
  exact fun pre hpre => hPQ _ (h pre hpre)

/-! ## Section 1: The induction over a run -/

/-- An invariant that each step meeting `C` preserves holds in every state of a
run whose steps all meet `C`. -/
theorem throughout_of_each (hstep : ∀ s e, I s → C s e → I (step s e)) {s : σ} {es : List ε}
    (hs : I s) (hes : Each step C s es) : Throughout step I s es := by
  induction es generalizing s with
  | nil => exact hs
  | cons e es ih => exact ⟨hs, ih (hstep s e hs hes.1) hes.2⟩

/-- An invariant that every step preserves holds in every state of every run. -/
theorem throughout_of_step (hstep : ∀ s e, I s → I (step s e)) {s : σ} (es : List ε)
    (hs : I s) : Throughout step I s es := by
  induction es generalizing s with
  | nil => exact hs
  | cons e es ih => exact ⟨hs, ih (hstep s e hs)⟩

theorem invariant_run (hstep : ∀ s e, I s → I (step s e)) {s : σ} (es : List ε) (hs : I s) :
    I (run step s es) :=
  (throughout_of_step hstep es hs).last

/-- When one step keeps `P` exactly if it meets `C`, a run has `P` throughout
exactly if each of its steps meets `C`. That has to hold of the steps of a domain
`D` only, for runs that stay in it. A side invariant `I` may be used, and has to be
kept only by the steps that keep `P`. -/
theorem throughout_iff_each_on {D : σ → ε → Prop}
    (hI : ∀ s e, I s → P s → D s e → P (step s e) → I (step s e))
    (hC : ∀ s e, I s → P s → D s e → (P (step s e) ↔ C s e)) {s : σ} {es : List ε}
    (hs : I s) (hP : P s) (hD : Each step D s es) :
    Throughout step P s es ↔ Each step C s es := by
  induction es generalizing s with
  | nil => simp [Throughout, Each, hP]
  | cons e es ih =>
    obtain ⟨hDe, hDes⟩ := hD
    simp only [Throughout, Each]
    -- Up to the first step that fails `C` both sides hold, and from it on neither does.
    by_cases hCe : C s e
    · have hPe : P (step s e) := (hC s e hs hP hDe).mpr hCe
      have htail := ih (hI s e hs hP hDe hPe) hPe hDes
      tauto
    · have hPe : ¬ P (step s e) := fun h => hCe ((hC s e hs hP hDe).mp h)
      have htail : ¬ Throughout step P (step s e) es := fun h =>
        hPe (throughout_iff_states.mp h [] List.nil_prefix)
      tauto

theorem each_of_forall (h : ∀ s e, C s e) (s : σ) (es : List ε) : Each step C s es := by
  induction es generalizing s with
  | nil => trivial
  | cons e es ih => exact ⟨h s e, ih _⟩

/-- Two conditions that agree on the states of an invariant hold of the same runs. -/
theorem each_congr {D : ε → Prop} {C' : σ → ε → Prop} (hstep : ∀ s e, I s → D e → I (step s e))
    (hC : ∀ s e, I s → D e → (C s e ↔ C' s e)) {s : σ} {es : List ε} (hs : I s)
    (hes : ∀ e ∈ es, D e) : Each step C s es ↔ Each step C' s es := by
  induction es generalizing s with
  | nil => rfl
  | cons e es ih =>
    have he : D e := hes e List.mem_cons_self
    have htail := ih (hstep s e hs he) fun e' he' => hes e' (List.mem_cons_of_mem e he')
    exact and_congr (hC s e hs he) htail

/-- A property of all that is given out is a condition on every step. -/
theorem forall_emitted {β : Type*} {out : σ → σ → List β} {Q : ε → β → Prop} {s : σ}
    {es : List ε} :
    (∀ x ∈ emitted step out s es, Q x.1 x.2) ↔
      Each step (fun s e => ∀ b ∈ out s (step s e), Q e b) s es := by
  induction es generalizing s with
  | nil => simp [emitted, Each]
  | cons e es ih => simp [emitted, Each, or_imp, forall_and, ← ih]

/-- A condition on the events alone adds to one on the steps. -/
theorem Each.and_mem {Q : ε → Prop} {s : σ} {es : List ε} (h : Each step C s es)
    (hes : ∀ e ∈ es, Q e) : Each step (fun s e => Q e ∧ C s e) s es := by
  induction es generalizing s with
  | nil => trivial
  | cons e es ih =>
    have htail := ih h.2 fun e' he' => hes e' (List.mem_cons_of_mem e he')
    exact ⟨⟨hes e List.mem_cons_self, h.1⟩, htail⟩

/-- The same with every step in the domain. -/
theorem throughout_iff_each (hI : ∀ s e, I s → P s → P (step s e) → I (step s e))
    (hC : ∀ s e, I s → P s → (P (step s e) ↔ C s e)) {s : σ} {es : List ε}
    (hs : I s) (hP : P s) : Throughout step P s es ↔ Each step C s es :=
  throughout_iff_each_on (D := fun _ _ => True) (fun s e hI' hP' _ => hI s e hI' hP')
    (fun s e hI' hP' _ => hC s e hI' hP') hs hP (each_of_forall (fun _ _ => trivial) s es)

end Basics

/-! ## Section 2: Simulation -/

/-- Two systems driven by the same events stay related, if every common step that meets its
conditions keeps the relation. -/
theorem run_related_each {σ' : Type*} {step : σ → ε → σ} {step' : σ' → ε → σ'} {R : σ → σ' → Prop}
    {C : σ → ε → Prop} {C' : σ' → ε → Prop}
    (hstep : ∀ s s' e, R s s' → C s e → C' s' e → R (step s e) (step' s' e)) {s : σ} {s' : σ'}
    {es : List ε} (h : R s s') (hes : Each step C s es) (hes' : Each step' C' s' es) :
    R (run step s es) (run step' s' es) := by
  induction es generalizing s s' with
  | nil => exact h
  | cons e es ih => exact ih (hstep s s' e h hes.1 hes'.1) hes.2 hes'.2

/-- The same with no condition on the steps. -/
theorem run_related {σ' : Type*} {step : σ → ε → σ} {step' : σ' → ε → σ'} {R : σ → σ' → Prop}
    (hstep : ∀ s s' e, R s s' → R (step s e) (step' s' e)) {s : σ} {s' : σ'} (es : List ε)
    (h : R s s') : R (run step s es) (run step' s' es) := by
  have hes : Each step (fun _ _ => True) s es := each_of_forall (fun _ _ => trivial) s es
  have hes' : Each step' (fun _ _ => True) s' es := each_of_forall (fun _ _ => trivial) s' es
  exact run_related_each (fun s s' e h _ _ => hstep s s' e h) h hes hes'

/-! ## Section 3: Computations that can fail -/

/-- A computation that succeeds has succeeded in its first part. -/
theorem bind_ok {ε α β : Type*} {x : Except ε α} {f : α → Except ε β} {b : β}
    (h : x.bind f = .ok b) : ∃ a, x = .ok a ∧ f a = .ok b := by
  cases x with
  | error message => cases h
  | ok a => exact ⟨a, rfl, h⟩

/-- A computation that does not raise. -/
def Returns {ε α : Type*} (x : Except ε α) : Prop := ∃ a, x = .ok a

section Returns

variable {ε : Type*} {α β : Type u} {x : Except ε α} {f : α → Except ε β}

theorem returns_ok (a : α) : Returns (.ok a : Except ε α) := ⟨a, rfl⟩

theorem not_returns_error (e : ε) : ¬ Returns (.error e : Except ε α) := fun ⟨_, h⟩ => nomatch h

instance (x : Except ε α) : Decidable (Returns x) :=
  match x with
  | .ok a => isTrue (returns_ok a)
  | .error e => isFalse (not_returns_error e)

theorem bind_eq_ok {b : β} : x >>= f = .ok b ↔ ∃ a, x = .ok a ∧ f a = .ok b := by
  cases x with
  | error e => exact iff_of_false (fun h => nomatch h) fun ⟨_, h, _⟩ => nomatch h
  | ok a => exact ⟨fun h => ⟨a, rfl, h⟩, fun ⟨_, ha, h⟩ => Except.ok.inj ha ▸ h⟩

theorem returns_bind : Returns (x >>= f) ↔ ∃ a, x = .ok a ∧ Returns (f a) := by
  simp only [Returns, bind_eq_ok]
  exact ⟨fun ⟨b, a, ha, hb⟩ => ⟨a, ha, b, hb⟩, fun ⟨a, ha, b, hb⟩ => ⟨b, a, ha, hb⟩⟩

/-- A computation that only shapes the result of another returns with it. -/
theorem returns_bind_ok (g : α → β) : Returns (x >>= fun a => .ok (g a)) ↔ Returns x := by
  rw [returns_bind]
  exact exists_congr fun a => and_iff_left (returns_ok _)

/-- A list of computations, one after the other. -/
theorem returns_mapM {γ : Type*} {f : γ → Except ε β} {xs : List γ} :
    Returns (xs.mapM f) ↔ ∀ a ∈ xs, Returns (f a) := by
  induction xs with
  | nil => exact iff_of_true (returns_ok []) fun _ h => nomatch h
  | cons a as ih =>
    rw [List.mapM_cons, List.forall_mem_cons, ← ih, returns_bind]
    constructor
    · rintro ⟨b, hb, hrest⟩
      obtain ⟨bs, hbs, -⟩ := returns_bind.mp hrest
      exact ⟨⟨b, hb⟩, bs, hbs⟩
    · rintro ⟨⟨b, hb⟩, bs, hbs⟩
      exact ⟨b, hb, returns_bind.mpr ⟨bs, hbs, returns_ok (b :: bs)⟩⟩

/-- What a list of computations give, put together. -/
def gather {ε : Type*} {α : Type u} (xs : List (Except ε (List α))) : Except ε (List α) :=
  xs.mapM id >>= fun parts => .ok parts.flatten

theorem returns_gather {xs : List (Except ε (List α))} :
    Returns (gather xs) ↔ ∀ x ∈ xs, Returns x :=
  (returns_bind_ok List.flatten).trans returns_mapM

/-- Nothing is gathered exactly if nothing is given. -/
theorem gather_eq_nil {xs : List (Except ε (List α))} :
    gather xs = .ok [] ↔ ∀ x ∈ xs, x = .ok [] := by
  -- The parts together are empty, and each of them is.
  have hparts : ∀ xs : List (Except ε (List α)), gather xs = .ok [] ↔
      ∃ parts, xs.mapM id = .ok parts ∧ parts.flatten = [] := by
    intro xs
    rw [gather, bind_eq_ok]
    exact exists_congr fun parts => and_congr_right' ⟨fun h => Except.ok.inj h, fun h => h ▸ rfl⟩
  induction xs with
  | nil => exact iff_of_true rfl fun _ h => nomatch h
  | cons x xs ih =>
    rw [List.forall_mem_cons, hparts, List.mapM_cons]
    refine Iff.trans ?_ (and_congr_right' ((hparts xs).symm.trans ih))
    constructor
    · rintro ⟨parts, hmap, hnil⟩
      obtain ⟨part, hpart, hbehind⟩ := bind_eq_ok.mp hmap
      obtain ⟨rest, hrest, hcons⟩ := bind_eq_ok.mp hbehind
      obtain rfl := Except.ok.inj hcons
      obtain ⟨rfl, hnil⟩ := List.append_eq_nil_iff.mp hnil
      exact ⟨hpart, rest, hrest, hnil⟩
    · rintro ⟨hpart, rest, hrest, hnil⟩
      exact ⟨[] :: rest, bind_eq_ok.mpr ⟨[], hpart, bind_eq_ok.mpr ⟨rest, hrest, rfl⟩⟩, hnil⟩

end Returns

/-- A loop that ends with the first step that raises. Each step says whether it did. -/
def runUntil (step : σ → ε → σ × Bool) (s : σ) : List ε → σ × Bool
  | [] => (s, false)
  | e :: es => if (step s e).2 then step s e else runUntil step (step s e).1 es

/-- A loop in which nothing raises is a run. -/
theorem fst_runUntil {step : σ → ε → σ × Bool} {step' : σ → ε → σ}
    (hstep : ∀ s e, (step s e).2 = false → (step s e).1 = step' s e) {s : σ} {es : List ε}
    (h : (runUntil step s es).2 = false) : (runUntil step s es).1 = run step' s es := by
  induction es generalizing s with
  | nil => rfl
  | cons e es ih =>
    rw [runUntil] at h ⊢
    cases hraised : (step s e).2 with
    | true => simp [hraised] at h
    | false =>
      simp only [hraised, Bool.false_eq_true, if_false] at h ⊢
      rw [ih h, hstep s e hraised, run_cons]

/-! ## Section 4: Calls in a list -/

section Calls

variable {α : Type*} {xs : List α} {x y : α} {i j : ℕ}

/-- What is found in a list with a new end was there, or is the end. -/
theorem getElem?_concat_eq_some (h : (xs ++ [x])[i]? = some y) :
    xs[i]? = some y ∨ i = xs.length ∧ y = x := by
  rcases Nat.lt_or_ge i xs.length with hlt | hge
  · rw [List.getElem?_append_left hlt] at h
    exact .inl h
  · obtain ⟨hlast, -⟩ := List.getElem?_eq_some_iff.mp h
    rw [List.length_append, List.length_singleton] at hlast
    obtain rfl : i = xs.length := by omega
    rw [List.getElem?_append_right (Nat.le_refl _)] at h
    exact .inr ⟨rfl, List.mem_singleton.mp (List.mem_of_getElem? h)⟩

/-- One call goes on, and the others stay as they are. -/
theorem getElem?_modify_eq (f : α → α) :
    (xs.modify i f)[j]? = if i = j then xs[j]?.map f else xs[j]? := by
  rw [List.getElem?_modify]
  split <;> cases xs[j]? <;> rfl

end Calls

end SuperTrading.Logic
