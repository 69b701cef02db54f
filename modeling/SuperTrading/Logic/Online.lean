import Mathlib.Data.List.Basic
import Mathlib.Data.List.Induction

/-!
# Online Detectors

A detector reads a series and reports findings, each stamped with an index of the
series. It is online if every element of the series adds the findings stamped with its
own index, behind those already made. Cut at any index, the series then tells what the
whole series tells up to there: nothing looks ahead, and nothing is taken back.

- `Online`: one element more
- `Online.take`: any cut
- `Progressive`: what may be done with the findings of an online detector
- Sufficient conditions: windows with a lag, and scans with a state
-/

namespace SuperTrading.Logic

variable {α β γ σ : Type*}

/-- One element more adds the findings stamped with its index. -/
structure Online (stamp : β → ℕ) (detect : List α → List β) : Prop where
  nil : detect [] = []
  step : ∀ cs c, ∃ news, detect (cs ++ [c]) = detect cs ++ news ∧
    ∀ b ∈ news, stamp b = cs.length

namespace Online

variable {stamp : β → ℕ} {detect : List α → List β}

/-! ## Section 1: Cuts -/

theorem stamp_lt (h : Online stamp detect) {cs : List α} {b : β} (hb : b ∈ detect cs) :
    stamp b < cs.length := by
  induction cs using List.reverseRecOn with
  | nil => simp [h.nil] at hb
  | append_singleton cs c ih =>
    obtain ⟨news, heq, hnews⟩ := h.step cs c
    rw [heq, List.mem_append] at hb
    rw [List.length_append, List.length_singleton]
    rcases hb with hb | hb
    · exact Nat.lt_succ_of_lt (ih hb)
    · exact Nat.lt_succ_of_le (Nat.le_of_eq (hnews b hb))

/-- What comes after an index is stamped from it on. -/
theorem append (h : Online stamp detect) (cs rest : List α) :
    ∃ later, detect (cs ++ rest) = detect cs ++ later ∧ ∀ b ∈ later, cs.length ≤ stamp b := by
  induction rest using List.reverseRecOn with
  | nil => exact ⟨[], by simp, by simp⟩
  | append_singleton rest c ih =>
    obtain ⟨later, hlater, hstamp⟩ := ih
    obtain ⟨news, hnews, hnow⟩ := h.step (cs ++ rest) c
    refine ⟨later ++ news, by rw [← List.append_assoc, hnews, hlater, List.append_assoc], ?_⟩
    intro b hb
    rcases List.mem_append.mp hb with hb | hb
    · exact hstamp b hb
    · rw [hnow b hb, List.length_append]
      exact Nat.le_add_right _ _

/-- The series cut at `k` has the findings of the series stamped below `k`. -/
theorem take (h : Online stamp detect) (cs : List α) (k : ℕ) :
    detect (cs.take k) = (detect cs).filter fun b => stamp b < k := by
  obtain ⟨later, heq, hlater⟩ := h.append (cs.take k) (cs.drop k)
  rw [List.take_append_drop] at heq
  have hkeep : ∀ b ∈ detect (cs.take k), decide (stamp b < k) = true := fun b hb => by
    have hlt := h.stamp_lt hb
    rw [List.length_take] at hlt
    simpa using Nat.lt_of_lt_of_le hlt (Nat.min_le_left _ _)
  have hdrop : ∀ b ∈ later, ¬ (decide (stamp b < k) = true) := fun b hb hlt => by
    have hstamp : stamp b < cs.length := h.stamp_lt (heq ▸ List.mem_append_right _ hb)
    have hle := hlater b hb
    rw [List.length_take] at hle
    simp only [decide_eq_true_eq] at hlt
    omega
  rw [heq, List.filter_append, List.filter_eq_self.mpr hkeep, List.filter_eq_nil_iff.mpr hdrop,
    List.append_nil]

/-- The findings come in the order of their stamps. -/
theorem pairwise (h : Online stamp detect) (cs : List α) :
    (detect cs).Pairwise fun a b => stamp a ≤ stamp b := by
  induction cs using List.reverseRecOn with
  | nil => simp [h.nil]
  | append_singleton cs c ih =>
    obtain ⟨news, heq, hnews⟩ := h.step cs c
    rw [heq, List.pairwise_append]
    refine ⟨ih, ?_, fun a ha b hb => ?_⟩
    · exact List.pairwise_of_forall_mem_list fun a ha b hb =>
      Nat.le_of_eq ((hnews a ha).trans (hnews b hb).symm)
    · rw [hnews b hb]
      exact Nat.le_of_lt (h.stamp_lt ha)

end Online

/-! ## Section 2: Reworking the findings -/

/-- More findings in, more findings out, stamped as what they come from. -/
structure Progressive (stamp : β → ℕ) (stamp' : γ → ℕ) (rework : List β → List γ) : Prop where
  nil : rework [] = []
  append : ∀ bs news, ∃ more, rework (bs ++ news) = rework bs ++ more ∧
    ∀ c ∈ more, ∃ b ∈ news, stamp' c = stamp b

theorem Online.comp {stamp : β → ℕ} {stamp' : γ → ℕ} {detect : List α → List β}
    {rework : List β → List γ} (hrework : Progressive stamp stamp' rework)
    (hdetect : Online stamp detect) : Online stamp' fun cs => rework (detect cs) where
  nil := by rw [hdetect.nil, hrework.nil]
  step cs c := by
    obtain ⟨news, heq, hnews⟩ := hdetect.step cs c
    obtain ⟨more, hmore, hfrom⟩ := hrework.append (detect cs) news
    refine ⟨more, by rw [heq, hmore], fun d hd => ?_⟩
    obtain ⟨b, hb, hstamp⟩ := hfrom d hd
    rw [hstamp, hnews b hb]

theorem progressive_map {stamp : β → ℕ} {stamp' : γ → ℕ} {f : β → γ}
    (hf : ∀ b, stamp' (f b) = stamp b) : Progressive stamp stamp' (List.map f) where
  nil := rfl
  append bs news := by
    refine ⟨news.map f, List.map_append, fun c hc => ?_⟩
    obtain ⟨b, hb, rfl⟩ := List.mem_map.mp hc
    exact ⟨b, hb, hf b⟩

/-- A loop over the findings that keeps a state and writes what it makes of each one. -/
theorem progressive_foldl {stamp : β → ℕ} {stamp' : γ → ℕ} {step : σ → β → σ} {init : σ}
    {out : σ → List γ} (hinit : out init = [])
    (hstep : ∀ s b, ∃ more, out (step s b) = out s ++ more ∧ ∀ c ∈ more, stamp' c = stamp b) :
    Progressive stamp stamp' fun bs => out (bs.foldl step init) where
  nil := hinit
  append bs news := by
    rw [List.foldl_append]
    generalize bs.foldl step init = s
    induction news generalizing s with
    | nil => exact ⟨[], by simp, by simp⟩
    | cons b news ih =>
      obtain ⟨more, hmore, hstamp⟩ := hstep s b
      obtain ⟨rest, hrest, hfrom⟩ := ih (step s b)
      refine ⟨more ++ rest, by rw [List.foldl_cons, hrest, hmore, List.append_assoc], ?_⟩
      intro c hc
      rcases List.mem_append.mp hc with hc | hc
      · exact ⟨b, List.mem_cons_self, hstamp c hc⟩
      · obtain ⟨b', hb', hstamp'⟩ := hfrom c hc
        exact ⟨b', List.mem_cons_of_mem b hb', hstamp'⟩

/-! ## Section 3: Detectors that are online -/

/-- A window that is judged once its last element is there. The window judged at `i`
ends `lag` elements after the first one judged, `start`. -/
theorem online_windows {stamp : β → ℕ} {judge : List α → ℕ → List β} (start lag : ℕ)
    (hjudge : ∀ cs c i, i + lag < cs.length → judge (cs ++ [c]) (start + i) = judge cs (start + i))
    (hstamp : ∀ cs i, ∀ b ∈ judge cs (start + i), stamp b = i + lag) :
    Online stamp fun cs => (List.range' start (cs.length - lag)).flatMap (judge cs) where
  nil := by simp
  step cs c := by
    -- A window that was complete before the new element does not reach it.
    have hsame : (List.range' start (cs.length - lag)).flatMap (judge (cs ++ [c])) =
        (List.range' start (cs.length - lag)).flatMap (judge cs) := by
      refine List.flatMap_congr fun i hi => ?_
      rw [List.mem_range'_1] at hi
      have hsplit := hjudge cs c (i - start) (by omega)
      rwa [Nat.add_sub_cancel' hi.1] at hsplit
    rw [List.length_append, List.length_singleton]
    by_cases hle : lag ≤ cs.length
    · refine ⟨judge (cs ++ [c]) (start + (cs.length - lag)), ?_, fun b hb => ?_⟩
      · rw [Nat.sub_add_comm hle, List.range'_concat, List.flatMap_append, hsame]
        simp
      · rw [hstamp _ _ b hb]
        omega
    · refine ⟨[], ?_, by simp⟩
      simp [Nat.sub_eq_zero_of_le (Nat.le_of_not_le hle), show cs.length + 1 - lag = 0 by omega]

/-- A loop over the series that keeps a state, begun from the first element, and writes
what it finds at each one. -/
theorem online_foldl {stamp : β → ℕ} {step : σ → α × ℕ → σ} {begin : α → σ} {out : σ → List β}
    (hbegin : ∀ c, out (begin c) = [])
    (hstep : ∀ s c i, ∃ news, out (step s (c, i)) = out s ++ news ∧ ∀ b ∈ news, stamp b = i) :
    Online stamp fun cs => cs.head?.elim [] fun first =>
      out (cs.zipIdx.foldl step (begin first)) where
  nil := rfl
  step cs c := by
    cases cs with
    | nil =>
      obtain ⟨news, heq, hnews⟩ := hstep (begin c) c 0
      exact ⟨news, by simpa [hbegin] using heq, by simpa using hnews⟩
    | cons first cs =>
      obtain ⟨news, heq, hnews⟩ :=
        hstep ((first :: cs).zipIdx.foldl step (begin first)) c (first :: cs).length
      refine ⟨news, ?_, hnews⟩
      simp only [List.cons_append, List.head?_cons, Option.elim_some]
      rw [← List.cons_append, List.zipIdx_append, List.foldl_append, Nat.zero_add]
      exact heq

end SuperTrading.Logic
