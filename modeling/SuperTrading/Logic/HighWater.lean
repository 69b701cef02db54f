import Mathlib.Algebra.BigOperators.Group.List.Basic
import Mathlib.Algebra.Group.Prod
import Mathlib.Data.List.Induction
import Mathlib.Order.MinMax

/-!
# High-Water Marks

A mark that only rises: an element above it passes it and becomes the mark, any other leaves
it where it is. A mark that is not set yet takes the first element, which does not pass it.

- `passes`: which elements of a series pass the mark
- `runningMax`: the greatest element up to each one
- `passes_eq_iff`: the second is all there is to know of the first
- `Gauge`: a total that starts again when its mark is passed
-/

namespace SuperTrading.Logic

variable {α β : Type*} [LinearOrder α] [LinearOrder β]

/-- Which elements pass the mark. -/
def passes : Option α → List α → List Bool
  | _, [] => []
  | mark, x :: xs =>
    mark.any (fun m => decide (m < x)) :: passes (some ((mark.map fun m => max m x).getD x)) xs

/-- The greatest element up to each one. -/
def runningMax : List α → List α
  | [] => []
  | x :: xs => x :: (runningMax xs).map (max x)

/-- An order-preserving reading of a series has the reading of its running maximum. -/
theorem runningMax_map {f : α → β} (hf : Monotone f) (xs : List α) :
    runningMax (xs.map f) = (runningMax xs).map f := by
  induction xs with
  | nil => rfl
  | cons x xs ih =>
    simp only [List.map_cons, runningMax, ih, List.map_map]
    rw [List.cons.injEq]
    refine ⟨rfl, List.map_congr_left fun y _ => ?_⟩
    exact (hf.map_max).symm

/-- The elements above a mark tell how far it rises. -/
theorem lt_iff_lt_iff_max (low x y : α) :
    (∀ mark, low ≤ mark → (mark < x ↔ mark < y)) ↔ max low x = max low y := by
  constructor
  · intro h
    -- Were one of the two higher, the other would be a mark that only it passes.
    apply le_antisymm
    · by_contra hlt
      rw [not_le, lt_max_iff, or_iff_right (not_lt_of_ge (le_max_left low y))] at hlt
      have hy := (h _ (le_max_left low y)).mp hlt
      exact absurd (le_max_right low y) (not_le_of_gt hy)
    · by_contra hlt
      rw [not_le, lt_max_iff, or_iff_right (not_lt_of_ge (le_max_left low x))] at hlt
      have hx := (h _ (le_max_left low x)).mpr hlt
      exact absurd (le_max_right low x) (not_le_of_gt hx)
  · intro h mark hmark
    have hpass : ∀ z, mark < z ↔ mark < max low z := by
      intro z
      rw [lt_max_iff, or_iff_right (not_lt_of_ge hmark)]
    rw [hpass x, hpass y, h]

/-- Above a floor, a series passes every mark as another does exactly when the two have the same
running maximum above it. -/
theorem passes_eq_iff_above (low : α) (xs ys : List α) :
    (∀ mark, low ≤ mark → passes (some mark) xs = passes (some mark) ys) ↔
      (runningMax xs).map (max low) = (runningMax ys).map (max low) := by
  induction xs generalizing low ys with
  | nil =>
    cases ys with
    | nil => exact ⟨fun _ => rfl, fun _ _ _ => rfl⟩
    | cons y ys => simpa [passes, runningMax] using ⟨low, le_refl low⟩
  | cons x xs ih =>
    cases ys with
    | nil => simpa [passes, runningMax] using ⟨low, le_refl low⟩
    | cons y ys =>
      have hmax : ∀ z (zs : List α), (zs.map (max z)).map (max low) = zs.map (max (max low z)) := by
        intro z zs
        rw [List.map_map]
        exact List.map_congr_left fun w _ => (max_assoc low z w).symm
      simp only [passes, runningMax, List.map_cons, List.cons.injEq, hmax, Option.any_some,
        Option.map_some, Option.getD_some, decide_eq_decide]
      rw [forall₂_and, lt_iff_lt_iff_max]
      refine and_congr_right fun htop => ?_
      rw [← htop, ← ih (max low x)]
      -- The mark that comes out of the head is the mark as it stood, or the head itself.
      have hraised : ∀ mark, low ≤ mark → max mark x = max mark y := by
        intro mark hmark
        rw [← max_eq_left hmark, max_assoc, max_assoc, htop]
      constructor
      · intro h mark hmark
        have hlow : low ≤ mark := le_trans (le_max_left low x) hmark
        have hmark' := h mark hlow
        rwa [← hraised mark hlow, max_eq_left (le_trans (le_max_right low x) hmark)] at hmark'
      · intro h mark hmark
        rw [← hraised mark hmark]
        exact h _ (max_le_max_right x hmark)

/-- Two series pass every mark alike exactly when they have the same running maximum. -/
theorem passes_eq_iff (xs ys : List α) :
    (∀ mark, passes mark xs = passes mark ys) ↔ runningMax xs = runningMax ys := by
  cases xs with
  | nil =>
    cases ys with
    | nil => exact ⟨fun _ => rfl, fun _ _ => rfl⟩
    | cons y ys => simp [passes, runningMax]
  | cons x xs =>
    cases ys with
    | nil => simp [passes, runningMax]
    | cons y ys =>
      simp only [runningMax, List.cons.injEq]
      constructor
      · intro h
        have hpasses : ∀ m, (m < x ↔ m < y) ∧
            passes (some (max m x)) xs = passes (some (max m y)) ys := by
          intro m
          simpa [passes] using h (some m)
        -- Neither head passes a mark that stands at the other one.
        have hxy : x = y := by
          apply le_antisymm
          · exact not_lt.mp fun hlt => lt_irrefl y ((hpasses y).1.mp hlt)
          · exact not_lt.mp fun hlt => lt_irrefl x ((hpasses x).1.mpr hlt)
        subst hxy
        refine ⟨rfl, (passes_eq_iff_above x xs ys).mp fun m hm => ?_⟩
        have htail := (hpasses m).2
        rwa [max_eq_left hm] at htail
      · rintro ⟨rfl, htail⟩ mark
        rw [← passes_eq_iff_above] at htail
        simp only [passes, List.cons.injEq, true_and]
        apply htail
        cases mark with
        | none => exact le_refl x
        | some m => exact le_max_right m x

/-! The extremes of a list, as a fold finds them. -/

/-- The first element or one of the list is the least of them. -/
theorem foldl_min_spec (xs : List α) (first : α) :
    xs.foldl min first ∈ first :: xs ∧
      ∀ v ∈ first :: xs, xs.foldl min first ≤ v := by
  induction xs generalizing first with
  | nil => simp
  | cons v xs ih =>
    -- The induction compares the first two elements.
    obtain ⟨hmem, hle⟩ := ih (min first v)
    have hfirst : xs.foldl min (min first v) ≤ min first v := hle _ List.mem_cons_self
    rw [List.foldl_cons]
    constructor
    · rcases List.mem_cons.mp hmem with hmin | htail
      · rw [hmin]
        rcases min_choice first v with h | h
        · simp [h]
        · simp [h]
      · exact List.mem_cons_of_mem _ (List.mem_cons_of_mem _ htail)
    · intro u hu
      rcases List.mem_cons.mp hu with rfl | hu
      · exact hfirst.trans (min_le_left _ _)
      rcases List.mem_cons.mp hu with rfl | hu
      · exact hfirst.trans (min_le_right _ _)
      · exact hle u (List.mem_cons_of_mem _ hu)

theorem foldl_max_spec (xs : List α) (first : α) :
    xs.foldl max first ∈ first :: xs ∧
      ∀ v ∈ first :: xs, v ≤ xs.foldl max first :=
  @foldl_min_spec αᵒᵈ _ xs first

/-! ## Totals since the mark was passed -/

/-- A mark, and what was added since it was set. -/
structure Gauge (κ M : Type*) where
  mark : Option κ := none
  total : M

/-- What can happen to a gauge. -/
inductive GaugeMove (κ M : Type*)
  | reach (k : κ)
  | add (x : M)

namespace GaugeMove

variable {κ M : Type*}

/-- The marks that the moves come to. -/
def reached (moves : List (GaugeMove κ M)) : List κ :=
  moves.filterMap fun
    | reach k => some k
    | add _ => none

/-- What the moves add. -/
def added [Zero M] : GaugeMove κ M → M
  | reach _ => 0
  | add x => x

@[simp] theorem reached_append (moves moves' : List (GaugeMove κ M)) :
    reached (moves ++ moves') = reached moves ++ reached moves' := List.filterMap_append

@[simp] theorem reached_reach (k : κ) : reached [(reach k : GaugeMove κ M)] = [k] := rfl

@[simp] theorem reached_add (x : M) : reached [(add x : GaugeMove κ M)] = [] := rfl

end GaugeMove

namespace Gauge

variable {κ M : Type*} [LinearOrder κ] [AddMonoid M] {g : Gauge κ M}

/-- A later mark starts the total again. An earlier one changes nothing. -/
def reach (g : Gauge κ M) (k : κ) : Gauge κ M :=
  { mark := some ((g.mark.map fun m => max m k).getD k)
    total := if g.mark.any fun m => decide (m < k) then 0 else g.total }

def add (g : Gauge κ M) (x : M) : Gauge κ M := { g with total := g.total + x }

def apply (g : Gauge κ M) : GaugeMove κ M → Gauge κ M
  | .reach k => g.reach k
  | .add x => g.add x

theorem reach_of_lt {m k : κ} (h : g.mark = some m) (hlt : m < k) :
    g.reach k = { mark := some k, total := 0 } := by
  simp [reach, h, hlt, max_eq_right hlt.le]

theorem reach_of_le {m k : κ} (h : g.mark = some m) (hle : k ≤ m) : g.reach k = g := by
  cases g
  simp_all [reach, not_lt.mpr hle]

/-- The moves from the first one that came to the mark on: nothing before it came so far, and
what was added behind it is the total. -/
structure Since (moves : List (GaugeMove κ M)) (g : Gauge κ M)
    (before : List (GaugeMove κ M)) (k : κ) (after : List (GaugeMove κ M)) : Prop where
  split : moves = before ++ .reach k :: after
  mark : g.mark = some k
  latest : ∀ k' ∈ GaugeMove.reached moves, k' ≤ k
  first : ∀ k' ∈ GaugeMove.reached before, k' < k
  total : g.total = (after.map GaugeMove.added).sum

/-- One more move. -/
theorem Since.step {moves before after : List (GaugeMove κ M)} {k : κ}
    (h : Since moves g before k after) (move : GaugeMove κ M) :
    ∃ before' k' after', Since (moves ++ [move]) (g.apply move) before' k' after' := by
  cases move with
  | add x =>
    refine ⟨before, k, after ++ [.add x], ?_, h.mark, ?_, h.first, ?_⟩
    · simp [h.split]
    · simpa using h.latest
    · simp [apply, add, h.total, GaugeMove.added]
  | reach k' =>
    rcases lt_or_ge k k' with hlt | hle
    · -- The new mark is the latest, and nothing has been added since.
      refine ⟨moves, k', [], rfl, ?_, ?_, ?_, ?_⟩
      · rw [apply, reach_of_lt h.mark hlt]
      · intro k'' hk
        rw [GaugeMove.reached_append, List.mem_append] at hk
        rcases hk with hk | hk
        · exact (h.latest k'' hk).trans hlt.le
        · rw [GaugeMove.reached_reach, List.mem_singleton] at hk
          exact hk.le
      · exact fun k'' hk => (h.latest k'' hk).trans_lt hlt
      · rw [apply, reach_of_lt h.mark hlt]
        rfl
    · refine ⟨before, k, after ++ [.reach k'], ?_, ?_, ?_, h.first, ?_⟩
      · simp [h.split]
      · rw [apply, reach_of_le h.mark hle, h.mark]
      · intro k'' hk
        rw [GaugeMove.reached_append, List.mem_append] at hk
        rcases hk with hk | hk
        · exact h.latest k'' hk
        · rw [GaugeMove.reached_reach, List.mem_singleton] at hk
          exact hk.trans_le hle
      · rw [apply, reach_of_le h.mark hle]
        simp [h.total, GaugeMove.added]

/-- **The total of a run** that starts with a mark: what was added since the latest mark was
first reached. -/
theorem exists_since (k₀ : κ) (moves : List (GaugeMove κ M)) :
    ∃ before k after, Since (.reach k₀ :: moves)
      ((GaugeMove.reach k₀ :: moves).foldl apply { total := 0 }) before k after := by
  induction moves using List.reverseRecOn with
  | nil =>
    refine ⟨[], k₀, [], rfl, rfl, ?_, ?_, rfl⟩
    · simp [GaugeMove.reached]
    · simp [GaugeMove.reached]
  | append_singleton moves move ih =>
    obtain ⟨before, k, after, h⟩ := ih
    rw [← List.cons_append, List.foldl_append]
    exact h.step move

/-! A gauge whose marks come in order may as well start again at every other mark. -/

/-- Any other mark starts the total again. -/
def turn (g : Gauge κ M) (k : κ) : Gauge κ M :=
  { mark := some k
    total := if g.mark.any fun m => decide (m ≠ k) then 0 else g.total }

theorem turn_eq_reach {k : κ} (h : ∀ m ∈ g.mark, m ≤ k) : g.turn k = g.reach k := by
  cases hmark : g.mark with
  | none => simp [turn, reach, hmark]
  | some m =>
    rcases (h m hmark).lt_or_eq with hlt | heq
    · rw [reach_of_lt hmark hlt]
      simp [turn, hmark, hlt.ne]
    · rw [reach_of_le hmark heq.ge]
      cases g
      simp_all [turn]

/-- The total of one mark after additions whose marks came in order. -/
theorem total_turn {entries : List (κ × M)} {k : κ}
    (hordered : entries.Pairwise fun e e' => e.1 ≤ e'.1) (hlatest : ∀ e ∈ entries, e.1 ≤ k) :
    ((entries.foldl (fun (g : Gauge κ M) e => (g.turn e.1).add e.2) { total := 0 }).turn k).total =
      ((entries.filter fun e => e.1 = k).map Prod.snd).sum := by
  induction entries using List.reverseRecOn generalizing k with
  | nil => simp [turn]
  | append_singleton entries e ih =>
    obtain ⟨hordered, -, hlast⟩ := List.pairwise_append.mp hordered
    have hbefore : ∀ e' ∈ entries, e'.1 ≤ e.1 := fun e' he' => hlast e' he' e List.mem_cons_self
    rw [List.foldl_append, List.filter_append, List.map_append, List.sum_append]
    by_cases hk : e.1 = k
    · subst hk
      rw [← ih hordered hbefore]
      simp [turn, add]
    · -- The mark moves on, and nothing was added for the new one.
      have hlt : e.1 < k := lt_of_le_of_ne (hlatest e (by simp)) hk
      have hnone : entries.filter (fun e' => decide (e'.1 = k)) = [] := by
        rw [List.filter_eq_nil_iff]
        intro e' he'
        simpa using ((hbefore e' he').trans_lt hlt).ne
      simp [turn, add, hk, hnone]

/-- The same of a gauge that only a later mark starts again. -/
theorem foldl_reach_eq_turn {entries : List (κ × M)}
    (hordered : entries.Pairwise fun e e' => e.1 ≤ e'.1) :
    (entries.foldl (fun (g : Gauge κ M) e => (g.reach e.1).add e.2) { total := 0 }) =
        (entries.foldl (fun (g : Gauge κ M) e => (g.turn e.1).add e.2) { total := 0 }) ∧
      ∀ m ∈ (entries.foldl (fun (g : Gauge κ M) e => (g.turn e.1).add e.2) { total := 0 }).mark,
        ∃ e ∈ entries, e.1 = m := by
  induction entries using List.reverseRecOn with
  | nil => simp
  | append_singleton entries e ih =>
    obtain ⟨hordered, -, hlast⟩ := List.pairwise_append.mp hordered
    obtain ⟨hsame, hmarks⟩ := ih hordered
    rw [List.foldl_append, List.foldl_append, hsame]
    -- In order, no mark lies above the next entry.
    have hle : ∀ m ∈ (entries.foldl (fun (g : Gauge κ M) e => (g.turn e.1).add e.2)
        { total := 0 }).mark, m ≤ e.1 := by
      intro m hm
      obtain ⟨e', he', rfl⟩ := hmarks m hm
      exact hlast e' he' e List.mem_cons_self
    constructor
    · simp only [List.foldl_cons, List.foldl_nil, turn_eq_reach hle]
    · simp [turn, add]

theorem total_reach {entries : List (κ × M)} {k : κ}
    (hordered : entries.Pairwise fun e e' => e.1 ≤ e'.1) (hlatest : ∀ e ∈ entries, e.1 ≤ k) :
    ((entries.foldl (fun (g : Gauge κ M) e => (g.reach e.1).add e.2)
      { total := 0 }).reach k).total =
      ((entries.filter fun e => e.1 = k).map Prod.snd).sum := by
  obtain ⟨hsame, hmarks⟩ := foldl_reach_eq_turn hordered
  rw [hsame, ← turn_eq_reach, total_turn hordered hlatest]
  intro m hm
  obtain ⟨e, he, rfl⟩ := hmarks m hm
  exact hlatest e he

omit [LinearOrder κ] in
/-- The gauge of a system that counts item after item. -/
theorem foldl_items {σ ι : Type*} {op : Gauge κ M → κ → Gauge κ M} {gauge : σ → Gauge κ M}
    {step : σ → ι → σ} {mark : ι → κ} {amount : ι → M}
    (hstep : ∀ s i, gauge (step s i) = (op (gauge s) (mark i)).add (amount i)) (s : σ)
    (items : List ι) :
    gauge (items.foldl step s) =
      (items.map fun i => (mark i, amount i)).foldl (fun g e => (op g e.1).add e.2) (gauge s) := by
  induction items generalizing s with
  | nil => rfl
  | cons i items ih => rw [List.foldl_cons, ih, hstep, List.map_cons, List.foldl_cons]

end Gauge

/-- Two sums at once. -/
theorem sum_map_prodMk {ι M N : Type*} [AddMonoid M] [AddMonoid N] (f : ι → M) (g : ι → N)
    (xs : List ι) : (xs.map fun x => (f x, g x)).sum = ((xs.map f).sum, (xs.map g).sum) := by
  induction xs with
  | nil => rfl
  | cons x xs ih => simp [ih]

end SuperTrading.Logic
