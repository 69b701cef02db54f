import SuperTrading.Logic.Online
import SuperTrading.Logic.SortBy
import SuperTrading.Smc.Types
import Mathlib.Data.List.NodupEquivFin
import Mathlib.Tactic.Ring

/-!
# Swings

`app/smc/swings.py`: a swing high is the strict maximum of the `swing_length` candles on
each side, a swing low the strict minimum. It is confirmed, and reported, once all of them
are there.
-/

namespace SuperTrading.Smc

open SuperTrading.Logic

/-! ## Section 1: The detector -/

/-- `candles[i - swing_length : i + swing_length + 1]`. -/
def swingWindow (candles : List Candle) (swingLength i : ℕ) : List Candle :=
  (candles.drop (i - swingLength)).take (2 * swingLength + 1)

/-- The swings that the candle at `i` makes: it can make both. -/
def swingsAt (candles : List Candle) (swingLength i : ℕ) : List Swing :=
  match candles[i]? with
  | none => []
  | some candle =>
    let windowHighs := (swingWindow candles swingLength i).map Candle.high
    let windowLows := (swingWindow candles swingLength i).map Candle.low
    let swing := fun price swingType =>
      { index := i
        confirmedIndex := i + swingLength
        timestamp := candle.timestamp
        price := price
        swingType := swingType : Swing }
    (if windowHighs.max? = some candle.high ∧ windowHighs.count candle.high = 1 then
      [swing candle.high .high] else []) ++
    (if windowLows.min? = some candle.low ∧ windowLows.count candle.low = 1 then
      [swing candle.low .low] else [])

/-- The loop of `_label_swings`. -/
structure Labelling where
  labelled : List Swing := []
  lastHigh : Option Swing := none
  lastLow : Option Swing := none

def Labelling.label (l : Labelling) (swing : Swing) : Labelling :=
  match swing.swingType with
  | .high =>
    let label : SwingLabel := match l.lastHigh with
      | none => .none
      | some last => if swing.price > last.price then .hh else .lh
    { l with
      labelled := l.labelled ++ [{ swing with label := label }]
      lastHigh := some swing }
  | .low =>
    let label : SwingLabel := match l.lastLow with
      | none => .none
      | some last => if swing.price > last.price then .hl else .ll
    { l with
      labelled := l.labelled ++ [{ swing with label := label }]
      lastLow := some swing }

/-- `_label_swings`. -/
def labelSwings (swings : List Swing) : List Swing := (swings.foldl Labelling.label {}).labelled

/-- The swings in the order they are found. -/
def foundSwings (candles : List Candle) (swingLength : ℕ) : List Swing :=
  (List.range' swingLength (candles.length - 2 * swingLength)).flatMap
    (swingsAt candles swingLength)

/-- `detect_swings` past its check. -/
def swingsOf (candles : List Candle) (swingLength : ℕ) : List Swing :=
  labelSwings (sortBy Swing.index (foundSwings candles swingLength))

def detectSwings (candles : List Candle) (swingLength : ℕ := 3) : Except String (List Swing) :=
  if swingLength < 1 then .error "swing_length must be >= 1" else .ok (swingsOf candles swingLength)

/-! ## Section 2: Swings are found online -/

variable {candles : List Candle} {swingLength i : ℕ} {s : Swing}

/-- What there is to know of a swing at `i`. -/
theorem of_mem_swingsAt (h : s ∈ swingsAt candles swingLength i) :
    s.index = i ∧ s.confirmedIndex = i + swingLength := by
  simp only [swingsAt] at h
  split at h
  · simp at h
  · rcases List.mem_append.mp h with h | h <;> split at h <;> simp_all

theorem swingWindow_append (candle : Candle) (h : i + 2 * swingLength < candles.length) :
    swingWindow (candles ++ [candle]) swingLength (swingLength + i) =
      swingWindow candles swingLength (swingLength + i) := by
  simp only [swingWindow, Nat.add_sub_cancel_left]
  rw [List.drop_append_of_le_length (by omega), List.take_append_of_le_length]
  rw [List.length_drop]
  omega

theorem foundSwings_online (swingLength : ℕ) :
    Online Swing.confirmedIndex fun candles => foundSwings candles swingLength := by
  apply online_windows
  · intro candles candle i hi
    simp only [swingsAt]
    rw [swingWindow_append candle hi, List.getElem?_append_left (by omega)]
  · intro candles i s hs
    rw [(of_mem_swingsAt hs).2]
    omega

theorem confirmedIndex_foundSwings (h : s ∈ foundSwings candles swingLength) :
    s.confirmedIndex = s.index + swingLength := by
  obtain ⟨i, -, hs⟩ := List.mem_flatMap.mp h
  obtain ⟨hindex, hconfirmed⟩ := of_mem_swingsAt hs
  rw [hindex, hconfirmed]

/-- They are found in the order of their indices, so sorting them changes nothing. -/
theorem sortBy_foundSwings (candles : List Candle) (swingLength : ℕ) :
    sortBy Swing.index (foundSwings candles swingLength) = foundSwings candles swingLength := by
  apply sortBy_of_pairwise
  refine ((foundSwings_online swingLength).pairwise candles).imp_of_mem fun ha hb hle => ?_
  rw [confirmedIndex_foundSwings ha, confirmedIndex_foundSwings hb] at hle
  omega

theorem Labelling.labelled_label (l : Labelling) (swing : Swing) :
    ∃ label, (l.label swing).labelled = l.labelled ++ [{ swing with label := label }] := by
  cases h : swing.swingType with
  | high => exact ⟨_, by simp [Labelling.label, h]; rfl⟩
  | low => exact ⟨_, by simp [Labelling.label, h]; rfl⟩

theorem map_labelSwings {κ : Type*} (f : Swing → κ)
    (hf : ∀ swing label, f { swing with label := label } = f swing) (swings : List Swing) :
    (labelSwings swings).map f = swings.map f := by
  have hloop : ∀ l : Labelling,
      (swings.foldl Labelling.label l).labelled.map f = l.labelled.map f ++ swings.map f := by
    induction swings with
    | nil => simp
    | cons swing swings ih =>
      intro l
      obtain ⟨label, hlabel⟩ := l.labelled_label swing
      rw [List.foldl_cons, ih, hlabel]
      simp [hf]
  exact hloop {}

/-- A label looks back only. -/
theorem labelSwings_progressive :
    Progressive Swing.confirmedIndex Swing.confirmedIndex labelSwings := by
  apply progressive_foldl
  · rfl
  · intro l swing
    obtain ⟨label, hlabel⟩ := l.labelled_label swing
    exact ⟨_, hlabel, by simp⟩

theorem swingsOf_online (swingLength : ℕ) :
    Online Swing.confirmedIndex fun candles => swingsOf candles swingLength := by
  simp only [swingsOf, sortBy_foundSwings]
  exact Online.comp labelSwings_progressive (foundSwings_online swingLength)

/-! ## Section 3: A swing stands out -/

/-- The first candle reaches beyond the second on the side of the type. -/
def SwingType.Beyond : SwingType → Candle → Candle → Prop
  | .high, c, c' => c'.high < c.high
  | .low, c, c' => c.low < c'.low

/-- A value that is listed once stands at one place. -/
theorem ne_of_count_eq_one {xs : List ℚ} {a b : ℚ} {p q : ℕ} (hcount : xs.count a = 1)
    (hp : xs[p]? = some a) (hq : xs[q]? = some b) (hne : p ≠ q) : b ≠ a := by
  rintro rfl
  have hdup : List.Duplicate b xs := by
    obtain ⟨hp', hpa⟩ := List.getElem?_eq_some_iff.mp hp
    obtain ⟨hq', hqa⟩ := List.getElem?_eq_some_iff.mp hq
    rw [List.duplicate_iff_exists_distinct_get]
    rcases Nat.lt_or_gt_of_ne hne with hlt | hlt
    · exact ⟨⟨p, hp'⟩, ⟨q, hq'⟩, hlt, hpa.symm, hqa.symm⟩
    · exact ⟨⟨q, hq'⟩, ⟨p, hp'⟩, hlt, hqa.symm, hpa.symm⟩
  have htwo := List.duplicate_iff_two_le_count.mp hdup
  omega

theorem getElem?_swingWindow {j : ℕ} {c : Candle} (hc : candles[j]? = some c)
    (hleft : i ≤ j + swingLength) (hright : j ≤ i + swingLength) :
    (swingWindow candles swingLength i)[j - (i - swingLength)]? = some c := by
  rw [swingWindow, List.getElem?_take_of_lt (by omega), List.getElem?_drop,
    show i - swingLength + (j - (i - swingLength)) = j by omega, hc]

/-- A candle makes a swing by reaching beyond all others of its window. -/
theorem beyond_of_mem_swingsAt (h : s ∈ swingsAt candles swingLength i) :
    ∃ c, candles[i]? = some c ∧ ∀ (j : ℕ) (c' : Candle), candles[j]? = some c' → j ≠ i →
      i ≤ j + swingLength → j ≤ i + swingLength → s.swingType.Beyond c c' := by
  rw [swingsAt] at h
  cases hc : candles[i]? with
  | none => simp [hc] at h
  | some c =>
    rw [hc] at h
    refine ⟨c, rfl, fun j c' hc' hne hleft hright => ?_⟩
    -- The two candles stand at different places of the window.
    have hplace : i - (i - swingLength) ≠ j - (i - swingLength) := by omega
    have hown := getElem?_swingWindow hc (Nat.le_add_right i swingLength)
      (Nat.le_add_right i swingLength)
    have hother := getElem?_swingWindow hc' hleft hright
    have hmem := List.mem_of_getElem? hother
    -- A high is the one greatest of its window, a low the one least.
    rcases List.mem_append.mp h with h | h
    · rw [List.mem_ite_nil_right, List.mem_singleton] at h
      obtain ⟨⟨hmax, hcount⟩, rfl⟩ := h
      have hle := (List.max?_eq_some_iff.mp hmax).2 c'.high (List.mem_map_of_mem hmem)
      exact lt_of_le_of_ne hle (ne_of_count_eq_one hcount (by rw [List.getElem?_map, hown]; rfl)
        (by rw [List.getElem?_map, hother]; rfl) hplace)
    · rw [List.mem_ite_nil_right, List.mem_singleton] at h
      obtain ⟨⟨hmin, hcount⟩, rfl⟩ := h
      have hle := (List.min?_eq_some_iff.mp hmin).2 c'.low (List.mem_map_of_mem hmem)
      exact lt_of_le_of_ne hle (ne_of_count_eq_one hcount (by rw [List.getElem?_map, hown]; rfl)
        (by rw [List.getElem?_map, hother]; rfl) hplace).symm

/-- The candle of a reported swing, and the candles around it. -/
theorem beyond_of_mem_swingsOf (h : s ∈ swingsOf candles swingLength) :
    s.confirmedIndex = s.index + swingLength ∧ ∃ c, candles[s.index]? = some c ∧
      ∀ (j : ℕ) (c' : Candle), candles[j]? = some c' → j ≠ s.index →
        s.index ≤ j + swingLength → j ≤ s.index + swingLength → s.swingType.Beyond c c' := by
  rw [swingsOf, sortBy_foundSwings] at h
  have hfound := List.mem_map_of_mem (f := fun s => (s.index, s.confirmedIndex, s.swingType)) h
  rw [map_labelSwings _ fun _ _ => rfl] at hfound
  obtain ⟨found, hmem, heq⟩ := List.mem_map.mp hfound
  obtain ⟨i, -, hat⟩ := List.mem_flatMap.mp hmem
  obtain ⟨hindex, hconfirmed⟩ := of_mem_swingsAt hat
  obtain ⟨c, hc, hbeyond⟩ := beyond_of_mem_swingsAt hat
  simp only [Prod.mk.injEq] at heq
  obtain ⟨hsame, hsame', htype⟩ := heq
  rw [hindex] at hsame
  subst hsame
  rw [← hsame', ← htype]
  exact ⟨hconfirmed, c, hc, hbeyond⟩

/-! ## Section 4: A candle makes at most one swing of a type -/

def Swing.key (s : Swing) : ℕ × SwingType := (s.index, s.swingType)

theorem nodup_key_swingsAt (candles : List Candle) (swingLength i : ℕ) :
    ((swingsAt candles swingLength i).map Swing.key).Nodup := by
  simp only [swingsAt]
  split
  · simp
  · split <;> split <;> simp [Swing.key]

theorem nodup_key_swingsOf (candles : List Candle) (swingLength : ℕ) :
    ((swingsOf candles swingLength).map Swing.key).Nodup := by
  rw [swingsOf, map_labelSwings _ fun _ _ => rfl, sortBy_foundSwings, foundSwings, List.map_flatMap,
    List.nodup_flatMap]
  refine ⟨fun i _ => nodup_key_swingsAt candles swingLength i, ?_⟩
  have hdistinct : (List.range' swingLength (candles.length - 2 * swingLength)).Nodup :=
    List.nodup_range'
  refine hdistinct.imp fun {i j} hij => ?_
  -- The swings of two candles differ in their index.
  intro key hi hj
  obtain ⟨s, hs, rfl⟩ := List.mem_map.mp hi
  obtain ⟨s', hs', heq⟩ := List.mem_map.mp hj
  have hindex : s'.index = s.index := congrArg Prod.fst heq
  rw [(of_mem_swingsAt hs).1, (of_mem_swingsAt hs').1] at hindex
  exact hij hindex.symm

end SuperTrading.Smc
