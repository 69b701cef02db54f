import SuperTrading.Core.Types
import SuperTrading.Smc.Types
import SuperTrading.Logic.Dict
import SuperTrading.Logic.SortBy
import Mathlib.Algebra.BigOperators.Fin
import Mathlib.Algebra.Order.BigOperators.Ring.Finset
import Mathlib.Analysis.Real.Sqrt
import Mathlib.Data.Sym.Sym2

/-!
# Correlation

`app/risk/correlation.py`: the correlation of two instruments, over the bars that both have.

- **Layer A**: the code
- **Layer B**: what a pair of return lists consists of
- **Layer C**: what Pearson's quotient is bounded by
- **Layer D**: what an entry of the matrix depends on
-/

namespace SuperTrading

open Logic

/-! ## Layer A: The code -/

/-- Closes by timestamp. -/
abbrev Closes := Dict Timestamp ℚ

namespace Closes

/-- `closes[t]`, for a timestamp that they have. -/
def close (closes : Closes) (t : Timestamp) : ℚ := (closes.get? t).getD 0

/-- The return from one timestamp to another. -/
def returnOver (closes : Closes) (interval : Timestamp × Timestamp) : ℚ :=
  (closes.close interval.2 - closes.close interval.1) / closes.close interval.1

end Closes

/-- `_paired_returns`. -/
def pairedReturns (closesA closesB : Closes) : List Timestamp → List ℚ × List ℚ
  | previous :: next :: rest =>
    let later := pairedReturns closesA closesB (next :: rest)
    let previousA := closesA.close previous
    let previousB := closesB.close previous
    if previousA = 0 ∨ previousB = 0 then later
    else
      ((closesA.close next - previousA) / previousA :: later.1,
        (closesB.close next - previousB) / previousB :: later.2)
  | _ => ([], [])

/-- A correlation by the parts of its quotient `cov / (var_a * var_b) ** 0.5`. -/
structure Correlation where
  cov : ℚ
  varA : ℚ
  varB : ℚ
  deriving DecidableEq, Repr

/-- `pearson_correlation`. -/
def pearsonCorrelation (a b : List ℚ) : Option Correlation :=
  let n := min a.length b.length
  if n < 2 then none
  else
    let a := a.drop (a.length - n)
    let b := b.drop (b.length - n)
    let meanA := a.sum / n
    let meanB := b.sum / n
    let cov := ((a.zip b).map fun p => (p.1 - meanA) * (p.2 - meanB)).sum
    let varA := (a.map fun x => (x - meanA) ^ 2).sum
    let varB := (b.map fun y => (y - meanB) ^ 2).sum
    if varA = 0 ∨ varB = 0 then none else some ⟨cov, varA, varB⟩

/-- `sorted(set(closes_a) & set(closes_b))`. -/
def sharedTimestamps (closesA closesB : Closes) : List Timestamp :=
  sortBy id ((closesA.entries.map Prod.fst).filter fun t => (closesB.get? t).isSome)

/-- The correlation of two series of closes, where it can be computed. -/
def pairCorrelation (closesA closesB : Closes) : Option Correlation :=
  let shared := sharedTimestamps closesA closesB
  -- At least 3 closes make at least 2 returns.
  if shared.length < 3 then none
  else
    let (returnsA, returnsB) := pairedReturns closesA closesB shared
    pearsonCorrelation returnsA returnsB

abbrev CorrelationMatrix := Dict (Sym2 Symbol) Correlation

/-- The inner step of the loop, on two entries of `closes_by_symbol`. -/
def addPair (symA : Symbol × Closes) (matrix : CorrelationMatrix) (symB : Symbol × Closes) :
    CorrelationMatrix :=
  match pairCorrelation symA.2 symB.2 with
  | none => matrix
  | some corr => matrix.set s(symA.1, symB.1) corr

/-- The loop over the entries. -/
def addPairs : List (Symbol × Closes) → CorrelationMatrix → CorrelationMatrix
  | [], matrix => matrix
  | symA :: rest, matrix => addPairs rest (rest.foldl (addPair symA) matrix)

/-- `build_correlation_matrix`. -/
def buildCorrelationMatrix (closesBySymbol : Dict Symbol Closes) : CorrelationMatrix :=
  addPairs closesBySymbol.entries Dict.empty

/-- The number that a correlation is. -/
noncomputable def Correlation.value (c : Correlation) : ℝ :=
  (c.cov : ℝ) / √((c.varA * c.varB : ℚ) : ℝ)

/-- The entry of a pair. -/
noncomputable def CorrelationMatrix.entry (matrix : CorrelationMatrix) (a b : Symbol) : Option ℝ :=
  (matrix.get? s(a, b)).map Correlation.value

/-! ## Layer B: The returns of a pair -/

section Returns

variable (closesA closesB : Closes)

/-- From one shared bar to the next, where neither close divides by zero. -/
def intervals (shared : List Timestamp) : List (Timestamp × Timestamp) :=
  (shared.zip shared.tail).filter fun i => closesA.close i.1 ≠ 0 ∧ closesB.close i.1 ≠ 0

/-- Both lists go through the same intervals. -/
theorem pairedReturns_eq (shared : List Timestamp) :
    pairedReturns closesA closesB shared =
      ((intervals closesA closesB shared).map closesA.returnOver,
        (intervals closesA closesB shared).map closesB.returnOver) := by
  induction shared with
  | nil => rfl
  | cons previous rest ih =>
    cases rest with
    | nil => rfl
    | cons next rest =>
      rw [pairedReturns, ih]
      by_cases hzero : closesA.close previous = 0 ∨ closesB.close previous = 0
      · have hskip : ¬ (closesA.close previous ≠ 0 ∧ closesB.close previous ≠ 0) := by tauto
        simp [intervals, hzero, hskip]
      · have hkeep : closesA.close previous ≠ 0 ∧ closesB.close previous ≠ 0 := by tauto
        simp [intervals, hkeep, Closes.returnOver]

/-- What two series have at a timestamp, if both have something. -/
def sharedCloses (closesA closesB : Closes) (t : Timestamp) : Option (ℚ × ℚ) :=
  (closesA.get? t).bind fun a => (closesB.get? t).map fun b => (a, b)

variable {closesA closesB}

theorem mem_sharedTimestamps {t : Timestamp} :
    t ∈ sharedTimestamps closesA closesB ↔ (sharedCloses closesA closesB t).isSome := by
  have hkeys : t ∈ closesA.entries.map Prod.fst ↔ (closesA.get? t).isSome := by
    rw [Option.isSome_iff_ne_none, Dict.get?, Ne, lookupEntry_eq_none, not_not]
  rw [sharedTimestamps, mem_sortBy, List.mem_filter, hkeys, sharedCloses]
  cases closesA.get? t <;> cases closesB.get? t <;> simp

theorem nodup_sharedTimestamps : (sharedTimestamps closesA closesB).Nodup :=
  (sortBy_perm id _).nodup_iff.mpr (closesA.nodup.filter _)

/-- In order, and each once, they are known by which they are. -/
theorem sharedTimestamps_congr {closesA' closesB' : Closes}
    (h : ∀ t, (sharedCloses closesA closesB t).isSome = (sharedCloses closesA' closesB' t).isSome) :
    sharedTimestamps closesA closesB = sharedTimestamps closesA' closesB' := by
  have hperm : (sharedTimestamps closesA closesB).Perm (sharedTimestamps closesA' closesB') := by
    refine (List.perm_ext_iff_of_nodup nodup_sharedTimestamps nodup_sharedTimestamps).mpr ?_
    intro t
    rw [mem_sharedTimestamps, mem_sharedTimestamps, h]
  refine hperm.eq_of_pairwise ?_ (pairwise_sortBy id _) (pairwise_sortBy id _)
  exact fun s t _ _ hst hts => le_antisymm hst hts

theorem pairedReturns_congr {closesA' closesB' : Closes} {shared : List Timestamp}
    (hA : ∀ t ∈ shared, closesA.close t = closesA'.close t)
    (hB : ∀ t ∈ shared, closesB.close t = closesB'.close t) :
    pairedReturns closesA closesB shared = pairedReturns closesA' closesB' shared := by
  have hmem : ∀ i ∈ shared.zip shared.tail, i.1 ∈ shared ∧ i.2 ∈ shared := fun i hi =>
    ⟨(List.of_mem_zip hi).1, List.mem_of_mem_tail (List.of_mem_zip hi).2⟩
  have hintervals : intervals closesA closesB shared = intervals closesA' closesB' shared := by
    refine List.filter_congr fun i hi => ?_
    rw [hA _ (hmem i hi).1, hB _ (hmem i hi).1]
  rw [pairedReturns_eq, pairedReturns_eq, hintervals]
  refine Prod.ext (List.map_congr_left fun i hi => ?_) (List.map_congr_left fun i hi => ?_)
  · have hi' := hmem i (List.mem_of_mem_filter hi)
    rw [Closes.returnOver, Closes.returnOver, hA _ hi'.1, hA _ hi'.2]
  · have hi' := hmem i (List.mem_of_mem_filter hi)
    rw [Closes.returnOver, Closes.returnOver, hB _ hi'.1, hB _ hi'.2]

/-- The correlation of two series is one of what they share. -/
theorem pairCorrelation_congr {closesA' closesB' : Closes}
    (h : ∀ t, sharedCloses closesA closesB t = sharedCloses closesA' closesB' t) :
    pairCorrelation closesA closesB = pairCorrelation closesA' closesB' := by
  have hshared : sharedTimestamps closesA closesB = sharedTimestamps closesA' closesB' :=
    sharedTimestamps_congr fun t => congrArg Option.isSome (h t)
  have hclose : ∀ t ∈ sharedTimestamps closesA closesB,
      closesA.close t = closesA'.close t ∧ closesB.close t = closesB'.close t := by
    intro t ht
    obtain ⟨p, hp⟩ := Option.isSome_iff_exists.mp (mem_sharedTimestamps.mp ht)
    have hp' := (h t).symm.trans hp
    simp only [sharedCloses, Option.bind_eq_some_iff, Option.map_eq_some_iff] at hp hp'
    obtain ⟨a, ha, b, hb, rfl⟩ := hp
    obtain ⟨a', ha', b', hb', hab⟩ := hp'
    cases hab
    simp [Closes.close, ha, ha', hb, hb']
  have hreturns := pairedReturns_congr (fun t ht => (hclose t ht).1) fun t ht => (hclose t ht).2
  simp only [pairCorrelation, ← hshared, ← hreturns]

/-- Without shared closes there is none. -/
theorem pairCorrelation_of_apart (h : ∀ t, sharedCloses closesA closesB t = none) :
    pairCorrelation closesA closesB = none := by
  have hempty : sharedTimestamps closesA closesB = [] := by
    refine List.eq_nil_iff_forall_not_mem.mpr fun t ht => ?_
    rw [mem_sharedTimestamps, h t] at ht
    cases ht
  simp [pairCorrelation, hempty]

/-- The other way round, the lists change places. -/
theorem pairedReturns_swap (shared : List Timestamp) :
    pairedReturns closesB closesA shared = (pairedReturns closesA closesB shared).swap := by
  have hintervals : intervals closesB closesA shared = intervals closesA closesB shared := by
    unfold intervals
    exact List.filter_congr fun i _ => decide_eq_decide.mpr and_comm
  rw [pairedReturns_eq, pairedReturns_eq, hintervals]
  rfl

end Returns

/-! ## Layer C: The quotient -/

/-- The inequality of Cauchy and Schwarz, for two lists side by side. -/
theorem sq_sum_zip_le {a b : List ℚ} (h : a.length = b.length) (f g : ℚ → ℚ) :
    ((a.zip b).map fun p => f p.1 * g p.2).sum ^ 2 ≤
      (a.map fun x => f x ^ 2).sum * (b.map fun y => g y ^ 2).sum := by
  have ha : (a.zip b).map (fun p => f p.1 ^ 2) = a.map fun x => f x ^ 2 := by
    rw [← Function.comp_def (fun x => f x ^ 2) Prod.fst, ← List.map_map, List.map_fst_zip h.le]
  have hb : (a.zip b).map (fun p => g p.2 ^ 2) = b.map fun y => g y ^ 2 := by
    rw [← Function.comp_def (fun y => g y ^ 2) Prod.snd, ← List.map_map, List.map_snd_zip h.ge]
  rw [← ha, ← hb, ← Fin.sum_univ_fun_getElem, ← Fin.sum_univ_fun_getElem,
    ← Fin.sum_univ_fun_getElem]
  exact Finset.sum_mul_sq_le_sq_mul_sq ..

theorem sum_sq_nonneg (xs : List ℚ) (f : ℚ → ℚ) : 0 ≤ (xs.map fun x => f x ^ 2).sum := by
  refine List.sum_nonneg fun y hy => ?_
  obtain ⟨x, -, rfl⟩ := List.mem_map.mp hy
  exact sq_nonneg _

/-- A correlation that can be computed is a proper one. -/
theorem pearsonCorrelation_bounds {a b : List ℚ} {c : Correlation}
    (h : pearsonCorrelation a b = some c) :
    0 < c.varA ∧ 0 < c.varB ∧ c.cov ^ 2 ≤ c.varA * c.varB := by
  unfold pearsonCorrelation at h
  dsimp only at h
  split at h
  · cases h
  split at h
  · cases h
  next _ hvar =>
    cases h
    rw [not_or] at hvar
    refine ⟨lt_of_le_of_ne (sum_sq_nonneg _ _) (Ne.symm hvar.1),
      lt_of_le_of_ne (sum_sq_nonneg _ _) (Ne.symm hvar.2), ?_⟩
    -- The tails have the length of the shorter list.
    refine sq_sum_zip_le ?_ _ _
    rw [List.length_drop, List.length_drop]
    omega

theorem Correlation.abs_value_le {c : Correlation} (h : c.cov ^ 2 ≤ c.varA * c.varB)
    (hA : 0 < c.varA) (hB : 0 < c.varB) : |c.value| ≤ 1 := by
  have hpos : (0 : ℝ) < ((c.varA * c.varB : ℚ) : ℝ) := by exact_mod_cast mul_pos hA hB
  have hsq : (c.cov : ℝ) ^ 2 ≤ ((c.varA * c.varB : ℚ) : ℝ) := by exact_mod_cast h
  rw [value, abs_div, abs_of_pos (Real.sqrt_pos.mpr hpos), div_le_one (Real.sqrt_pos.mpr hpos)]
  exact Real.abs_le_sqrt hsq

/-- The products of a zip do not depend on which list is the first. -/
theorem sum_zip_swap (a b : List ℚ) (f g : ℚ → ℚ) :
    ((b.zip a).map fun p => g p.1 * f p.2).sum = ((a.zip b).map fun p => f p.1 * g p.2).sum := by
  rw [← List.zip_swap a b, List.map_map]
  exact congrArg List.sum (List.map_congr_left fun p _ => mul_comm _ _)

/-- The other way round, the variances change places. -/
theorem pearsonCorrelation_swap (a b : List ℚ) :
    pearsonCorrelation b a = (pearsonCorrelation a b).map fun c => ⟨c.cov, c.varB, c.varA⟩ := by
  unfold pearsonCorrelation
  simp only [min_comm b.length a.length]
  split
  · rfl
  · generalize a.drop (a.length - min a.length b.length) = xs
    generalize b.drop (b.length - min a.length b.length) = ys
    generalize xs.sum / _ = meanX
    generalize ys.sum / _ = meanY
    have hcov := sum_zip_swap xs ys (fun x => x - meanX) fun y => y - meanY
    rw [hcov]
    split
    · next hvar => rw [if_pos hvar.symm, Option.map_none]
    · next hvar => rw [if_neg (mt Or.symm hvar), Option.map_some]

/-! ## Layer D: The matrix -/

/-- The number that the correlation of two series is. -/
noncomputable def pairValue (closesA closesB : Closes) : Option ℝ :=
  (pairCorrelation closesA closesB).map Correlation.value

/-- It has no direction. -/
theorem pairValue_comm (closesA closesB : Closes) :
    pairValue closesB closesA = pairValue closesA closesB := by
  have hshared : sharedTimestamps closesB closesA = sharedTimestamps closesA closesB := by
    refine sharedTimestamps_congr fun t => ?_
    unfold sharedCloses
    cases closesA.get? t <;> cases closesB.get? t <;> rfl
  have hswap := @pairedReturns_swap closesA closesB
  simp only [pairValue, pairCorrelation, hshared, hswap]
  split
  · rfl
  · rw [Prod.fst_swap, Prod.snd_swap, pearsonCorrelation_swap, Option.map_map]
    refine congrArg (fun f => Option.map f _) (funext fun c => ?_)
    simp only [Function.comp_apply, Correlation.value, mul_comm]

namespace CorrelationMatrix

variable {matrix : CorrelationMatrix} {a b : Symbol}

theorem entry_comm : matrix.entry a b = matrix.entry b a := by
  rw [entry, entry, Sym2.eq_swap]

/-- A pair of entries sets its own entry, if it has a correlation. -/
theorem entry_addPair (symA symB : Symbol × Closes) :
    (addPair symA matrix symB).entry a b =
      if s(symA.1, symB.1) = s(a, b) then (pairValue symA.2 symB.2).or (matrix.entry a b)
      else matrix.entry a b := by
  unfold addPair pairValue
  cases pairCorrelation symA.2 symB.2 with
  | none => simp
  | some corr =>
    simp only [entry, Dict.get?_set]
    split <;> rfl

/-- A row reads its own symbol against each of the others. -/
theorem entry_row {symbol : Symbol} {closes : Closes} {rest : List (Symbol × Closes)}
    (hnodup : (rest.map Prod.fst).Nodup) :
    (rest.foldl (addPair (symbol, closes)) matrix).entry symbol b =
      ((lookupEntry b rest).bind (pairValue closes)).or (matrix.entry symbol b) := by
  induction rest generalizing matrix with
  | nil => rfl
  | cons symB rest ih =>
    obtain ⟨hfresh, hnodup⟩ := List.nodup_cons.mp hnodup
    rw [List.foldl_cons, ih hnodup, entry_addPair, lookupEntry]
    simp only [Sym2.congr_right]
    by_cases hb : symB.1 = b
    · subst hb
      rw [if_pos rfl, if_pos rfl, lookupEntry_eq_none.mpr hfresh]
      rfl
    · rw [if_neg hb, if_neg hb]

/-- It leaves the pairs of the others alone. -/
theorem entry_row_of_ne {symA : Symbol × Closes} {rest : List (Symbol × Closes)}
    (ha : symA.1 ≠ a) (hb : symA.1 ≠ b) :
    (rest.foldl (addPair symA) matrix).entry a b = matrix.entry a b := by
  induction rest generalizing matrix with
  | nil => rfl
  | cons symB rest ih =>
    rw [List.foldl_cons, ih, entry_addPair, if_neg]
    intro heq
    rcases Sym2.mem_iff.mp (heq ▸ Sym2.mem_mk_left symA.1 symB.1) with h | h
    · exact ha h
    · exact hb h

/-- All rows read each pair of two symbols once. -/
theorem entry_addPairs {entries : List (Symbol × Closes)}
    (hnodup : (entries.map Prod.fst).Nodup) :
    (addPairs entries matrix).entry a b =
      (if a = b then none
        else (lookupEntry a entries).bind fun closesA =>
          (lookupEntry b entries).bind (pairValue closesA)).or (matrix.entry a b) := by
  induction entries generalizing matrix with
  | nil => simp [addPairs, lookupEntry]
  | cons symA rest ih =>
    obtain ⟨symbol, closes⟩ := symA
    obtain ⟨hfresh, hnodup⟩ := List.nodup_cons.mp hnodup
    have hnone : lookupEntry symbol rest = none := lookupEntry_eq_none.mpr hfresh
    rw [addPairs, ih hnodup]
    by_cases ha : symbol = a
    · subst ha
      rw [entry_row hnodup, hnone]
      by_cases hb : symbol = b
      · subst hb
        simp [hnone]
      · simp [lookupEntry, hb]
    · by_cases hb : symbol = b
      · subst hb
        have hcomm : matrix.entry symbol a = matrix.entry a symbol := entry_comm
        rw [entry_comm, entry_row hnodup, hnone, hcomm]
        -- The row has the two the other way round.
        have hrow : pairValue closes = fun closesA => pairValue closesA closes :=
          funext fun closesA => pairValue_comm closesA closes
        rw [hrow]
        simp [lookupEntry, ha, Ne.symm ha]
      · rw [entry_row_of_ne ha hb]
        simp [lookupEntry, ha, hb]

end CorrelationMatrix

section Matrix

variable (closesBySymbol : Dict Symbol Closes) (a b : Symbol)

/-- The entry of two symbols is the correlation of their closes. -/
theorem entry_buildCorrelationMatrix :
    (buildCorrelationMatrix closesBySymbol).entry a b =
      if a = b then none
      else (closesBySymbol.get? a).bind fun closesA =>
        (closesBySymbol.get? b).bind (pairValue closesA) := by
  rw [buildCorrelationMatrix, CorrelationMatrix.entry_addPairs closesBySymbol.nodup]
  exact Option.or_none

/-- What the closes of two symbols have at a timestamp, if both have something. -/
def sharedBetween (t : Timestamp) : Option (ℚ × ℚ) :=
  (closesBySymbol.get? a).bind fun closesA =>
    (closesBySymbol.get? b).bind fun closesB => sharedCloses closesA closesB t

/-- Two symbols have closes each, or nothing that they share. -/
theorem closes_cases :
    (∃ closesA closesB, closesBySymbol.get? a = some closesA ∧ closesBySymbol.get? b = some closesB)
      ∨ (((closesBySymbol.get? a).bind fun closesA =>
          (closesBySymbol.get? b).bind (pairValue closesA)) = none ∧
        ∀ t, sharedBetween closesBySymbol a b t = none) := by
  unfold sharedBetween
  cases closesBySymbol.get? a with
  | none => exact .inr ⟨rfl, fun _ => rfl⟩
  | some closesA =>
    cases closesBySymbol.get? b with
    | none => exact .inr ⟨rfl, fun _ => rfl⟩
    | some closesB => exact .inl ⟨closesA, closesB, rfl, rfl⟩

variable {closesBySymbol a b}

theorem pairValue_of_apart {closesA closesB : Closes}
    (h : ∀ t, sharedCloses closesA closesB t = none) : pairValue closesA closesB = none := by
  rw [pairValue, pairCorrelation_of_apart h, Option.map_none]

/-- An entry depends on what the two symbols share, whatever else the closes have and in whichever
order. -/
theorem entry_congr {closesBySymbol' : Dict Symbol Closes}
    (h : ∀ t, sharedBetween closesBySymbol a b t = sharedBetween closesBySymbol' a b t) :
    (buildCorrelationMatrix closesBySymbol).entry a b =
      (buildCorrelationMatrix closesBySymbol').entry a b := by
  rw [entry_buildCorrelationMatrix, entry_buildCorrelationMatrix]
  refine ite_congr rfl (fun _ => rfl) fun _ => ?_
  -- A symbol without closes is like one whose closes share no time.
  rcases closes_cases closesBySymbol a b with ⟨closesA, closesB, ha, hb⟩ | ⟨hnone, hapart⟩
  · rcases closes_cases closesBySymbol' a b with ⟨closesA', closesB', ha', hb'⟩ | ⟨hnone', hapart'⟩
    · simp only [sharedBetween, ha, hb, ha', hb', Option.bind_some] at h ⊢
      rw [pairValue, pairValue, pairCorrelation_congr h]
    · have hnone : ∀ t, sharedCloses closesA closesB t = none := fun t => by
        simpa only [sharedBetween, ha, hb, Option.bind_some] using (h t).trans (hapart' t)
      rw [hnone', ha, hb]
      exact pairValue_of_apart hnone
  · rcases closes_cases closesBySymbol' a b with ⟨closesA', closesB', ha', hb'⟩ | ⟨hnone', -⟩
    · have hnone' : ∀ t, sharedCloses closesA' closesB' t = none := fun t => by
        simpa only [sharedBetween, ha', hb', Option.bind_some] using (h t).symm.trans (hapart t)
      rw [hnone, ha', hb']
      exact (pairValue_of_apart hnone').symm
    · rw [hnone, hnone']

end Matrix

/-- Every correlation that the loop puts into the matrix is one that was computed. -/
theorem mem_addPairs {entries : List (Symbol × Closes)} {matrix : CorrelationMatrix}
    {key : Sym2 Symbol} {c : Correlation} (h : (addPairs entries matrix).get? key = some c) :
    matrix.get? key = some c ∨ ∃ closesA closesB, pairCorrelation closesA closesB = some c := by
  induction entries generalizing matrix with
  | nil => exact .inl h
  | cons symA rest ih =>
    -- The induction is on the symbols, and inside it on those behind each.
    refine (ih h).elim (fun hrow => ?_) .inr
    clear ih h
    induction rest generalizing matrix with
    | nil => exact .inl hrow
    | cons symB rest ih =>
      refine (ih hrow).elim (fun hpair => ?_) .inr
      unfold addPair at hpair
      split at hpair
      · exact .inl hpair
      · next corr hcorr =>
        rw [Dict.get?_set] at hpair
        split at hpair
        · cases hpair
          exact .inr ⟨_, _, hcorr⟩
        · exact .inl hpair

/-- Every entry is aligned, and is a proper correlation: it depends on no closes but those at the
timestamps that both symbols have. The returns of a pair go through the same intervals. And a
quotient is formed only where it lies within one. -/
theorem correlation_aligned (closesBySymbol : Dict Symbol Closes) (a b : Symbol) :
    (∀ closesBySymbol' : Dict Symbol Closes,
      (∀ t, sharedBetween closesBySymbol a b t = sharedBetween closesBySymbol' a b t) →
        (buildCorrelationMatrix closesBySymbol).entry a b =
          (buildCorrelationMatrix closesBySymbol').entry a b) ∧
      (∀ closesA closesB,
        let shared := sharedTimestamps closesA closesB
        let returns := pairedReturns closesA closesB shared
        let spans := intervals closesA closesB shared
        (∀ t, t ∈ shared ↔ (sharedCloses closesA closesB t).isSome) ∧
          returns.1.length = returns.2.length ∧
          returns.1 = spans.map closesA.returnOver ∧ returns.2 = spans.map closesB.returnOver) ∧
      ∀ c, (buildCorrelationMatrix closesBySymbol).get? s(a, b) = some c →
        0 < c.varA ∧ 0 < c.varB ∧ c.cov ^ 2 ≤ c.varA * c.varB ∧ |c.value| ≤ 1 := by
  refine ⟨fun _ h => entry_congr h, fun closesA closesB => ?_, fun c hc => ?_⟩
  · -- Both lists of returns go through the intervals of the shared timestamps.
    intro shared returns spans
    have hreturns : returns = (spans.map closesA.returnOver, spans.map closesB.returnOver) :=
      pairedReturns_eq closesA closesB shared
    refine ⟨fun t => mem_sharedTimestamps, ?_, congrArg Prod.fst hreturns,
      congrArg Prod.snd hreturns⟩
    rw [hreturns, List.length_map, List.length_map]
  · -- An entry of the matrix is the correlation of some two series, whose bounds are known.
    rcases mem_addPairs hc with hempty | ⟨closesA, closesB, hcorr⟩
    · cases hempty
    · simp only [pairCorrelation] at hcorr
      split at hcorr
      · cases hcorr
      · obtain ⟨hA, hB, hcov⟩ := pearsonCorrelation_bounds hcorr
        exact ⟨hA, hB, hcov, Correlation.abs_value_le hcov hA hB⟩

/-- A bar that only one symbol printed, and a third symbol, leave the entry as it was. -/
theorem correlation_aligned_with_gap :
    let a : Closes := ((Dict.empty.set 0 100).set 1 110).set 2 99
    let b : Closes := ((Dict.empty.set 0 50).set 1 52).set 2 53
    let closesBySymbol : Dict Symbol Closes := (Dict.empty.set "A" a).set "B" b
    let closesBySymbol' := (closesBySymbol.set "A" (a.set 3 120)).set "C" b
    (buildCorrelationMatrix closesBySymbol).entry "A" "B" =
      (buildCorrelationMatrix closesBySymbol').entry "A" "B" := by
  intro a b closesBySymbol closesBySymbol'
  refine (correlation_aligned closesBySymbol "A" "B").1 closesBySymbol' fun t => ?_
  have hb : b.get? 3 = none := by decide
  by_cases ht : 3 = t
  · subst ht
    simp [sharedBetween, closesBySymbol, closesBySymbol', Dict.get?_set, sharedCloses, hb]
  · simp [sharedBetween, closesBySymbol, closesBySymbol', Dict.get?_set, sharedCloses, ht]

end SuperTrading
