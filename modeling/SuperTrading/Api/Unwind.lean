import SuperTrading.Api.LegFills
import SuperTrading.Api.ReducingExemption

/-!
# Giving Back a Batch

What `_remediate_partial_batch` leaves of the positions, for every batch over pairwise
distinct symbols and with new keys. It measures what each leg opened from the holding
before and after it, and gives that back with an opposing order: the holding is then
what it was, or smaller on the same side. A batch of which no leg is filled completely
is not unwound at all, so whatever its partial fills opened stays.

- **Exposure**: what `openedQuantity` says of a fill
- **Unwinding**: the orders that give it back
- **Batches**: the exact condition
-/

namespace SuperTrading

open SuperTrading.Logic

/-! ## Section 1: Exposure -/

/-- A holding given back: no larger than before and not on the other side; and just as
before, if the leg did not oppose it. -/
def Restored (held after : ℚ) (direction : Direction) : Prop :=
  Shrinks held after ∧ (0 ≤ held * direction.signed 1 → after = held)

/-- A fill that leaves nothing to give back: none at all, or one that only reduces. -/
def Reduces (held filled : ℚ) (direction : Direction) : Prop :=
  filled = 0 ∨ held * direction.signed 1 < 0 ∧ filled ≤ |held|

/-- Exposure is the same on both sides of the market. -/
theorem openedQuantity_signed (d : Direction) (x y : ℚ) :
    openedQuantity (d.signed x) (d.signed y) = openedQuantity x y := by
  cases d with
  | long => rfl
  | short =>
    unfold openedQuantity
    rcases lt_trichotomy x 0 with hx | rfl | hx <;> rcases lt_trichotomy y 0 with hy | rfl | hy <;>
      grind [Direction.signed]

theorem shrinks_signed (d : Direction) (x y : ℚ) :
    Shrinks (d.signed x) (d.signed y) ↔ Shrinks x y := by
  cases d <;> simp [Shrinks]

/-- A fill on its own side opens what it adds beyond flat. -/
theorem openedQuantity_add {x f : ℚ} (hf : 0 ≤ f) :
    openedQuantity x (x + f) = max (x + f) 0 - max x 0 := by
  unfold openedQuantity
  rcases lt_trichotomy x 0 with hx | rfl | hx
  · -- A short that is bought back, in part, in full, or beyond flat.
    rcases lt_trichotomy (x + f) 0 with hy | hy | hy <;> grind
  · grind
  · grind

/-- The same on the leg's side of the market. -/
theorem restored_signed (d : Direction) (x y : ℚ) :
    Restored (d.signed x) (d.signed y) d ↔ Shrinks x y ∧ (0 ≤ x → y = x) := by
  unfold Restored
  rw [shrinks_signed]
  cases d <;> simp

/-- Unwinding what a fill opened restores the holding. -/
theorem restored_unwound {q f : ℚ} (hf : 0 ≤ f) (d : Direction) :
    Restored q (q + d.signed f - d.signed (openedQuantity q (q + d.signed f))) d := by
  obtain ⟨x, rfl⟩ : ∃ x, q = d.signed x := ⟨d.signed q, by simp⟩
  have hafter : d.signed x + d.signed f - d.signed (openedQuantity (d.signed x)
      (d.signed x + d.signed f)) = d.signed (min (x + f) 0 + max x 0) := by
    rw [← Direction.signed_add, openedQuantity_signed, openedQuantity_add hf]
    cases d <;> grind [Direction.signed]
  rw [hafter, restored_signed]
  rcases le_or_gt 0 x with hx | hx
  · -- Nothing was opposed: exactly what the fill added is given back.
    have hsame : min (x + f) 0 + max x 0 = x := by
      rw [min_eq_right (by linarith), max_eq_left hx, zero_add]
    rw [hsame]
    exact ⟨.refl x, fun _ => rfl⟩
  · -- A short that the fill reduced, or flipped and was then closed.
    rw [max_eq_right hx.le, add_zero]
    refine ⟨⟨?_, mul_nonneg_of_nonpos_of_nonpos hx.le (min_le_right _ _)⟩, fun h => by linarith⟩
    rw [abs_of_nonpos (min_le_right _ _), abs_of_neg hx]
    have hle : x ≤ min (x + f) 0 := le_min (by linarith) hx.le
    linarith

/-- A fill restores the holding by itself exactly if it only reduces. -/
theorem restored_iff_reduces {q f : ℚ} (hf : 0 ≤ f) (d : Direction) :
    Restored q (q + d.signed f) d ↔ Reduces q f d := by
  obtain ⟨x, rfl⟩ : ∃ x, q = d.signed x := ⟨d.signed q, by simp⟩
  have hside : d.signed x * d.signed 1 = x := by cases d <;> simp
  unfold Reduces
  rw [← Direction.signed_add, restored_signed, hside, Direction.abs_signed]
  constructor
  · rintro ⟨hshrinks, hsame⟩
    rcases le_or_gt 0 x with hx | hx
    · exact Or.inl (by linarith [hsame hx])
    · refine Or.inr ⟨hx, ?_⟩
      rw [abs_of_neg hx]
      by_contra hcon
      exact absurd hshrinks.2 (not_le.mpr (mul_neg_of_neg_of_pos hx (by linarith)))
  · rintro (rfl | ⟨hx, hle⟩)
    · rw [add_zero]
      exact ⟨.refl x, fun _ => rfl⟩
    · refine ⟨shrinks_add (mul_nonpos_of_nonpos_of_nonneg hx.le hf) ?_, fun h => by linarith⟩
      rwa [abs_of_nonneg hf]

theorem openedQuantity_nonneg {q f : ℚ} (hf : 0 ≤ f) (d : Direction) :
    0 ≤ openedQuantity q (q + d.signed f) := by
  obtain ⟨x, rfl⟩ : ∃ x, q = d.signed x := ⟨d.signed q, by simp⟩
  rw [← Direction.signed_add, openedQuantity_signed, openedQuantity_add hf, sub_nonneg]
  exact max_le_max_right 0 (by linarith)

/-- What a fill opened is held after it. -/
theorem openedQuantity_le_abs {q f : ℚ} (hf : 0 ≤ f) (d : Direction) :
    openedQuantity q (q + d.signed f) ≤ |q + d.signed f| := by
  obtain ⟨x, rfl⟩ : ∃ x, q = d.signed x := ⟨d.signed q, by simp⟩
  rw [← Direction.signed_add, openedQuantity_signed, openedQuantity_add hf, Direction.abs_signed]
  exact (sub_le_self _ (le_max_right _ _)).trans (max_le (le_abs_self _) (abs_nonneg _))

/-! ## Section 2: Unwinding -/

variable {β : Type} [Broker β]

namespace World

/-- The quantity of an unwind order. -/
def closable (w : World β) (leg : OpenedLeg) : ℚ := min leg.quantity |w.stack.holding leg.symbol|

/-- The broker's answer to the order that unwinds a leg. -/
def unwindAnswer (w : World β) (now : Instant) (batchId : String) (leg : OpenedLeg) : OrderResult :=
  w.stack.legAnswer now (unwindKey w.stack.userId batchId leg.symbol) leg.symbol
    leg.direction.opposite leg.premium (w.closable leg)

/-- The world after the order that unwinds a leg. -/
def afterUnwind (w : World β) (now : Instant) (batchId : String) (leg : OpenedLeg) : World β :=
  match w.submitLeg now leg.symbol leg.direction.opposite leg.premium (w.closable leg)
    (unwindKey w.stack.userId batchId leg.symbol)
    s!"unwinding partially executed options batch {batchId}" with
  | .ok (_, _, w) => w
  | .error _ => w

/-- The unwind orders all fill, for exactly what they ask. -/
def UnwindsFill (now : Instant) (batchId : String) : World β → List OpenedLeg → Prop
  | _, [] => True
  | w, leg :: legs =>
    if w.closable leg ≤ 0 then UnwindsFill now batchId w legs
    else (w.unwindAnswer now batchId leg).filled = w.closable leg ∧
      UnwindsFill now batchId (w.afterUnwind now batchId leg) legs

/-- Unwind orders that all fill take every opened quantity back. -/
theorem unwindLegs_restores {now : Instant} {batchId : String} (legs : List OpenedLeg)
    {w : World β} (hsymbols : (legs.map OpenedLeg.symbol).Nodup)
    (hkeys : ∀ leg ∈ legs,
      w.stack.orderManager.lookup (unwindKey w.stack.userId batchId leg.symbol) = none)
    (hopen : ∀ leg ∈ legs, 0 < leg.quantity ∧ leg.quantity ≤ |w.stack.holding leg.symbol|)
    (hfill : UnwindsFill now batchId w legs) :
    ∃ lines w', unwindLegs now batchId w legs = .ok (lines, w') ∧
      (∀ j, (∀ leg ∈ legs, leg.symbol ≠ j) → w'.stack.holding j = w.stack.holding j) ∧
      ∀ leg ∈ legs, w'.stack.holding leg.symbol =
        w.stack.holding leg.symbol - leg.direction.signed leg.quantity := by
  induction legs generalizing w with
  | nil => exact ⟨[], w, rfl, fun _ _ => rfl, by simp⟩
  | cons leg legs ih =>
    obtain ⟨hhead, htail⟩ := List.nodup_cons.mp hsymbols
    -- Each symbol occurs in one leg, so a leg's unwind leaves the others to do.
    have hother : ∀ leg' ∈ legs, leg.symbol ≠ leg'.symbol := by
      intro leg' hmem heq
      exact hhead (List.mem_map.mpr ⟨leg', hmem, heq.symm⟩)
    obtain ⟨hpos, hle⟩ := hopen leg List.mem_cons_self
    have hclosable : w.closable leg = leg.quantity := min_eq_left hle
    have hopenLeg : ¬ w.closable leg ≤ 0 := by
      rw [hclosable]
      exact not_le.mpr hpos
    simp only [UnwindsFill, if_neg hopenLeg] at hfill
    obtain ⟨hfilled, hrest⟩ := hfill
    -- The order of the first leg fills in full and gives its quantity back.
    obtain ⟨order, w₁, hleg, -, hfills⟩ := submitLeg_new (hkeys leg List.mem_cons_self) now
      leg.symbol leg.direction.opposite leg.premium (w.closable leg)
      s!"unwinding partially executed options batch {batchId}"
    have hafter : w.afterUnwind now batchId leg = w₁ := by simp only [afterUnwind, hleg]
    have hback : w₁.stack.holding leg.symbol =
        w.stack.holding leg.symbol - leg.direction.signed leg.quantity := by
      have hanswer : (w.unwindAnswer now batchId leg).filled = leg.quantity :=
        hfilled.trans hclosable
      rw [hfills.holding, if_pos rfl, Direction.signed_opposite, sub_eq_add_neg]
      exact congrArg (fun q => w.stack.holding leg.symbol + -leg.direction.signed q) hanswer
    -- The other symbols stay as they are.
    have hstill : ∀ j, leg.symbol ≠ j → w₁.stack.holding j = w.stack.holding j := by
      intro j hj
      rw [hfills.holding, if_neg hj, add_zero]
    rw [hafter] at hrest
    -- The legs that follow still have new keys and their whole quantity open.
    obtain ⟨lines, w₂, hlegs, helsewhere, hgiven⟩ := ih htail
      (fun leg' hmem => by
        have hne : unwindKey w.stack.userId batchId leg.symbol ≠
            unwindKey w.stack.userId batchId leg'.symbol :=
          fun heq => hother leg' hmem (unwindKey_injective _ _ heq)
        rw [hfills.user, hfills.orders, if_neg hne]
        exact hkeys leg' (List.mem_cons_of_mem _ hmem))
      (fun leg' hmem => by
        rw [hstill _ (hother leg' hmem)]
        exact hopen leg' (List.mem_cons_of_mem _ hmem)) hrest
    -- The line tells how the first order ended, and the run goes on.
    have hrun : unwindLegs now batchId w (leg :: legs) = .ok ((if order.status.isEstablished then
          s!"{leg.symbol}: unwound {formatFloat (w.closable leg)} of newly opened exposure."
        else
          s!"{leg.symbol}: unwind order came back {order.status.value} "
            ++ s!"({textOr order.rejectionReason noReason}) -- exposure is still open.") :: lines,
          w₂) := by
      unfold closable at hopenLeg hleg
      simp only [unwindLegs, if_neg hopenLeg, hleg, hlegs, bind, Except.bind, pure, Except.pure]
      rfl
    refine ⟨_, w₂, hrun, ?_, ?_⟩
    · intro j hj
      rw [helsewhere j fun leg' hmem => hj leg' (List.mem_cons_of_mem _ hmem),
        hstill j (hj leg List.mem_cons_self)]
    · intro leg' hmem
      rcases List.mem_cons.mp hmem with rfl | hmem
      · rw [helsewhere _ fun leg'' hmem' => (hother leg'' hmem').symm, hback]
      · rw [hgiven leg' hmem, hstill _ (hother leg' hmem)]

/-! ## Section 3: Batches -/

/-- A batch over pairwise distinct symbols, of which no key was seen before. -/
structure FreshBatch (w : World β) (r : ExecuteOptionsStrategyRequest) : Prop where
  symbols : (r.legs.map ExecuteOptionLeg.symbol).Nodup
  legKeys : ∀ leg ∈ r.legs, w.stack.orderManager.lookup
    (legKey w.stack.userId (batchIdOf w.stack.userId r) leg.symbol) = none
  unwindKeys : ∀ leg ∈ r.legs, w.stack.orderManager.lookup
    (unwindKey w.stack.userId (batchIdOf w.stack.userId r) leg.symbol) = none

/-- The exposure that the remediation of an incomplete batch without unanswered legs
gives back. -/
def givenBack (results : List LegExecutionResult) (opened : List OpenedLeg) : List OpenedLeg :=
  if results.any fun result => result.status.isEstablished then opened else []

/-- The legs of an approved batch, submitted. -/
def executedLegs (w : World β) (env : OptionsEnv) (r : ExecuteOptionsStrategyRequest)
    (approved : Stack.ApprovedStrategy) :
    Except String (List LegExecutionResult × List OpenedLeg × World β) :=
  let s := w.stack.rollRiskWindow env.now
  submitLegs env.now (batchIdOf s.userId r) (s.reduces approved.legs) { w with stack := s }
    approved.legs

/-- The unwind orders of the batch all fill completely. -/
def UnwindsComplete (w : World β) (env : OptionsEnv) (r : ExecuteOptionsStrategyRequest) : Prop :=
  ∀ approved results opened w₁, (w.stack.optionsGate env r).1 = .ok approved →
    w.executedLegs env r approved = .ok (results, opened, w₁) →
    UnwindsFill env.now (batchIdOf w.stack.userId r) w₁ (givenBack results opened)

/-- The batch, if it ends incomplete, answered, and with its unwind orders filled,
leaves every leg's holding restored. -/
def GivesBack (w : World β) (env : OptionsEnv) (r : ExecuteOptionsStrategyRequest) : Prop :=
  w.FreshBatch r → ∀ response, (w.executeOptionsStrategy env r).answer = .ok response →
    ¬ Intact (response.legs.map LegExecutionResult.status) →
    (∀ leg ∈ response.legs, leg.status ≠ .failed) → w.UnwindsComplete env r →
    ∀ leg ∈ r.legs, Restored (w.stack.holding leg.symbol)
      ((w.executeOptionsStrategy env r).world.stack.holding leg.symbol) leg.direction

/-- What the broker answers to the legs, should the gate approve them. -/
def batchSubmissions (w : World β) (env : OptionsEnv) (r : ExecuteOptionsStrategyRequest)
    (approved : Stack.ApprovedStrategy) : List LegSubmission :=
  let s := w.stack.rollRiskWindow env.now
  submissions env.now (batchIdOf s.userId r) (s.reduces approved.legs) { w with stack := s }
    approved.legs

/-- Some leg is filled completely, or no leg is filled beyond the position it opposes. -/
def StrandsNothing (w : World β) (env : OptionsEnv) (r : ExecuteOptionsStrategyRequest) : Prop :=
  w.FreshBatch r → ∀ approved, (w.stack.optionsGate env r).1 = .ok approved →
    .failed ∉ w.batchEnds env r approved →
    (∃ e ∈ w.batchEnds env r approved, e.isEstablished = true) ∨
      ∀ x ∈ w.batchSubmissions env r approved,
        Reduces (w.stack.holding x.leg.symbol) x.filled x.leg.direction

theorem LegSubmission.filled_nonneg (x : LegSubmission) : 0 ≤ x.filled := by
  unfold filled
  cases x.answer with
  | none => exact le_refl 0
  | some result => exact result.filled_nonneg

omit [Broker β] in
/-- The opened legs are legs of the batch, in order. -/
theorem openedLegs_sublist (s : Stack β) (xs : List LegSubmission) :
    ((xs.filterMap (openedLeg s)).map OpenedLeg.symbol).Sublist
      (xs.map fun x => x.leg.symbol) := by
  induction xs with
  | nil => exact List.Sublist.refl _
  | cons x xs ih =>
    rw [List.filterMap_cons, List.map_cons]
    cases h : openedLeg s x with
    | none => exact ih.cons _
    | some leg =>
      have hsymbol : leg.symbol = x.leg.symbol := by
        unfold openedLeg at h
        dsimp only at h
        split at h
        · cases h
          rfl
        · cases h
      rw [List.map_cons, hsymbol]
      exact ih.cons_cons _

/-- The remediation of an incomplete batch without unanswered legs ends where the
unwinding ends. -/
theorem remediatePartialBatch_unwinds {w₁ w₂ : World β} {now : Instant}
    {batchId strategyName : String} {results : List LegExecutionResult} {opened : List OpenedLeg}
    {lines : List String} (hincomplete : ¬ Intact (results.map LegExecutionResult.status))
    (hanswered : ∀ result ∈ results, result.status ≠ .failed)
    (hunwind : unwindLegs now batchId w₁ (givenBack results opened) = .ok (lines, w₂)) :
    ∃ lines' halted, w₁.remediatePartialBatch now batchId strategyName results opened =
      .ok (false, lines', halted, w₂) := by
  have hunknown : results.filter (fun result => decide (result.status = .failed)) = [] := by
    rw [List.filter_eq_nil_iff]
    exact fun result hmem hf => hanswered result hmem (of_decide_eq_true hf)
  have hall : ¬ (results.filter fun result => result.status.isEstablished).length =
      results.length := by
    rw [List.length_filter_eq_length_iff]
    intro hall
    apply hincomplete
    intro e he
    obtain ⟨result, hmem, rfl⟩ := List.mem_map.mp he
    exact hall result hmem
  have hany : results.any (fun result => result.status.isEstablished) = true ↔
      ¬ (results.filter fun result => result.status.isEstablished) = [] := by
    simp [List.filter_eq_nil_iff]
  unfold remediatePartialBatch
  simp only [hunknown, hall, and_false, and_true, if_false]
  by_cases hsome : results.any (fun result => result.status.isEstablished) = true
  · -- Some leg is established, so what the legs opened is unwound.
    rw [givenBack, if_pos hsome] at hunwind
    simp only [hany.mp hsome, if_false, hunwind, bind, Except.bind, pure, Except.pure]
    split
    · rename_i hne
      exact absurd rfl hne
    · split <;> exact ⟨_, _, rfl⟩
  · have hnone := not_not.mp (mt hany.mpr hsome)
    rw [givenBack, if_neg hsome] at hunwind
    cases hunwind
    simp only [hnone, if_true]
    exact ⟨_, _, rfl⟩

/-- The legs of an approved fresh batch: what they leave, and what opened. -/
theorem executedLegs_fresh {w : World β} {env : OptionsEnv} {r : ExecuteOptionsStrategyRequest}
    {approved : Stack.ApprovedStrategy} (hfresh : w.FreshBatch r)
    (hlegs : r.legs.mapM (resolveLeg env) = .ok approved.legs) :
    ∃ results opened w₁, w.executedLegs env r approved = .ok (results, opened, w₁) ∧
      BatchEffect { w with stack := w.stack.rollRiskWindow env.now } w₁
        (batchIdOf w.stack.userId r) approved.legs (w.batchSubmissions env r approved) results
        opened ∧
      results.map LegExecutionResult.status = w.batchEnds env r approved := by
  have hrequest := resolveLegs_eq hlegs
  have hmem : ∀ leg ∈ approved.legs, leg.toExecuteOptionLeg ∈ r.legs := by
    intro leg hleg
    rw [← hrequest]
    exact List.mem_map_of_mem hleg
  -- Distinct symbols make distinct keys, so that every leg is a new order.
  have hsymbols : (approved.legs.map fun leg => leg.symbol).Nodup := by
    have hnodup := hfresh.symbols
    rw [← hrequest, List.map_map] at hnodup
    exact hnodup
  obtain ⟨results, opened, w₁, hrun, heffect⟩ : ∃ results opened w₁,
      w.executedLegs env r approved = .ok (results, opened, w₁) ∧
      BatchEffect { w with stack := w.stack.rollRiskWindow env.now } w₁
        (batchIdOf w.stack.userId r) approved.legs (w.batchSubmissions env r approved) results
        opened :=
    submitLegs_new approved.legs hsymbols fun leg hleg => hfresh.legKeys _ (hmem leg hleg)
  refine ⟨results, opened, w₁, hrun, heffect, ?_⟩
  obtain ⟨results', opened', w₁', hrun', hmap⟩ := submitLegs_ok env.now
    (batchIdOf w.stack.userId r) ((w.stack.rollRiskWindow env.now).reduces approved.legs)
    approved.legs { w with stack := w.stack.rollRiskWindow env.now }
  cases hrun.symm.trans hrun'
  exact hmap

/-- What the unwinding leaves of the holding of each leg. -/
theorem unwindLegs_fresh {w w₁ : World β} {env : OptionsEnv} {r : ExecuteOptionsStrategyRequest}
    {legs : List ResolvedLeg} {xs : List LegSubmission} {results : List LegExecutionResult}
    {opened : List OpenedLeg} (hfresh : w.FreshBatch r)
    (hrequest : legs.map ResolvedLeg.toExecuteOptionLeg = r.legs)
    (hxs : xs.map LegSubmission.leg = legs)
    (heffect : BatchEffect { w with stack := w.stack.rollRiskWindow env.now } w₁
      (batchIdOf w.stack.userId r) legs xs results opened)
    (hfill : UnwindsFill env.now (batchIdOf w.stack.userId r) w₁ opened) :
    ∃ lines w₂, unwindLegs env.now (batchIdOf w.stack.userId r) w₁ opened = .ok (lines, w₂) ∧
      ∀ x ∈ xs, Restored (w.stack.holding x.leg.symbol) (w₂.stack.holding x.leg.symbol)
        x.leg.direction := by
  have hsymbols : (xs.map fun x => x.leg.symbol).Nodup := by
    have hnodup := hfresh.symbols
    rw [← hrequest, ← hxs, List.map_map, List.map_map] at hnodup
    exact hnodup
  have hopened : ∀ leg ∈ opened, ∃ x ∈ xs, openedLeg w.stack x = some leg := by
    intro leg hmem
    rw [heffect.opened] at hmem
    exact List.mem_filterMap.mp hmem
  have hof : ∀ x leg, openedLeg w.stack x = some leg →
      0 < x.opens (w.stack.holding x.leg.symbol) ∧
        leg = ⟨x.leg.symbol, x.leg.direction, x.opens (w.stack.holding x.leg.symbol),
          x.leg.premium⟩ := by
    intro x leg h
    unfold openedLeg at h
    dsimp only at h
    split at h
    · rename_i hpos
      cases h
      exact ⟨hpos, rfl⟩
    · cases h
  have hnodup : (opened.map OpenedLeg.symbol).Nodup := by
    rw [heffect.opened]
    exact hsymbols.sublist (openedLegs_sublist _ xs)
  obtain ⟨lines, w₂, hunwind, helsewhere, hgiven⟩ := unwindLegs_restores opened hnodup
    (by
      intro leg hmem
      obtain ⟨x, hx, hleg⟩ := hopened leg hmem
      obtain ⟨-, rfl⟩ := hof x leg hleg
      have hne : ∀ leg' ∈ legs, unwindKey w.stack.userId (batchIdOf w.stack.userId r)
          x.leg.symbol ≠ legKey w.stack.userId (batchIdOf w.stack.userId r) leg'.symbol :=
        fun leg' _ => unwindKey_ne_legKey _ _ _ _ _
      rw [heffect.user]
      refine (heffect.orders _ hne).trans (hfresh.unwindKeys x.leg.toExecuteOptionLeg ?_)
      rw [← hrequest, ← hxs]
      exact List.mem_map_of_mem (List.mem_map_of_mem hx))
    (by
      intro leg hmem
      obtain ⟨x, hx, hleg⟩ := hopened leg hmem
      obtain ⟨hpos, rfl⟩ := hof x leg hleg
      refine ⟨hpos, ?_⟩
      rw [heffect.holding x hx]
      exact openedQuantity_le_abs x.filled_nonneg _)
    hfill
  refine ⟨lines, w₂, hunwind, fun x hx => ?_⟩
  have hrestored := restored_unwound (q := w.stack.holding x.leg.symbol) x.filled_nonneg
    x.leg.direction
  cases hleg : openedLeg w.stack x with
  | some leg =>
    -- What this leg opened was handed to the unwinding, and is gone.
    have hmem : leg ∈ opened := by
      rw [heffect.opened]
      exact List.mem_filterMap.mpr ⟨x, hx, hleg⟩
    obtain ⟨-, rfl⟩ := hof x leg hleg
    rw [hgiven _ hmem, heffect.holding x hx]
    exact hrestored
  | none =>
    -- The leg opened nothing, and the unwinding of the others does not touch it.
    have hzero : openedQuantity (w.stack.holding x.leg.symbol)
        (w.stack.holding x.leg.symbol + x.leg.direction.signed x.filled) = 0 := by
      refine le_antisymm (not_lt.mp fun hpos => ?_) (openedQuantity_nonneg x.filled_nonneg _)
      have hsome : 0 < x.opens (w.stack.holding x.leg.symbol) := hpos
      simp [openedLeg, hsome] at hleg
    have hother : ∀ leg ∈ opened, leg.symbol ≠ x.leg.symbol := by
      intro leg hmem heq
      obtain ⟨x', hx', hleg'⟩ := hopened leg hmem
      obtain ⟨-, rfl⟩ := hof x' leg hleg'
      obtain rfl : x' = x := List.inj_on_of_nodup_map hsymbols hx' hx heq
      rw [hleg] at hleg'
      cases hleg'
    have hflat : x.leg.direction.signed 0 = 0 := by cases x.leg.direction <;> simp
    rw [hzero, hflat, sub_zero] at hrestored
    rw [helsewhere _ hother, heffect.holding x hx]
    exact hrestored

/-- An incomplete, answered batch ends where its unwinding ends. -/
theorem executeOptionsStrategy_unwinds {w w₁ w₂ : World β} {env : OptionsEnv}
    {r : ExecuteOptionsStrategyRequest} {approved : Stack.ApprovedStrategy}
    {decision : Option RiskDecisionResult} {results : List LegExecutionResult}
    {opened : List OpenedLeg} {lines : List String}
    (hgate : w.stack.optionsGate env r = (.ok approved, w.stack.rollRiskWindow env.now, decision))
    (hrun : w.executedLegs env r approved = .ok (results, opened, w₁))
    (hincomplete : ¬ Intact (results.map LegExecutionResult.status))
    (hanswered : ∀ result ∈ results, result.status ≠ .failed)
    (hunwind : unwindLegs env.now (batchIdOf w.stack.userId r) w₁ (givenBack results opened) =
      .ok (lines, w₂)) :
    ∃ response, (w.executeOptionsStrategy env r).answer = .ok response ∧
      response.legs = results ∧ (w.executeOptionsStrategy env r).world = w₂ := by
  obtain ⟨lines', halted, hremediate⟩ : ∃ lines' halted, w₁.remediatePartialBatch env.now
      (batchIdOf w.stack.userId r) r.strategyName results opened =
        .ok (false, lines', halted, w₂) :=
    remediatePartialBatch_unwinds hincomplete hanswered hunwind
  rw [executeOptionsStrategy_eq hgate hrun hremediate]
  exact ⟨_, rfl, rfl, rfl⟩

/-- Where no leg is established there are no unwind orders. -/
theorem unwindsComplete_of_unestablished {w : World β} {env : OptionsEnv}
    {r : ExecuteOptionsStrategyRequest} {response : ExecuteOptionsStrategyResponse}
    (hanswer : (w.executeOptionsStrategy env r).answer = .ok response)
    (hnone : ∀ leg ∈ response.legs, leg.status.isEstablished = false) :
    w.UnwindsComplete env r := by
  intro approved results opened w₁ happroved hrun
  -- The answer lists the statuses that the legs ended with.
  have hresults : ∀ result ∈ results, result.status.isEstablished = false := by
    rcases w.stack.optionsGate_cases env r with ⟨refusal, s', decision, hgate, -, -⟩ |
      ⟨approved', decision, hgate, -, -, -⟩
    · rw [hgate] at happroved
      cases happroved
    obtain rfl : approved' = approved := by simpa [hgate] using happroved
    obtain ⟨response', hanswer', hstatuses, -⟩ := executeOptionsStrategy_ok hgate
    obtain rfl : response' = response := by simpa [hanswer'] using hanswer
    obtain ⟨results', opened', w₁', hrun', hends⟩ := submitLegs_ok env.now
      (batchIdOf w.stack.userId r) ((w.stack.rollRiskWindow env.now).reduces approved'.legs)
      approved'.legs { w with stack := w.stack.rollRiskWindow env.now }
    cases hrun.symm.trans hrun'
    intro result hmem
    have hstatus : result.status ∈ response'.legs.map LegExecutionResult.status := by
      have hmem' := List.mem_map_of_mem (f := LegExecutionResult.status) hmem
      rw [hends] at hmem'
      rw [hstatuses]
      exact hmem'
    obtain ⟨leg, hleg, heq⟩ := List.mem_map.mp hstatus
    rw [← heq]
    exact hnone leg hleg
  have hany : ¬ results.any (fun result => result.status.isEstablished) = true := by
    intro hany
    obtain ⟨result, hmem, hestablished⟩ := List.any_eq_true.mp hany
    rw [hresults result hmem] at hestablished
    cases hestablished
  rw [givenBack, if_neg hany]
  trivial

section Approved

variable {w : World β} {env : OptionsEnv} {r : ExecuteOptionsStrategyRequest}
  {approved : Stack.ApprovedStrategy} {decision : Option RiskDecisionResult}

/-- The legs of a request are those that are submitted. -/
theorem mem_legs_iff (hlegs : r.legs.mapM (resolveLeg env) = .ok approved.legs)
    {leg : ExecuteOptionLeg} :
    leg ∈ r.legs ↔
      ∃ x ∈ w.batchSubmissions env r approved, x.leg.toExecuteOptionLeg = leg := by
  have hxs : (w.batchSubmissions env r approved).map LegSubmission.leg = approved.legs :=
    submissions_legs ..
  rw [← resolveLegs_eq hlegs, ← hxs, List.map_map, List.mem_map]
  rfl

/-- Where no leg is filled completely the fills stand, so each must have opened nothing. -/
theorem strandsNothing_of_givesBack
    (hgate : w.stack.optionsGate env r = (.ok approved, w.stack.rollRiskWindow env.now, decision))
    (hlegs : r.legs.mapM (resolveLeg env) = .ok approved.legs) (h : w.GivesBack env r) :
    w.StrandsNothing env r := by
  intro hfresh approved' happroved' hanswered
  have happroved : (w.stack.optionsGate env r).1 = .ok approved := by rw [hgate]
  obtain rfl : approved = approved' := by simpa [happroved] using happroved'
  obtain ⟨results, opened, w₁, hrun, heffect, hends⟩ := executedLegs_fresh hfresh hlegs
  by_cases hsome : ∃ e ∈ w.batchEnds env r approved, e.isEstablished = true
  · exact Or.inl hsome
  -- Nothing is unwound, so the fills stand, and each restores its holding by itself.
  refine Or.inr fun x hx => ?_
  have hunestablished : ∀ result ∈ results, result.status.isEstablished = false := by
    intro result hmem
    rw [Bool.eq_false_iff]
    exact fun hestablished =>
      hsome ⟨result.status, hends ▸ List.mem_map_of_mem hmem, hestablished⟩
  -- With nothing established nothing is given back.
  have hnone : givenBack results opened = [] := by
    rw [givenBack, if_neg]
    rw [List.any_eq_true]
    rintro ⟨result, hmem, hestablished⟩
    rw [hunestablished result hmem] at hestablished
    cases hestablished
  have hlive : ∀ result ∈ results, result.status ≠ .failed := by
    intro result hmem heq
    exact hanswered (by rw [← hends, ← heq]; exact List.mem_map_of_mem hmem)
  have hincomplete : ¬ Intact (results.map LegExecutionResult.status) := by
    intro hall
    have hends' := heffect.statuses
    have hmem := List.mem_map_of_mem (f := fun x => x.answer.elim .created
      (settledStatus x.quantity)) hx
    rw [← hends'] at hmem
    exact hsome ⟨_, hends ▸ hmem, hall _ hmem⟩
  have hunwind : unwindLegs env.now (batchIdOf w.stack.userId r) w₁ (givenBack results opened) =
      .ok ([], w₁) := by
    rw [hnone]
    rfl
  -- So the answer leaves the world that the legs left.
  obtain ⟨response, hanswer, rfl, hworld⟩ := executeOptionsStrategy_unwinds hgate hrun hincomplete
    hlive hunwind
  have hrestored := h hfresh response hanswer hincomplete hlive
    (unwindsComplete_of_unestablished hanswer hunestablished) x.leg.toExecuteOptionLeg
    ((mem_legs_iff (w := w) hlegs).mpr ⟨x, hx, rfl⟩)
  rw [hworld, heffect.holding x hx] at hrestored
  exact (restored_iff_reduces x.filled_nonneg _).mp hrestored

/-- What the legs opened is unwound, or nothing was opened. -/
theorem givesBack_of_strandsNothing
    (hgate : w.stack.optionsGate env r = (.ok approved, w.stack.rollRiskWindow env.now, decision))
    (hlegs : r.legs.mapM (resolveLeg env) = .ok approved.legs) (h : w.StrandsNothing env r) :
    w.GivesBack env r := by
  intro hfresh response hanswer hincomplete hanswered hfill leg hmem
  have happroved : (w.stack.optionsGate env r).1 = .ok approved := by rw [hgate]
  obtain ⟨results, opened, w₁, hrun, heffect, hends⟩ := executedLegs_fresh hfresh hlegs
  obtain ⟨response', hanswer', hstatuses, -⟩ := executeOptionsStrategy_ok hgate
  obtain rfl : response' = response := by simpa [hanswer'] using hanswer
  rw [hstatuses, ← hends] at hincomplete
  have hfailed : .failed ∉ w.batchEnds env r approved := by
    rw [← hstatuses]
    intro hmem
    obtain ⟨result, hresult, hf⟩ := List.mem_map.mp hmem
    exact hanswered result hresult hf
  have hlive : ∀ result ∈ results, result.status ≠ .failed := by
    intro result hresult heq
    exact hfailed (by rw [← hends, ← heq]; exact List.mem_map_of_mem hresult)
  obtain ⟨x, hx, rfl⟩ := (mem_legs_iff (w := w) hlegs).mp hmem
  have hfill₁ := hfill approved results opened w₁ happroved hrun
  by_cases hany : results.any (fun result => result.status.isEstablished) = true
  · -- What the legs opened is unwound.
    have hall : givenBack results opened = opened := if_pos hany
    rw [hall] at hfill₁
    obtain ⟨lines, w₂, hunwind, hrestored⟩ := unwindLegs_fresh hfresh (resolveLegs_eq hlegs)
      (submissions_legs ..) heffect hfill₁
    rw [← hall] at hunwind
    obtain ⟨_, -, -, hworld⟩ := executeOptionsStrategy_unwinds hgate hrun hincomplete hlive hunwind
    rw [hworld]
    exact hrestored x hx
  · -- Nothing is unwound, and by the condition nothing was opened.
    have hunwind : unwindLegs env.now (batchIdOf w.stack.userId r) w₁ (givenBack results opened) =
        .ok ([], w₁) := by
      rw [givenBack, if_neg hany]
      rfl
    obtain ⟨_, -, -, hworld⟩ := executeOptionsStrategy_unwinds hgate hrun hincomplete hlive hunwind
    rw [hworld, heffect.holding x hx]
    apply (restored_iff_reduces x.filled_nonneg _).mpr
    rcases h hfresh approved happroved hfailed with ⟨e, he, hestablished⟩ | hall
    · rw [← hends] at he
      obtain ⟨result, hresult, rfl⟩ := List.mem_map.mp he
      exact absurd (List.any_eq_true.mpr ⟨result, hresult, hestablished⟩) hany
    · exact hall x hx

end Approved

/-- **When an incomplete batch is given back.** For every batch over pairwise distinct
symbols and with new keys that ends incomplete, without an unanswered leg and with its
unwind orders filled, every leg's holding is restored exactly if some leg was filled
completely, or no leg was filled beyond the position it opposed. -/
theorem givesBack_iff (w : World β) (env : OptionsEnv) (r : ExecuteOptionsStrategyRequest) :
    w.GivesBack env r ↔ w.StrandsNothing env r := by
  rcases w.stack.optionsGate_cases env r with ⟨refusal, s', decision, hgate, -, -⟩ |
    ⟨approved, decision, hgate, hlegs, -, -⟩
  · -- A refused batch is not answered.
    have hleft : w.GivesBack env r := by
      intro _ response hanswer
      simp [executeOptionsStrategy, hgate] at hanswer
    have hright : w.StrandsNothing env r := by
      intro _ approved happroved
      simp [hgate] at happroved
    exact iff_of_true hleft hright
  · exact ⟨strandsNothing_of_givesBack hgate hlegs, givesBack_of_strandsNothing hgate hlegs⟩

/-! ## Section 4: A partial fill left behind -/

/-- A flat account at a venue that fills 20 of the first order and rejects the second. -/
def flatHolder : World ScriptedVenue :=
  { stack := Stack.build "u"
      { script := [.partlyFilled 20, .rejected "insufficient margin"] } {} 0 }

/-- The batch that opens a bull call spread. -/
def openSpread : ExecuteOptionsStrategyRequest :=
  { strategyName := "bull_call_spread"
    legs :=
      [ { symbol := "ACME-100-CE"
          direction := .long
          quantity := 1
          premium := 6
          quantity_range := ExecuteOptionLeg.quantity_range_one
          premium_range := ExecuteOptionLeg.premium_range_six },
        { symbol := "ACME-110-CE"
          direction := .short
          quantity := 1
          premium := 2
          quantity_range := ExecuteOptionLeg.quantity_range_one
          premium_range := ExecuteOptionLeg.premium_range_two } ] }

/-- The same batch with the contracts its legs name. -/
def openSpreadLegs : List ResolvedLeg :=
  openSpread.legs.zipWith (fun leg strike =>
    { leg with
      optionType := .call
      strike := strike
      lotSize := 50
      lotSize_pos := ResolvedLeg.lotSize_pos_fifty }) [100, 110]

theorem openSpread_resolves :
    openSpread.legs.mapM (resolveLeg { now := 0, instrument := callChain }) =
      .ok openSpreadLegs := by
  rfl

/-- The spread never loses more than the premium paid for it. -/
theorem openSpread_bounded :
    (∀ price, -200 ≤ totalPayoff (openSpreadLegs.map ResolvedLeg.optionLeg) price) ∧
      totalPayoff (openSpreadLegs.map ResolvedLeg.optionLeg) 0 ≤ 200 ∧
      netPremium (openSpreadLegs.map ResolvedLeg.optionLeg) ≤ 200 := by
  refine ⟨fun price => ?_, ?_, ?_⟩
  · simp [openSpreadLegs, openSpread, totalPayoff, legPayoff, legIntrinsicValue,
      ResolvedLeg.optionLeg, Direction.signed]
    grind
  · decide +kernel
  · decide +kernel

/-- The flat account may open the spread. -/
theorem openSpread_approved (payoff : PayoffResult)
    (hok : computePayoffSummary (openSpreadLegs.map ResolvedLeg.optionLeg) = .ok payoff) :
    (OptionsRisk.evaluateOptionsRisk (flatHolder.stack.rollRiskWindow 0).limits {}
      ((flatHolder.stack.rollRiskWindow 0).optionsProposal { now := 0, instrument := callChain }
        openSpreadLegs payoff)).approved = true := by
  obtain ⟨hbounded, hzero, hpremium⟩ := openSpread_bounded
  have hrisk : OptionsRisk.riskAmount payoff ≤ 200 :=
    OptionsRisk.riskAmount_le (by norm_num) hbounded hzero hpremium hok
  have hreduces : (flatHolder.stack.rollRiskWindow 0).reduces openSpreadLegs = false := by
    decide +kernel
  -- All of the proposal but the payoff is a value.
  have hfixed : (flatHolder.stack.rollRiskWindow 0).optionsProposal
      { now := 0, instrument := callChain } openSpreadLegs payoff =
      { accountId := "u", accountBalance := 100000, currentExposure := 0, payoff := payoff
        brokerHealthy := true } := by
    -- The payoff is the proposal's, and the other fields are computed.
    unfold Stack.optionsProposal
    rw [hreduces, OptionsRiskProposal.mk.injEq]
    exact ⟨rfl, rfl, by decide +kernel, rfl, rfl, rfl, rfl, by decide +kernel, by decide +kernel,
      rfl, rfl, rfl, rfl, rfl⟩
  have hexposure : RiskEngine.percentOfBalance 100000 (OptionsRisk.riskAmount payoff) 100 ≤
      100 := by
    unfold RiskEngine.percentOfBalance
    rw [if_neg (by norm_num)]
    linarith
  have hloss : RiskEngine.percentOfBalance 100000 0 0 = 0 := by
    decide +kernel
  have hlimits : (flatHolder.stack.rollRiskWindow 0).limits = {} := rfl
  rw [hfixed, hlimits]
  unfold OptionsRisk.evaluateOptionsRisk
  simp [KillSwitchState.isBlocked, RiskDecisionResult.approved_ofChecks, OptionsRisk.entryChecks,
    OptionsRisk.executionChecks, RiskEngine.shareCheck, RiskEngine.lossCheck,
    RiskEngine.countChecks, RiskEngine.rejectionsCheck]
  -- Each check of an entry by itself: the exposure is the premium's share of the balance.
  rintro check (hmem | rfl | rfl | rfl | rfl)
  · rw [if_neg (by norm_num)] at hmem
    simp only [List.mem_cons, List.not_mem_nil, or_false] at hmem
    rcases hmem with rfl | rfl | rfl
    · exact decide_eq_true hexposure
    · rw [hloss]
      rfl
    · rw [hloss]
      rfl
  all_goals rfl

/-- The long leg is filled in part and the short one rejected: the 20 units that were
bought stay. -/
theorem partial_fill_not_given_back :
    ¬ flatHolder.GivesBack { now := 0, instrument := callChain } openSpread := by
  intro h
  obtain ⟨payoff, decision, hgate⟩ : ∃ payoff decision,
      flatHolder.stack.optionsGate { now := 0, instrument := callChain } openSpread =
        (.ok ⟨openSpreadLegs, payoff⟩, flatHolder.stack.rollRiskWindow 0, some decision) :=
    Stack.optionsGate_ok openSpread_resolves (List.cons_ne_nil _ _) rfl openSpread_approved
  -- What the venue answered to the legs, and what they leave held.
  obtain ⟨results, opened, w₁, hrun, hstatuses, hheld⟩ : ∃ results opened w₁,
      flatHolder.executedLegs { now := 0, instrument := callChain } openSpread
          ⟨openSpreadLegs, payoff⟩ = .ok (results, opened, w₁) ∧
        results.map LegExecutionResult.status = [.partiallyFilled, .rejected] ∧
        w₁.stack.holding "ACME-100-CE" = 20 := by
    have hscript : ((submitLegs 0 (batchIdOf "u" openSpread) false
        { flatHolder with stack := flatHolder.stack.rollRiskWindow 0 } openSpreadLegs).toOption.map
          fun run => (run.1.map LegExecutionResult.status, run.2.2.stack.holding "ACME-100-CE")) =
        some ([.partiallyFilled, .rejected], 20) := by
      decide +kernel
    have hreduces : (flatHolder.stack.rollRiskWindow 0).reduces openSpreadLegs = false := by
      decide +kernel
    unfold executedLegs
    dsimp only
    rw [hreduces]
    cases hrun : submitLegs 0 (batchIdOf "u" openSpread) false
        { flatHolder with stack := flatHolder.stack.rollRiskWindow 0 } openSpreadLegs with
    | error problem =>
      rw [hrun] at hscript
      cases hscript
    | ok run =>
      rw [hrun] at hscript
      obtain ⟨hstatuses, hheld⟩ := Prod.mk.inj (Option.some.inj hscript)
      exact ⟨run.1, run.2.1, run.2.2, hrun, hstatuses, hheld⟩
  -- A partial fill is not established, and neither is a rejection.
  have hstatus : ∀ leg ∈ results, leg.status = .partiallyFilled ∨ leg.status = .rejected := by
    intro leg hmem
    have hmem' := List.mem_map_of_mem (f := LegExecutionResult.status) hmem
    rw [hstatuses] at hmem'
    simpa using hmem'
  have hunestablished : ∀ leg ∈ results, leg.status.isEstablished = false := by
    intro leg hmem
    rcases hstatus leg hmem with hleg | hleg <;> rw [hleg] <;> rfl
  have hincomplete : ¬ Intact (results.map LegExecutionResult.status) := by
    rw [hstatuses]
    intro hall
    cases hall .rejected (by simp)
  have hanswered : ∀ leg ∈ results, leg.status ≠ .failed := by
    intro leg hmem
    rcases hstatus leg hmem with hleg | hleg <;> simp [hleg]
  have hnone : givenBack results opened = [] := by
    rw [givenBack, if_neg]
    rw [List.any_eq_true]
    rintro ⟨leg, hmem, hestablished⟩
    rw [hunestablished leg hmem] at hestablished
    cases hestablished
  obtain ⟨response, hanswer, hlegs, hworld⟩ := executeOptionsStrategy_unwinds hgate hrun hincomplete
    hanswered (by rw [hnone]; rfl)
  subst hlegs
  have hfresh : flatHolder.FreshBatch openSpread :=
    ⟨by decide +kernel, fun _ _ => rfl, fun _ _ => rfl⟩
  -- The claim restores the holding of the long leg, which stands at 20.
  have hrestored := h hfresh response hanswer hincomplete hanswered
    (unwindsComplete_of_unestablished hanswer hunestablished) _ List.mem_cons_self
  have hback := hrestored.2 (by decide +kernel)
  rw [hworld] at hback
  have htwenty : (20 : ℚ) = 0 := hheld.symm.trans hback
  norm_num at htwenty

end World

end SuperTrading
