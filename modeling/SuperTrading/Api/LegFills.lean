import SuperTrading.Api.PartialBatch

/-!
# What the Legs of a Batch Fill

A leg with a new key is one order at the broker: the book takes what the broker fills
of it, and the index learns its key. A leg with a known key does nothing at all.

- **Keys**: the keys of a batch are told apart by symbol, and by what they are for
- **Layer A**: one leg
- **Layer B**: the legs of a batch, over pairwise distinct symbols and with new keys
-/

namespace SuperTrading

/-! ## Section 1: Keys -/

theorem legKey_injective (userId : AccountId) (batchId : String) :
    Function.Injective (legKey userId batchId) := by
  intro symbol symbol' h
  exact (String.append_right_inj (userId ++ ":" ++ batchId ++ ":")).mp h

theorem unwindKey_injective (userId : AccountId) (batchId : String) :
    Function.Injective (unwindKey userId batchId) := by
  intro symbol symbol' h
  exact (String.append_right_inj ("unwind:" ++ userId ++ ":" ++ batchId ++ ":")).mp h

/-- Of a text that goes on as if `pre` had been put before it, all that lies within
the two is made of the characters of `pre`. -/
private theorem mem_of_shift {pre l rest rest' : List Char} (hpre : 0 < pre.length)
    (h : l ++ rest = pre ++ l ++ rest') {i : ℕ} (hi : i < pre.length + l.length) {c : Char}
    (hc : (l ++ rest)[i]? = some c) : c ∈ pre := by
  induction i using Nat.strong_induction_on with
  | _ i ih =>
    rw [h, List.append_assoc] at hc
    by_cases hlt : i < pre.length
    · rw [List.getElem?_append_left hlt] at hc
      exact List.mem_of_getElem? hc
    · -- The character stands one period earlier too.
      have hle : pre.length ≤ i := not_lt.mp hlt
      rw [List.getElem?_append_right hle, List.getElem?_append_left (by omega)] at hc
      apply ih (i - pre.length) (by omega) (by omega)
      rwa [List.getElem?_append_left (by omega)]

/-- No leg's key is the key of an unwind order, of whatever batches. -/
theorem unwindKey_ne_legKey (userId : AccountId) (text text' : String) (symbol symbol' : Symbol) :
    unwindKey userId (uuid5 text) symbol ≠ legKey userId (uuid5 text') symbol' := by
  intro h
  -- Both keys go on with the user's id; the leg's has a batch id right behind it.
  have hchars : userId.toList ++ (":uuid5(".toList ++ (text' ++ "):" ++ symbol').toList) =
      "unwind:".toList ++ userId.toList ++ (":uuid5(" ++ text ++ "):" ++ symbol).toList := by
    have hlist := congrArg String.toList h.symm
    have hleg : legKey userId (uuid5 text') symbol' =
        userId ++ ":" ++ ("uuid5(" ++ text' ++ ")") ++ ":" ++ symbol' := rfl
    have hunwind : unwindKey userId (uuid5 text) symbol =
        "unwind:" ++ userId ++ ":" ++ ("uuid5(" ++ text ++ ")") ++ ":" ++ symbol := rfl
    rw [hleg, hunwind] at hlist
    simpa [String.toList_append] using hlist
  have hfive : (userId.toList ++ (":uuid5(".toList ++ (text' ++ "):" ++ symbol').toList))[
      userId.toList.length + 5]? = some '5' := by
    rw [List.getElem?_append_right (by omega)]
    simp
  have hmem := mem_of_shift (by decide) hchars (i := userId.toList.length + 5)
    (by simp; omega) hfive
  exact absurd hmem (by decide)

/-- A resolved leg is the requested one, with its contract. -/
theorem resolveLeg_eq {env : OptionsEnv} {leg : ExecuteOptionLeg} {resolved : ResolvedLeg}
    (h : resolveLeg env leg = .ok resolved) : resolved.toExecuteOptionLeg = leg := by
  unfold resolveLeg at h
  split at h
  · cases h
  · split at h
    · split at h
      · cases h
        rfl
      · cases h
    · cases h

theorem resolveLegs_eq {env : OptionsEnv} {legs : List ExecuteOptionLeg}
    {resolved : List ResolvedLeg} (h : legs.mapM (resolveLeg env) = .ok resolved) :
    resolved.map ResolvedLeg.toExecuteOptionLeg = legs := by
  induction legs generalizing resolved with
  | nil =>
    cases h
    rfl
  | cons leg legs ih =>
    simp only [List.mapM_cons, bind, Except.bind] at h
    split at h
    · cases h
    rename_i first hfirst
    split at h
    · cases h
    rename_i rest hrest
    cases h
    rw [List.map_cons, resolveLeg_eq hfirst, ih hrest]

variable {β : Type} [Broker β]

/-! ## Layer A: One leg -/

/-- What an answer filled. -/
def OrderResult.filled (result : OrderResult) : ℚ :=
  if result.fills then result.filledQuantity else 0

theorem OrderResult.filled_nonneg (result : OrderResult) : 0 ≤ result.filled := by
  unfold filled
  split
  · rename_i h
    exact (of_decide_eq_true h).2.2.le
  · exact le_refl 0

/-- The book after an answer. -/
theorem PositionManager.quantity_answered (m : PositionManager) (order : OrderRecord)
    (result : OrderResult) (symbol : Symbol) :
    (m.answered order result).quantity order.accountId symbol =
      m.quantity order.accountId symbol +
        if order.symbol = symbol then order.direction.signed result.filled else 0 := by
  rw [quantity_answer]
  unfold OrderResult.filled
  cases result.fills <;> cases order.direction <;> simp

namespace Stack

/-- The broker's answer to the order of a leg. -/
def legAnswer (s : Stack β) (now : Instant) (key : String) (symbol : Symbol)
    (direction : Direction) (premium quantity : ℚ) : OrderResult :=
  let s := s.seedPremium symbol premium
  (Broker.placeOrder s.broker
    (s.newOrder now key symbol direction .market quantity none).request).1

/-- What a new order leaves: the book has taken the fill, and the index the key. -/
structure Fills (s s' : Stack β) (key : String) (symbol : Symbol) (direction : Direction)
    (order : OrderRecord) (filled : ℚ) : Prop where
  user : s'.userId = s.userId
  orders : ∀ key', s'.orderManager.lookup key' =
    if key = key' then some order else s.orderManager.lookup key'
  holding : ∀ j, s'.holding j = s.holding j + if symbol = j then direction.signed filled else 0

/-- What a known order leaves: the same book and the same index. -/
structure Still (s s' : Stack β) : Prop where
  user : s'.userId = s.userId
  orders : s'.orderManager = s.orderManager
  positions : s'.positionManager = s.positionManager

omit [Broker β] in
theorem Still.refl (s : Stack β) : s.Still s := ⟨rfl, rfl, rfl⟩

omit [Broker β] in
theorem Still.trans {s s' s'' : Stack β} (h : s.Still s') (h' : s'.Still s'') : s.Still s'' :=
  ⟨h'.user.trans h.user, h'.orders.trans h.orders, h'.positions.trans h.positions⟩

omit [Broker β] in
theorem Still.holding {s s' : Stack β} (h : s.Still s') (j : Symbol) :
    s'.holding j = s.holding j := by
  unfold Stack.holding
  rw [h.user, h.positions]

omit [Broker β] in
/-- A fill between two changes that leave the books alone. -/
theorem Fills.of_still {s s₁ s₂ s' : Stack β} {key : String} {symbol : Symbol}
    {direction : Direction} {order : OrderRecord} {filled : ℚ} (h : s.Still s₁)
    (hfills : s₁.Fills s₂ key symbol direction order filled) (h' : s₂.Still s') :
    s.Fills s' key symbol direction order filled where
  user := h'.user.trans (hfills.user.trans h.user)
  orders key' := by rw [h'.orders, hfills.orders, h.orders]
  holding j := by rw [h'.holding, hfills.holding, h.holding]

theorem still_seedQuote (s : Stack β) (symbol : Symbol) (ltp : ℚ) (print : Bool) :
    s.Still (s.seedQuote symbol ltp print) := by
  unfold seedQuote
  split <;> exact ⟨rfl, rfl, rfl⟩

theorem still_journal (s : Stack β) (db : Db) (now : Instant) (before : Option PositionRecord)
    (after : PositionRecord) (order : OrderRecord) (stop target : Option ℚ) :
    s.Still (s.journal db now before after order stop target).1 := by
  unfold journal
  dsimp only
  split
  · exact .refl s
  · split <;> exact ⟨rfl, rfl, rfl⟩

theorem fills_entered (s : Stack β) (now : Instant) (key : String) (symbol : Symbol)
    (direction : Direction) (orderType : OrderType) (quantity : ℚ) (price : Option ℚ)
    (detail : String) :
    let order := s.newOrder now key symbol direction orderType quantity price
    let result := (Broker.placeOrder s.broker order.request).1
    s.Fills (s.entered now order detail) key symbol direction (order.finished now detail result)
      result.filled where
  user := rfl
  orders := s.lookup_entered now key symbol direction orderType quantity price detail
  holding j := s.positionManager.quantity_answered
    (s.newOrder now key symbol direction orderType quantity price) _ j

end Stack

/-- What did not move opened nothing. -/
@[simp] theorem openedQuantity_self (q : ℚ) : openedQuantity q q = 0 := by
  unfold openedQuantity
  split_ifs <;> simp_all

/-- A new order has just filled exactly if its answer fills. -/
theorem Stack.justFilled_iff {order : OrderRecord} {result : OrderResult} {quantity : ℚ}
    (h : order.status = settledStatus quantity result) :
    Stack.justFilled true order = result.fills := by
  unfold Stack.justFilled OrderResult.fills
  rw [h]
  unfold settledStatus
  split_ifs <;> simp_all

namespace World

/-- A leg with a known key. -/
theorem submitLeg_known {w : World β} {key : String} {order : OrderRecord}
    (h : w.stack.orderManager.lookup key = some order) (now : Instant) (symbol : Symbol)
    (direction : Direction) (premium quantity : ℚ) (reason : String) :
    ∃ w', w.submitLeg now symbol direction premium quantity key reason = .ok (order, 0, w') ∧
      w.stack.Still w'.stack := by
  have hseed := w.stack.still_seedQuote symbol premium true
  have hknown : (w.stack.seedPremium symbol premium).orderManager.lookup key = some order := by
    rw [Stack.seedPremium, hseed.orders, h]
  unfold submitLeg
  simp only [Stack.enterOrder_known hknown]
  split
  · exact ⟨_, rfl, hseed⟩
  · exact ⟨_, rfl, hseed.trans (Stack.still_journal ..)⟩

/-- A leg with a new key. -/
theorem submitLeg_new {w : World β} {key : String} (h : w.stack.orderManager.lookup key = none)
    (now : Instant) (symbol : Symbol) (direction : Direction) (premium quantity : ℚ)
    (reason : String) :
    let result := w.stack.legAnswer now key symbol direction premium quantity
    ∃ order w', w.submitLeg now symbol direction premium quantity key reason =
        .ok (order, openedQuantity (w.stack.holding symbol) (w'.stack.holding symbol), w') ∧
      order.status = settledStatus quantity result ∧
      w.stack.Fills w'.stack key symbol direction order result.filled := by
  intro result
  have hseed := w.stack.still_seedQuote symbol premium true
  set s := w.stack.seedPremium symbol premium with hs
  have hnew : s.orderManager.lookup key = none := by rw [hs, Stack.seedPremium, hseed.orders, h]
  set order := s.newOrder now key symbol direction .market quantity none with horder
  set db := w.db.persistOrder now (order.finished now reason result) (executionModeFor β) with hdb
  have hfills : w.stack.Fills (s.entered now order reason) key symbol direction
      (order.finished now reason result) result.filled :=
    .of_still hseed (s.fills_entered now key symbol direction .market quantity none reason)
      (.refl _)
  have hstatus : (order.finished now reason result).status = settledStatus quantity result :=
    OrderRecord.finished_status ..
  have hresult : (Broker.placeOrder s.broker order.request).1 = result := rfl
  unfold submitLeg
  simp only [← hs, Stack.enterOrder_new hnew, ← horder, hresult, ← hdb]
  split
  · -- No record of the position after the order: nothing is held.
    rename_i hnone
    have hflat : (s.entered now order reason).holding symbol = 0 := by
      show ((s.entered now order reason).position symbol).elim 0 _ = 0
      rw [hnone]
      rfl
    refine ⟨_, ⟨s.entered now order reason, db⟩, ?_, hstatus, hfills⟩
    rw [hflat]
    rfl
  · rename_i after hafter
    have hheld : (s.entered now order reason).holding symbol = after.quantity :=
      Stack.holding_of_position hafter
    set journaled := (s.entered now order reason).journal
      (db.persistPosition after (executionModeFor β) manualSourceKey) now (s.position symbol) after
      (order.finished now reason result) none none with hj
    have hjournal : (s.entered now order reason).Still journaled.1 := Stack.still_journal ..
    refine ⟨_, ⟨journaled.1, journaled.2⟩, ?_, hstatus, .of_still (.refl _) hfills hjournal⟩
    have hbefore : (s.position symbol).elim 0 PositionRecord.quantity = w.stack.holding symbol :=
      hseed.holding symbol
    rw [hjournal.holding, hheld, hbefore]
    have hjust := Stack.justFilled_iff hstatus
    cases hfill : result.fills with
    | true =>
      rw [if_pos (hjust.trans hfill)]
    | false =>
      -- Nothing filled, so the position is what it was.
      have hsame : after.quantity = w.stack.holding symbol := by
        rw [← hheld, hfills.holding]
        cases direction <;> simp [OrderResult.filled, hfill]
      rw [if_neg (by rw [hjust, hfill]; exact Bool.false_ne_true), hsame, openedQuantity_self]

/-! ## Layer B: A batch -/

/-- A leg as a batch submits it: the size it is sent with, and the broker's answer, if
its key is new. -/
structure LegSubmission where
  leg : ResolvedLeg
  quantity : ℚ
  answer : Option OrderResult

/-- What the broker filled of the leg. -/
def LegSubmission.filled (x : LegSubmission) : ℚ := x.answer.elim 0 OrderResult.filled

/-- The submissions of a batch, in order. -/
def submissions (now : Instant) (batchId : String) (reducing : Bool) :
    World β → List ResolvedLeg → List LegSubmission
  | _, [] => []
  | w, leg :: legs =>
    let key := legKey w.stack.userId batchId leg.symbol
    let quantity := legQuantity w.stack reducing leg
    { leg := leg
      quantity := quantity
      answer :=
        if (w.stack.orderManager.lookup key).isSome then none
        else some (w.stack.legAnswer now key leg.symbol leg.direction leg.premium quantity) } ::
      submissions now batchId reducing (w.afterLeg now batchId reducing leg) legs

theorem submissions_legs (now : Instant) (batchId : String) (reducing : Bool)
    (legs : List ResolvedLeg) (w : World β) :
    (submissions now batchId reducing w legs).map LegSubmission.leg = legs := by
  induction legs generalizing w with
  | nil => rfl
  | cons leg legs ih => simp only [submissions, List.map_cons, ih]

/-- The exposure that a submission opens from a holding. -/
def LegSubmission.opens (x : LegSubmission) (held : ℚ) : ℚ :=
  openedQuantity held (held + x.leg.direction.signed x.filled)

/-- What a batch has to give back of a submission. -/
def openedLeg (s : Stack β) (x : LegSubmission) : Option OpenedLeg :=
  let opened := x.opens (s.holding x.leg.symbol)
  if 0 < opened then some ⟨x.leg.symbol, x.leg.direction, opened, x.leg.premium⟩ else none

/-- What a batch of new keys and pairwise distinct symbols leaves, before it is
remediated. -/
structure BatchEffect (w w' : World β) (batchId : String) (legs : List ResolvedLeg)
    (xs : List LegSubmission) (results : List LegExecutionResult) (opened : List OpenedLeg) :
    Prop where
  user : w'.stack.userId = w.stack.userId
  orders : ∀ key, (∀ leg ∈ legs, key ≠ legKey w.stack.userId batchId leg.symbol) →
    w'.stack.orderManager.lookup key = w.stack.orderManager.lookup key
  elsewhere : ∀ j, (∀ leg ∈ legs, leg.symbol ≠ j) → w'.stack.holding j = w.stack.holding j
  holding : ∀ x ∈ xs, w'.stack.holding x.leg.symbol =
    w.stack.holding x.leg.symbol + x.leg.direction.signed x.filled
  statuses : results.map LegExecutionResult.status =
    xs.map fun x => x.answer.elim .created (settledStatus x.quantity)
  opened : opened = xs.filterMap (openedLeg w.stack)

theorem submitLegs_new {now : Instant} {batchId : String} {reducing : Bool}
    (legs : List ResolvedLeg) {w : World β} (hsymbols : (legs.map fun leg => leg.symbol).Nodup)
    (hkeys : ∀ leg ∈ legs,
      w.stack.orderManager.lookup (legKey w.stack.userId batchId leg.symbol) = none) :
    ∃ results opened w', submitLegs now batchId reducing w legs = .ok (results, opened, w') ∧
      BatchEffect w w' batchId legs (submissions now batchId reducing w legs) results opened := by
  induction legs generalizing w with
  | nil =>
    refine ⟨[], [], w, rfl, ⟨rfl, fun _ _ => rfl, fun _ _ => rfl, ?_, rfl, rfl⟩⟩
    intro x hx
    cases hx
  | cons leg legs ih =>
    obtain ⟨hhead, htail⟩ := List.nodup_cons.mp hsymbols
    have hother : ∀ leg' ∈ legs, leg.symbol ≠ leg'.symbol := by
      intro leg' hmem heq
      exact hhead (List.mem_map.mpr ⟨leg', hmem, heq.symm⟩)
    have hnew := hkeys leg List.mem_cons_self
    obtain ⟨order, w₁, hleg, hstatus, hfills⟩ := submitLeg_new hnew now leg.symbol leg.direction
      leg.premium (legQuantity w.stack reducing leg) s!"options strategy batch {batchId}"
    set result := w.stack.legAnswer now (legKey w.stack.userId batchId leg.symbol) leg.symbol
      leg.direction leg.premium (legQuantity w.stack reducing leg) with hresult
    have hafter : w.afterLeg now batchId reducing leg = w₁ := by simp only [afterLeg, hleg]
    -- The keys of the legs that follow are other keys, so they are new still.
    have hkeys₁ : ∀ leg' ∈ legs,
        w₁.stack.orderManager.lookup (legKey w₁.stack.userId batchId leg'.symbol) = none := by
      intro leg' hmem
      have hne : legKey w.stack.userId batchId leg.symbol ≠
          legKey w.stack.userId batchId leg'.symbol :=
        fun heq => hother leg' hmem (legKey_injective _ _ heq)
      rw [hfills.user, hfills.orders, if_neg hne]
      exact hkeys leg' (List.mem_cons_of_mem _ hmem)
    obtain ⟨results, openedLater, w₂, hlegs, heffect⟩ := ih htail hkeys₁
    -- The later legs are of other symbols, so this one's fill stands in the end.
    have hhead₁ : w₂.stack.holding leg.symbol =
        w.stack.holding leg.symbol + leg.direction.signed result.filled := by
      rw [heffect.elsewhere _ fun leg' hmem => (hother leg' hmem).symm, hfills.holding, if_pos rfl]
    have hsub : submissions now batchId reducing w (leg :: legs) =
        ⟨leg, legQuantity w.stack reducing leg, some result⟩ ::
          submissions now batchId reducing w₁ legs := by
      simp only [submissions, hafter, hnew]
      rfl
    -- And the later legs find their holdings as they were.
    have hheld : ∀ x ∈ submissions now batchId reducing w₁ legs,
        w₁.stack.holding x.leg.symbol = w.stack.holding x.leg.symbol := by
      intro x hx
      have hmem : x.leg ∈ legs := by
        rw [← submissions_legs now batchId reducing legs w₁]
        exact List.mem_map_of_mem hx
      rw [hfills.holding, if_neg (hother x.leg hmem), add_zero]
    set o := openedQuantity (w.stack.holding leg.symbol) (w₁.stack.holding leg.symbol) with ho
    refine ⟨⟨leg.symbol, order.id, order.status, order.rejectionReason⟩ :: results,
      (if 0 < o then [⟨leg.symbol, leg.direction, o, leg.premium⟩] else []) ++ openedLater, w₂, ?_,
      ⟨heffect.user.trans hfills.user, ?_, ?_, ?_, ?_, ?_⟩⟩
    · -- The run, the orders, the other symbols, the holdings, the statuses, and what is opened.
      simp only [submitLegs, hleg, hlegs, bind, Except.bind, pure, Except.pure]
    · intro key hkey
      rw [heffect.orders key fun leg' hmem => ?_, hfills.orders,
        if_neg (hkey leg List.mem_cons_self).symm]
      rw [hfills.user]
      exact hkey leg' (List.mem_cons_of_mem _ hmem)
    · intro j hj
      rw [heffect.elsewhere j fun leg' hmem => hj leg' (List.mem_cons_of_mem _ hmem),
        hfills.holding, if_neg (hj leg List.mem_cons_self), add_zero]
    · rw [hsub]
      intro x hx
      rcases List.mem_cons.mp hx with rfl | hx
      · exact hhead₁
      · rw [heffect.holding x hx, hheld x hx]
    · rw [hsub, List.map_cons, List.map_cons, heffect.statuses, hstatus]
      rfl
    · have htail : openedLater =
          (submissions now batchId reducing w₁ legs).filterMap (openedLeg w.stack) := by
        rw [heffect.opened]
        apply List.filterMap_congr
        intro x hx
        simp only [openedLeg, hheld x hx]
      have hopens : LegSubmission.opens ⟨leg, legQuantity w.stack reducing leg, some result⟩
          (w.stack.holding leg.symbol) = o := by
        rw [ho, hfills.holding, if_pos rfl]
        rfl
      rw [hsub, List.filterMap_cons, htail]
      simp only [openedLeg, hopens]
      split <;> simp_all

end World

end SuperTrading
