import SuperTrading.Replay.Store

/-!
# The Rows of the Replay Sessions

The rows of a session in memory are its trades and its balance, after whatever the users have asked
for. Nobody but its owner changes them, and nobody at all once the session has left the memory.

- **Layer A**: what an action makes of the trades
- **Layer B**: what it makes of the rows
- **Layer C**: what a request leaves
- **Layer D**: runs
-/

namespace SuperTrading

open SuperTrading.Logic
open Smc (Candle)

/-! ## Layer A: Trades -/

/-- The trade is the same one: a row is made with columns that it keeps. -/
structure ReplayTrade.Continues (t t' : ReplayTrade) : Prop where
  direction : t'.direction = t.direction
  entryPrice : t'.entryPrice = t.entryPrice
  quantity : t'.quantity = t.quantity
  openedAt : t'.openedAt = t.openedAt

namespace ReplayTrade.Continues

theorem refl (t : ReplayTrade) : t.Continues t := ⟨rfl, rfl, rfl, rfl⟩

theorem trans {t t' t'' : ReplayTrade} (h : t.Continues t') (h' : t'.Continues t'') :
    t.Continues t'' where
  direction := h'.direction.trans h.direction
  entryPrice := h'.entryPrice.trans h.entryPrice
  quantity := h'.quantity.trans h.quantity
  openedAt := h'.openedAt.trans h.openedAt

end ReplayTrade.Continues

namespace ReplayEngine

variable {e : ReplayEngine}

/-- The trades go on, each as the one it was. -/
def TradesContinue (e e' : ReplayEngine) : Prop :=
  List.Forall₂ ReplayTrade.Continues e.trades e'.trades

theorem TradesContinue.refl (e : ReplayEngine) : e.TradesContinue e :=
  List.forall₂_same.mpr fun t _ => .refl t

theorem TradesContinue.trans {e e' e'' : ReplayEngine} (h : e.TradesContinue e')
    (h' : e'.TradesContinue e'') : e.TradesContinue e'' := by
  unfold TradesContinue at *
  generalize e.trades = trades, e'.trades = trades', e''.trades = trades'' at h h' ⊢
  induction h generalizing trades'' with
  | nil => exact h'
  | cons hhead _ ih =>
    cases h' with
    | cons hhead' htail' => exact .cons (hhead.trans hhead') (ih _ htail')

/-- The open trade is the last one. -/
theorem tradesContinue_of_open {trade trade' : ReplayTrade} {e' : ReplayEngine}
    (hopen : e.openTrade = some trade) (hcontinues : trade.Continues trade')
    (htrades : e'.trades = e.closedTrades ++ [trade']) : e.TradesContinue e' := by
  rw [TradesContinue, htrades, trades, hopen]
  exact List.rel_append (List.forall₂_same.mpr fun t _ => .refl t) (.cons hcontinues .nil)

theorem open_trades (direction : Direction) (quantity : ℚ) :
    (e.openTrade = none → ∃ t, (e.open direction quantity).2.trades = e.trades ++ [t]) ∧
      (e.openTrade ≠ none → (e.open direction quantity).2 = e) := by
  cases hopen : e.openTrade with
  | none =>
    refine ⟨fun _ => ?_, fun h => absurd rfl h⟩
    rw [ReplayEngine.open, hopen, trades, trades, hopen, Option.toList_none, List.append_nil]
    exact ⟨_, rfl⟩
  | some trade =>
    refine ⟨nofun, fun _ => ?_⟩
    rw [ReplayEngine.open, hopen]

theorem setLevel_trades (price : ℚ) {change : ReplayTrade → ReplayTrade}
    (hchange : ∀ t : ReplayTrade, t.Continues (change t)) :
    e.TradesContinue (e.setLevel price change).2 := by
  rcases setLevel_cases e price change with ⟨message, hset⟩ | ⟨trade, hopen, -, hset⟩
  · rw [hset]
    exact .refl e
  · rw [hset]
    exact tradesContinue_of_open hopen (hchange trade) rfl

theorem close_trades (price : Option ℚ) : e.TradesContinue (e.close price).2 := by
  cases hopen : e.openTrade with
  | none =>
    rw [close, hopen]
    exact .refl e
  | some trade =>
    rw [close, hopen]
    dsimp only
    split_ifs
    · refine tradesContinue_of_open hopen ?_ (List.append_nil _)
      exact ⟨rfl, rfl, rfl, rfl⟩
    · exact .refl e

theorem checkStopTarget_trades (candle : Candle) :
    e.TradesContinue (e.checkStopTarget candle).2 := by
  unfold checkStopTarget
  split
  · exact .refl e
  · exact close_trades _

theorem advanceLoop_trades (candle : Candle) (steps : ℕ) :
    e.TradesContinue (e.advanceLoop candle steps).2 := by
  induction steps generalizing e candle with
  | zero => exact .refl e
  | succ steps ih =>
    rw [advanceLoop]
    split
    · exact .refl e
    · -- The clock is none of the trades' business.
      have hcheck : e.TradesContinue
          ({ e with clock := e.clock.nextCandle }.checkStopTarget
            e.clock.nextCandle.currentCandle).2 :=
        checkStopTarget_trades (e := { e with clock := e.clock.nextCandle }) _
      dsimp only
      generalize checkStopTarget _ _ = checked at hcheck ⊢
      obtain ⟨result, e'⟩ := checked
      cases result with
      | error message => exact hcheck
      | ok _ => exact hcheck.trans (ih _)

/-- An action that opens a trade. -/
def Opens (e : ReplayEngine) (action : ReplayAction) : Prop :=
  e.openTrade = none ∧ ∃ quantity, action = .buy quantity ∨ action = .sell quantity

/-- **What an action makes of the trades**: one more, none at all, or the same ones. -/
theorem step_trades (e : ReplayEngine) (action : ReplayAction) :
    (e.Opens action ∧ ∃ t, (e.step action).trades = e.trades ++ [t]) ∨
      (action = .reset ∧ (e.step action).trades = []) ∨
      (¬ e.Opens action ∧ action ≠ .reset ∧ e.TradesContinue (e.step action)) := by
  -- A buy or a sell opens a trade, unless one is open.
  have hopening : ∀ direction quantity, (e.step action = (e.open direction quantity).2) →
      (action = .buy quantity ∨ action = .sell quantity) →
      (e.Opens action ∧ ∃ t, (e.step action).trades = e.trades ++ [t]) ∨
        (¬ e.Opens action ∧ action ≠ .reset ∧ e.TradesContinue (e.step action)) := by
    intro direction quantity hstep haction
    by_cases hopen : e.openTrade = none
    · exact .inl ⟨⟨hopen, quantity, haction⟩, hstep ▸ (open_trades direction quantity).1 hopen⟩
    · refine .inr ⟨fun h => hopen h.1, ?_, ?_⟩
      · rintro rfl
        rcases haction with h | h <;> cases h
      · rw [hstep, (open_trades direction quantity).2 hopen]
        exact .refl e
  -- No other action opens one.
  have hothers : (∀ quantity, action ≠ .buy quantity) → (∀ quantity, action ≠ .sell quantity) →
      ¬ e.Opens action := by
    rintro hbuy hsell ⟨-, quantity, h | h⟩
    · exact hbuy quantity h
    · exact hsell quantity h
  cases action with
  | buy quantity => exact (hopening .long quantity rfl (.inl rfl)).imp_right .inr
  | sell quantity => exact (hopening .short quantity rfl (.inr rfl)).imp_right .inr
  | setStop price =>
    exact .inr (.inr ⟨hothers nofun nofun, nofun,
      setLevel_trades price fun _ => ⟨rfl, rfl, rfl, rfl⟩⟩)
  | setTarget price =>
    exact .inr (.inr ⟨hothers nofun nofun, nofun,
      setLevel_trades price fun _ => ⟨rfl, rfl, rfl, rfl⟩⟩)
  | close price => exact .inr (.inr ⟨hothers nofun nofun, nofun, close_trades price⟩)
  | advance steps =>
    exact .inr (.inr ⟨hothers nofun nofun, nofun, advanceLoop_trades _ steps.toNat⟩)
  | reset => exact .inr (.inl ⟨rfl, rfl⟩)

end ReplayEngine

/-! ## Layer B: Rows -/

/-- The row of a trade. -/
def ReplayOrderRow.of (sessionId : ReplayId) (trade : ReplayTrade) : ReplayOrderRow :=
  (ReplayOrderRow.make sessionId trade).write trade

/-- Written over with what the trade has become, its row is the row of that. -/
theorem ReplayOrderRow.write_of {sessionId : ReplayId} {t t' : ReplayTrade} (h : t.Continues t') :
    ReplayOrderRow.write t' (ReplayOrderRow.of sessionId t) = ReplayOrderRow.of sessionId t' := by
  simp only [ReplayOrderRow.of, ReplayOrderRow.write, ReplayOrderRow.make, h.direction,
    h.entryPrice, h.quantity, h.openedAt]

/-- What a row of `replay_sessions` says of the engine. -/
structure ReplaySessionRow.Shows (row : ReplaySessionRow) (e : ReplayEngine) : Prop where
  currentTime : row.currentTime = e.clock.currentCandle.timestamp
  status : row.status = e.clock.status
  startingBalance : row.startingBalance = numeric e.startingBalance
  balance : row.balance = numeric e.balance
  stats : ∀ stats ∈ row.stats, stats = e.statistics

namespace ReplaySession

variable {s : ReplaySession} {newId : ReplayId} {action : ReplayAction}

/-- The trades have ids of their own, given out before. -/
structure Identified (s : ReplaySession) (newId : ReplayId) : Prop where
  length : s.tradeIds.length = s.engine.trades.length
  nodup : s.tradeIds.Nodup
  issued : ∀ id ∈ s.tradeIds, id < newId

theorem Identified.map_fst (h : s.Identified newId) : s.identified.map Prod.fst = s.tradeIds :=
  List.map_fst_zip h.length.le

theorem idsAfter_opens (h : s.engine.Opens action) :
    s.idsAfter newId action = s.tradeIds ++ [newId] := by
  obtain ⟨hopen, quantity, rfl | rfl⟩ := h <;> simp [idsAfter, hopen]

theorem idsAfter_continues (h : ¬ s.engine.Opens action) (hreset : action ≠ .reset) :
    s.idsAfter newId action = s.tradeIds := by
  have hheld : ∀ quantity, action = .buy quantity ∨ action = .sell quantity →
      s.engine.openTrade.isNone = false := by
    intro quantity haction
    rw [Bool.eq_false_iff, ne_eq, Option.isNone_iff_eq_none]
    exact fun hopen => h ⟨hopen, quantity, haction⟩
  cases action with
  | buy quantity => simp [idsAfter, hheld quantity (.inl rfl)]
  | sell quantity => simp [idsAfter, hheld quantity (.inr rfl)]
  | reset => exact absurd rfl hreset
  | setStop | setTarget | close | advance => rfl

/-- After an action the trades have ids of their own again. -/
theorem Identified.after (h : s.Identified newId) (action : ReplayAction) :
    (s.after newId action).Identified (newId + 1) := by
  rcases s.engine.step_trades action with ⟨hopens, t, htrades⟩ | ⟨rfl, htrades⟩ |
    ⟨hopens, hreset, htrades⟩
  · -- A trade is opened: it takes the new id, which no earlier one has.
    refine ⟨?_, ?_, ?_⟩ <;> simp only [ReplaySession.after, idsAfter_opens hopens, htrades]
    · rw [List.length_append, List.length_append, h.length]
      rfl
    · rw [List.nodup_append]
      exact ⟨h.nodup, List.nodup_singleton _, fun id hid _ hnew heq =>
        absurd (h.issued id hid) (by rw [heq, List.mem_singleton.mp hnew]; exact lt_irrefl _)⟩
    · intro id hid
      rcases List.mem_append.mp hid with hid | hid
      · exact (h.issued id hid).trans (Nat.lt_succ_self _)
      · rw [List.mem_singleton.mp hid]
        exact Nat.lt_succ_self _
  · -- A reset leaves neither trades nor ids.
    refine ⟨?_, ?_, ?_⟩ <;> simp [ReplaySession.after, idsAfter, htrades]
  · -- The other actions keep both lists in step.
    refine ⟨?_, ?_, ?_⟩ <;> simp only [ReplaySession.after, idsAfter_continues hopens hreset]
    · exact h.length.trans htrades.length_eq
    · exact h.nodup
    · exact fun id hid => (h.issued id hid).trans (Nat.lt_succ_self _)

/-- A value of the second list goes on from one of the first with its key. -/
theorem exists_of_mem_zip {α β κ : Type*} {R : α → β → Prop} {as : List α} {bs : List β}
    (h : List.Forall₂ R as bs) {ks : List κ} {k : κ} {b : β} (hmem : (k, b) ∈ ks.zip bs) :
    ∃ a, (k, a) ∈ ks.zip as ∧ R a b := by
  induction h generalizing ks with
  | nil => simp at hmem
  | cons hhead _ ih =>
    cases ks with
    | nil => simp at hmem
    | cons k' ks =>
      rw [List.zip_cons_cons, List.mem_cons] at hmem
      rcases hmem with heq | hmem
      · cases heq
        exact ⟨_, List.mem_cons_self, hhead⟩
      · obtain ⟨a, ha, hR⟩ := ih hmem
        exact ⟨a, List.mem_cons_of_mem _ ha, hR⟩

/-- The order in which `sync_replay_session` writes the trades. -/
def written (s : ReplaySession) : List (ReplayId × ReplayTrade) :=
  s.identified.drop s.engine.closedTrades.length ++ s.identified.take s.engine.closedTrades.length

theorem written_perm (s : ReplaySession) : s.written.Perm s.identified := by
  have hperm : s.written.Perm (s.identified.take s.engine.closedTrades.length ++
      s.identified.drop s.engine.closedTrades.length) := List.perm_append_comm
  rwa [List.take_append_drop] at hperm

/-- A trade that an action leaves is one from before it, or has the new id. -/
theorem Identified.mem_after (h : s.Identified newId) {id : ReplayId} {t' : ReplayTrade}
    (hmem : (id, t') ∈ (s.after newId action).identified) :
    (∃ t, (id, t) ∈ s.identified ∧ t.Continues t') ∨ id = newId := by
  rcases s.engine.step_trades action with ⟨hopens, t, htrades⟩ | ⟨rfl, htrades⟩ |
    ⟨hopens, hreset, htrades⟩
  · rw [identified, ReplaySession.after, idsAfter_opens hopens, htrades, List.zip_append h.length,
      List.mem_append] at hmem
    rcases hmem with hold | hnew
    · exact .inl ⟨t', hold, .refl t'⟩
    · rw [List.zip_cons_cons, List.zip_nil_left, List.mem_singleton] at hnew
      exact .inr (congrArg Prod.fst hnew)
  · rw [identified, ReplaySession.after, htrades, List.zip_nil_right] at hmem
    cases hmem
  · rw [identified, ReplaySession.after, idsAfter_continues hopens hreset] at hmem
    exact .inl (exists_of_mem_zip htrades hmem)

theorem tradeIds_subset (s : ReplaySession) (newId : ReplayId) (hreset : action ≠ .reset) :
    s.tradeIds ⊆ s.idsAfter newId action := by
  by_cases hopens : s.engine.Opens action
  · rw [idsAfter_opens hopens]
    exact List.subset_append_left _ _
  · rw [idsAfter_continues hopens hreset]
    exact List.Subset.refl _

/-- What an action leaves can be written over what there was. -/
theorem Identified.succeeds (h : s.Identified newId) {sessionId : ReplayId}
    {table : Dict ReplayId ReplayOrderRow} (hissued : ∀ k r, table.get? k = some r → k < newId)
    (hreset : action ≠ .reset) :
    Succeeds (ReplayOrderRow.make sessionId) ReplayOrderRow.write (ReplayOrderRow.of sessionId)
      (·.replaySessionId = sessionId) table s.identified (s.after newId action).written where
  nodup := by
    rw [((written_perm _).map Prod.fst).nodup_iff, (h.after action).map_fst]
    exact (h.after action).nodup
  owned _ := rfl
  made _ := rfl
  written id t' hmem := by
    rcases h.mem_after ((written_perm _).mem_iff.mp hmem) with ⟨t, ht, hcontinues⟩ | rfl
    · exact .inl ⟨t, ht, ReplayOrderRow.write_of hcontinues⟩
    · refine .inr (Option.eq_none_iff_forall_ne_some.mpr fun r hr => ?_)
      exact lt_irrefl _ (hissued _ r hr)
  kept item hitem := by
    rw [((written_perm _).map Prod.fst).mem_iff, (h.after action).map_fst]
    exact s.tradeIds_subset newId hreset (h.map_fst ▸ List.mem_map_of_mem hitem)

end ReplaySession

namespace ReplayRequest

/-- Whom the request is authenticated as. -/
def userId : ReplayRequest → Option AccountId
  | create userId _ _ | get userId _ | step userId _ _ | analysis userId _ | reset userId _
  | order userId _ _ | delete userId _ => some userId
  | restart => none

/-- The session in the path of the request. -/
def sessionId : ReplayRequest → Option ReplayId
  | get _ id | step _ id _ | analysis _ id | reset _ id | order _ id _ | delete _ id => some id
  | create _ _ _ | restart => none

/-- Does the request move, reset or trade on a session? -/
def acts : ReplayRequest → Bool
  | step _ _ _ | reset _ _ | order _ _ _ => true
  | create _ _ _ | get _ _ | analysis _ _ | delete _ _ | restart => false

end ReplayRequest

namespace ReplayWorld

/-- A session in memory, and its rows. -/
structure Mirrored (w : ReplayWorld) (id : ReplayId) (s : ReplaySession) : Prop where
  identified : s.Identified w.nextId
  sound : ∃ start, s.engine.Sound start
  swing : 1 ≤ s.swingLength
  row : ∃ row, w.sessionRows.get? id = some row ∧ row.Shows s.engine
  orders : Mirror (ReplayOrderRow.of id) (·.replaySessionId = id) w.orderRows s.identified

structure Sound (w : ReplayWorld) : Prop where
  sessions : ∀ id s, w.sessions.get? id = some s → w.Mirrored id s
  rowsIssued : ∀ id row, w.sessionRows.get? id = some row → id < w.nextId
  ordersIssued : ∀ id row, w.orderRows.get? id = some row →
    id < w.nextId ∧ (w.sessionRows.get? row.replaySessionId).isSome

/-- Nothing of any other session is touched, nor its owner changed. -/
structure OnlyOf (id : ReplayId) (w w' : ReplayWorld) : Prop where
  nextId : w.nextId ≤ w'.nextId
  sessions : ∀ j, j ≠ id → w'.sessions.get? j = w.sessions.get? j
  sessionRows : ∀ j, j ≠ id → w'.sessionRows.get? j = w.sessionRows.get? j
  orderRows : ∀ k row, row.replaySessionId ≠ id →
    (w'.orderRows.get? k = some row ↔ w.orderRows.get? k = some row)

variable {w w' : ReplayWorld} {id j : ReplayId} {s : ReplaySession}

/-- Another session keeps its rows. -/
theorem OnlyOf.mirrored (h : OnlyOf id w w') (hj : j ≠ id) (hm : w.Mirrored j s) :
    w'.Mirrored j s where
  identified := ⟨hm.identified.length, hm.identified.nodup, fun k hk =>
    (hm.identified.issued k hk).trans_le h.nextId⟩
  sound := hm.sound
  swing := hm.swing
  row := by
    rw [h.sessionRows j hj]
    exact hm.row
  orders := hm.orders.congr fun k row hrow => h.orderRows k row (hrow ▸ hj)

/-! ## Layer C: Requests -/

/-- An action that the engine does not refuse: the session moves on, and the rows are written. -/
def acted (w : ReplayWorld) (id : ReplayId) (s : ReplaySession) (action : ReplayAction) :
    ReplayWorld :=
  let s' := s.after w.nextId action
  let moved :=
    { w with
      sessions := w.sessions.set id s'
      nextId := w.nextId + 1 }
  if action = .reset then moved.resetRows id s' else moved.sync id s'

theorem Sound.owned (hw : w.Sound) {userId : AccountId} (hs : w.ownedSession userId id = some s) :
    w.sessions.get? id = some s ∧ w.Mirrored id s ∧
      ∃ row, w.sessionRows.get? id = some row ∧ row.userId = userId ∧ row.Shows s.engine := by
  obtain ⟨hget, howned⟩ := Option.filter_eq_some_iff.mp hs
  have hm := hw.sessions id s hget
  obtain ⟨row, hrow, hshows⟩ := hm.row
  rw [hrow, Option.any_some, decide_eq_true_iff] at howned
  exact ⟨hget, hm, row, hrow, howned, hshows⟩

/-- What is written of a session, over the order rows that the action left. -/
theorem sync_eq {row : ReplaySessionRow} (hrow : w.sessionRows.get? id = some row) :
    w.sync id s =
      { w with
        sessionRows := w.sessionRows.set id
          { row with
            currentTime := s.engine.clock.currentCandle.timestamp
            status := s.engine.clock.status
            balance := numeric s.engine.balance
            stats := some s.engine.statistics }
        orderRows :=
          upsertRows (ReplayOrderRow.make id) ReplayOrderRow.write w.orderRows s.written } := by
  unfold sync
  rw [hrow]
  rfl

/-- The rows that an action's are written over: those of the session, or none of them after a
reset. -/
theorem acted_over (hw : w.Sound) (hm : w.Mirrored id s) (action : ReplayAction) :
    ∃ table items,
      w.acted id s action =
        ({ w with
          sessions := w.sessions.set id (s.after w.nextId action)
          orderRows := table
          nextId := w.nextId + 1 } : ReplayWorld).sync id (s.after w.nextId action) ∧
      Mirror (ReplayOrderRow.of id) (·.replaySessionId = id) table items ∧
      (∀ k row, row.replaySessionId ≠ id →
        (table.get? k = some row ↔ w.orderRows.get? k = some row)) ∧
      Succeeds (ReplayOrderRow.make id) ReplayOrderRow.write (ReplayOrderRow.of id)
        (·.replaySessionId = id) table items (s.after w.nextId action).written := by
  -- A reset deletes the rows of the session, and writes none again.
  by_cases hreset : action = .reset
  · subst hreset
    refine ⟨w.orderRows.filter fun row => row.replaySessionId ≠ id, [], ?_, ?_, ?_, ?_⟩
    · rw [acted, if_pos rfl, resetRows]
    · intro k row
      rw [Dict.get?_filter, Option.filter_eq_some_iff]
      simp only [ne_eq, decide_not, Bool.not_eq_true', decide_eq_false_iff_not, List.not_mem_nil,
        false_and, exists_false, iff_false]
      exact fun h => h.1.2 h.2
    · intro k row hne
      rw [Dict.get?_filter, Option.filter_eq_some_iff]
      simp [hne]
    · have hnone : (s.after w.nextId .reset).written = [] := by
        rw [← List.length_eq_zero_iff, (ReplaySession.written_perm _).length_eq]
        rfl
      rw [hnone]
      exact {
        nodup := List.nodup_nil
        owned := fun _ => rfl
        made := fun _ => rfl
        written := fun _ _ h => absurd h List.not_mem_nil
        kept := fun _ h => absurd h List.not_mem_nil }
  · -- Any other action writes over the rows that are there.
    refine ⟨w.orderRows, s.identified, ?_, hm.orders, fun _ _ _ => Iff.rfl,
      hm.identified.succeeds (fun k r hr => (hw.ordersIssued k r hr).1) hreset⟩
    rw [acted, if_neg hreset]

/-- What an action leaves: the mirror of its session, and every other session untouched. -/
structure Acted (w : ReplayWorld) (id : ReplayId) (s' : ReplaySession) (w' : ReplayWorld) :
    Prop where
  mirrored : w'.Mirrored id s'
  others : OnlyOf id w w'
  session : w'.sessions.get? id = some s'
  orders : ∀ k row, w'.orderRows.get? k = some row →
    k < w'.nextId ∧ (row.replaySessionId = id ∨ w.orderRows.get? k = some row)
  owner : ∃ row row', w.sessionRows.get? id = some row ∧ w'.sessionRows.get? id = some row' ∧
    row'.userId = row.userId ∧ row'.stats.isSome

theorem acted_spec (hw : w.Sound) (hm : w.Mirrored id s) (action : ReplayAction) :
    Acted w id (s.after w.nextId action) (w.acted id s action) := by
  obtain ⟨row, hrow, hshows⟩ := hm.row
  obtain ⟨start, hsound⟩ := hm.sound
  have hstep := ReplayEngine.sound_act hsound action
  have hafter := hm.identified.after action
  have hstarting : (s.after w.nextId action).engine.startingBalance = s.engine.startingBalance :=
    hstep.started.trans hsound.started.symm
  obtain ⟨table, items, hacted, hmirror, hothers, hsucceeds⟩ := acted_over hw hm action
  -- The rows of the session are those of its trades after the action.
  have hrows : Mirror (ReplayOrderRow.of id) (·.replaySessionId = id)
      (upsertRows (ReplayOrderRow.make id) ReplayOrderRow.write table
        (s.after w.nextId action).written) (s.after w.nextId action).identified := by
    intro k r
    rw [hmirror.upsertRows hsucceeds k r]
    simp only [(ReplaySession.written_perm _).mem_iff]
  -- The rows of other sessions are left.
  have hforeign : ∀ k r, r.replaySessionId ≠ id →
      ((upsertRows (ReplayOrderRow.make id) ReplayOrderRow.write table
        (s.after w.nextId action).written).get? k = some r ↔ w.orderRows.get? k = some r) :=
    fun k r hne => (hmirror.get?_upsertRows_others hsucceeds k hne).trans (hothers k r hne)
  -- Last the session's own row is written.
  have hsync := sync_eq (s := s.after w.nextId action)
    (w := { w with
      sessions := w.sessions.set id (s.after w.nextId action)
      orderRows := table
      nextId := w.nextId + 1 }) hrow
  rw [hacted, hsync]
  exact {
    mirrored := {
      identified := hafter
      sound := ⟨start, hstep⟩
      swing := hm.swing
      row := ⟨_, Dict.get?_set_self _ _ _, {
        currentTime := rfl
        status := rfl
        startingBalance := by rw [hstarting]; exact hshows.startingBalance
        balance := rfl
        stats := fun stats h => (Option.some.inj h).symm }⟩
      orders := hrows }
    others := {
      nextId := Nat.le_succ _
      sessions := fun j hj => Dict.get?_set_of_ne _ (Ne.symm hj) _
      sessionRows := fun j hj => Dict.get?_set_of_ne _ (Ne.symm hj) _
      orderRows := hforeign }
    session := Dict.get?_set_self _ _ _
    -- Every order row has an id that was issued, and is the session's own or an older one.
    orders := by
      intro k r hr
      by_cases howned : r.replaySessionId = id
      · obtain ⟨t, hmem, -⟩ := (hrows k r).mp ⟨hr, howned⟩
        exact ⟨hafter.issued k (hafter.map_fst ▸ List.mem_map_of_mem hmem), .inl howned⟩
      · have hold := (hforeign k r howned).mp hr
        exact ⟨(hw.ordersIssued k r hold).1.trans (Nat.lt_succ_self _), .inr hold⟩
    owner := ⟨row, _, hrow, Dict.get?_set_self _ _ _, rfl, rfl⟩ }

/-- A request for an action on the session of a user. -/
def Acts (userId : AccountId) (id : ReplayId) (action : ReplayAction) : ReplayRequest → Prop
  | .step userId' id' steps => userId' = userId ∧ id' = id ∧ action = .advance steps
  | .reset userId' id' => userId' = userId ∧ id' = id ∧ action = .reset
  | .order userId' id' payload => userId' = userId ∧ id' = id ∧ payload.toAction = some action
  | _ => False

theorem Acts.acts {userId : AccountId} {action : ReplayAction} {r : ReplayRequest}
    (h : Acts userId id action r) :
    r.acts = true ∧ r.userId = some userId ∧ r.sessionId = some id := by
  cases r with
  | step | reset | order => exact ⟨rfl, congrArg some h.1, congrArg some h.2.1⟩
  | create | get | analysis | delete | restart => cases h

/-- What a request is answered with, and what it leaves. -/
inductive Handled (w : ReplayWorld) (r : ReplayRequest) :
    Except ReplayHttpError ReplayAnswer × ReplayWorld → Prop
  | refused (error : ReplayHttpError) (hcaught : ∀ message, error ≠ .internal message) :
    Handled w r (.error error, w)
  | read (answer : ReplayAnswer) (hacts : r.acts = false) : Handled w r (.ok answer, w)
  | acted (userId : AccountId) (id : ReplayId) (s : ReplaySession) (action : ReplayAction)
    (hr : Acts userId id action r) (hs : w.ownedSession userId id = some s) :
    Handled w r
      (.ok (.state ((s.after w.nextId action).response id)), w.acted id s action)
  | created (userId : AccountId) (s : ReplaySession) (row : ReplaySessionRow)
    (hids : s.tradeIds = []) (htrades : s.engine.trades = []) (hswing : 1 ≤ s.swingLength)
    (hsound : ∃ start, s.engine.Sound start) (hshows : row.Shows s.engine)
    (howner : row.userId = userId) (hstats : row.stats = none) (hacts : r.acts = false) :
    Handled w r
      (.ok (.state (s.response w.nextId)),
        { w with
          sessions := w.sessions.set w.nextId s
          sessionRows := w.sessionRows.set w.nextId row
          nextId := w.nextId + 1 })
  | forgot (sessions : Dict ReplayId ReplaySession)
    (hsessions : ∀ id s, sessions.get? id = some s → w.sessions.get? id = some s)
    (hacts : r.acts = false) : Handled w r (.ok .noContent, { w with sessions := sessions })

/-- A route refuses a user without the session. -/
theorem handled_withSession {r : ReplayRequest} {userId : AccountId}
    {route : ReplaySession → Except ReplayHttpError ReplayAnswer × ReplayWorld}
    (h : ∀ s, w.ownedSession userId id = some s → Handled w r (route s)) :
    Handled w r (w.withSession userId id route) := by
  unfold withSession
  cases hs : w.ownedSession userId id with
  | none => exact .refused noSession nofun
  | some s => exact h s hs

/-- An action is done, or refused without a trace. -/
theorem handled_act (hw : w.Sound) {r : ReplayRequest} {userId : AccountId}
    {action : ReplayAction} (hr : Acts userId id action r)
    (hs : w.ownedSession userId id = some s) {raised : String → ReplayHttpError}
    (hraised : (∃ message, (s.engine.act action).1 = .error message) →
      ∀ message message', raised message ≠ .internal message')
    {write : ReplayWorld → ReplaySession → ReplayWorld}
    (hwrite : (∃ value, (s.engine.act action).1 = .ok value) →
      ∀ w', write w' (s.after w.nextId action) =
        if action = .reset then w'.resetRows id (s.after w.nextId action)
        else w'.sync id (s.after w.nextId action)) :
    Handled w r (w.act id s action raised write) := by
  obtain ⟨hget, hm, -⟩ := hw.owned hs
  obtain ⟨start, hsound⟩ := hm.sound
  unfold act
  cases hact : (s.engine.act action).1 with
  | error message =>
    have hengine : s.engine.step action = s.engine := ReplayEngine.act_error hsound hact
    -- A refused action opens nothing, so that no id is taken.
    have hids : s.idsAfter w.nextId action = s.tradeIds := by
      refine ReplaySession.idsAfter_continues (fun hopens => ?_) (fun hreset => ?_)
      · rcases s.engine.step_trades action with ⟨-, t, htrades⟩ | ⟨hreset, -⟩ | ⟨hnot, -⟩
        · rw [hengine] at htrades
          exact absurd htrades (by simp)
        · rw [hreset] at hact
          cases hact
        · exact hnot hopens
      · rw [hreset] at hact
        cases hact
    have hsame : s.after w.nextId action = s := by
      unfold ReplaySession.after
      rw [hengine, hids]
    simp only [hsame, Dict.set_of_get? hget]
    exact .refused _ (hraised ⟨message, hact⟩ message)
  | ok value =>
    simp only [hwrite ⟨value, hact⟩]
    exact .acted userId id s action hr hs

theorem handled_create (payload : CreateReplayRequest) (userId : AccountId) (candles : List Candle)
    {r : ReplayRequest} (hacts : r.acts = false) :
    Handled w r (w.create userId payload candles) := by
  unfold create
  split_ifs with h
  · have hfunded : |payload.startingBalance| < maxJournalled := by
      rw [abs_of_pos payload.balance_range.1]
      exact payload.balance_range.2
    exact .created userId _ _ rfl rfl payload.swing_range.1
      ⟨payload.startingBalance, .of_fresh rfl hfunded rfl rfl rfl⟩
      ⟨rfl, rfl, rfl, rfl, fun _ hstats => by cases hstats⟩ rfl rfl hacts
  · exact .refused _ nofun

/-- The analysis of a session returns: its swing length is one that the engine takes. -/
theorem analyze_returns (h : 1 ≤ s.swingLength) : ∃ analysis, s.analyze = .ok analysis := by
  unfold ReplaySession.analyze Smc.analyze Smc.detectSwings
  rw [if_neg (not_lt.mpr h)]
  exact ⟨_, rfl⟩

theorem Sound.handle_handled (hw : w.Sound) (r : ReplayRequest) : Handled w r (w.handle r) := by
  cases r with
  | create userId payload candles => exact handled_create payload userId candles rfl
  | get userId id => exact handled_withSession fun s _ => .read _ rfl
  | step userId id steps =>
    refine handled_withSession fun s hs => ?_
    obtain ⟨-, hm, -⟩ := hw.owned hs
    obtain ⟨start, hsound⟩ := hm.sound
    have hacts : Acts userId id (.advance steps) (.step userId id steps) := ⟨rfl, rfl, rfl⟩
    refine handled_act hw hacts hs ?_ fun _ w' => (if_neg nofun).symm
    -- The clock never stops on an order that the engine refuses.
    rintro ⟨message, hact⟩
    obtain ⟨⟨shown, hok⟩, -⟩ := ReplayEngine.advanceLoop_sound hsound
      s.engine.clock.currentCandle steps.toNat
    simp [ReplayEngine.act, ReplayEngine.advance, hok, Except.map] at hact
  -- The analysis only reads, and always returns.
  | analysis userId id =>
    refine handled_withSession fun s hs => ?_
    obtain ⟨-, hm, -⟩ := hw.owned hs
    obtain ⟨analysis, hanalysis⟩ := analyze_returns hm.swing
    rw [hanalysis]
    exact .read _ rfl
  -- A reset is an action that no state refuses.
  | reset userId id =>
    refine handled_withSession fun s hs => ?_
    have hacts : Acts userId id .reset (.reset userId id) := ⟨rfl, rfl, rfl⟩
    refine handled_act hw hacts hs ?_ fun _ w' => (if_pos rfl).symm
    rintro ⟨message, hact⟩
    cases hact
  | order userId id payload =>
    refine handled_withSession fun s hs => ?_
    -- Only the payloads of a known action act, and none of them resets.
    cases haction : payload.toAction with
    | none => exact .refused _ fun _ h => by cases h
    | some action =>
      have hacts : Acts userId id action (.order userId id payload) := ⟨rfl, rfl, haction⟩
      have hreset : action ≠ .reset := by
        rintro rfl
        revert haction
        unfold ReplayOrderRequest.toAction
        split_ifs <;> simp
      refine handled_act hw hacts hs (fun _ _ _ h => by cases h) fun _ w' => (if_neg hreset).symm
  -- To delete is to forget one session, and to restart is to forget all.
  | delete userId id =>
    refine handled_withSession fun s _ => .forgot _ (fun j s' hget => ?_) rfl
    rw [Dict.get?_erase] at hget
    split_ifs at hget
    exact hget
  | restart => exact .forgot _ (fun _ _ hget => by cases hget) rfl

/-- What a new session shows and owns: nothing yet. -/
theorem mirrored_created (hw : w.Sound) {row : ReplaySessionRow} (hids : s.tradeIds = [])
    (htrades : s.engine.trades = []) (hswing : 1 ≤ s.swingLength)
    (hsound : ∃ start, s.engine.Sound start) (hshows : row.Shows s.engine) :
    Mirrored
      { w with
        sessions := w.sessions.set w.nextId s
        sessionRows := w.sessionRows.set w.nextId row
        nextId := w.nextId + 1 } w.nextId s where
  identified := {
    length := by simp [hids, htrades]
    nodup := hids ▸ List.nodup_nil
    issued := by simp [hids] }
  sound := hsound
  swing := hswing
  row := ⟨row, Dict.get?_set_self _ _ _, hshows⟩
  orders := by
    intro k r
    rw [ReplaySession.identified, hids, List.zip_nil_left]
    simp only [List.not_mem_nil, false_and, exists_false, iff_false, not_and]
    -- No order is one of a session that was not there.
    intro hr hid
    obtain ⟨row', hrow'⟩ := Option.isSome_iff_exists.mp (hw.ordersIssued k r hr).2
    exact absurd (hw.rowsIssued _ _ hrow') (hid ▸ lt_irrefl _)

/-- **Every request keeps the rows in step.** -/
theorem Sound.step (hw : w.Sound) (r : ReplayRequest) : (w.step r).Sound := by
  unfold ReplayWorld.step
  rcases hhandled : w.handle r with ⟨answer, w'⟩
  have h := hw.handle_handled r
  rw [hhandled] at h
  cases h with
  -- Nothing has moved.
  | refused | read => exact hw
  -- A delete or a restart forgets sessions, and what is left was a session before.
  | forgot sessions hsessions =>
    exact {
      sessions := fun id s hget => {
        identified := (hw.sessions id s (hsessions id s hget)).identified
        sound := (hw.sessions id s (hsessions id s hget)).sound
        swing := (hw.sessions id s (hsessions id s hget)).swing
        row := (hw.sessions id s (hsessions id s hget)).row
        orders := (hw.sessions id s (hsessions id s hget)).orders }
      rowsIssued := hw.rowsIssued
      ordersIssued := hw.ordersIssued }
  -- The session that acted mirrors its row again; the others and their rows are untouched.
  | acted userId id s action hr hs =>
    obtain ⟨hget, hm, -⟩ := hw.owned hs
    have hacted := acted_spec hw hm action
    obtain ⟨row, row', hrow, hrow', -⟩ := hacted.owner
    -- An order row keeps the session row it belongs to, since no session row goes away.
    have hkept : ∀ j, (w.sessionRows.get? j).isSome →
        ((w.acted id s action).sessionRows.get? j).isSome := by
      intro j hj
      by_cases hid : j = id
      · rw [hid, hrow']
        rfl
      · rwa [hacted.others.sessionRows j hid]
    exact {
      sessions := by
        intro j s' hj
        by_cases hid : j = id
        · subst hid
          rw [hacted.session] at hj
          exact Option.some.inj hj ▸ hacted.mirrored
        · rw [hacted.others.sessions j hid] at hj
          exact hacted.others.mirrored hid (hw.sessions j s' hj)
      rowsIssued := by
        intro j row'' hj
        refine lt_of_lt_of_le ?_ hacted.others.nextId
        by_cases hid : j = id
        · exact hid ▸ hw.rowsIssued id row hrow
        · exact hw.rowsIssued j row'' (hacted.others.sessionRows j hid ▸ hj)
      ordersIssued := by
        intro k r' hr'
        obtain ⟨hlt, hid | hold⟩ := hacted.orders k r' hr'
        · exact ⟨hlt, hid ▸ hkept id (by rw [hrow]; rfl)⟩
        · exact ⟨hlt, hkept _ (hw.ordersIssued k r' hold).2⟩ }
  -- A new session and its row come under an id that no row has had.
  | created userId s row hids htrades hswing hsound hshows howner =>
    have hfresh : ∀ j, (w.sessionRows.get? j).isSome → w.nextId ≠ j := by
      rintro j hj rfl
      obtain ⟨row', hrow'⟩ := Option.isSome_iff_exists.mp hj
      exact lt_irrefl _ (hw.rowsIssued _ row' hrow')
    exact {
      sessions := by
        intro j s' hj
        dsimp only at hj
        rw [Dict.get?_set] at hj
        split_ifs at hj with hid
        · subst hid
          exact Option.some.inj hj ▸ mirrored_created hw hids htrades hswing hsound hshows
        · -- Every older session keeps what it mirrors.
          refine OnlyOf.mirrored (show OnlyOf w.nextId w _ from ?_) (Ne.symm hid)
            (hw.sessions j s' hj)
          exact {
            nextId := Nat.le_succ _
            sessions := fun j hj => Dict.get?_set_of_ne _ (Ne.symm hj) _
            sessionRows := fun j hj => Dict.get?_set_of_ne _ (Ne.symm hj) _
            orderRows := fun _ _ _ => Iff.rfl }
      rowsIssued := by
        intro j row' hj
        dsimp only at hj
        rw [Dict.get?_set] at hj
        split_ifs at hj with hid
        · exact hid ▸ Nat.lt_succ_self _
        · exact (hw.rowsIssued j row' hj).trans (Nat.lt_succ_self _)
      ordersIssued := by
        intro k r' hr'
        obtain ⟨hlt, hsome⟩ := hw.ordersIssued k r' hr'
        refine ⟨hlt.trans (Nat.lt_succ_self _), ?_⟩
        dsimp only
        rwa [Dict.get?_set_of_ne _ (hfresh _ hsome)] }

end ReplayWorld

/-! ## Layer D: Runs -/

namespace ReplayWorld

variable {w : ReplayWorld} {id : ReplayId} {s : ReplaySession} {row : ReplaySessionRow}

theorem sound_run (requests : List ReplayRequest) : (run step {} requests).Sound :=
  invariant_run (fun _ r h => h.step r) requests
    ⟨fun _ _ h => (by cases h), fun _ _ h => (by cases h), fun _ _ h => (by cases h)⟩

/-- The request is an action on the session, and is not refused. -/
def CarriesOut (w : ReplayWorld) (id : ReplayId) (r : ReplayRequest) : Prop :=
  r.acts = true ∧ r.sessionId = some id ∧ (w.handle r).1.isOk = true

/-- One of the requests is an action on the session, and was not refused. -/
def ActedOn (id : ReplayId) (requests : List ReplayRequest) : Prop :=
  ∃ before r after, requests = before ++ r :: after ∧ (run step {} before).CarriesOut id r

/-- The row of the session has its statistics. -/
def HasStats (w : ReplayWorld) (id : ReplayId) : Prop :=
  ∃ row, w.sessionRows.get? id = some row ∧ row.stats.isSome = true

/-- Actions write the statistics, and nothing takes them away. -/
theorem Sound.hasStats_step (hw : w.Sound) (r : ReplayRequest) :
    (w.step r).HasStats id ↔ w.HasStats id ∨ w.CarriesOut id r := by
  unfold ReplayWorld.step CarriesOut
  have hhandled := hw.handle_handled r
  generalize w.handle r = handled at hhandled ⊢
  cases hhandled with
  | refused error hcaught => simp [Except.isOk, Except.toBool]
  | read answer hacts => simp [hacts]
  | forgot sessions hsessions hacts => simp [hacts, HasStats]
  | acted userId j s action hr hs =>
    obtain ⟨hget, hm, -⟩ := hw.owned hs
    have hacted := acted_spec hw hm action
    obtain ⟨hacts, -, hid⟩ := hr.acts
    by_cases hj : id = j
    · -- The action is on the session itself.
      subst hj
      obtain ⟨row, row', -, hrow', -, hstats⟩ := hacted.owner
      exact iff_of_true ⟨row', hrow', hstats⟩ (.inr ⟨hacts, hid, rfl⟩)
    · have hother : ¬ r.sessionId = some id := fun heq =>
        hj (Option.some.inj (heq.symm.trans hid))
      simp only [HasStats, hacted.others.sessionRows id hj, hother, false_and, and_false, or_false]
  | created userId s row hids htrades hswing hsound hshows howner hstats hacts =>
    rw [hacts]
    by_cases hj : w.nextId = id
    · -- A new session has none, and no row before had its id.
      subst hj
      have hnew : ¬ w.HasStats w.nextId := by
        rintro ⟨row', hrow', -⟩
        exact lt_irrefl _ (hw.rowsIssued _ row' hrow')
      simp [HasStats, Dict.get?_set_self, hstats] at hnew ⊢
      exact hnew
    · simp [HasStats, Dict.get?_set_of_ne _ hj]

theorem hasStats_run (requests : List ReplayRequest) :
    (run step {} requests).HasStats id ↔ ActedOn id requests := by
  induction requests using List.reverseRecOn with
  | nil =>
    apply iff_of_false
    · rintro ⟨row, hrow, -⟩
      cases hrow
    · rintro ⟨before, r, after, hnil, -⟩
      exact absurd hnil.symm (by simp)
  | append_singleton requests r ih =>
    have hrun : run step {} (requests ++ [r]) = (run step {} requests).step r := List.foldl_append
    rw [hrun, (sound_run requests).hasStats_step, ih]
    -- What acted on the session acted before the last request, or the last one did.
    constructor
    · rintro (⟨before, r', after, rfl, h⟩ | h)
      · exact ⟨before, r', after ++ [r], by simp, h⟩
      · exact ⟨requests, r, [], rfl, h⟩
    · rintro ⟨before, r', after, heq, h⟩
      rcases List.eq_nil_or_concat after with rfl | ⟨after', last, rfl⟩
      · obtain ⟨rfl, hlast⟩ := List.append_inj' heq rfl
        cases hlast
        exact .inr h
      · left
        rw [List.concat_eq_append, ← List.cons_append, ← List.append_assoc] at heq
        obtain ⟨rfl, -⟩ := List.append_inj' heq rfl
        exact ⟨before, r', after', rfl, h⟩

/-- A user buys, moves the clock past the stop, and sells. -/
def stoppedLong : List ReplayRequest :=
  [.create "owner" { instrumentId := "nifty", timeframe := "15m" }
      [{ timestamp := 0, «open» := 100, high := 101, low := 99, close := 100 },
        { timestamp := 1, «open» := 99, high := 99, low := 94, close := 95 }],
    .order "owner" 0 { action := "buy" },
    .order "owner" 0
      { action := "set_stop", price := some 96, price_range := by norm_num [maxJournalled] },
    .step "owner" 0 1,
    .order "owner" 0 { action := "sell" }]

/-- A route answers that there is no session exactly if there is none of the user's. -/
theorem withSession_noSession {userId : AccountId}
    {route : ReplaySession → Except ReplayHttpError ReplayAnswer × ReplayWorld}
    (h : ∀ s, (route s).1 ≠ .error noSession) :
    (w.withSession userId id route).1 = .error noSession ↔ w.ownedSession userId id = none := by
  unfold withSession
  cases w.ownedSession userId id with
  | none => exact iff_of_true rfl rfl
  | some s => exact iff_of_false (h s) nofun

theorem act_ne_noSession {action : ReplayAction} {raised : String → ReplayHttpError}
    {write : ReplayWorld → ReplaySession → ReplayWorld}
    (h : ∀ message, raised message ≠ noSession) :
    (w.act id s action raised write).1 ≠ .error noSession := by
  unfold act
  cases (s.engine.act action).1 with
  | error message => exact fun heq => h message (Except.error.inj heq)
  | ok _ => exact nofun

theorem handle_noSession {r : ReplayRequest} {userId : AccountId} (hid : r.sessionId = some id)
    (huser : r.userId = some userId) :
    (w.handle r).1 = .error noSession ↔ w.ownedSession userId id = none := by
  cases r with
  -- What names no session is never refused for it.
  | create | restart => cases hid
  | get | delete =>
    cases hid
    cases huser
    exact withSession_noSession fun _ => nofun
  | step | reset =>
    cases hid
    cases huser
    exact withSession_noSession fun _ => act_ne_noSession fun _ => nofun
  -- The analysis has refusals of its own, none of them this one.
  | analysis =>
    cases hid
    cases huser
    refine withSession_noSession fun s => ?_
    cases s.analyze <;> exact nofun
  -- So has an order with an action that is unknown.
  | order _ _ payload =>
    cases hid
    cases huser
    refine withSession_noSession fun s => ?_
    cases payload.toAction with
    | none => exact fun h => by cases h
    | some action => exact act_ne_noSession fun _ => nofun

/-- The rows of a session, and that it is not in memory, if it is not. -/
structure Kept (id : ReplayId) (row : ReplaySessionRow) (w w' : ReplayWorld) : Prop where
  sessionRow : w'.sessionRows.get? id = some row
  orderRows : ∀ k order, order.replaySessionId = id →
    (w'.orderRows.get? k = some order ↔ w.orderRows.get? k = some order)
  gone : w.sessions.get? id = none → w'.sessions.get? id = none

/-- The rows of a session are only written for its owner, and only while it is in memory. -/
theorem Sound.kept_step (hw : w.Sound) (hrow : w.sessionRows.get? id = some row) (r : ReplayRequest)
    (h : w.sessions.get? id = none ∨ r.userId ≠ some row.userId) : Kept id row w (w.step r) := by
  unfold ReplayWorld.step
  have hhandled := hw.handle_handled r
  generalize w.handle r = handled at hhandled ⊢
  cases hhandled with
  | refused | read => exact ⟨hrow, fun _ _ _ => Iff.rfl, fun hgone => hgone⟩
  | forgot sessions hsessions =>
    refine ⟨hrow, fun _ _ _ => Iff.rfl, fun hgone => Option.eq_none_iff_forall_ne_some.mpr ?_⟩
    intro s hs
    rw [hsessions id s hs] at hgone
    cases hgone
  | created userId s row' =>
    have hne : w.nextId ≠ id := fun heq => lt_irrefl _ (heq ▸ hw.rowsIssued id row hrow)
    exact ⟨by rw [Dict.get?_set_of_ne _ hne]; exact hrow, fun _ _ _ => Iff.rfl, fun hgone => by
      rw [Dict.get?_set_of_ne _ hne]; exact hgone⟩
  | acted userId j s action hr hs =>
    obtain ⟨hget, hm, row', hrow', howner, -⟩ := hw.owned hs
    have huser : r.userId = some userId := hr.acts.2.1
    -- The session that acts is another one.
    have hne : id ≠ j := by
      rintro rfl
      rcases h with hgone | hforeign
      · rw [hgone] at hget
        cases hget
      · rw [hrow] at hrow'
        cases hrow'
        exact hforeign (huser.trans (congrArg some howner.symm))
    have hothers := (acted_spec hw hm action).others
    exact ⟨(hothers.sessionRows id hne).trans hrow,
      fun k order horder => hothers.orderRows k order (horder ▸ hne),
      fun hgone => (hothers.sessions id hne).trans hgone⟩

/-- **Nobody else's requests reach the rows of a session**, and once it has left the memory, by its
end or by a restart, none do. -/
theorem rows_kept (before after : List ReplayRequest)
    (hrow : (run step {} before).sessionRows.get? id = some row)
    (h : (run step {} before).sessions.get? id = none ∨ ∀ r ∈ after, r.userId ≠ some row.userId) :
    (run step {} (before ++ after)).sessionRows.get? id = some row ∧
      ∀ k order, order.replaySessionId = id →
        ((run step {} (before ++ after)).orderRows.get? k = some order ↔
          (run step {} before).orderRows.get? k = some order) := by
  have hw := sound_run before
  rw [show run step {} (before ++ after) = run step (run step {} before) after from
    List.foldl_append]
  generalize run step {} before = w at hw hrow h ⊢
  induction after generalizing w with
  | nil => exact ⟨hrow, fun _ _ _ => Iff.rfl⟩
  | cons r after ih =>
    have hkept := hw.kept_step hrow r (h.imp_right fun hforeign => hforeign r List.mem_cons_self)
    obtain ⟨hrow', horders⟩ := ih (w.step r) (hw.step r) hkept.sessionRow
      (h.imp hkept.gone fun hforeign r' hr' => hforeign r' (List.mem_cons_of_mem _ hr'))
    exact ⟨hrow', fun k order horder =>
      (horders k order horder).trans (hkept.orderRows k order horder)⟩

/-- The requests of another user do nothing to the rows, nor do the owner's after a restart. -/
theorem rows_kept_stoppedLong :
    ∃ row,
      (run step {} (stoppedLong ++ [.restart] ++
        [.step "other" 0 1, .reset "owner" 0])).sessionRows.get? 0 = some row ∧
      ∀ k order, order.replaySessionId = 0 →
        ((run step {} (stoppedLong ++ [.restart] ++
            [.step "other" 0 1, .reset "owner" 0])).orderRows.get? k = some order ↔
          (run step {} (stoppedLong ++ [.restart])).orderRows.get? k = some order) := by
  have hsome : ((run step {} (stoppedLong ++ [.restart])).sessionRows.get? 0).isSome := by
    decide +kernel
  obtain ⟨row, hrow⟩ := Option.isSome_iff_exists.mp hsome
  exact ⟨row, rows_kept (stoppedLong ++ [.restart]) [.step "other" 0 1, .reset "owner" 0] hrow
    (.inl rfl)⟩

end ReplayWorld

end SuperTrading
