import SuperTrading.Api.Paper
import SuperTrading.Logic.Texts

/-!
# The Rows of the Paper Sessions

A session mirrors its record on every candle. It adds a row where it opens a position, as long as
every candle that finds the record flat opens one: a candle that leaves it flat adds a row of a
position that was never opened.

- **Layer A**: what a candle leaves of a session and its rows
- **Layer B**: what each route keeps
- **Layer C**: runs
-/

namespace SuperTrading

open SuperTrading.Logic
open Smc (Candle)

/-! ## Layer A: One call -/

/-- Sessions have source keys of their own. -/
theorem paperSourceKey_inj {i j : PaperSessionId} (h : paperSourceKey i = paperSourceKey j) :
    i = j := by
  have hlist := congrArg String.toList h
  exact toDigits_inj (by simpa [paperSourceKey, String.toList_append] using hlist)

namespace PaperTradingEngine

variable {e : PaperTradingEngine} {a : PaperAccount}

/-- An engine with the default limits never raises: what it enters is of something. -/
theorem onCandle_returns (analyze : Analysis) (env : PaperEnv) (candle : Candle)
    (hplain : a.broker.Plain) (hlimits : e.limits = {}) :
    ∃ outcome e' a', e.onCandle analyze a env candle = .ok (outcome, e', a') := by
  cases hheld : (e.position a).any PositionRecord.isOpen with
  | true =>
    obtain ⟨p, hp, hopen⟩ := (Option.any_eq_true ..).mp hheld
    cases hhit : trigger p candle with
    | none =>
      obtain ⟨a', hcall, -⟩ := onCandle_hold analyze env hplain hp hopen hhit
      exact ⟨_, _, a', hcall⟩
    | some hit =>
      obtain ⟨outcome, e', a', hcall, -⟩ := onCandle_hit analyze env hplain hp hopen hhit
      exact ⟨outcome, e', a', hcall⟩
  | false =>
    rcases onCandle_flat analyze env candle hplain hheld with
      ⟨⟨-, hnothing⟩, -⟩ | ⟨outcome, e', a', hcall, -⟩
    · -- With the default limits an entry is never of nothing.
      refine absurd ⟨?_, ?_⟩ hnothing
      · rw [hlimits]
        decide +kernel
      · rw [hlimits]
        simp
    · exact ⟨outcome, e', a', hcall⟩

end PaperTradingEngine

namespace PaperWorld

variable {analyze : Analysis} {w : PaperWorld} {userId : AccountId} {id : PaperSessionId}
  {s : PaperApiSession}

theorem ownedSession_eq_some : w.ownedSession userId id = some s ↔
    w.sessions.get? id = some s ∧ s.engine.accountId = userId := by
  rw [ownedSession, Option.filter_eq_some_iff, decide_eq_true_iff]

/-- The rows that a session has written for a user. -/
def rowsOf (w : PaperWorld) (userId : AccountId) (id : PaperSessionId) : ℕ :=
  (w.rows userId).positions.countP fun row => row.sourceKey = paperSourceKey id

/-- Does the user have a position open in the session? -/
def isOpen (w : PaperWorld) (userId : AccountId) (id : PaperSessionId) : Bool :=
  (w.ownedSession userId id).any fun s => s.position.any PositionRecord.isOpen

/-- The open row of a session. -/
def openRows (w : PaperWorld) (id : PaperSessionId) (s : PaperApiSession) : List PositionRow :=
  (w.rows s.engine.accountId).openRowsOf .paper (paperSourceKey id) s.engine.symbol

/-- A session in memory has an id that was given out, and an open row exactly if its position is
open. -/
structure Mirrored (w : PaperWorld) (id : PaperSessionId) (s : PaperApiSession) : Prop where
  issued : id < w.nextId
  plain : s.account.broker.Plain
  limits : s.engine.limits = {}
  rows : (w.openRows id s).length = if s.position.any PositionRecord.isOpen then 1 else 0

structure Sound (w : PaperWorld) : Prop where
  sessions : ∀ id s, w.sessions.get? id = some s → w.Mirrored id s
  unissued : ∀ userId id, w.nextId ≤ id → w.rowsOf userId id = 0

/-- What a candle leaves of the session it is for, and of the rows. -/
structure CandleLeft (analyze : Analysis) (w : PaperWorld) (id : PaperSessionId)
    (s : PaperApiSession) (env : PaperEnv) (candle : Candle) (w' : PaperWorld)
    (s' : PaperApiSession) : Prop where
  sessions : w'.sessions = w.sessions.set id s'
  nextId : w'.nextId = w.nextId
  accountId : s'.engine.accountId = s.engine.accountId
  symbol : s'.engine.symbol = s.engine.symbol
  limits : s'.engine.limits = s.engine.limits
  plain : s'.account.broker.Plain
  moves : PaperTradingEngine.RecordMoves s.position
    (s.engine.Enters analyze s.account (engineEnv env) candle) s'.position
  rows : w'.rows = s'.position.elim w.rows fun position =>
    Function.update w.rows s.engine.accountId
      ((w.rows s.engine.accountId).persistPosition position .paper (paperSourceKey id))

/-- A candle of a session: the engine moves on, and its record is mirrored. -/
theorem feedCandle_owned (analyze : Analysis) (hs : w.ownedSession userId id = some s)
    (h : w.Mirrored id s) (r : FeedCandleRequest) (env : PaperEnv) :
    ∃ s', CandleLeft analyze w id s env r.candle (w.feedCandle analyze userId id r env).2 s' := by
  obtain ⟨-, rfl⟩ := ownedSession_eq_some.mp hs
  obtain ⟨outcome, e', a', hcall⟩ := PaperTradingEngine.onCandle_returns analyze (engineEnv env)
    r.candle h.plain h.limits
  obtain ⟨hmoves, hplain⟩ := PaperTradingEngine.onCandle_moves h.plain hcall
  obtain ⟨orders, hengine⟩ := PaperTradingEngine.onCandle_engine hcall
  have hposition : s.engine.position a' = e'.position a' := by rw [hengine]; rfl
  rw [hposition] at hmoves
  have haccount : e'.accountId = s.engine.accountId := by rw [hengine]
  have hsymbol : e'.symbol = s.engine.symbol := by rw [hengine]
  have hlimits : e'.limits = s.engine.limits := by rw [hengine]
  -- Whether a close is journaled or not, the rows of positions are the same.
  unfold feedCandle
  rw [hs]
  dsimp only
  rw [hcall]
  dsimp only
  unfold journalClose
  split <;> exact ⟨_, rfl, rfl, haccount, hsymbol, hlimits, hplain, hmoves, rfl⟩

/-! ## Layer B: What the routes keep -/

/-- What a mirrored session needs of another world. -/
theorem Mirrored.of_rows {w' : PaperWorld} (h : w.Mirrored id s) (hle : w.nextId ≤ w'.nextId)
    (hrows : w'.openRows id s = w.openRows id s) : w'.Mirrored id s :=
  ⟨h.issued.trans_le hle, h.plain, h.limits, hrows ▸ h.rows⟩

/-- A write under the source key of one session leaves the open rows of the others. -/
theorem openRows_update {w' : PaperWorld} {db : Db}
    (hrows : w'.rows = Function.update w.rows userId db) {j : PaperSessionId}
    (hothers : ∀ symbol, db.openRowsOf .paper (paperSourceKey j) symbol =
      (w.rows userId).openRowsOf .paper (paperSourceKey j) symbol) (s : PaperApiSession) :
    w'.openRows j s = w.openRows j s := by
  unfold openRows
  rw [hrows]
  by_cases huser : s.engine.accountId = userId
  · rw [huser, Function.update_self]
    exact hothers _
  · rw [Function.update_of_ne huser]

namespace CandleLeft

variable {env : PaperEnv} {candle : Candle} {w' : PaperWorld} {s' : PaperApiSession}

/-- The record that is mirrored is one of the session's symbol. -/
theorem symbol_of_position (h : CandleLeft analyze w id s env candle w' s') {p : PositionRecord}
    (hp : s'.position = some p) : p.symbol = s.engine.symbol :=
  (PositionManager.key_of_get hp).2.trans h.symbol

/-- The session behind a candle is mirrored. -/
theorem mirrored (h : CandleLeft analyze w id s env candle w' s') (hs : w.Mirrored id s) :
    w'.Mirrored id s' := by
  refine ⟨h.nextId ▸ hs.issued, h.plain, h.limits.trans hs.limits, ?_⟩
  unfold openRows
  rw [h.accountId, h.symbol]
  cases hp : s'.position with
  | none =>
    -- No record after the candle means that none was open before it.
    have hflat : s.position.any PositionRecord.isOpen = false := by
      by_contra hopen
      simpa [hp] using h.moves.kept (by simpa using hopen)
    have hrows := hs.rows
    rw [hflat] at hrows
    rw [h.rows, hp]
    exact hrows
  | some p =>
    have hone : ((w.rows s.engine.accountId).openRowsOf .paper (paperSourceKey id)
        p.symbol).length ≤ 1 := by
      rw [h.symbol_of_position hp]
      exact hs.rows.trans_le (by split_ifs <;> simp)
    rw [h.rows, hp, Option.elim_some, Function.update_self, Db.openRowsOf_persistPosition hone,
      if_pos (h.symbol_of_position hp), Option.any_some]
    split_ifs <;> rfl

/-- The open rows of the other sessions stay. -/
theorem openRows_other (h : CandleLeft analyze w id s env candle w' s') {j : PaperSessionId}
    (hne : j ≠ id) (t : PaperApiSession) : w'.openRows j t = w.openRows j t := by
  have hrows := h.rows
  cases hp : s'.position with
  | none =>
    rw [hp, Option.elim_none] at hrows
    unfold openRows
    rw [hrows]
  | some p =>
    rw [hp, Option.elim_some] at hrows
    have hkey : paperSourceKey id ≠ paperSourceKey j := fun heq => hne (paperSourceKey_inj heq).symm
    exact openRows_update hrows (Db.openRowsOf_persistPosition_of_ne hkey) t

/-- **A candle adds a row where the position has no open one**, if there is a record to mirror. -/
theorem rowsOf (h : CandleLeft analyze w id s env candle w' s') (hs : w.Mirrored id s)
    (userId : AccountId) (j : PaperSessionId) : w'.rowsOf userId j = w.rowsOf userId j +
      if (s.engine.accountId, id) = (userId, j) ∧ s.position.any PositionRecord.isOpen = false ∧
        s'.position.isSome = true then 1 else 0 := by
  unfold PaperWorld.rowsOf
  rw [h.rows]
  cases hp : s'.position with
  | none => simp
  | some p =>
    rw [Option.elim_some]
    by_cases huser : userId = s.engine.accountId
    · subst huser
      rw [Function.update_self, Db.countP_source_persistPosition, h.symbol_of_position hp]
      refine congrArg _ (if_congr ?_ rfl rfl)
      -- A row is added exactly if the session had no open one.
      have hnone : (w.rows s.engine.accountId).openRowsOf .paper (paperSourceKey id)
          s.engine.symbol = [] ↔ s.position.any PositionRecord.isOpen = false := by
        rw [← List.length_eq_zero_iff]
        refine Eq.congr_left hs.rows |>.trans ?_
        cases s.position.any PositionRecord.isOpen <;> simp
      rw [hnone]
      have hkey : paperSourceKey id = paperSourceKey j ↔ id = j :=
        ⟨paperSourceKey_inj, fun heq => heq ▸ rfl⟩
      simp [hkey, and_comm]
    · rw [Function.update_of_ne huser]
      simp [Ne.symm huser]

/-- What is open behind a candle. -/
theorem isOpen (h : CandleLeft analyze w id s env candle w' s')
    (hs : w.ownedSession userId id = some s) (u : AccountId) (j : PaperSessionId) :
    w'.isOpen u j = if (userId, id) = (u, j) then s'.position.any PositionRecord.isOpen
      else w.isOpen u j := by
  obtain ⟨hget, rfl⟩ := ownedSession_eq_some.mp hs
  have hsession : w'.ownedSession u j = if id = j then
      (some s').filter fun s => s.engine.accountId = u else w.ownedSession u j := by
    unfold ownedSession
    rw [h.sessions, Dict.get?_set]
    split_ifs <;> rfl
  unfold PaperWorld.isOpen
  rw [hsession]
  by_cases hid : id = j
  · subst hid
    by_cases huser : s.engine.accountId = u
    · simp [Option.filter, h.accountId, huser]
    · -- A session of another owner cannot be found for this one.
      have hother : w.ownedSession u id = none := by
        rw [ownedSession, hget]
        simp [Option.filter, huser]
      simp [Option.filter, h.accountId, huser, hother]
  · simp [hid]

end CandleLeft

/-- Rows that are retired are there still. -/
theorem rowsOf_abandon {w' : PaperWorld} (hrows : w'.rows = Function.update w.rows userId
    ((w.rows userId).abandonPositionMirrors .paper (paperSourceKey id)).2) (u : AccountId)
    (j : PaperSessionId) : w'.rowsOf u j = w.rowsOf u j := by
  unfold rowsOf
  rw [hrows]
  by_cases huser : u = userId
  · subst huser
    rw [Function.update_self, Db.countP_source_abandon]
  · rw [Function.update_of_ne huser]

/-- A session that has written no row has no open one. -/
theorem openRows_eq_nil (h : w.rowsOf s.engine.accountId id = 0) : w.openRows id s = [] := by
  rw [rowsOf, List.countP_eq_zero] at h
  rw [openRows, Db.openRowsOf, List.filter_eq_nil_iff]
  intro row hrow hopen
  exact h row hrow (decide_eq_true (Db.isOpenRowOf_iff.mp hopen).2.2.1)

/-- What a session that is closed leaves: fewer sessions, and no row more. -/
theorem closePaperSession_left (w : PaperWorld) (userId : AccountId) (id : PaperSessionId) :
    (w.closePaperSession userId id).2 = w ∨
      ((w.closePaperSession userId id).2.sessions.get? id = none ∧
        (∀ j, j ≠ id →
          (w.closePaperSession userId id).2.sessions.get? j = w.sessions.get? j) ∧
        (w.closePaperSession userId id).2.nextId = w.nextId ∧
        (w.closePaperSession userId id).2.rows = Function.update w.rows userId
          ((w.rows userId).abandonPositionMirrors .paper (paperSourceKey id)).2) := by
  unfold closePaperSession
  dsimp only
  split_ifs with hforeign hgone
  · exact Or.inl rfl
  · exact Or.inr ⟨Option.isNone_iff_eq_none.mp hgone.1, fun _ _ => rfl, rfl, rfl⟩
  · refine Or.inr ⟨Dict.get?_erase_self .., fun j hj => ?_, rfl, rfl⟩
    exact Dict.get?_erase_of_ne _ (Ne.symm hj)

/-- **Every event keeps the sessions mirrored.** -/
theorem Sound.step (h : w.Sound) (analyze : Analysis) (event : PaperEvent) :
    (w.step analyze event).Sound := by
  cases event with
  | create userId r catalogue =>
    show (w.createPaperSession userId r catalogue).2.Sound
    unfold createPaperSession
    -- The refusals leave everything.
    split
    · exact h
    split
    · exact h
    split
    · exact h
    refine ⟨fun id s hget => ?_, fun userId id hid => h.unissued userId id (Nat.le_of_succ_le hid)⟩
    have hget' : (w.sessions.set w.nextId _).get? id = some s := hget
    rw [Dict.get?_set] at hget'
    split_ifs at hget' with hid
    · -- The new session has neither a position nor a row.
      subst hid
      cases hget'
      refine ⟨Nat.lt_succ_self _, MockBroker.plain_new _ _, rfl, ?_⟩
      exact congrArg List.length (openRows_eq_nil (h.unissued userId w.nextId (le_refl _)))
    · exact (h.sessions id s hget').of_rows (Nat.le_succ _) rfl
  | candle userId id r env =>
    -- Only the owner feeds a session, and the event writes rows of that session alone.
    show (w.feedCandle analyze userId id r env).2.Sound
    cases hs : w.ownedSession userId id with
    | none =>
      unfold feedCandle
      rw [hs]
      exact h
    | some s =>
      have hmirrored := h.sessions id s (ownedSession_eq_some.mp hs).1
      obtain ⟨s', hleft⟩ := feedCandle_owned analyze hs hmirrored r env
      -- The sessions, and the ids that are not issued.
      refine ⟨fun j t hget => ?_, fun u j hj => ?_⟩
      · rw [hleft.sessions, Dict.get?_set] at hget
        split_ifs at hget with hid
        · subst hid
          cases hget
          exact hleft.mirrored hmirrored
        · exact (h.sessions j t hget).of_rows hleft.nextId.ge (hleft.openRows_other (Ne.symm hid) t)
      · rw [hleft.nextId] at hj
        rw [hleft.rowsOf hmirrored, h.unissued u j hj]
        have hne : id ≠ j := (hmirrored.issued.trans_le hj).ne
        simp [hne]
  | close userId id =>
    -- Closing takes the session out and abandons its rows; the others are of other keys.
    show (w.closePaperSession userId id).2.Sound
    rcases closePaperSession_left w userId id with heq | ⟨hgone, hothers, hnext, hrows⟩
    · rw [heq]
      exact h
    refine ⟨fun j t hget => ?_, fun u j hj => ?_⟩
    · have hne : j ≠ id := by
        rintro rfl
        cases hgone.symm.trans hget
      have hkey : paperSourceKey id ≠ paperSourceKey j :=
        fun heq => hne (paperSourceKey_inj heq).symm
      rw [hothers j hne] at hget
      exact (h.sessions j t hget).of_rows hnext.ge
        (openRows_update hrows (Db.openRowsOf_abandon_of_ne hkey) t)
    · rw [hnext] at hj
      exact (rowsOf_abandon hrows u j).trans (h.unissued u j hj)
  -- A restart forgets the sessions; the rows stay.
  | restart =>
    refine ⟨fun id s hget => ?_, h.unissued⟩
    cases hget

/-- The events that feed no candle to a session: they add no row, and open no position. -/
structure Quiet (w w' : PaperWorld) : Prop where
  rowsOf : ∀ userId id, w'.rowsOf userId id = w.rowsOf userId id
  isOpen : ∀ userId id, w'.isOpen userId id = true → w.isOpen userId id = true

theorem Quiet.refl (w : PaperWorld) : Quiet w w := ⟨fun _ _ => rfl, fun _ _ => id⟩

/-- A session that is not there has nothing open. -/
theorem isOpen_of_session {w' : PaperWorld} {userId : AccountId} {id : PaperSessionId}
    (h : w'.sessions.get? id = none ∨ w'.sessions.get? id = w.sessions.get? id)
    (hopen : w'.isOpen userId id = true) : w.isOpen userId id = true := by
  unfold isOpen ownedSession at *
  rcases h with h | h
  · rw [h] at hopen
    cases hopen
  · rwa [← h]

theorem quiet_create (w : PaperWorld) (userId : AccountId) (r : CreatePaperSessionRequest)
    (catalogue : PaperCatalogue) : Quiet w (w.createPaperSession userId r catalogue).2 := by
  unfold createPaperSession
  split
  · exact Quiet.refl w
  split
  · exact Quiet.refl w
  split
  · exact Quiet.refl w
  refine ⟨fun _ _ => rfl, fun u j hopen => ?_⟩
  by_cases hid : w.nextId = j
  · -- The new session has no position yet.
    subst hid
    have hnew : ∀ (d : Dict PaperSessionId PaperApiSession) (s : PaperApiSession),
        s.position = none →
        (((d.set w.nextId s).get? w.nextId).filter fun s => s.engine.accountId = u).any
          (fun s => s.position.any PositionRecord.isOpen) = false := by
      intro d s hnone
      rw [Dict.get?_set_self]
      by_cases huser : s.engine.accountId = u
      · simp [Option.filter, huser, hnone]
      · simp [Option.filter, huser]
    exact absurd hopen (Bool.eq_false_iff.mp (hnew _ _ rfl))
  · refine isOpen_of_session (Or.inr ?_) hopen
    exact Dict.get?_set_of_ne _ hid _

theorem quiet_close (w : PaperWorld) (userId : AccountId) (id : PaperSessionId) :
    Quiet w (w.closePaperSession userId id).2 := by
  rcases closePaperSession_left w userId id with heq | ⟨hgone, hothers, -, hrows⟩
  · rw [heq]
    exact Quiet.refl w
  · refine ⟨rowsOf_abandon hrows, fun u j => isOpen_of_session ?_⟩
    by_cases hid : j = id
    · exact Or.inl (hid ▸ hgone)
    · exact Or.inr (hothers j hid)

/-- A candle that finds the record of its session flat opens a position. -/
def Reopens (analyze : Analysis) (w : PaperWorld) : PaperEvent → Prop
  | .candle userId id r env =>
    ∀ s ∈ w.ownedSession userId id, ∀ p ∈ s.position, p.isOpen = false →
      s.engine.Enters analyze s.account (engineEnv env) r.candle
  | _ => True

instance (analyze : Analysis) (w : PaperWorld) (event : PaperEvent) :
    Decidable (w.Reopens analyze event) :=
  match event with
  | .candle userId id r env =>
    inferInstanceAs (Decidable (∀ s ∈ w.ownedSession userId id, ∀ p ∈ s.position,
      p.isOpen = false → s.engine.Enters analyze s.account (engineEnv env) r.candle))
  | .create .. => isTrue trivial
  | .close .. => isTrue trivial
  | .restart => isTrue trivial

end PaperWorld

/-! ## Layer C: Runs -/

/-- The sessions, and a watcher's count of the positions that each of them opened. -/
structure PaperRun where
  world : PaperWorld := {}
  opened : AccountId → PaperSessionId → ℕ := fun _ _ => 0

namespace PaperRun

variable {analyze : Analysis} {r : PaperRun}

def step (analyze : Analysis) (r : PaperRun) (event : PaperEvent) : PaperRun :=
  let world := r.world.step analyze event
  { world := world
    opened := fun userId id => r.opened userId id +
      if r.world.isOpen userId id = false ∧ world.isOpen userId id = true then 1 else 0 }

/-- Every session has a row for each position that it opened. -/
def RowEach (r : PaperRun) : Prop := ∀ userId id, r.world.rowsOf userId id = r.opened userId id

theorem RowEach.quiet (h : r.RowEach) {event : PaperEvent}
    (hquiet : PaperWorld.Quiet r.world (r.world.step analyze event)) :
    (r.step analyze event).RowEach := by
  intro userId id
  have hnone : ¬ (r.world.isOpen userId id = false ∧
      (r.world.step analyze event).isOpen userId id = true) := by
    rintro ⟨hbefore, hafter⟩
    cases hbefore.symm.trans (hquiet.isOpen userId id hafter)
  show (r.world.step analyze event).rowsOf userId id = r.opened userId id + _
  rw [if_neg hnone, hquiet.rowsOf]
  exact h userId id

/-- A candle keeps a row for each position if and only if it leaves no record flat that it found
flat. -/
theorem RowEach.candle_iff (h : r.RowEach) (hsound : r.world.Sound) {userId : AccountId}
    {id : PaperSessionId} {s : PaperApiSession} (hs : r.world.ownedSession userId id = some s)
    (request : FeedCandleRequest) (env : PaperEnv) :
    (r.step analyze (.candle userId id request env)).RowEach ↔
      ∀ p ∈ s.position, p.isOpen = false →
        s.engine.Enters analyze s.account (PaperWorld.engineEnv env) request.candle := by
  obtain ⟨hget, rfl⟩ := PaperWorld.ownedSession_eq_some.mp hs
  have hmirrored := hsound.sessions id s hget
  set event := PaperEvent.candle s.engine.accountId id request env
  obtain ⟨s', hleft⟩ : ∃ s', PaperWorld.CandleLeft analyze r.world id s env request.candle
      (r.world.step analyze event) s' :=
      PaperWorld.feedCandle_owned analyze hs hmirrored request env
  have hbefore : r.world.isOpen s.engine.accountId id = s.position.any PositionRecord.isOpen := by
    rw [PaperWorld.isOpen, hs, Option.any_some]
  -- The session's own count is off by one where a record that stays flat is mirrored.
  have hself : (r.step analyze event).world.rowsOf s.engine.accountId id =
      (r.step analyze event).opened s.engine.accountId id ↔
        (s.position.any PositionRecord.isOpen = false → s'.position.isSome = true →
          s'.position.any PositionRecord.isOpen = true) := by
    simp only [step, hleft.rowsOf hmirrored, hleft.isOpen hs, hbefore, h _ _, if_true, true_and]
    cases s.position.any PositionRecord.isOpen <;> cases s'.position <;> simp
  -- A write under one source key is no row of another session.
  have hothers : ∀ u j, (s.engine.accountId, id) ≠ (u, j) →
      (r.step analyze event).world.rowsOf u j = (r.step analyze event).opened u j := by
    intro u j hne
    simp only [step, hleft.rowsOf hmirrored, hleft.isOpen hs, h _ _, if_neg hne]
    simp [hne]
  have hstep : (r.step analyze event).RowEach ↔ (s.position.any PositionRecord.isOpen = false →
      s'.position.isSome = true → s'.position.any PositionRecord.isOpen = true) := by
    refine ⟨fun hrow => hself.mp (hrow _ _), fun hopen u j => ?_⟩
    by_cases heq : (s.engine.accountId, id) = (u, j)
    · obtain ⟨rfl, rfl⟩ := Prod.mk.inj heq
      exact hself.mpr hopen
    · exact hothers u j heq
  exact hstep.trans hleft.moves.left_open_iff

/-- **One event keeps a row for each position if and only if its candle opens one where it finds
the record flat.** -/
theorem RowEach.step_iff (h : r.RowEach) (hsound : r.world.Sound) (analyze : Analysis)
    (event : PaperEvent) :
    (r.step analyze event).RowEach ↔ r.world.Reopens analyze event := by
  cases event with
  | create userId request catalogue =>
    exact iff_of_true (h.quiet (PaperWorld.quiet_create _ userId request catalogue)) trivial
  | candle userId id request env =>
    cases hs : r.world.ownedSession userId id with
    | none =>
      have hsame : r.world.step analyze (.candle userId id request env) = r.world := by
        show (r.world.feedCandle analyze userId id request env).2 = r.world
        unfold PaperWorld.feedCandle
        rw [hs]
      refine iff_of_true (h.quiet (by rw [hsame]; exact PaperWorld.Quiet.refl r.world)) ?_
      intro s hmem
      rw [hs] at hmem
      cases hmem
    | some s =>
      rw [h.candle_iff hsound hs]
      simp [PaperWorld.Reopens, hs]
  | close userId id => exact iff_of_true (h.quiet (PaperWorld.quiet_close _ userId id)) trivial
  | restart =>
    -- The sessions are in memory only: nothing is open behind a restart, and the rows stay.
    refine iff_of_true (h.quiet ⟨fun _ _ => rfl, fun userId id hopen => ?_⟩) trivial
    cases hopen

/-- **A run has a row for each position if and only if every candle that finds the record of its
session flat opens a position.** -/
theorem rowEach_iff (analyze : Analysis) (events : List PaperEvent) :
    Throughout (step analyze) RowEach {} events ↔
      Each (step analyze) (fun r event => r.world.Reopens analyze event) {} events := by
  have hsound : (({} : PaperRun).world).Sound :=
    ⟨fun id s hget => (nomatch hget), fun _ _ _ => rfl⟩
  refine @throughout_iff_each _ _ (step analyze) RowEach (fun r => r.world.Sound) _
    (fun r event hr _ _ => hr.step analyze event)
    (fun r event hr hrow => RowEach.step_iff hrow hr analyze event) _ _ hsound fun _ _ => rfl

end PaperRun

end SuperTrading
