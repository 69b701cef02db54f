import SuperTrading.Logic.MirrorTable
import SuperTrading.Replay.Soundness
import SuperTrading.Strategy.Evaluator

/-!
# POST /replay

The replay sessions of `app/api/replay.py`, and the rows that `app/replay/persistence.py` keeps of
them. A session lives in the memory of the process; its rows are what a restart leaves.

- **Rows**: `replay_sessions` and `replay_orders`
- **Sessions**: the engine of a session, and bringing its rows up to date
- **Requests**: their fields, and what is answered
- **Routes**: what each does to the sessions and to the rows
-/

namespace SuperTrading

open SuperTrading.Logic
open Smc (Candle)

/-! ## Section 1: Rows -/

/-- The ids of sessions and of trades, in the order in which `uuid4` gave them out. -/
abbrev ReplayId := ℕ

/-- A row of `replay_sessions`. -/
structure ReplaySessionRow where
  userId : AccountId
  instrumentId : String
  timeframe : String
  startTime : Timestamp
  endTime : Timestamp
  currentTime : Timestamp
  status : ReplayStatus
  startingBalance : ℚ
  balance : ℚ
  /-- `{}` until the first action. -/
  stats : Option ReplayStatistics := none
  deriving DecidableEq, Repr

/-- A row of `replay_orders`. -/
structure ReplayOrderRow where
  replaySessionId : ReplayId
  direction : Direction
  entryPrice : ℚ
  quantity : ℚ
  openedAt : Timestamp
  stop : Option ℚ := none
  target : Option ℚ := none
  exitPrice : Option ℚ := none
  pnl : Option ℚ := none
  closedAt : Option Timestamp := none
  deriving DecidableEq, Repr

namespace ReplayOrderRow

/-- The columns that `_upsert_replay_order` makes a row with. -/
def make (sessionId : ReplayId) (trade : ReplayTrade) : ReplayOrderRow where
  replaySessionId := sessionId
  direction := trade.direction
  entryPrice := numeric trade.entryPrice
  quantity := numeric trade.quantity
  openedAt := trade.openedAt

/-- Those that it writes every time. -/
def write (trade : ReplayTrade) (row : ReplayOrderRow) : ReplayOrderRow :=
  { row with
    stop := trade.stop.map numeric
    target := trade.target.map numeric
    exitPrice := trade.exitPrice.map numeric
    pnl := trade.pnl.map numeric
    closedAt := trade.closedAt }

end ReplayOrderRow

/-! ## Section 2: Sessions -/

/-- The trades of an engine, in the order of their opening. -/
def ReplayEngine.trades (e : ReplayEngine) : List ReplayTrade :=
  e.closedTrades ++ e.openTrade.toList

/-- An entry of `_SESSIONS`. -/
structure ReplaySession where
  engine : ReplayEngine
  /-- Of `smc_config`. -/
  swingLength : ℕ
  /-- The `id`s of the trades. -/
  tradeIds : List ReplayId := []

namespace ReplaySession

/-- The trades with their ids. -/
def identified (s : ReplaySession) : List (ReplayId × ReplayTrade) :=
  s.tradeIds.zip s.engine.trades

/-- The ids after an action, of which an opening one takes a new id. -/
def idsAfter (s : ReplaySession) (newId : ReplayId) : ReplayAction → List ReplayId
  | .buy _ | .sell _ => if s.engine.openTrade.isNone then s.tradeIds ++ [newId] else s.tradeIds
  | .reset => []
  | _ => s.tradeIds

/-- The session after an action. -/
def after (s : ReplaySession) (newId : ReplayId) (action : ReplayAction) : ReplaySession :=
  { s with
    engine := s.engine.step action
    tradeIds := s.idsAfter newId action }

end ReplaySession

/-- `_SESSIONS`, and the committed rows. -/
structure ReplayWorld where
  sessions : Dict ReplayId ReplaySession := Dict.empty
  sessionRows : Dict ReplayId ReplaySessionRow := Dict.empty
  orderRows : Dict ReplayId ReplayOrderRow := Dict.empty
  nextId : ReplayId := 0

namespace ReplayWorld

/-- `sync_replay_session`: the open trade is written first. -/
def sync (w : ReplayWorld) (id : ReplayId) (s : ReplaySession) : ReplayWorld :=
  match w.sessionRows.get? id with
  | none => w
  | some row =>
    let closed := s.engine.closedTrades.length
    { w with
      sessionRows := w.sessionRows.set id
        { row with
          currentTime := s.engine.clock.currentCandle.timestamp
          status := s.engine.clock.status
          balance := numeric s.engine.balance
          stats := some s.engine.statistics }
      orderRows := upsertRows (ReplayOrderRow.make id) ReplayOrderRow.write w.orderRows
        (s.identified.drop closed ++ s.identified.take closed) }

/-- `reset_replay_session`. -/
def resetRows (w : ReplayWorld) (id : ReplayId) (s : ReplaySession) : ReplayWorld :=
  { w with orderRows := w.orderRows.filter fun row => row.replaySessionId ≠ id }.sync id s

/-- `_get_owned_session`. -/
def ownedSession (w : ReplayWorld) (userId : AccountId) (id : ReplayId) : Option ReplaySession :=
  (w.sessions.get? id).filter fun _ =>
    (w.sessionRows.get? id).any fun row => row.userId = userId

end ReplayWorld

/-! ## Section 3: Requests -/

/-- A `CreateReplayRequest` that passed validation. -/
structure CreateReplayRequest where
  instrumentId : String
  timeframe : String
  startingBalance : ℚ := 100000
  swingLength : ℕ := 3
  balance_range : 0 < startingBalance ∧ startingBalance < maxJournalled := by decide +kernel
  swing_range : 1 ≤ swingLength ∧ swingLength ≤ 100 := by decide

/-- A `ReplayOrderRequest` that passed validation. -/
structure ReplayOrderRequest where
  action : String
  quantity : Option ℚ := none
  price : Option ℚ := none
  quantity_range : ∀ q ∈ quantity, 0 < q ∧ q < maxJournalled := by simp
  price_range : ∀ p ∈ price, 0 < p ∧ p < maxJournalled := by simp
  /-- `_require_a_price_where_the_action_is_the_price`. -/
  priced : action ∈ ["set_stop", "set_target"] → price.isSome := by decide

/-- The engine's action, if the text names one. -/
def ReplayOrderRequest.toAction (r : ReplayOrderRequest) : Option ReplayAction :=
  if r.action = "buy" then some (.buy (r.quantity.getD 1))
  else if r.action = "sell" then some (.sell (r.quantity.getD 1))
  else if r.action = "close" then some (.close r.price)
  else if r.action = "set_stop" then r.price.map .setStop
  else if r.action = "set_target" then r.price.map .setTarget
  else none

/-- `open_trade` of the response. -/
structure OpenTradeView where
  direction : Direction
  entryPrice : ℚ
  quantity : ℚ
  stop : Option ℚ
  target : Option ℚ
  deriving DecidableEq, Repr

structure ReplayStateResponse where
  sessionId : ReplayId
  cursor : ℕ
  totalCandles : ℕ
  status : ReplayStatus
  balance : ℚ
  currentPrice : ℚ
  openTrade : Option OpenTradeView
  statistics : ReplayStatistics
  deriving DecidableEq, Repr

/-- `_state_response`. -/
def ReplaySession.response (s : ReplaySession) (sessionId : ReplayId) : ReplayStateResponse where
  sessionId := sessionId
  cursor := s.engine.clock.cursor
  totalCandles := s.engine.clock.candles.length
  status := s.engine.clock.status
  balance := s.engine.balance
  currentPrice := s.engine.clock.currentCandle.close
  openTrade := s.engine.openTrade.map fun trade =>
    { direction := trade.direction
      entryPrice := trade.entryPrice
      quantity := trade.quantity
      stop := trade.stop
      target := trade.target }
  statistics := s.engine.statistics

/-- What `get_replay_analysis` answers. -/
structure ReplayAnalysis where
  cursor : ℕ
  asOf : Timestamp
  smc : Smc.SMCContext
  ict : ICTContext

inductive ReplayAnswer
  | state (response : ReplayStateResponse)
  | analysis (response : ReplayAnalysis)
  | noContent

inductive ReplayHttpError
  | notFound (detail : String)
  | conflict (detail : String)
  | unprocessable (detail : String)
  /-- An exception that the route does not catch. -/
  | internal (message : String)
  deriving DecidableEq, Repr

/-- `visible_candles`. -/
def ReplayClock.visibleCandles (c : ReplayClock) : List Candle := c.candles.take (c.cursor + 1)

/-- `analyze` of the engine, on the visible candles. -/
def ReplaySession.analyze (s : ReplaySession) : Except String (Smc.SMCContext × ICTContext) := do
  let smc ← Smc.analyze { swingLength := s.swingLength } s.engine.clock.visibleCandles
  return (smc, ({} : ICTConfig).analyze s.engine.clock.visibleCandles)

/-! ## Section 4: Routes -/

/-- A request, with the user that it is authenticated as, or a restart of the process. -/
inductive ReplayRequest
  /-- With the candles that `get_candles` reads. -/
  | create (userId : AccountId) (payload : CreateReplayRequest) (candles : List Candle)
  | get (userId : AccountId) (id : ReplayId)
  | step (userId : AccountId) (id : ReplayId) (steps : ℤ)
  | analysis (userId : AccountId) (id : ReplayId)
  | reset (userId : AccountId) (id : ReplayId)
  | order (userId : AccountId) (id : ReplayId) (payload : ReplayOrderRequest)
  | delete (userId : AccountId) (id : ReplayId)
  | restart

namespace ReplayWorld

variable (w : ReplayWorld)

def noSession : ReplayHttpError := .notFound "Replay session not found"

/-- `create_replay_session`. -/
def create (userId : AccountId) (payload : CreateReplayRequest) (candles : List Candle) :
    Except ReplayHttpError ReplayAnswer × ReplayWorld :=
  if h : 0 < candles.length then
    let id := w.nextId
    let s : ReplaySession :=
      { engine := .new candles payload.startingBalance h
        swingLength := payload.swingLength }
    let row : ReplaySessionRow :=
      { userId := userId
        instrumentId := payload.instrumentId
        timeframe := payload.timeframe
        startTime := (candles.get ⟨0, h⟩).timestamp
        endTime := (candles.getLast (List.ne_nil_of_length_pos h)).timestamp
        currentTime := s.engine.clock.currentCandle.timestamp
        status := s.engine.clock.status
        startingBalance := numeric s.engine.startingBalance
        balance := numeric s.engine.balance }
    (.ok (.state (s.response id)),
      { w with
        sessions := w.sessions.set id s
        sessionRows := w.sessionRows.set id row
        nextId := id + 1 })
  else
    (.error (.unprocessable "No historical candles available for this instrument/timeframe"), w)

/-- A route of an owned session. -/
def withSession (userId : AccountId) (id : ReplayId)
    (route : ReplaySession → Except ReplayHttpError ReplayAnswer × ReplayWorld) :
    Except ReplayHttpError ReplayAnswer × ReplayWorld :=
  match w.ownedSession userId id with
  | none => (.error noSession, w)
  | some s => route s

/-- An action on the engine of a session, which an exception leaves as it got: nothing is written
then, whatever the route makes of it. -/
def act (id : ReplayId) (s : ReplaySession) (action : ReplayAction)
    (raised : String → ReplayHttpError)
    (write : ReplayWorld → ReplaySession → ReplayWorld) :
    Except ReplayHttpError ReplayAnswer × ReplayWorld :=
  let s' := s.after w.nextId action
  let moved := { w with sessions := w.sessions.set id s' }
  match (s.engine.act action).1 with
  | .error message => (.error (raised message), moved)
  | .ok _ => (.ok (.state (s'.response id)), write { moved with nextId := w.nextId + 1 } s')

/-- `step_replay`. -/
def stepReplay (userId : AccountId) (id : ReplayId) (steps : ℤ) :=
  w.withSession userId id fun s => w.act id s (.advance steps) .internal (·.sync id ·)

/-- `reset_replay`. -/
def resetReplay (userId : AccountId) (id : ReplayId) :=
  w.withSession userId id fun s => w.act id s .reset .internal (·.resetRows id ·)

/-- `submit_replay_order`. -/
def submitOrder (userId : AccountId) (id : ReplayId) (payload : ReplayOrderRequest) :=
  w.withSession userId id fun s =>
    match payload.toAction with
    | none => (.error (.unprocessable s!"Unknown action: {payload.action}"), w)
    | some action => w.act id s action .conflict (·.sync id ·)

/-- `get_replay_state`. -/
def getState (userId : AccountId) (id : ReplayId) :=
  w.withSession userId id fun s => (.ok (.state (s.response id)), w)

/-- `get_replay_analysis`. -/
def getAnalysis (userId : AccountId) (id : ReplayId) :=
  w.withSession userId id fun s =>
    match s.analyze with
    | .error message => (.error (.internal message), w)
    | .ok (smc, ict) =>
      (.ok (.analysis
        { cursor := s.engine.clock.cursor
          asOf := s.engine.clock.currentCandle.timestamp
          smc := smc
          ict := ict }), w)

/-- `close_replay_session`: the rows are left alone. -/
def closeSession (userId : AccountId) (id : ReplayId) :=
  w.withSession userId id fun _ => (.ok .noContent, { w with sessions := w.sessions.erase id })

/-- What is answered to a request, and what it leaves. -/
def handle : ReplayRequest → Except ReplayHttpError ReplayAnswer × ReplayWorld
  | .create userId payload candles => w.create userId payload candles
  | .get userId id => w.getState userId id
  | .step userId id steps => w.stepReplay userId id steps
  | .analysis userId id => w.getAnalysis userId id
  | .reset userId id => w.resetReplay userId id
  | .order userId id payload => w.submitOrder userId id payload
  | .delete userId id => w.closeSession userId id
  | .restart => (.ok .noContent, { w with sessions := Dict.empty })

def step (r : ReplayRequest) : ReplayWorld := (w.handle r).2

end ReplayWorld

end SuperTrading
