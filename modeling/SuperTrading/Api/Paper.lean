import SuperTrading.Api.Stack
import SuperTrading.Paper.Desk
import SuperTrading.Trading.PositionMirror
import SuperTrading.Workers.AutoTradeJournal

/-!
# POST /paper

The paper trading sessions of `app/api/paper.py`. A session is an engine of its own, with a
broker and a book of its own, and mirrors its position under a source key of its own.

- **Sessions**: what a session keeps, and the rows of the users
- **Requests**: `create_paper_session` and `feed_candle` with their fields
- **Routes**: creating, feeding and closing a session
-/

namespace SuperTrading

open SuperTrading.Logic
open Smc (Candle)

/-! ## Section 1: Sessions -/

/-- The id of a session, in the order in which `uuid4` gave them out. -/
abbrev PaperSessionId := ℕ

/-- `_PaperSession`, with what its engine owns. -/
structure PaperApiSession where
  engine : PaperTradingEngine
  account : PaperAccount
  instrumentId : String
  strategyId : String
  strategyVersion : ℕ
  openedAt : Option Timestamp := none
  /-- The position that `open_snapshot` was taken of. -/
  openSnapshot : Option PositionRecord := none

def PaperApiSession.position (s : PaperApiSession) : Option PositionRecord :=
  s.engine.position s.account

/-- The row of `trades` that a session journals. -/
structure PaperTradeRow where
  userId : AccountId
  instrumentId : String
  strategyId : String
  strategyVersion : ℕ
  executionMode : ExecutionMode
  direction : Direction
  entryPrice : ℚ
  exitPrice : Option ℚ
  quantity : ℚ
  stop : Option ℚ
  target : Option ℚ
  pnl : ℚ
  rMultiple : Option ℚ
  openedAt : Timestamp
  closedAt : Timestamp
  source : String
  symbol : Symbol
  deriving DecidableEq, Repr

/-- `PAPER_SANDBOX_TRADE_SOURCE`. -/
def paperSandboxTradeSource : String := "manual_paper"

/-- The `source_key` of a session. -/
def paperSourceKey (sessionId : PaperSessionId) : String := s!"paper:{sessionId}"

/-- `_SESSIONS`, and the committed rows: the positions of every user, and the trades of the
sessions. -/
structure PaperWorld where
  sessions : Dict PaperSessionId PaperApiSession := Dict.empty
  rows : AccountId → Db := fun _ => {}
  trades : List PaperTradeRow := []
  nextId : PaperSessionId := 0

/-! ## Section 2: Requests -/

/-- `_MAX_MONEY`. -/
def maxMoney : ℚ := 10 ^ 12

structure CreatePaperSessionRequest where
  strategyId : String
  symbol : Symbol
  startingBalance : ℚ := 100000
  balance_range : 0 < startingBalance ∧ startingBalance < maxMoney := by decide +kernel

/-- A `FeedCandleRequest` that passed validation. -/
structure FeedCandleRequest where
  candle : Candle
  open_range : 0 < candle.open ∧ candle.open < maxMoney := by decide +kernel
  high_range : 0 < candle.high ∧ candle.high < maxMoney := by decide +kernel
  low_range : 0 < candle.low ∧ candle.low < maxMoney := by decide +kernel
  close_range : 0 < candle.close ∧ candle.close < maxMoney := by decide +kernel
  volume_range : 0 ≤ candle.volume ∧ candle.volume < maxMoney := by decide +kernel

/-- A row of `strategies`. A definition that is no longer valid reads as the text that
`parse_stored_definition` refuses it with. -/
structure StoredStrategy where
  userId : AccountId
  id : String
  version : ℕ
  definition : Except String StrategyDefinition

/-- What `create_paper_session` reads of the database: the strategy of an id, and the id of the
active instrument of a symbol. -/
structure PaperCatalogue where
  strategy : String → Option StoredStrategy
  instrument : Symbol → Option String

/-- `open_position` of the response. -/
structure OpenPositionView where
  quantity : ℚ
  averagePrice : ℚ
  unrealizedPnl : ℚ
  stop : Option ℚ
  target : Option ℚ
  deriving DecidableEq, Repr

structure PaperStateResponse where
  sessionId : PaperSessionId
  balance : ℚ
  equity : ℚ
  openPosition : Option OpenPositionView
  tradesToday : ℕ
  deriving DecidableEq, Repr

/-- `_state_response`. -/
def stateResponse (sessionId : PaperSessionId) (s : PaperApiSession) : PaperStateResponse :=
  let account := s.account.broker.getAccount
  { sessionId := sessionId
    balance := account.balance
    equity := account.equity
    openPosition := (s.position.filter PositionRecord.isOpen).map fun position =>
      { quantity := position.quantity
        averagePrice := position.averagePrice
        unrealizedPnl := position.unrealizedPnl
        stop := position.stop
        target := position.target }
    tradesToday := s.account.riskWindow.tradesToday }

/-- The refusal of a session that is not there, or is another user's. -/
def sessionNotFound : HttpError := ⟨404, "Paper trading session not found"⟩

namespace PaperWorld

/-! ## Section 3: Routes -/

/-- `_get_owned_session`. -/
def ownedSession (w : PaperWorld) (userId : AccountId) (sessionId : PaperSessionId) :
    Option PaperApiSession :=
  (w.sessions.get? sessionId).filter fun s => s.engine.accountId = userId

/-- `create_paper_session`. -/
def createPaperSession (w : PaperWorld) (userId : AccountId) (r : CreatePaperSessionRequest)
    (catalogue : PaperCatalogue) : Except HttpError PaperStateResponse × PaperWorld :=
  match (catalogue.strategy r.strategyId).filter fun row => row.userId = userId with
  | none => (.error ⟨404, "Strategy not found"⟩, w)
  | some strategy =>
    match strategy.definition with
    | .error reasons => (.error ⟨422, reasons⟩, w)
    | .ok definition =>
      match catalogue.instrument r.symbol with
      | none => (.error ⟨404, s!"Unknown instrument symbol: {r.symbol}"⟩, w)
      | some instrumentId =>
        let session : PaperApiSession :=
          { engine :=
              { strategy := definition
                symbol := r.symbol
                accountId := userId
                strategyId := some strategy.id }
            account := { broker := MockBroker.new r.startingBalance }
            instrumentId := instrumentId
            strategyId := strategy.id
            strategyVersion := strategy.version }
        (.ok (stateResponse w.nextId session),
          { w with
            sessions := w.sessions.set w.nextId session
            nextId := w.nextId + 1 })

/-- The `trades` row of a close. -/
def paperTradeRow (userId : AccountId) (s : PaperApiSession) (snapshot : PositionRecord)
    (outcome : PaperTradeOutcome) (pnl : ℚ) (candle : Candle) : PaperTradeRow :=
  { userId := userId
    instrumentId := s.instrumentId
    strategyId := s.strategyId
    strategyVersion := s.strategyVersion
    executionMode := .paper
    direction := snapshot.side
    entryPrice := numeric snapshot.averagePrice
    exitPrice := outcome.exitPrice.map numeric
    quantity := numeric |snapshot.quantity|
    stop := snapshot.stop.map numeric
    target := snapshot.target.map numeric
    pnl := numeric pnl
    rMultiple := (snapshot.rMultiple pnl).map ratioColumn
    openedAt := s.openedAt.getD candle.timestamp
    closedAt := candle.timestamp
    source := paperSandboxTradeSource
    symbol := s.engine.symbol }

/-- The journal of a candle that returned: the trade of a close, if it reports one. -/
def journalClose (w : PaperWorld) (userId : AccountId) (sessionId : PaperSessionId)
    (s : PaperApiSession) (outcome : PaperTradeOutcome) (candle : Candle) : PaperWorld :=
  match outcome.closedPositionPnl, s.openSnapshot with
  | some pnl, some snapshot =>
    { w with
      trades := w.trades ++ [paperTradeRow userId s snapshot outcome pnl candle]
      sessions := w.sessions.set sessionId
        { s with
          openSnapshot := none
          openedAt := none } }
  | _, _ => { w with sessions := w.sessions.set sessionId s }

variable (analyze : Analysis)

/-- What `on_candle` reads from elsewhere. The engine has no `source_key`, so no other book is
read. -/
def engineEnv (env : PaperEnv) : PaperEnv := { env with elsewhere := [] }

/-- `feed_candle`. -/
def feedCandle (w : PaperWorld) (userId : AccountId) (sessionId : PaperSessionId)
    (r : FeedCandleRequest) (env : PaperEnv) : Except HttpError PaperStateResponse × PaperWorld :=
  match w.ownedSession userId sessionId with
  | none => (.error sessionNotFound, w)
  | some s =>
    -- By value: the candle rewrites the record.
    let s := { s with openSnapshot := (s.position.filter PositionRecord.isOpen).or s.openSnapshot }
    match s.engine.onCandle analyze s.account (engineEnv env) r.candle with
    | .error problem =>
      let (engine, account) := s.engine.abandoned analyze s.account (engineEnv env) r.candle
      (.error ⟨500, problem⟩,
        { w with
          sessions := w.sessions.set sessionId
            { s with
              engine := engine
              account := account } })
    | .ok (outcome, engine, account) =>
      let s :=
        { s with
          engine := engine
          account := account
          openedAt := if outcome.orderCreated then some r.candle.timestamp else s.openedAt }
      -- Mirrored on every candle, as long as there is a record.
      let w :=
        { w with
          rows := s.position.elim w.rows fun position =>
            Function.update w.rows userId
              ((w.rows userId).persistPosition position .paper (paperSourceKey sessionId)) }
      (.ok (stateResponse sessionId s), w.journalClose userId sessionId s outcome r.candle)

/-- `close_paper_session`. -/
def closePaperSession (w : PaperWorld) (userId : AccountId) (sessionId : PaperSessionId) :
    Except HttpError Unit × PaperWorld :=
  let session := w.sessions.get? sessionId
  if session.any fun s => s.engine.accountId ≠ userId then (.error sessionNotFound, w)
  else
    let (retired, rows) :=
      (w.rows userId).abandonPositionMirrors .paper (paperSourceKey sessionId)
    let w := { w with rows := Function.update w.rows userId rows }
    -- Behind a restart the rows alone can tell that there was a session.
    if session.isNone ∧ retired = 0 then (.error sessionNotFound, w)
    else (.ok (), { w with sessions := w.sessions.erase sessionId })

end PaperWorld

/-- A request, or the end of a process. -/
inductive PaperEvent
  | create (userId : AccountId) (request : CreatePaperSessionRequest) (catalogue : PaperCatalogue)
  | candle (userId : AccountId) (sessionId : PaperSessionId) (request : FeedCandleRequest)
      (env : PaperEnv)
  | close (userId : AccountId) (sessionId : PaperSessionId)
  | restart

namespace PaperWorld

def step (analyze : Analysis) (w : PaperWorld) : PaperEvent → PaperWorld
  | .create userId r catalogue => (w.createPaperSession userId r catalogue).2
  | .candle userId sessionId r env => (w.feedCandle analyze userId sessionId r env).2
  | .close userId sessionId => (w.closePaperSession userId sessionId).2
  | .restart => { w with sessions := Dict.empty }

end PaperWorld

end SuperTrading
