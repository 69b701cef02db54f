import SuperTrading.Logic.RowVersions
import SuperTrading.Logic.Runs
import SuperTrading.Core.Types

/-!
# Refreshing Tokens

`refresh` of `app/auth/service.py`, for any number of concurrent calls. A call is a
sequence of database statements in one transaction; the environment picks whose statement
comes next, and may end any transaction early. An UPDATE takes a snapshot first, then locks
each row it found and reads the row again.

The token codec is a parameter: what a signed token names, and the hash that is stored.

- **Data**: session rows, calls and where each one stands
- **Statements**: one function for each statement of `refresh` and `_issue_tokens`
- **Runs**: the step of the system
- **Inversion**: everything that a step can do
-/

namespace SuperTrading

open SuperTrading.Logic

/-! ## Section 1: Data -/

abbrev SessionId := String
abbrev UserId := String

/-- A row of `UserSession`. -/
structure UserSession where
  userId : UserId
  refreshTokenHash : String
  deviceInfo : Option String
  revoked : Bool := false
  expiresAt : Instant
  deriving DecidableEq, Repr

/-- What `decode_token_payload` reads from a refresh token: `sid` and `sub`. -/
structure RefreshClaims where
  sessionId : SessionId
  userId : UserId
  deriving DecidableEq, Repr

/-- Signing and hashing: `decode` refuses a token that is not a valid refresh token. -/
structure TokenCodec where
  decode : String → Option RefreshClaims
  hash : String → String

/-- The statement that a call of `refresh` comes to next. -/
inductive RefreshPhase
  /-- the conditional UPDATE that claims the rotation -/
  | claiming
  /-- the UPDATE found the row in its snapshot and is to lock it -/
  | awaitingRow
  /-- the SELECT of the session, after the claim was won or not -/
  | selecting (won : Bool)
  /-- the containment UPDATE -/
  | containing (userId : UserId)
  /-- the containment UPDATE has still these rows of its snapshot to lock; so many
  sessions had been issued when it took the snapshot -/
  | revoking (userId : UserId) (targets : List SessionId) (issuedBefore : ℕ)
  /-- an `AuthError` on its way out: the transaction is to be rolled back -/
  | refusing
  /-- `get_user_by_id` -/
  | findingUser (session : UserSession)
  /-- `_issue_tokens` -/
  | issuing (session : UserSession)
  /-- the COMMIT of the session that `_issue_tokens` has inserted -/
  | committing (sessionId : SessionId)
  | finished
  deriving DecidableEq, Repr

structure RefreshCall where
  token : String
  claims : RefreshClaims
  phase : RefreshPhase := .claiming
  deriving DecidableEq, Repr

/-- A session that a rotation has committed, with the call and the token it came from. -/
structure IssuedSession where
  call : ℕ
  token : String
  sessionId : SessionId
  deriving DecidableEq, Repr

/-- A containment that has been committed. The calls below `begun` had begun by then. -/
structure Containment where
  userId : UserId
  begun : ℕ
  deriving DecidableEq, Repr

/-- The session table and the calls, which are numbered in the order they begin. What has
been issued and contained is recorded on the side; no statement reads it. -/
structure AuthWorld where
  sessions : VersionedTable SessionId ℕ UserSession
  calls : List RefreshCall := []
  issued : List IssuedSession := []
  containments : List Containment := []

/-- What the environment lets happen next: a statement of the call with that number. -/
inductive RefreshEvent
  | begin (token : String)
  | claim (c : ℕ)
  | lockClaimed (c : ℕ)
  | select (c : ℕ) (now : Instant)
  | contain (c : ℕ)
  | revokeRow (c : ℕ) (sessionId : SessionId)
  | commitContainment (c : ℕ)
  | findUser (c : ℕ) (found : Bool)
  | issueTokens (c : ℕ) (sessionId : SessionId) (refreshToken : String) (expiresAt : Instant)
  | commit (c : ℕ)
  | abort (c : ℕ)
  deriving DecidableEq, Repr

/-- The call whose statement it is. -/
def RefreshEvent.call : RefreshEvent → Option ℕ
  | .begin _ => none
  | .claim c | .lockClaimed c | .select c _ | .contain c | .revokeRow c _
  | .commitContainment c | .findUser c _ | .issueTokens c _ _ _ | .commit c | .abort c => some c

/-! ## Section 2: Statements -/

/-- `UserSession.revoked.is_(False), UserSession.refresh_token_hash == hash_token(...)`. -/
def UserSession.isClaimable (session : UserSession) (codec : TokenCodec) (token : String) : Bool :=
  !session.revoked && session.refreshTokenHash = codec.hash token

/-- `UserSession.user_id == session.user_id, UserSession.revoked.is_(False)`. -/
def UserSession.isActiveOf (session : UserSession) (userId : UserId) : Bool :=
  session.userId = userId && !session.revoked

/-- `.values(revoked=True)`. -/
def UserSession.revoke (session : UserSession) : UserSession := { session with revoked := true }

namespace AuthWorld

/-- The world before any call. -/
def initial (sessions : Dict SessionId UserSession) : AuthWorld :=
  { sessions := { committed := sessions } }

/-- The call goes on to its next statement. -/
def advance (w : AuthWorld) (c : ℕ) (phase : RefreshPhase) : AuthWorld :=
  { w with calls := w.calls.modify c fun call => { call with phase } }

/-- A call that names no session and user is refused before its first statement. -/
def begin (w : AuthWorld) (codec : TokenCodec) (token : String) : AuthWorld :=
  match codec.decode token with
  | some claims => { w with calls := w.calls ++ [{ token, claims }] }
  | none => w

/-- The snapshot of the claiming UPDATE. -/
def claim (w : AuthWorld) (codec : TokenCodec) (c : ℕ) (call : RefreshCall) : AuthWorld :=
  if (w.sessions.visible c call.claims.sessionId).any (·.isClaimable codec call.token) then
    w.advance c .awaitingRow
  else w.advance c (.selecting false)

/-- The lock and the second look of the claiming UPDATE. -/
def lockClaimed (w : AuthWorld) (codec : TokenCodec) (c : ℕ) (call : RefreshCall) : AuthWorld :=
  if w.sessions.isHeldByOther c call.claims.sessionId then w
  else
    match w.sessions.visible c call.claims.sessionId with
    | some session =>
      if session.isClaimable codec call.token then
        { w.advance c (.selecting true) with
          sessions := w.sessions.write c call.claims.sessionId session.revoke }
      else w.advance c (.selecting false)
    | none => w.advance c (.selecting false)

/-- The SELECT, and the refusals that follow it. -/
def select (w : AuthWorld) (codec : TokenCodec) (c : ℕ) (call : RefreshCall) (won : Bool)
    (now : Instant) : AuthWorld :=
  match w.sessions.visible c call.claims.sessionId with
  | some session =>
    let tokenMatches := session.refreshTokenHash = codec.hash call.token
    if tokenMatches ∧ won = false then w.advance c (.containing session.userId)
    else if ¬ tokenMatches ∨ session.expiresAt < now then w.advance c .refusing
    else w.advance c (.findingUser session)
  | none => w.advance c .refusing

/-- The snapshot of the containment UPDATE. -/
def contain (w : AuthWorld) (c : ℕ) (userId : UserId) : AuthWorld :=
  w.advance c (.revoking userId (w.sessions.select c (·.isActiveOf userId)) w.issued.length)

/-- The lock and the second look of the containment UPDATE at one row of its snapshot. -/
def revokeRow (w : AuthWorld) (c : ℕ) (userId : UserId) (targets : List SessionId)
    (issuedBefore : ℕ) (sessionId : SessionId) : AuthWorld :=
  if sessionId ∉ targets ∨ w.sessions.isHeldByOther c sessionId then w
  else
    let next := RefreshPhase.revoking userId (targets.erase sessionId) issuedBefore
    match w.sessions.visible c sessionId with
    | some session =>
      if session.isActiveOf userId then
        { w.advance c next with sessions := w.sessions.write c sessionId session.revoke }
      else w.advance c next
    | none => w.advance c next

/-- `record_audit` and the COMMIT of the containment, once the UPDATE has its rows. -/
def commitContainment (w : AuthWorld) (c : ℕ) (userId : UserId) : AuthWorld :=
  { w.advance c .finished with
    sessions := w.sessions.commit c
    containments := w.containments ++ [{ userId, begun := w.calls.length }] }

/-- `user is None` refuses. -/
def findUser (w : AuthWorld) (c : ℕ) (session : UserSession) (found : Bool) : AuthWorld :=
  if found then w.advance c (.issuing session) else w.advance c .refusing

/-- The INSERT of `_issue_tokens`: `uuid.uuid4()` gives an id that no row has, and
`create_refresh_token` a token that names it and the user. -/
def issueTokens (w : AuthWorld) (codec : TokenCodec) (c : ℕ) (call : RefreshCall)
    (session : UserSession) (sessionId : SessionId) (refreshToken : String)
    (expiresAt : Instant) : AuthWorld :=
  if w.sessions.committed.get? sessionId = none ∧ w.sessions.pending.get? sessionId = none ∧
      codec.decode refreshToken = some ⟨sessionId, call.claims.userId⟩ then
    { w.advance c (.committing sessionId) with
      sessions := w.sessions.write c sessionId
        { userId := call.claims.userId
          refreshTokenHash := codec.hash refreshToken
          deviceInfo := session.deviceInfo
          expiresAt } }
  else w

/-- The COMMIT of `_issue_tokens`. -/
def commit (w : AuthWorld) (c : ℕ) (call : RefreshCall) (sessionId : SessionId) : AuthWorld :=
  { w.advance c .finished with
    sessions := w.sessions.commit c
    issued := w.issued ++ [{ call := c, token := call.token, sessionId }] }

/-- The transaction ends without a commit: a refusal, a lost connection, a deadlock. -/
def abort (w : AuthWorld) (c : ℕ) : AuthWorld :=
  { w.advance c .finished with sessions := w.sessions.rollback c }

/-! ## Section 3: Runs -/

/-- What a call does, if there is a call with that number. -/
def onCall (w : AuthWorld) (c : ℕ) (statement : RefreshCall → AuthWorld) : AuthWorld :=
  match w.calls[c]? with
  | some call => statement call
  | none => w

/-- One step. A statement that its call has not come to does not happen. -/
def step (codec : TokenCodec) (w : AuthWorld) : RefreshEvent → AuthWorld
  | .begin token => w.begin codec token
  | .claim c => w.onCall c fun call =>
    if call.phase = .claiming then w.claim codec c call else w
  | .lockClaimed c => w.onCall c fun call =>
    if call.phase = .awaitingRow then w.lockClaimed codec c call else w
  | .select c now => w.onCall c fun call =>
    match call.phase with
    | .selecting won => w.select codec c call won now
    | _ => w
  | .contain c => w.onCall c fun call =>
    match call.phase with
    | .containing userId => w.contain c userId
    | _ => w
  | .revokeRow c sessionId => w.onCall c fun call =>
    match call.phase with
    | .revoking userId targets issuedBefore => w.revokeRow c userId targets issuedBefore sessionId
    | _ => w
  | .commitContainment c => w.onCall c fun call =>
    match call.phase with
    | .revoking userId [] _ => w.commitContainment c userId
    | _ => w
  | .findUser c found => w.onCall c fun call =>
    match call.phase with
    | .findingUser session => w.findUser c session found
    | _ => w
  | .issueTokens c sessionId refreshToken expiresAt => w.onCall c fun call =>
    match call.phase with
    | .issuing session => w.issueTokens codec c call session sessionId refreshToken expiresAt
    | _ => w
  | .commit c => w.onCall c fun call =>
    match call.phase with
    | .committing sessionId => w.commit c call sessionId
    | _ => w
  | .abort c => w.onCall c fun call => if call.phase = .finished then w else w.abort c

/-! ## Section 4: Inversion -/

theorem getElem?_advance (w : AuthWorld) (c d : ℕ) (phase : RefreshPhase) :
    (w.advance c phase).calls[d]? =
      if c = d then w.calls[d]?.map (fun call => { call with phase }) else w.calls[d]? :=
  getElem?_modify_eq _

@[simp] theorem sessions_advance (w : AuthWorld) (c : ℕ) (phase : RefreshPhase) :
    (w.advance c phase).sessions = w.sessions := rfl

@[simp] theorem issued_advance (w : AuthWorld) (c : ℕ) (phase : RefreshPhase) :
    (w.advance c phase).issued = w.issued := rfl

@[simp] theorem containments_advance (w : AuthWorld) (c : ℕ) (phase : RefreshPhase) :
    (w.advance c phase).containments = w.containments := rfl

@[simp] theorem length_calls_advance (w : AuthWorld) (c : ℕ) (phase : RefreshPhase) :
    (w.advance c phase).calls.length = w.calls.length := by
  simp [advance]

/-- The ways in which a call goes on and writes nothing. -/
inductive Moves (codec : TokenCodec) (w : AuthWorld) (c : ℕ) (call : RefreshCall) :
    RefreshPhase → Prop
  | found (hphase : call.phase = .claiming) : Moves codec w c call .awaitingRow
  | lost (hphase : call.phase = .claiming ∨ call.phase = .awaitingRow) :
      Moves codec w c call (.selecting false)
  | reused (session : UserSession) (hphase : call.phase = .selecting false)
      (hrow : w.sessions.visible c call.claims.sessionId = some session)
      (hhash : session.refreshTokenHash = codec.hash call.token) :
      Moves codec w c call (.containing session.userId)
  | won (session : UserSession) (hphase : call.phase = .selecting true) :
      Moves codec w c call (.findingUser session)
  | refused
      (hphase : (∃ won, call.phase = .selecting won) ∨
        ∃ session, call.phase = .findingUser session) :
      Moves codec w c call .refusing
  | snapshot (userId : UserId) (hphase : call.phase = .containing userId) :
      Moves codec w c call
        (.revoking userId (w.sessions.select c (·.isActiveOf userId)) w.issued.length)
  | passed (userId : UserId) (targets : List SessionId) (issuedBefore : ℕ) (sessionId : SessionId)
      (hphase : call.phase = .revoking userId targets issuedBefore)
      (hrow : ∀ session, w.sessions.visible c sessionId = some session →
        session.isActiveOf userId = false) :
      Moves codec w c call (.revoking userId (targets.erase sessionId) issuedBefore)
  | foundUser (session : UserSession) (hphase : call.phase = .findingUser session) :
      Moves codec w c call (.issuing session)

/-- Everything that a step can do. -/
inductive Steps (codec : TokenCodec) (w : AuthWorld) : RefreshEvent → AuthWorld → Prop
  | idle (e : RefreshEvent) : Steps codec w e w
  | begins (token : String) (claims : RefreshClaims) (hdecode : codec.decode token = some claims) :
      Steps codec w (.begin token) { w with calls := w.calls ++ [{ token, claims }] }
  | moves {e : RefreshEvent} {c : ℕ} {call : RefreshCall} {phase : RefreshPhase}
      (he : e.call = some c) (hcall : w.calls[c]? = some call)
      (hmove : Moves codec w c call phase) : Steps codec w e (w.advance c phase)
  | claims {c : ℕ} {call : RefreshCall} {session : UserSession} (hcall : w.calls[c]? = some call)
      (hphase : call.phase = .awaitingRow)
      (hfree : w.sessions.isHeldByOther c call.claims.sessionId = false)
      (hrow : w.sessions.visible c call.claims.sessionId = some session)
      (hclaim : session.isClaimable codec call.token = true) :
      Steps codec w (.lockClaimed c) { w.advance c (.selecting true) with
        sessions := w.sessions.write c call.claims.sessionId session.revoke }
  | revokes {c : ℕ} {call : RefreshCall} {userId : UserId} {targets : List SessionId}
      {issuedBefore : ℕ} {sessionId : SessionId} {session : UserSession}
      (hcall : w.calls[c]? = some call)
      (hphase : call.phase = .revoking userId targets issuedBefore)
      (hfree : w.sessions.isHeldByOther c sessionId = false)
      (hrow : w.sessions.visible c sessionId = some session)
      (hactive : session.isActiveOf userId = true) :
      Steps codec w (.revokeRow c sessionId)
        { w.advance c (.revoking userId (targets.erase sessionId) issuedBefore) with
          sessions := w.sessions.write c sessionId session.revoke }
  | contains {c : ℕ} {call : RefreshCall} {userId : UserId} {issuedBefore : ℕ}
      (hcall : w.calls[c]? = some call) (hphase : call.phase = .revoking userId [] issuedBefore) :
      Steps codec w (.commitContainment c) (w.commitContainment c userId)
  | issues {c : ℕ} {call : RefreshCall} {session : UserSession} {sessionId : SessionId}
      {refreshToken : String} {expiresAt : Instant} (hcall : w.calls[c]? = some call)
      (hphase : call.phase = .issuing session)
      (hcommitted : w.sessions.committed.get? sessionId = none)
      (hpending : w.sessions.pending.get? sessionId = none)
      (hdecode : codec.decode refreshToken = some ⟨sessionId, call.claims.userId⟩) :
      Steps codec w (.issueTokens c sessionId refreshToken expiresAt)
        { w.advance c (.committing sessionId) with
          sessions := w.sessions.write c sessionId
            { userId := call.claims.userId
              refreshTokenHash := codec.hash refreshToken
              deviceInfo := session.deviceInfo
              expiresAt } }
  | commits {c : ℕ} {call : RefreshCall} {sessionId : SessionId} (hcall : w.calls[c]? = some call)
      (hphase : call.phase = .committing sessionId) :
      Steps codec w (.commit c) (w.commit c call sessionId)
  | aborts {c : ℕ} {call : RefreshCall} (hcall : w.calls[c]? = some call) :
      Steps codec w (.abort c) (w.abort c)

variable {codec : TokenCodec} {w : AuthWorld} {c : ℕ} {call : RefreshCall}

theorem steps_lockClaimed (hcall : w.calls[c]? = some call) (hphase : call.phase = .awaitingRow) :
    Steps codec w (.lockClaimed c) (w.lockClaimed codec c call) := by
  have hlost : Steps codec w (.lockClaimed c) (w.advance c (.selecting false)) :=
    .moves rfl hcall (.lost (.inr hphase))
  unfold lockClaimed
  split
  · exact .idle _
  · rename_i hfree
    split
    · rename_i session hrow
      split
      · rename_i hclaim
        exact .claims hcall hphase (Bool.not_eq_true _ ▸ hfree) hrow hclaim
      · exact hlost
    · exact hlost

theorem steps_select {won : Bool} (hcall : w.calls[c]? = some call)
    (hphase : call.phase = .selecting won) (now : Instant) :
    Steps codec w (.select c now) (w.select codec c call won now) := by
  have hrefused : Steps codec w (.select c now) (w.advance c .refusing) :=
    .moves rfl hcall (.refused (.inl ⟨won, hphase⟩))
  unfold select
  split
  · rename_i session hrow
    dsimp only
    split
    · rename_i hreused
      exact .moves rfl hcall (.reused session (hreused.2 ▸ hphase) hrow hreused.1)
    · rename_i hnot
      split
      · exact hrefused
      · rename_i hkept
        -- The token matches and the call was not reused, so it has won.
        have hmatches : session.refreshTokenHash = codec.hash call.token :=
          not_not.mp fun h => hkept (.inl h)
        have hwon : won = true := Bool.eq_true_of_not_eq_false fun h => hnot ⟨hmatches, h⟩
        exact .moves rfl hcall (.won session (hwon ▸ hphase))
  · exact hrefused

theorem steps_revokeRow {userId : UserId} {targets : List SessionId} {issuedBefore : ℕ}
    (hcall : w.calls[c]? = some call)
    (hphase : call.phase = .revoking userId targets issuedBefore) (sessionId : SessionId) :
    Steps codec w (.revokeRow c sessionId)
      (w.revokeRow c userId targets issuedBefore sessionId) := by
  unfold revokeRow
  split
  · exact .idle _
  · rename_i hfree
    have hfree' : w.sessions.isHeldByOther c sessionId = false :=
      Bool.eq_false_of_not_eq_true fun h => hfree (.inr h)
    dsimp only
    split
    · rename_i session hrow
      split
      · rename_i hactive
        exact .revokes hcall hphase hfree' hrow hactive
      · rename_i hpassed
        -- A row that is revoked or not the user's is passed over.
        refine .moves rfl hcall (.passed userId targets issuedBefore sessionId hphase ?_)
        intro session' hrow'
        cases hrow.symm.trans hrow'
        exact Bool.eq_false_of_not_eq_true hpassed
    · rename_i hnone
      refine .moves rfl hcall (.passed userId targets issuedBefore sessionId hphase ?_)
      intro session hrow
      cases hnone.symm.trans hrow

theorem steps_onCall {e : RefreshEvent} {statement : RefreshCall → AuthWorld}
    (h : ∀ call, w.calls[c]? = some call → Steps codec w e (statement call)) :
    Steps codec w e (w.onCall c statement) := by
  unfold onCall
  cases hcall : w.calls[c]? with
  | none => exact .idle e
  | some call => exact h call hcall

/-- Everything a step can do, by the statement that it runs. -/
theorem step_cases (codec : TokenCodec) (w : AuthWorld) (e : RefreshEvent) :
    Steps codec w e (step codec w e) := by
  -- An event that finds its call in another phase than its own changes nothing.
  cases e with
  -- A token that does not decode makes no call.
  | begin token =>
    show Steps codec w _ (w.begin codec token)
    unfold begin
    split
    · rename_i claims hdecode
      exact .begins token claims hdecode
    · exact .idle _
  -- The claim finds the row or not, and does not wait yet.
  | claim c =>
    refine steps_onCall fun call hcall => ?_
    split
    · rename_i hphase
      unfold claim
      split
      · exact .moves rfl hcall (.found hphase)
      · exact .moves rfl hcall (.lost (.inl hphase))
    · exact .idle _
  | lockClaimed c =>
    refine steps_onCall fun call hcall => ?_
    split
    · rename_i hphase
      exact steps_lockClaimed hcall hphase
    · exact .idle _
  -- What is selected tells whether the token was lost or reused.
  | select c now =>
    refine steps_onCall fun call hcall => ?_
    split
    · rename_i won hphase
      exact steps_select hcall hphase now
    · exact .idle _
  -- A containment takes the ids of the active sessions first.
  | contain c =>
    refine steps_onCall fun call hcall => ?_
    split
    · rename_i userId hphase
      exact .moves rfl hcall (.snapshot userId hphase)
    · exact .idle _
  | revokeRow c sessionId =>
    refine steps_onCall fun call hcall => ?_
    split
    · rename_i userId targets issuedBefore hphase
      exact steps_revokeRow hcall hphase sessionId
    · exact .idle _
  | commitContainment c =>
    refine steps_onCall fun call hcall => ?_
    split
    · rename_i userId issuedBefore hphase
      exact .contains hcall hphase
    · exact .idle _
  | findUser c found =>
    refine steps_onCall fun call hcall => ?_
    split
    · rename_i session hphase
      unfold findUser
      split
      · exact .moves rfl hcall (.foundUser session hphase)
      · exact .moves rfl hcall (.refused (.inr ⟨session, hphase⟩))
    · exact .idle _
  -- New tokens get an id that no row has, committed or pending.
  | issueTokens c sessionId refreshToken expiresAt =>
    refine steps_onCall fun call hcall => ?_
    split
    · rename_i session hphase
      unfold issueTokens
      split
      · rename_i hfresh
        exact .issues hcall hphase hfresh.1 hfresh.2.1 hfresh.2.2
      · exact .idle _
    · exact .idle _
  | commit c =>
    refine steps_onCall fun call hcall => ?_
    split
    · rename_i sessionId hphase
      exact .commits hcall hphase
    · exact .idle _
  -- Only a call that is over cannot abort any more.
  | abort c =>
    refine steps_onCall fun call hcall => ?_
    split
    · exact .idle _
    · exact .aborts hcall

end AuthWorld

end SuperTrading
