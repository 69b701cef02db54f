import SuperTrading.Auth.RefreshOnce
import SuperTrading.Logic.MirrorTable
import Mathlib.Data.List.Perm.Subperm

/-!
# Sessions

`app/auth/service.py` and `get_current_user` of `app/auth/dependencies.py`, request by request: a
login opens a session, a refresh replaces it by another, and a logout, a revocation or a refresh
token that is used again end it. Each request is carried out as a whole.

Signing, hashing and bcrypt are parameters. What tokens were issued, and which login a session
goes back to, is recorded on the side; no request reads it.

- **Section 1**: tokens and sessions
- **Section 2**: requests
- **Section 3**: what a request does
- **Section 4**: a session that has ended has ended for good
- **Section 5**: one live session for each login
- **Section 6**: no user touches another's sessions
-/

namespace SuperTrading

open SuperTrading.Logic
open AuthWorld (Persists)

/-! ## Section 1: Tokens and sessions -/

inductive TokenType
  | access
  | refresh
  deriving DecidableEq, Repr

/-- What `_create_token` signs. -/
structure TokenPayload where
  sub : UserId
  type : TokenType
  iat : Instant
  exp : Instant
  jti : String
  sid : Option SessionId
  deriving DecidableEq, Repr

/-- `jwt.encode`, `jwt.decode` at an instant, `hash_token` and `bcrypt.checkpw`. -/
structure TokenService where
  encode : TokenPayload → String
  decode : Instant → String → Option TokenPayload
  hash : String → String
  checkpw : String → String → Bool

/-- The settings of the tokens. -/
structure AuthSettings where
  accessTokenExpire : Instant := 30 * 60 * 1000000
  refreshTokenExpire : Instant := Instant.hours 720

/-- The columns of `User` that the requests read. -/
structure AuthUser where
  email : String
  passwordHash : String
  active : Bool := true
  deriving DecidableEq, Repr

/-- The tables and the clock. -/
structure AuthDesk where
  now : Instant := 0
  users : Dict UserId AuthUser
  sessions : Dict SessionId UserSession := Dict.empty
  /-- on the side: the payloads of the tokens that were handed out -/
  issued : List TokenPayload := []
  /-- on the side: how many logins there were, and the one a session goes back to -/
  logins : ℕ := 0
  loginOf : Dict SessionId ℕ := Dict.empty

/-- What `uuid.uuid4()` gives for the session and the two tokens. -/
structure TokenDraw where
  sessionId : SessionId
  refreshJti : String
  accessJti : String

/-- Why a request is refused: an `AuthError`, or a primary key that is taken. -/
inductive AuthRefusal
  | authError (detail : String)
  | integrityError
  deriving DecidableEq, Repr

namespace TokenService

variable (service : TokenService)

/-- `decode_token_payload`. -/
def decodeTokenPayload (now : Instant) (token : String) (expected : TokenType) :
    Option TokenPayload :=
  (service.decode now token).filter fun payload => payload.type = expected ∧ payload.sub ≠ ""

/-- The payload of a token that names a session. -/
def sessionPayload (now : Instant) (token : String) (expected : TokenType) :
    Option (SessionId × TokenPayload) :=
  (service.decodeTokenPayload now token expected).bind fun payload =>
    (payload.sid.filter (· ≠ "")).map fun sessionId => (sessionId, payload)

/-- What a refresh reads of its token. -/
def codec (now : Instant) : TokenCodec where
  decode token := (service.sessionPayload now token .refresh).map fun p => ⟨p.1, p.2.sub⟩
  hash := service.hash

/-- `verify_password`. -/
def verifyPassword (password passwordHash : String) : Bool :=
  password.utf8ByteSize ≤ 72 && service.checkpw password passwordHash

end TokenService

/-! ## Section 2: Requests -/

namespace AuthDesk

variable (settings : AuthSettings) (service : TokenService) (dummyPasswordHash : String)

def refreshPayload (w : AuthDesk) (userId : UserId) (draw : TokenDraw) : TokenPayload where
  sub := userId
  type := .refresh
  iat := w.now
  exp := w.now + settings.refreshTokenExpire
  jti := draw.refreshJti
  sid := draw.sessionId

def accessPayload (w : AuthDesk) (userId : UserId) (draw : TokenDraw) : TokenPayload where
  sub := userId
  type := .access
  iat := w.now
  exp := w.now + settings.accessTokenExpire
  jti := draw.accessJti
  sid := draw.sessionId

/-- `_issue_tokens`: the access token and the refresh token of a new session. The INSERT fails if
the id is taken. -/
def issueTokens (w : AuthDesk) (userId : UserId) (deviceInfo : Option String) (login : ℕ)
    (draw : TokenDraw) : Option (AuthDesk × (String × String)) :=
  if (w.sessions.get? draw.sessionId).isSome then none
  else
    let refreshToken := service.encode (w.refreshPayload settings userId draw)
    let accessToken := service.encode (w.accessPayload settings userId draw)
    some
      ({ w with
          sessions := w.sessions.set draw.sessionId
            { userId := userId
              refreshTokenHash := service.hash refreshToken
              deviceInfo := deviceInfo
              expiresAt := w.now + settings.refreshTokenExpire }
          issued := w.refreshPayload settings userId draw ::
            w.accessPayload settings userId draw :: w.issued
          loginOf := w.loginOf.set draw.sessionId login },
        (accessToken, refreshToken))

def userByEmail (w : AuthDesk) (email : String) : Option (UserId × AuthUser) :=
  w.users.entries.find? fun u => u.2.email = email

/-- `login`. An unknown email is checked against a hash that no password has. -/
def login (w : AuthDesk) (email password : String) (deviceInfo : Option String)
    (draw : TokenDraw) : AuthDesk × Except AuthRefusal (String × String) :=
  let user := w.userByEmail email
  let passwordHash := user.elim dummyPasswordHash fun u => u.2.passwordHash
  let passwordValid := service.verifyPassword password passwordHash
  match user.filter fun _ => passwordValid with
  | none => (w, .error (.authError "Invalid email or password"))
  | some u =>
    (issueTokens settings service { w with logins := w.logins + 1 } u.1 deviceInfo w.logins
      draw).elim (w, .error .integrityError) fun issued => (issued.1, .ok issued.2)

/-- The reuse containment: every active session of the user is revoked. -/
def contain (w : AuthDesk) (userId : UserId) : AuthDesk :=
  { w with
    sessions := w.sessions.mapValues fun session =>
      if session.isActiveOf userId then session.revoke else session }

/-- `refresh`. A refusal rolls the claim back, but for the one that contains. -/
def refresh (w : AuthDesk) (token : String) (draw : TokenDraw) :
    AuthDesk × Except AuthRefusal (String × String) :=
  match service.sessionPayload w.now token .refresh with
  | none => (w, .error (.authError "Invalid refresh token"))
  | some (sessionId, payload) =>
    let wonTheRotation := (w.sessions.get? sessionId).any fun session =>
      session.isClaimable (service.codec w.now) token
    let claimed : AuthDesk :=
      if wonTheRotation then { w with sessions := w.sessions.modify sessionId UserSession.revoke }
      else w
    match claimed.sessions.get? sessionId with
    | none => (w, .error (.authError "Refresh token is no longer valid"))
    | some session =>
      let tokenMatches := session.refreshTokenHash = service.hash token
      if tokenMatches ∧ wonTheRotation = false then
        (claimed.contain session.userId, .error (.authError "Refresh token is no longer valid"))
      else if ¬ tokenMatches ∨ session.expiresAt < w.now then
        (w, .error (.authError "Refresh token is no longer valid"))
      else if (w.users.get? payload.sub).isNone then (w, .error (.authError "User not found"))
      else
        (claimed.issueTokens settings service payload.sub session.deviceInfo
          ((w.loginOf.get? sessionId).getD 0) draw).elim (w, .error .integrityError)
            fun issued => (issued.1, .ok issued.2)

/-- `get_active_session`. -/
def getActiveSession (w : AuthDesk) (sessionId : SessionId) : Option UserSession :=
  (w.sessions.get? sessionId).filter fun session => !session.revoked && ¬ session.expiresAt < w.now

/-- `get_current_user`. -/
def getCurrentUser (w : AuthDesk) (credentials : Option String) : Except String UserId :=
  match credentials with
  | none => .error "Not authenticated"
  | some token =>
    match service.decodeTokenPayload w.now token .access with
    | none => .error "Invalid or expired access token"
    | some payload =>
      match payload.sid.filter (· ≠ "") with
      | none => .error "Access token is not bound to a session"
      | some sessionId =>
        if (w.getActiveSession sessionId).isNone then
          .error "Session has been revoked or has expired"
        else if (w.users.get? payload.sub).any AuthUser.active then .ok payload.sub
        else .error "User is not active"

/-- `logout`. Whoever is logged out already is not refused. -/
def logout (w : AuthDesk) (token : String) : AuthDesk :=
  match service.sessionPayload w.now token .refresh with
  | none => w
  | some (sessionId, _) =>
    if (w.sessions.get? sessionId).any fun session => !session.revoked then
      { w with sessions := w.sessions.modify sessionId UserSession.revoke }
    else w

/-- `list_sessions`, the newest first. -/
def listSessions (w : AuthDesk) (userId : UserId) : List (SessionId × UserSession) :=
  (w.sessions.entries.filter fun e => e.2.isActiveOf userId && w.now < e.2.expiresAt).reverse

/-- `revoke_session`, and whether a session of the user was found. -/
def revokeSession (w : AuthDesk) (userId : UserId) (sessionId : SessionId) : AuthDesk × Bool :=
  match w.sessions.get? sessionId with
  | none => (w, false)
  | some session =>
    if session.userId ≠ userId then (w, false)
    else ({ w with sessions := w.sessions.set sessionId session.revoke }, true)

end AuthDesk

/-- The requests that write, and time. -/
inductive AuthRequest
  | elapse (time : Instant)
  | login (email password : String) (deviceInfo : Option String) (draw : TokenDraw)
  | refresh (token : String) (draw : TokenDraw)
  | logout (token : String)
  | revoke (credentials : Option String) (sessionId : SessionId)

namespace AuthDesk

variable (settings : AuthSettings) (service : TokenService) (dummyPasswordHash : String)

def step (w : AuthDesk) : AuthRequest → AuthDesk
  | .elapse time => { w with now := w.now + time }
  | .login email password deviceInfo draw =>
    (w.login settings service dummyPasswordHash email password deviceInfo draw).1
  | .refresh token draw => (w.refresh settings service token draw).1
  | .logout token => w.logout service token
  | .revoke credentials sessionId =>
    match w.getCurrentUser service credentials with
    | .error _ => w
    | .ok userId => (w.revokeSession userId sessionId).1

/-! ## Section 3: What a request does -/

/-- Everything that a request can do. -/
inductive Serves (w : AuthDesk) : AuthRequest → AuthDesk → Prop
  | idle (r : AuthRequest) : Serves w r w
  | elapsed (time : Instant) : Serves w (.elapse time) { w with now := w.now + time }
  | opened {email password : String} {deviceInfo : Option String} {draw : TokenDraw}
      {u : UserId × AuthUser} {issued : AuthDesk × (String × String)}
      (huser : w.userByEmail email = some u)
      (hissued : issueTokens settings service { w with logins := w.logins + 1 } u.1 deviceInfo
        w.logins draw = some issued) :
      Serves w (.login email password deviceInfo draw) issued.1
  | rotated {token : String} {draw : TokenDraw} {sessionId : SessionId} {payload : TokenPayload}
      {session : UserSession} {issued : AuthDesk × (String × String)}
      (hpayload : service.sessionPayload w.now token .refresh = some (sessionId, payload))
      (hrow : w.sessions.get? sessionId = some session) (hlive : session.revoked = false)
      (hissued : issueTokens settings service
        { w with sessions := w.sessions.set sessionId session.revoke } payload.sub
        session.deviceInfo ((w.loginOf.get? sessionId).getD 0) draw = some issued) :
      Serves w (.refresh token draw) issued.1
  | contained {token : String} {draw : TokenDraw} {sessionId : SessionId} {payload : TokenPayload}
      {session : UserSession}
      (hpayload : service.sessionPayload w.now token .refresh = some (sessionId, payload))
      (hrow : w.sessions.get? sessionId = some session) :
      Serves w (.refresh token draw) (w.contain session.userId)
  | loggedOut {token : String} {sessionId : SessionId} {payload : TokenPayload}
      {session : UserSession}
      (hpayload : service.sessionPayload w.now token .refresh = some (sessionId, payload))
      (hrow : w.sessions.get? sessionId = some session) :
      Serves w (.logout token) { w with sessions := w.sessions.set sessionId session.revoke }
  | revoked {credentials : Option String} {sessionId : SessionId} {session : UserSession}
      (huser : w.getCurrentUser service credentials = .ok session.userId)
      (hrow : w.sessions.get? sessionId = some session) :
      Serves w (.revoke credentials sessionId)
        { w with sessions := w.sessions.set sessionId session.revoke }

variable {settings service dummyPasswordHash} {w w' : AuthDesk} {r : AuthRequest}

/-- How a refresh ends that has a token of a session. -/
theorem refresh_of_row {token : String} {draw : TokenDraw} {sessionId : SessionId}
    {payload : TokenPayload} {session : UserSession}
    (hpayload : service.sessionPayload w.now token .refresh = some (sessionId, payload))
    (hrow : w.sessions.get? sessionId = some session) :
    w.refresh settings service token draw =
      if session.refreshTokenHash ≠ service.hash token then
        (w, .error (.authError "Refresh token is no longer valid"))
      else if session.revoked then
        (w.contain session.userId, .error (.authError "Refresh token is no longer valid"))
      else if session.expiresAt < w.now then
        (w, .error (.authError "Refresh token is no longer valid"))
      else if (w.users.get? payload.sub).isNone then (w, .error (.authError "User not found"))
      else
        (issueTokens settings service
          { w with sessions := w.sessions.set sessionId session.revoke } payload.sub
          session.deviceInfo ((w.loginOf.get? sessionId).getD 0) draw).elim
            (w, .error .integrityError) fun issued => (issued.1, .ok issued.2) := by
  have hclaimable : session.isClaimable (service.codec w.now) token =
      (!session.revoked && session.refreshTokenHash = service.hash token) := rfl
  rw [refresh, hpayload]
  dsimp only
  rw [hrow, Option.any_some, hclaimable]
  -- A token of another hash is refused at once.
  by_cases hhash : session.refreshTokenHash = service.hash token
  · cases hrevoked : session.revoked with
    -- The right hash of a revoked session: all sessions of the user are revoked.
    | true => simp [hhash, hrow]
    | false =>
      have hmodify : w.sessions.modify sessionId UserSession.revoke =
          w.sessions.set sessionId session.revoke := by
        rw [Dict.modify, hrow]
      -- The claim revokes the row, which is then read as the one that was.
      simp [hhash, hmodify, UserSession.revoke]
  · simp [hhash, hrow]

theorem serves_step (w : AuthDesk) (r : AuthRequest) :
    Serves settings service w r (w.step settings service dummyPasswordHash r) := by
  cases r with
  | elapse time => exact .elapsed time
  -- The password is verified also where no user has the address, against the dummy.
  | login email password deviceInfo draw =>
    show Serves _ _ _ _
      (w.login settings service dummyPasswordHash email password deviceInfo draw).1
    rw [login]
    cases hu : (w.userByEmail email).filter fun _ => service.verifyPassword password
        ((w.userByEmail email).elim dummyPasswordHash fun u => u.2.passwordHash) with
    | none => exact .idle _
    | some u =>
      dsimp only
      cases hissued : issueTokens settings service { w with logins := w.logins + 1 } u.1 deviceInfo
          w.logins draw with
      | none => exact .idle _
      | some issued => exact .opened (Option.filter_eq_some_iff.mp hu).1 hissued
  -- A refresh falls through one guard after the other.
  | refresh token draw =>
    show Serves _ _ _ _ (w.refresh settings service token draw).1
    cases hpayload : service.sessionPayload w.now token .refresh with
    | none =>
      rw [refresh, hpayload]
      exact .idle _
    -- The token names a session, which need not have a row.
    | some p =>
      obtain ⟨sessionId, payload⟩ := p
      cases hrow : w.sessions.get? sessionId with
      | none =>
        rw [refresh, hpayload]
        simp only [hrow, Option.any_none, Bool.false_eq_true, if_false]
        exact .idle _
      | some session =>
        rw [refresh_of_row hpayload hrow]
        split_ifs with hhash hrevoked hexpired huser
        · exact .idle _
        · -- The session was revoked before: all sessions of its user are revoked with it.
          exact .contained hpayload hrow
        · exact .idle _
        · exact .idle _
        · -- The claimed session is replaced, unless the ids collide.
          cases hissued : issueTokens settings service
              { w with sessions := w.sessions.set sessionId session.revoke } payload.sub
              session.deviceInfo ((w.loginOf.get? sessionId).getD 0) draw with
          | none => exact .idle _
          | some issued => exact .rotated hpayload hrow (Bool.not_eq_true _ ▸ hrevoked) hissued
  -- A logout revokes the session its token names, if it is not revoked already.
  | logout token =>
    show Serves _ _ _ _ (w.logout service token)
    rw [logout]
    cases hpayload : service.sessionPayload w.now token .refresh with
    | none => exact .idle _
    | some p =>
      obtain ⟨sessionId, payload⟩ := p
      dsimp only
      cases hrow : w.sessions.get? sessionId with
      | none => exact .idle _
      | some session =>
        rw [Dict.modify, hrow]
        cases hrevoked : session.revoked with
        | true => simpa [hrevoked] using Serves.idle _
        | false => simpa [hrevoked] using Serves.loggedOut hpayload hrow
  -- A session is revoked by its own user.
  | revoke credentials sessionId =>
    rw [step]
    cases huser : w.getCurrentUser service credentials with
    | error => exact .idle _
    | ok userId =>
      dsimp only
      rw [revokeSession]
      cases hrow : w.sessions.get? sessionId with
      | none => exact .idle _
      | some session =>
        dsimp only
        split_ifs with hother
        · exact .idle _
        · obtain rfl : session.userId = userId := not_not.mp hother
          exact .revoked huser hrow

/-- What `_issue_tokens` adds. -/
theorem of_issueTokens {userId : UserId} {deviceInfo : Option String} {login : ℕ} {draw : TokenDraw}
    {issued : AuthDesk × (String × String)}
    (h : issueTokens settings service w userId deviceInfo login draw = some issued) :
    w.sessions.get? draw.sessionId = none ∧
      ∃ row : UserSession, row.userId = userId ∧ row.revoked = false ∧
        issued.1 = { w with
          sessions := w.sessions.set draw.sessionId row
          issued := w.refreshPayload settings userId draw ::
            w.accessPayload settings userId draw :: w.issued
          loginOf := w.loginOf.set draw.sessionId login } := by
  rw [issueTokens] at h
  split_ifs at h with htaken
  cases h
  exact ⟨Option.not_isSome_iff_eq_none.mp htaken, _, rfl, rfl, rfl⟩

/-! ## Section 4: Ends -/

theorem persists_set {rows : Dict SessionId UserSession} {sessionId : SessionId}
    {row : UserSession} (hfresh : rows.get? sessionId = none) :
    Persists rows (rows.set sessionId row) := by
  intro k session hk
  refine .inl ?_
  rw [Dict.get?_set_of_ne _ (by rintro rfl; rw [hk] at hfresh; cases hfresh), hk]

theorem persists_revoke {rows : Dict SessionId UserSession} {sessionId : SessionId}
    {row : UserSession} (hrow : rows.get? sessionId = some row) :
    Persists rows (rows.set sessionId row.revoke) := by
  intro k session hk
  rw [Dict.get?_set]
  split_ifs with heq
  · subst heq
    rw [hrow] at hk
    exact .inr (by rw [Option.some.inj hk])
  · exact .inl hk

theorem persists_contain (w : AuthDesk) (userId : UserId) :
    Persists w.sessions (w.contain userId).sessions := by
  intro k session hk
  rw [contain, Dict.get?_mapValues, hk, Option.map_some]
  split_ifs
  · exact .inr rfl
  · exact .inl rfl

theorem persists_trans {rows rows' rows'' : Dict SessionId UserSession} (h : Persists rows rows')
    (h' : Persists rows' rows'') : Persists rows rows'' := by
  intro k session hk
  rcases h k session hk with hk' | hk'
  · exact h' k session hk'
  · rcases h' k _ hk' with hk'' | hk'' <;> exact .inr hk''

/-- No request takes a session away, or makes one live again. -/
theorem Serves.persists (h : Serves settings service w r w') :
    Persists w.sessions w'.sessions := by
  cases h with
  | idle | elapsed => exact Persists.refl _
  | opened _ hissued =>
    obtain ⟨hfresh, row, -, -, heq⟩ := of_issueTokens hissued
    rw [heq]
    exact persists_set hfresh
  | rotated _ hrow _ hissued =>
    obtain ⟨hfresh, row, -, -, heq⟩ := of_issueTokens hissued
    rw [heq]
    exact persists_trans (persists_revoke hrow) (persists_set hfresh)
  | contained _ _ => exact persists_contain w _
  | loggedOut _ hrow => exact persists_revoke hrow
  | revoked _ hrow => exact persists_revoke hrow

theorem persists_run (w : AuthDesk) (rs : List AuthRequest) :
    Persists w.sessions (run (step settings service dummyPasswordHash) w rs).sessions := by
  induction rs generalizing w with
  | nil => exact Persists.refl _
  | cons r rs ih => exact persists_trans (serves_step w r).persists (ih _)

/-- A containment leaves no session of the user live. -/
theorem revoked_of_contain {userId : UserId} {sessionId : SessionId} {session : UserSession}
    (hrow : (w.contain userId).sessions.get? sessionId = some session)
    (huser : session.userId = userId) : session.revoked = true := by
  rw [contain, Dict.get?_mapValues] at hrow
  obtain ⟨before, -, rfl⟩ := Option.map_eq_some_iff.mp hrow
  split_ifs at huser ⊢ with hactive
  · rfl
  · rw [UserSession.isActiveOf_iff] at hactive
    exact Bool.not_eq_false _ ▸ fun hlive => hactive ⟨huser, hlive⟩

/-- The two tokens of one login. -/
def pairOfLogin : List TokenPayload :=
  [{ sub := "owner", type := .refresh, iat := 0, exp := Instant.hours 720, jti := "r0",
     sid := some "s0" },
   { sub := "owner", type := .access, iat := 0, exp := 30 * 60 * 1000000, jti := "a0",
     sid := some "s0" }]

/-- Tokens that are named by their `jti`. -/
def namedTokens : TokenService where
  encode payload := payload.jti
  decode now token := pairOfLogin.find? fun payload => payload.jti = token ∧ now ≤ payload.exp
  hash token := "#" ++ token
  checkpw password passwordHash := passwordHash = "$" ++ password

/-- One user, who has logged in. -/
def loggedIn : AuthDesk :=
  run (step {} namedTokens "-")
    { users := Dict.empty.set "owner" { email := "owner@desk", passwordHash := "$secret" } }
    [.login "owner@desk" "secret" none ⟨"s0", "r0", "a0"⟩]

/-- **A session that has ended has ended for good.** Whatever is requested after it was revoked,
its access tokens authenticate nobody, its user does not see it listed, and a refresh token that
names it is refused and opens no session; if that token is its own, no session of the user is left
live. -/
theorem revoked_for_good {sessionId : SessionId} {session : UserSession}
    (hrow : w.sessions.get? sessionId = some session) (hrevoked : session.revoked = true)
    (rs : List AuthRequest) :
    let after := run (step settings service dummyPasswordHash) w rs
    (∀ token payload, service.sessionPayload after.now token .access = some (sessionId, payload) →
        after.getCurrentUser service (some token) =
          .error "Session has been revoked or has expired") ∧
      (∀ userId, sessionId ∉ (after.listSessions userId).map Prod.fst) ∧
      ∀ token draw payload,
        service.sessionPayload after.now token .refresh = some (sessionId, payload) →
        (after.refresh settings service token draw).2 =
            .error (.authError "Refresh token is no longer valid") ∧
          (∀ k, after.sessions.get? k = none →
            (after.refresh settings service token draw).1.sessions.get? k = none) ∧
          (session.refreshTokenHash = service.hash token → ∀ k row,
            (after.refresh settings service token draw).1.sessions.get? k = some row →
            row.userId = session.userId → row.revoked = true) := by
  -- The row stays revoked, with its hash and its user, through every request.
  intro after
  obtain ⟨session', hrow', hrevoked', hhash', huser'⟩ : ∃ session', after.sessions.get? sessionId =
      some session' ∧ session'.revoked = true ∧
      session'.refreshTokenHash = session.refreshTokenHash ∧ session'.userId = session.userId := by
    rcases persists_run w rs sessionId session hrow with hafter | hafter
    · exact ⟨session, hafter, hrevoked, rfl, rfl⟩
    · exact ⟨session.revoke, hafter, rfl, rfl, rfl⟩
  refine ⟨fun token payload hpayload => ?_, fun userId hmem => ?_,
    fun token draw payload hpayload => ?_⟩
  · -- The access token decodes, and its session is not active.
    obtain ⟨payload', hdecode, hsid⟩ := Option.bind_eq_some_iff.mp hpayload
    obtain ⟨sid, hsid, heq⟩ := Option.map_eq_some_iff.mp hsid
    cases heq
    rw [getCurrentUser, hdecode]
    dsimp only
    rw [hsid]
    dsimp only
    rw [getActiveSession, hrow', Option.filter_some, hrevoked']
    rfl
  · -- A list shows active sessions only.
    obtain ⟨⟨k, row⟩, hentry, rfl⟩ := List.mem_map.mp hmem
    have hkept := List.mem_filter.mp (List.mem_reverse.mp hentry)
    rw [(Dict.mem_entries_iff _).mp hkept.1] at hrow'
    cases hrow'
    simp [UserSession.isActiveOf, hrevoked'] at hkept
  · -- A refresh meets the revoked row: it is refused, and contains if the hash is the row's.
    have hrefresh : after.refresh settings service token draw = _ :=
      refresh_of_row hpayload hrow'
    rw [hrefresh, hhash', hrevoked']
    by_cases hhash : session.refreshTokenHash = service.hash token
    · rw [if_neg (not_not.mpr hhash), if_pos rfl]
      refine ⟨rfl, fun k hk => ?_, fun _ k row hk huser => ?_⟩
      · show (after.contain session'.userId).sessions.get? k = none
        rw [contain, Dict.get?_mapValues, hk]
        rfl
      · exact revoked_of_contain hk (huser.trans huser'.symm)
    · rw [if_pos hhash]
      exact ⟨rfl, fun k hk => hk, fun h => absurd h hhash⟩

/-- A session that was logged out, and its tokens a minute later. -/
theorem revoked_for_good_loggedOut :
    (loggedIn.logout namedTokens "r0").sessions.get? "s0" =
        some ⟨"owner", "#r0", none, true, Instant.hours 720⟩ ∧
      (run (step {} namedTokens "-") (loggedIn.logout namedTokens "r0")
        [.elapse 60000000]).getCurrentUser namedTokens (some "a0") =
          .error "Session has been revoked or has expired" := by
  have hrow : (loggedIn.logout namedTokens "r0").sessions.get? "s0" =
      some ⟨"owner", "#r0", none, true, Instant.hours 720⟩ := by decide +kernel
  exact ⟨hrow, (revoked_for_good hrow rfl [.elapse 60000000]).1 "a0" _ rfl⟩

/-! ## Section 5: Logins -/

/-- Every session goes back to a login, and no two live ones to the same. -/
structure OnePerLogin (w : AuthDesk) : Prop where
  login : ∀ k row, w.sessions.get? k = some row → ∃ n, w.loginOf.get? k = some n ∧ n < w.logins
  lone : ∀ k k' row row', w.sessions.get? k = some row → w.sessions.get? k' = some row' →
    row.revoked = false → row'.revoked = false → w.loginOf.get? k = w.loginOf.get? k' → k = k'

/-- Revoking keeps it. -/
theorem OnePerLogin.of_back (h : OnePerLogin w) (hlogins : w'.logins = w.logins)
    (hloginOf : w'.loginOf = w.loginOf)
    (hback : ∀ k row', w'.sessions.get? k = some row' →
      ∃ row, w.sessions.get? k = some row ∧ (row'.revoked = false → row.revoked = false)) :
    OnePerLogin w' where
  login k row' hk := by
    obtain ⟨row, hrow, -⟩ := hback k row' hk
    rw [hlogins, hloginOf]
    exact h.login k row hrow
  lone k k' row row' hk hk' hlive hlive' heq := by
    obtain ⟨before, hbefore, hlivek⟩ := hback k row hk
    obtain ⟨before', hbefore', hlivek'⟩ := hback k' row' hk'
    rw [hloginOf] at heq
    exact h.lone k k' before before' hbefore hbefore' (hlivek hlive) (hlivek' hlive') heq

theorem OnePerLogin.revoke (h : OnePerLogin w) {sessionId : SessionId} {session : UserSession}
    (hrow : w.sessions.get? sessionId = some session) :
    OnePerLogin { w with sessions := w.sessions.set sessionId session.revoke } := by
  refine h.of_back rfl rfl fun k row' hk => ?_
  dsimp only at hk
  rw [Dict.get?_set] at hk
  split_ifs at hk with heq
  · subst heq
    cases hk
    exact ⟨session, hrow, fun hlive => by cases hlive⟩
  · exact ⟨row', hk, id⟩

/-- A new session of a login that has none that is live. -/
theorem OnePerLogin.issue (h : OnePerLogin w) {userId : UserId} {deviceInfo : Option String}
    {login : ℕ} {draw : TokenDraw} {issued : AuthDesk × (String × String)}
    (hlogin : login < w.logins)
    (hfree : ∀ k row, w.sessions.get? k = some row → row.revoked = false →
      w.loginOf.get? k ≠ some login)
    (hissued : issueTokens settings service w userId deviceInfo login draw = some issued) :
    OnePerLogin issued.1 := by
  obtain ⟨hfresh, row, -, -, heq⟩ := of_issueTokens hissued
  rw [heq]
  constructor
  · -- The new session has its login; the others have theirs.
    intro k row' hk
    dsimp only at hk ⊢
    rw [Dict.get?_set] at hk ⊢
    split_ifs at hk ⊢ with hnew
    · exact ⟨login, rfl, hlogin⟩
    · exact h.login k row' hk
  · -- Two live sessions of one login: both new, or both old.
    intro k k' row row' hk hk' hlive hlive' hsame
    dsimp only at hk hk' hsame
    rw [Dict.get?_set] at hk hk' hsame
    rw [Dict.get?_set] at hsame
    split_ifs at hk hk' hsame with hnew hnew'
    · exact hnew.symm.trans hnew'
    · exact absurd hsame.symm (hfree k' row' hk' hlive')
    · exact absurd hsame (hfree k row hk hlive)
    · exact h.lone k k' row row' hk hk' hlive hlive' hsame

theorem OnePerLogin.step (h : OnePerLogin w) (hserves : Serves settings service w r w') :
    OnePerLogin w' := by
  cases hserves with
  | idle => exact h
  | elapsed => exact h.of_back rfl rfl fun k row hk => ⟨row, hk, id⟩
  | opened huser hissued =>
    have hcounted : OnePerLogin { w with logins := w.logins + 1 } :=
      ⟨fun k row hk => (h.login k row hk).imp fun n hn => ⟨hn.1, Nat.lt_succ_of_lt hn.2⟩, h.lone⟩
    refine hcounted.issue (Nat.lt_succ_self _) (fun k row hk _ heq => ?_) hissued
    -- The login is new.
    obtain ⟨n, hn, hlt⟩ := h.login k row hk
    cases hn.symm.trans heq
    exact lt_irrefl _ hlt
  | @rotated token draw sessionId payload session issued hpayload hrow hlive hissued =>
    obtain ⟨n, hn, hlt⟩ := h.login sessionId session hrow
    rw [hn, Option.getD_some] at hissued
    refine (h.revoke hrow).issue hlt (fun k row hk hlivek heq => ?_) hissued
    -- The one that was live is the one that was used up.
    dsimp only at hk
    rw [Dict.get?_set] at hk
    split_ifs at hk with hused
    · cases hk
      cases hlivek
    · exact hused (h.lone sessionId k session row hrow hk hlive hlivek (hn.trans heq.symm))
  | @contained token draw sessionId payload session hpayload hrow =>
    refine h.of_back rfl rfl fun k row' hk => ?_
    rw [contain, Dict.get?_mapValues] at hk
    obtain ⟨row, hrow', rfl⟩ := Option.map_eq_some_iff.mp hk
    refine ⟨row, hrow', fun hlive => ?_⟩
    split_ifs at hlive
    · cases hlive
    · exact hlive
  | loggedOut hpayload hrow => exact h.revoke hrow
  | revoked huser hrow => exact h.revoke hrow

/-- **One live session for each login.** However sessions are opened, refreshed, revoked and
contained, the rotations of a login leave one live session at most, so that there are never more
live sessions than there were logins. -/
theorem one_live_session_per_login (now : Instant) (users : Dict UserId AuthUser)
    (rs : List AuthRequest) :
    let w := run (step settings service dummyPasswordHash) { now := now, users := users } rs
    (∀ k k' row row', w.sessions.get? k = some row → w.sessions.get? k' = some row' →
        row.revoked = false → row'.revoked = false → w.loginOf.get? k = w.loginOf.get? k' →
        k = k') ∧
      (w.sessions.entries.filter fun e => !e.2.revoked).length ≤ w.logins := by
  intro w
  -- At the start nobody is logged in; every request keeps the rest.
  have h : OnePerLogin w := by
    refine invariant_run (fun w r h => h.step (serves_step w r)) rs ⟨?_, ?_⟩
    · intro k row hk
      cases hk
    · intro k k' row row' hk
      cases hk
  refine ⟨h.lone, ?_⟩
  have hlive : ∀ e ∈ w.sessions.entries.filter fun e => !e.2.revoked,
      w.sessions.get? e.1 = some e.2 ∧ e.2.revoked = false := by
    intro e he
    obtain ⟨hmem, hlive⟩ := List.mem_filter.mp he
    exact ⟨(Dict.mem_entries_iff _).mp hmem, by simpa using hlive⟩
  -- Their logins are different ones.
  have hnodup : ((w.sessions.entries.filter fun e => !e.2.revoked).map fun e =>
      (w.loginOf.get? e.1).getD 0).Nodup := by
    refine List.Nodup.map_on (fun e he e' he' heq => ?_) ?_
    · obtain ⟨hrow, hlivee⟩ := hlive e he
      obtain ⟨hrow', hlivee'⟩ := hlive e' he'
      obtain ⟨n, hn, -⟩ := h.login e.1 e.2 hrow
      obtain ⟨n', hn', -⟩ := h.login e'.1 e'.2 hrow'
      rw [hn, hn', Option.getD_some, Option.getD_some] at heq
      have hkey := h.lone e.1 e'.1 e.2 e'.2 hrow hrow' hlivee hlivee' (by rw [hn, hn', heq])
      refine Prod.ext hkey ?_
      rw [← hkey, hrow] at hrow'
      exact Option.some.inj hrow'
    · exact (List.Nodup.of_map Prod.fst w.sessions.nodup).filter _
  -- And they are logins that there were.
  have hsub : ((w.sessions.entries.filter fun e => !e.2.revoked).map fun e =>
      (w.loginOf.get? e.1).getD 0) ⊆ List.range w.logins := by
    intro n hn
    obtain ⟨e, he, rfl⟩ := List.mem_map.mp hn
    obtain ⟨n, hn, hlt⟩ := h.login e.1 e.2 (hlive e he).1
    rw [hn, Option.getD_some]
    exact List.mem_range.mpr hlt
  simpa using (hnodup.subperm hsub).length_le

/-! ## Section 6: Users -/

end AuthDesk

/-- The tokens that a request presents. -/
def AuthRequest.tokens : AuthRequest → List String
  | .refresh token _ | .logout token => [token]
  | .revoke credentials _ => credentials.toList
  | .elapse _ | .login _ _ _ _ => []

/-- The user whose request it is. -/
def AuthRequest.owner (service : TokenService) (w : AuthDesk) : AuthRequest → Option UserId
  | .elapse _ => none
  | .login email _ _ _ => (w.userByEmail email).map Prod.fst
  | .refresh token _ | .logout token =>
    (service.sessionPayload w.now token .refresh).map fun p => p.2.sub
  | .revoke credentials _ => (w.getCurrentUser service credentials).toOption

namespace AuthDesk

variable {settings : AuthSettings} {service : TokenService} {dummyPasswordHash : String}
  {w w' : AuthDesk} {r : AuthRequest}

/-- Whatever of it decodes was handed out: nobody else has the secret. -/
def Unforged (service : TokenService) (w : AuthDesk) (token : String) : Prop :=
  ∀ payload, service.decode w.now token = some payload → payload ∈ w.issued

theorem of_sessionPayload {now : Instant} {token : String} {expected : TokenType}
    {sessionId : SessionId} {payload : TokenPayload}
    (h : service.sessionPayload now token expected = some (sessionId, payload)) :
    service.decode now token = some payload ∧ payload.sid = some sessionId := by
  obtain ⟨payload', hdecode, hsid⟩ := Option.bind_eq_some_iff.mp h
  obtain ⟨sid, hsid, heq⟩ := Option.map_eq_some_iff.mp hsid
  cases heq
  exact ⟨(Option.filter_eq_some_iff.mp hdecode).1, (Option.filter_eq_some_iff.mp hsid).1⟩

/-- A token that was handed out names a session of its user. -/
def Honest (w : AuthDesk) : Prop :=
  ∀ payload ∈ w.issued, ∃ sessionId session, payload.sid = some sessionId ∧
    w.sessions.get? sessionId = some session ∧ session.userId = payload.sub

/-- What the unforged tokens of a request name. -/
theorem Honest.userId_eq (h : Honest w) {token : String} (hunforged : Unforged service w token)
    {expected : TokenType} {sessionId : SessionId} {payload : TokenPayload} {session : UserSession}
    (hpayload : service.sessionPayload w.now token expected = some (sessionId, payload))
    (hrow : w.sessions.get? sessionId = some session) : session.userId = payload.sub := by
  obtain ⟨hdecode, hsid⟩ := of_sessionPayload hpayload
  obtain ⟨k, row, hk, hrow', huser⟩ := h payload (hunforged payload hdecode)
  cases hsid.symm.trans hk
  cases hrow.symm.trans hrow'
  exact huser

theorem Honest.of_persists (h : Honest w) (hpersists : Persists w.sessions w'.sessions)
    (hissued : ∀ payload ∈ w'.issued, payload ∈ w.issued ∨
      ∃ sessionId session, payload.sid = some sessionId ∧
        w'.sessions.get? sessionId = some session ∧ session.userId = payload.sub) :
    Honest w' := by
  intro payload hp
  rcases hissued payload hp with hold | hnew
  · obtain ⟨sessionId, session, hsid, hrow, huser⟩ := h payload hold
    rcases hpersists sessionId session hrow with hk | hk
    · exact ⟨sessionId, session, hsid, hk, huser⟩
    · exact ⟨sessionId, session.revoke, hsid, hk, huser⟩
  · exact hnew

theorem Honest.issue {userId : UserId} {deviceInfo : Option String} {login : ℕ} {draw : TokenDraw}
    {issued : AuthDesk × (String × String)} (h : Honest w)
    (hissued : issueTokens settings service w userId deviceInfo login draw = some issued) :
    Honest issued.1 := by
  obtain ⟨hfresh, row, huser, -, heq⟩ := of_issueTokens hissued
  rw [heq]
  refine h.of_persists (persists_set hfresh) fun payload hp => ?_
  rcases List.mem_cons.mp hp with rfl | hp
  · exact .inr ⟨_, row, rfl, Dict.get?_set_self _ _ _, huser⟩
  rcases List.mem_cons.mp hp with rfl | hp
  · exact .inr ⟨_, row, rfl, Dict.get?_set_self _ _ _, huser⟩
  · exact .inl hp

theorem Honest.step (h : Honest w) (hserves : Serves settings service w r w') : Honest w' := by
  cases hserves with
  | idle => exact h
  | elapsed => exact h
  | opened huser hissued => exact Honest.issue (w := { w with logins := w.logins + 1 }) h hissued
  | rotated hpayload hrow hlive hissued =>
    refine Honest.issue (w := { w with sessions := _ }) ?_ hissued
    exact h.of_persists (persists_revoke hrow) fun _ hp => .inl hp
  | contained hpayload hrow => exact h.of_persists (persists_contain w _) fun _ hp => .inl hp
  | loggedOut hpayload hrow => exact h.of_persists (persists_revoke hrow) fun _ hp => .inl hp
  | revoked huser hrow => exact h.of_persists (persists_revoke hrow) fun _ hp => .inl hp

/-- A request changes no session but its user's, and opens none but for its user. -/
theorem Serves.own (h : Serves settings service w r w') (hhonest : Honest w)
    (hunforged : ∀ token ∈ r.tokens, Unforged service w token) :
    (∀ k row, w.sessions.get? k = some row → r.owner service w ≠ some row.userId →
        w'.sessions.get? k = some row) ∧
      ∀ k row, w'.sessions.get? k = some row → w.sessions.get? k = none →
        r.owner service w = some row.userId := by
  -- To revoke a session of the owner touches no row of another user, and adds none.
  have hrevoke : ∀ {sessionId : SessionId} {session : UserSession},
      w.sessions.get? sessionId = some session → r.owner service w = some session.userId →
      (∀ k row, w.sessions.get? k = some row → r.owner service w ≠ some row.userId →
          (w.sessions.set sessionId session.revoke).get? k = some row) ∧
        ∀ k, w.sessions.get? k = none →
          (w.sessions.set sessionId session.revoke).get? k = none := by
    intro sessionId session hrow howner
    refine ⟨fun k row hk hother => ?_, fun k hk => ?_⟩
    · rw [Dict.get?_set_of_ne, hk]
      rintro rfl
      cases hrow.symm.trans hk
      exact hother howner
    · rw [Dict.get?_set_of_ne, hk]
      rintro rfl
      cases hrow.symm.trans hk
  cases h with
  -- The rows are as they were.
  | idle => exact ⟨fun k row hk _ => hk, fun k row hk hnone => by cases hk.symm.trans hnone⟩
  | elapsed => exact ⟨fun k row hk _ => hk, fun k row hk hnone => by cases hk.symm.trans hnone⟩
  -- A login adds one row under a fresh id, of the user whose password it was.
  | @opened email password deviceInfo draw u issued huser hissued =>
    obtain ⟨hfresh, row, hrowuser, -, heq⟩ := of_issueTokens hissued
    rw [heq]
    refine ⟨fun k row' hk _ => ?_, fun k row' hk hnone => ?_⟩
    · dsimp only
      rw [Dict.get?_set_of_ne, hk]
      rintro rfl
      cases hk.symm.trans hfresh
    · dsimp only at hk
      rw [Dict.get?_set] at hk
      split_ifs at hk with hnew
      · cases hk
        rw [AuthRequest.owner, huser, Option.map_some, hrowuser]
      · cases hk.symm.trans hnone
  -- A rotation revokes the session of its token and adds one, both of the token's user.
  | @rotated token draw sessionId payload session issued hpayload hrow hlive hissued =>
    have huser := hhonest.userId_eq (hunforged token List.mem_cons_self) hpayload hrow
    have howner : (AuthRequest.refresh token draw).owner service w = some session.userId := by
      rw [AuthRequest.owner, hpayload, huser]
      rfl
    obtain ⟨hkeep, hnone⟩ := hrevoke hrow howner
    obtain ⟨hfresh, row, hrowuser, -, heq⟩ := of_issueTokens hissued
    rw [heq]
    refine ⟨fun k row' hk hother => ?_, fun k row' hk hk' => ?_⟩
    · dsimp only
      rw [Dict.get?_set_of_ne, hkeep k row' hk hother]
      rintro rfl
      cases (hkeep _ row' hk hother).symm.trans hfresh
    · dsimp only at hk
      rw [Dict.get?_set] at hk
      split_ifs at hk with hnew
      · cases hk
        rw [howner, hrowuser, huser]
      · cases hk.symm.trans (hnone k hk')
  -- Containment revokes the live sessions of the token's user, and of nobody else.
  | @contained token draw sessionId payload session hpayload hrow =>
    have huser := hhonest.userId_eq (hunforged token List.mem_cons_self) hpayload hrow
    have howner : (AuthRequest.refresh token draw).owner service w = some session.userId := by
      rw [AuthRequest.owner, hpayload, huser]
      rfl
    refine ⟨fun k row hk hother => ?_, fun k row hk hnone => ?_⟩
    · rw [contain, Dict.get?_mapValues, hk, Option.map_some, if_neg]
      rw [UserSession.isActiveOf_iff]
      rintro ⟨heq, -⟩
      exact hother (howner.trans (congrArg some heq.symm))
    · rw [contain, Dict.get?_mapValues, hnone] at hk
      cases hk
  -- Both ways to end one session end a session of the owner.
  | @loggedOut token sessionId payload session hpayload hrow =>
    have huser := hhonest.userId_eq (hunforged token List.mem_cons_self) hpayload hrow
    have howner : (AuthRequest.logout token).owner service w = some session.userId := by
      rw [AuthRequest.owner, hpayload, huser]
      rfl
    obtain ⟨hkeep, hnone⟩ := hrevoke hrow howner
    exact ⟨hkeep, fun k row hk hk' => by cases hk.symm.trans (hnone k hk')⟩
  | revoked huser hrow =>
    obtain ⟨hkeep, hnone⟩ := hrevoke hrow (by rw [AuthRequest.owner, huser]; rfl)
    exact ⟨hkeep, fun k row hk hk' => by cases hk.symm.trans (hnone k hk')⟩

/-- **No user touches another's sessions.** Whatever was requested before, a request that presents
no forged token changes no session but those of the user whose request it is, and opens none but
for that user; and whoever a token authenticates is the user of its session, which is live. -/
theorem own_sessions_only (now : Instant) (users : Dict UserId AuthUser) (rs : List AuthRequest)
    (r : AuthRequest) {w : AuthDesk}
    (hw : w = run (step settings service dummyPasswordHash) { now := now, users := users } rs)
    (hunforged : ∀ token ∈ r.tokens, Unforged service w token) :
    (∀ k row, w.sessions.get? k = some row → r.owner service w ≠ some row.userId →
        (w.step settings service dummyPasswordHash r).sessions.get? k = some row) ∧
      (∀ k row, (w.step settings service dummyPasswordHash r).sessions.get? k = some row →
        w.sessions.get? k = none → r.owner service w = some row.userId) ∧
      ∀ token userId, Unforged service w token →
        w.getCurrentUser service (some token) = .ok userId →
        ∃ k payload row, service.sessionPayload w.now token .access = some (k, payload) ∧
          w.sessions.get? k = some row ∧ row.userId = userId ∧ row.revoked = false ∧
          w.now ≤ row.expiresAt := by
  -- Only what was issued is in the tokens' payloads, by induction over the requests.
  have hhonest : Honest w := by
    rw [hw]
    refine invariant_run (fun w r h => h.step (serves_step w r)) rs fun payload hp => ?_
    cases hp
  obtain ⟨hkeep, hnew⟩ := (serves_step w r).own hhonest hunforged
  refine ⟨hkeep, hnew, fun token userId htoken hok => ?_⟩
  rw [getCurrentUser] at hok
  -- The token decodes and names a session, or nobody is authenticated.
  cases hdecode : service.decodeTokenPayload w.now token .access with
  | none => simp [hdecode] at hok
  | some payload =>
    rw [hdecode] at hok
    dsimp only at hok
    cases hsid : payload.sid.filter (· ≠ "") with
    | none =>
      rw [hsid] at hok
      cases hok
    | some sessionId =>
      rw [hsid] at hok
      dsimp only at hok
      split_ifs at hok with hactive huser
      cases hok
      cases hsession : w.getActiveSession sessionId with
      | none => simp [hsession] at hactive
      | some row =>
        -- The active row is the session's own, and its user is the payload's.
        obtain ⟨hrow, hlive⟩ := Option.filter_eq_some_iff.mp hsession
        have hpayload : service.sessionPayload w.now token .access = some (sessionId, payload) := by
          rw [TokenService.sessionPayload, hdecode, Option.bind_some, hsid]
          rfl
        simp only [Bool.and_eq_true, Bool.not_eq_true', decide_eq_true_eq, not_lt] at hlive
        exact ⟨sessionId, payload, row, hpayload, hrow, hhonest.userId_eq htoken hpayload hrow,
          hlive.1, hlive.2⟩

/-- The one user logs out, and is authenticated before. -/
theorem own_sessions_only_loggedIn :
    (∃ k payload row, namedTokens.sessionPayload loggedIn.now "a0" .access = some (k, payload) ∧
        loggedIn.sessions.get? k = some row ∧ row.userId = "owner" ∧ row.revoked = false ∧
        loggedIn.now ≤ row.expiresAt) ∧
      ∀ k row, loggedIn.sessions.get? k = some row →
        (AuthRequest.logout "r0").owner namedTokens loggedIn ≠ some row.userId →
        (loggedIn.step {} namedTokens "-" (.logout "r0")).sessions.get? k = some row := by
  -- Every token of this service was issued at the login.
  have hunforged : ∀ token, Unforged namedTokens loggedIn token := by
    intro token payload hp
    have hissued : ∀ payload ∈ pairOfLogin, payload ∈ loggedIn.issued := by decide +kernel
    have hfound : (pairOfLogin.find? fun p => p.jti = token ∧ loggedIn.now ≤ p.exp) =
        some payload :=
      hp
    exact hissued payload (List.mem_of_find?_eq_some hfound)
  have hrun : loggedIn = run (step {} namedTokens "-")
      { now := 0
        users := Dict.empty.set "owner" { email := "owner@desk", passwordHash := "$secret" } }
      [.login "owner@desk" "secret" none ⟨"s0", "r0", "a0"⟩] := rfl
  have h := own_sessions_only 0 _ _ (.logout "r0") hrun fun token _ => hunforged token
  exact ⟨h.2.2 "a0" "owner" (hunforged "a0") (by decide +kernel), h.1⟩

end AuthDesk

end SuperTrading
