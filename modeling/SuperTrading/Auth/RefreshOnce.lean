import SuperTrading.Auth.Refresh
import SuperTrading.Logic.Runs

/-!
# A Refresh Token Rotates Once

Any number of calls of `refresh` interleave their statements. What carries the result is
what an uncommitted version of a row can be: the call that wrote it has claimed the row, is
revoking it with the others of a user, or has inserted it. A call that goes on to issue
holds its claimed row, so the row is revoked the moment the new session is committed, and
no later claim finds it.

- **Layer A**: uncommitted versions, and the calls that hold them
- **Layer B**: one step
- **Layer C**: issued sessions, and calls whose token does not match
-/

namespace SuperTrading

open SuperTrading.Logic

/-! ## Layer A: Versions and their calls -/

/-- The call has claimed the rotation and goes on to issue. -/
def RefreshPhase.isRotating : RefreshPhase → Bool
  | .selecting won => won
  | .findingUser _ | .issuing _ | .committing _ => true
  | _ => false

/-- The call contains the reuse of its token. -/
def RefreshPhase.isContaining : RefreshPhase → Bool
  | .containing _ | .revoking _ _ _ => true
  | _ => false

theorem UserSession.isClaimable_iff {session : UserSession} {codec : TokenCodec} {token : String} :
    session.isClaimable codec token = true ↔
      session.revoked = false ∧ session.refreshTokenHash = codec.hash token := by
  simp [isClaimable]

theorem UserSession.isActiveOf_iff {session : UserSession} {userId : UserId} :
    session.isActiveOf userId = true ↔ session.userId = userId ∧ session.revoked = false := by
  simp [isActiveOf]

@[simp] theorem UserSession.revoked_revoke (session : UserSession) :
    session.revoke.revoked = true := rfl

@[simp] theorem UserSession.userId_revoke (session : UserSession) :
    session.revoke.userId = session.userId := rfl

@[simp] theorem UserSession.refreshTokenHash_revoke (session : UserSession) :
    session.revoke.refreshTokenHash = session.refreshTokenHash := rfl

/-- What an uncommitted version of a row can be, by where its call stands. -/
inductive VersionOf (codec : TokenCodec) (committed : Dict SessionId UserSession)
    (sessionId : SessionId) (version : UserSession) (call : RefreshCall) : Prop
  | claimed (session : UserSession)
      (hphase : call.phase.isRotating = true ∨ call.phase = .refusing)
      (hkey : call.claims.sessionId = sessionId)
      (hrow : committed.get? sessionId = some session)
      (hclaim : session.isClaimable codec call.token = true)
      (hversion : version = session.revoke)
  | contained (session : UserSession) (userId : UserId) (targets : List SessionId)
      (issuedBefore : ℕ) (hphase : call.phase = .revoking userId targets issuedBefore)
      (hrow : committed.get? sessionId = some session)
      (hversion : version = session.revoke)
  | inserted (refreshToken : String) (hphase : call.phase = .committing sessionId)
      (hrow : committed.get? sessionId = none)
      (hdecode : codec.decode refreshToken = some ⟨sessionId, call.claims.userId⟩)
      (huser : version.userId = call.claims.userId)

theorem VersionOf.congr {codec : TokenCodec} {rows rows' : Dict SessionId UserSession}
    {sessionId : SessionId} {version : UserSession} {call : RefreshCall}
    (hrows : rows'.get? sessionId = rows.get? sessionId)
    (h : VersionOf codec rows sessionId version call) :
    VersionOf codec rows' sessionId version call := by
  cases h with
  | claimed session hphase hkey hrow hclaim hversion =>
    exact .claimed session hphase hkey (hrows.trans hrow) hclaim hversion
  | contained session userId targets issuedBefore hphase hrow hversion =>
    exact .contained session userId targets issuedBefore hphase (hrows.trans hrow) hversion
  | inserted refreshToken hphase hrow hdecode huser =>
    exact .inserted refreshToken hphase (hrows.trans hrow) hdecode huser

namespace AuthWorld

/-- The call holds the row that it has claimed. -/
def HoldsClaim (codec : TokenCodec) (w : AuthWorld) (c : ℕ) (call : RefreshCall) : Prop :=
  ∃ session, w.sessions.committed.get? call.claims.sessionId = some session ∧
    session.isClaimable codec call.token = true ∧
    w.sessions.pending.get? call.claims.sessionId = some (c, session.revoke)

/-- The session that the call's token names stores the token's hash. -/
def TokenMatches (codec : TokenCodec) (w : AuthWorld) (call : RefreshCall) : Prop :=
  ∃ session, w.sessions.committed.get? call.claims.sessionId = some session ∧
    session.refreshTokenHash = codec.hash call.token

/-- What holds of the calls and the table between any two steps. -/
structure Sound (codec : TokenCodec) (w : AuthWorld) : Prop where
  decoded : ∀ (c : ℕ) (call : RefreshCall), w.calls[c]? = some call →
    codec.decode call.token = some call.claims
  versions : ∀ c sessionId version, w.sessions.pending.get? sessionId = some (c, version) →
    ∃ call, w.calls[c]? = some call ∧
      VersionOf codec w.sessions.committed sessionId version call
  rotating : ∀ (c : ℕ) (call : RefreshCall), w.calls[c]? = some call →
    call.phase.isRotating = true → HoldsClaim codec w c call
  containing : ∀ (c : ℕ) (call : RefreshCall), w.calls[c]? = some call →
    call.phase.isContaining = true → TokenMatches codec w call

theorem HoldsClaim.tokenMatches {codec : TokenCodec} {w : AuthWorld} {c : ℕ} {call : RefreshCall}
    (h : HoldsClaim codec w c call) : TokenMatches codec w call := by
  obtain ⟨session, hrow, hclaim, -⟩ := h
  exact ⟨session, hrow, (UserSession.isClaimable_iff.mp hclaim).2⟩

/-- A call whose token matches nothing holds no row. -/
theorem Sound.tokenMatches_of_pending {codec : TokenCodec} {w : AuthWorld} (h : Sound codec w)
    {c : ℕ} {call : RefreshCall} (hcall : w.calls[c]? = some call) {sessionId : SessionId}
    {version : UserSession} (hheld : w.sessions.pending.get? sessionId = some (c, version)) :
    TokenMatches codec w call := by
  obtain ⟨call', hcall', hversion⟩ := h.versions c sessionId version hheld
  cases hcall.symm.trans hcall'
  cases hversion with
  | claimed session _ hkey hrow hclaim _ =>
    exact ⟨session, hkey ▸ hrow, (UserSession.isClaimable_iff.mp hclaim).2⟩
  | contained _ _ _ _ hphase _ _ =>
    exact h.containing c call hcall (by rw [hphase]; rfl)
  | inserted _ hphase _ _ _ =>
    exact (h.rotating c call hcall (by rw [hphase]; rfl)).tokenMatches

/-! ## Layer B: One step -/

/-- Rows stay, and change in nothing but that they are revoked. -/
def Persists (rows rows' : Dict SessionId UserSession) : Prop :=
  ∀ sessionId session, rows.get? sessionId = some session →
    rows'.get? sessionId = some session ∨ rows'.get? sessionId = some session.revoke

theorem Persists.refl (rows : Dict SessionId UserSession) : Persists rows rows :=
  fun _ _ hrow => .inl hrow

/-- A step of one call: the call goes on, and what the others hold stays as it is. -/
structure StepOf (w w' : AuthWorld) (c : ℕ) (phase : RefreshPhase) : Prop where
  calls : w'.calls = (w.advance c phase).calls
  others : ∀ d sessionId version, d ≠ c →
    (w'.sessions.pending.get? sessionId = some (d, version) ↔
      w.sessions.pending.get? sessionId = some (d, version))
  heldRows : ∀ d sessionId version, d ≠ c →
    w.sessions.pending.get? sessionId = some (d, version) →
      w'.sessions.committed.get? sessionId = w.sessions.committed.get? sessionId
  persists : Persists w.sessions.committed w'.sessions.committed

section Frames

variable {codec : TokenCodec} {w w' : AuthWorld} {c : ℕ} {phase : RefreshPhase}
  {call : RefreshCall}

theorem StepOf.advance : StepOf w (w.advance c phase) c phase where
  calls := rfl
  others _ _ _ _ := Iff.rfl
  heldRows _ _ _ _ _ := rfl
  persists := .refl _

theorem StepOf.write {sessionId : SessionId} {version : UserSession}
    (hfree : w.sessions.isHeldByOther c sessionId = false) :
    StepOf w { w.advance c phase with sessions := w.sessions.write c sessionId version } c
      phase where
  calls := rfl
  others d k version' hd := by
    show (w.sessions.write c sessionId version).pending.get? k = _ ↔ _
    rw [VersionedTable.get?_pending_write]
    split
    · rename_i hkey
      subst hkey
      -- The row is `c`'s now, and was nobody else's before.
      refine iff_of_false (fun h => ?_) (fun h => ?_)
      · cases h
        exact hd rfl
      · exact hd (VersionedTable.isHeldByOther_eq_false.mp hfree d version' h)
    · rfl
  heldRows _ _ _ _ _ := rfl
  persists := .refl _

theorem StepOf.rollback :
    StepOf w { w.advance c phase with sessions := w.sessions.rollback c } c phase where
  calls := rfl
  others d k version hd := by
    show (w.sessions.rollback c).pending.get? k = _ ↔ _
    rw [VersionedTable.get?_pending_rollback]
    exact and_iff_left hd
  heldRows _ _ _ _ _ := rfl
  persists := .refl _

theorem StepOf.commit (h : Sound codec w) (hsessions : w'.sessions = w.sessions.commit c)
    (hcalls : w'.calls = (w.advance c phase).calls) : StepOf w w' c phase where
  calls := hcalls
  others d k version hd := by
    rw [hsessions, VersionedTable.pending_commit, VersionedTable.get?_pending_rollback]
    exact and_iff_left hd
  heldRows d k version hd hheld := by
    rw [hsessions, VersionedTable.get?_committed_commit]
    refine VersionedTable.visible_of_not_pending fun version' hown => hd ?_
    cases hheld.symm.trans hown
    rfl
  persists := by
    intro k session hrow
    rw [hsessions, VersionedTable.get?_committed_commit]
    -- A committed row that the call holds is revoked by its version.
    by_cases hown : ∃ version, w.sessions.pending.get? k = some (c, version)
    · obtain ⟨version, hown⟩ := hown
      obtain ⟨call, -, hversion⟩ := h.versions c k version hown
      rw [VersionedTable.visible_of_pending hown]
      cases hversion with
      | claimed session' _ _ hrow' _ hversion =>
        cases hrow.symm.trans hrow'
        exact .inr (congrArg some hversion)
      | contained session' _ _ _ _ hrow' hversion =>
        cases hrow.symm.trans hrow'
        exact .inr (congrArg some hversion)
      | inserted _ _ hnew _ _ => cases hrow.symm.trans hnew
    · rw [VersionedTable.visible_of_not_pending (not_exists.mp hown)]
      exact .inl hrow

theorem StepOf.getElem?_self (h : StepOf w w' c phase) (hcall : w.calls[c]? = some call) :
    w'.calls[c]? = some { call with phase } := by
  rw [h.calls, getElem?_advance, if_pos rfl, hcall]
  rfl

theorem StepOf.getElem?_ne (h : StepOf w w' c phase) {d : ℕ} (hd : d ≠ c) :
    w'.calls[d]? = w.calls[d]? := by
  rw [h.calls, getElem?_advance, if_neg (Ne.symm hd)]

/-- A call after the step: the one that took it, or another one as it was. -/
theorem StepOf.moved_or_kept (h : StepOf w w' c phase) (hcall : w.calls[c]? = some call) {d : ℕ}
    {call' : RefreshCall} (hcall' : w'.calls[d]? = some call') :
    (d = c ∧ call' = { call with phase }) ∨ (d ≠ c ∧ w.calls[d]? = some call') := by
  by_cases hd : d = c
  · subst hd
    cases (h.getElem?_self hcall).symm.trans hcall'
    exact .inl ⟨rfl, rfl⟩
  · exact .inr ⟨hd, (h.getElem?_ne hd).symm.trans hcall'⟩

theorem TokenMatches.persists (hp : Persists w.sessions.committed w'.sessions.committed)
    (h : TokenMatches codec w call) : TokenMatches codec w' call := by
  obtain ⟨session, hrow, hhash⟩ := h
  rcases hp _ _ hrow with hrow' | hrow'
  · exact ⟨session, hrow', hhash⟩
  · exact ⟨session.revoke, hrow', hhash⟩

/-- A step of one call keeps the invariant if it does so for that call. -/
theorem Sound.of_stepOf (h : Sound codec w) (hstep : StepOf w w' c phase)
    (hcall : w.calls[c]? = some call)
    (hversions : ∀ sessionId version, w'.sessions.pending.get? sessionId = some (c, version) →
      VersionOf codec w'.sessions.committed sessionId version { call with phase })
    (hrotating : phase.isRotating = true → HoldsClaim codec w' c { call with phase })
    (hcontaining : phase.isContaining = true → TokenMatches codec w call) :
    Sound codec w' where
  decoded d call' hcall' := by
    obtain ⟨rfl, rfl⟩ | ⟨-, hkept⟩ := hstep.moved_or_kept hcall hcall'
    · exact h.decoded d call hcall
    · exact h.decoded d call' hkept
  versions d k version hheld := by
    by_cases hd : d = c
    · subst hd
      exact ⟨_, hstep.getElem?_self hcall, hversions k version hheld⟩
    · have hheld' := (hstep.others d k version hd).mp hheld
      obtain ⟨call', hcall', hversion⟩ := h.versions d k version hheld'
      exact ⟨call', (hstep.getElem?_ne hd).trans hcall',
        hversion.congr (hstep.heldRows d k version hd hheld')⟩
  rotating d call' hcall' hphase := by
    obtain ⟨rfl, rfl⟩ | ⟨hd, hkept⟩ := hstep.moved_or_kept hcall hcall'
    · exact hrotating hphase
    · -- What another call holds is a row that this step leaves as it is.
      obtain ⟨session, hrow, hclaim, hheld⟩ := h.rotating d call' hkept hphase
      exact ⟨session, (hstep.heldRows d _ _ hd hheld).trans hrow, hclaim,
        (hstep.others d _ _ hd).mpr hheld⟩
  containing d call' hcall' hphase := by
    obtain ⟨rfl, rfl⟩ | ⟨-, hkept⟩ := hstep.moved_or_kept hcall hcall'
    · exact TokenMatches.persists hstep.persists (hcontaining hphase)
    · exact (h.containing d call' hkept hphase).persists hstep.persists

/-- What a call holds when it goes on without a write. -/
theorem versionOf_moves {sessionId : SessionId} {version : UserSession}
    (hmove : Moves codec w c call phase)
    (h : VersionOf codec w.sessions.committed sessionId version call) :
    VersionOf codec w.sessions.committed sessionId version { call with phase } := by
  cases h with
  | claimed session hphase hkey hrow hclaim hversion =>
    refine .claimed session ?_ hkey hrow hclaim hversion
    cases hmove with
    | lost hphase' =>
      rcases hphase' with hphase' | hphase' <;> simp [hphase', RefreshPhase.isRotating] at hphase
    | _ => simp_all [RefreshPhase.isRotating]
  | contained session userId targets issuedBefore hphase hrow hversion =>
    cases hmove with
    | passed userId' targets' issuedBefore' sessionId' hphase' hpassed =>
      exact .contained session _ _ _ rfl hrow hversion
    | _ => simp_all
  | inserted refreshToken hphase hrow hdecode huser =>
    cases hmove <;> simp_all

theorem Moves.isRotating (hmove : Moves codec w c call phase) (h : phase.isRotating = true) :
    call.phase.isRotating = true := by
  cases hmove <;> simp_all [RefreshPhase.isRotating]

theorem Sound.advance (h : Sound codec w) (hcall : w.calls[c]? = some call)
    (hmove : Moves codec w c call phase) : Sound codec (w.advance c phase) := by
  refine h.of_stepOf .advance hcall ?_ ?_ ?_
  · intro sessionId version hheld
    obtain ⟨call', hcall', hversion⟩ := h.versions c sessionId version hheld
    cases hcall.symm.trans hcall'
    exact versionOf_moves (w := w) hmove hversion
  · intro hphase
    exact h.rotating c call hcall (hmove.isRotating hphase)
  · intro hphase
    cases hmove with
    | reused session hphase' hrow hhash =>
      -- The call has lost, so it holds nothing and has read the committed row.
      have hnot : ∀ version,
          w.sessions.pending.get? call.claims.sessionId ≠ some (c, version) := by
        intro version hheld
        obtain ⟨call', hcall', hversion⟩ := h.versions c _ version hheld
        cases hcall.symm.trans hcall'
        cases hversion <;> simp_all [RefreshPhase.isRotating]
      rw [VersionedTable.visible_of_not_pending hnot] at hrow
      exact ⟨session, hrow, hhash⟩
    | snapshot userId hphase' => exact h.containing c call hcall (by rw [hphase']; rfl)
    | passed _ _ _ _ hphase' _ => exact h.containing c call hcall (by rw [hphase']; rfl)
    | _ => simp [RefreshPhase.isContaining] at hphase

end Frames

section Step

variable {codec : TokenCodec} {w : AuthWorld}

/-- A call has its own version of a row only by what `versions` lists. -/
theorem Sound.versionOf (h : Sound codec w) {c : ℕ} {call : RefreshCall}
    (hcall : w.calls[c]? = some call) {sessionId : SessionId} {version : UserSession}
    (hheld : w.sessions.pending.get? sessionId = some (c, version)) :
    VersionOf codec w.sessions.committed sessionId version call := by
  obtain ⟨call', hcall', hversion⟩ := h.versions c sessionId version hheld
  cases hcall.symm.trans hcall'
  exact hversion

/-- What a call sees of a row is committed, if it is no version that the call can hold. -/
theorem Sound.committed_of_visible (h : Sound codec w) {c : ℕ} {call : RefreshCall}
    (hcall : w.calls[c]? = some call) {sessionId : SessionId} {session : UserSession}
    (hrow : w.sessions.visible c sessionId = some session)
    (hnot : ∀ version, VersionOf codec w.sessions.committed sessionId version call →
      version ≠ session) :
    w.sessions.committed.get? sessionId = some session := by
  rw [← hrow]
  refine (VersionedTable.visible_of_not_pending fun version hheld => ?_).symm
  rw [VersionedTable.visible_of_pending hheld] at hrow
  exact hnot version (h.versionOf hcall hheld) (Option.some.inj hrow)

/-- An end of a transaction leaves the call nothing to hold. -/
theorem Sound.finish (h : Sound codec w) {w' : AuthWorld} {c : ℕ} {call : RefreshCall}
    (hcall : w.calls[c]? = some call) (hstep : StepOf w w' c .finished)
    (hpending : w'.sessions.pending = (w.sessions.rollback c).pending) : Sound codec w' := by
  refine h.of_stepOf hstep hcall ?_ ?_ ?_
  · intro sessionId version hheld
    rw [hpending, VersionedTable.get?_pending_rollback] at hheld
    exact absurd rfl hheld.2
  · intro hphase
    cases hphase
  · intro hphase
    cases hphase

/-- A new call holds nothing, and its number is new. -/
theorem Sound.begin (h : Sound codec w) {token : String} {claims : RefreshClaims}
    (hdecode : codec.decode token = some claims) :
    Sound codec { w with calls := w.calls ++ [{ token, claims }] } := by
  refine ⟨?_, ?_, ?_, ?_⟩
  · intro c call hcall
    -- The new call has written nothing and is in its first phase.
    rcases getElem?_concat_eq_some hcall with hcall | ⟨-, rfl⟩
    · exact h.decoded c call hcall
    · exact hdecode
  · intro c sessionId version hheld
    obtain ⟨call, hcall, hversion⟩ := h.versions c sessionId version hheld
    have hlt : c < w.calls.length := (List.getElem?_eq_some_iff.mp hcall).1
    exact ⟨call, (List.getElem?_append_left hlt).trans hcall, hversion⟩
  · intro c call hcall hphase
    rcases getElem?_concat_eq_some hcall with hcall | ⟨-, rfl⟩
    · exact h.rotating c call hcall hphase
    · cases hphase
  · intro c call hcall hphase
    rcases getElem?_concat_eq_some hcall with hcall | ⟨-, rfl⟩
    · exact h.containing c call hcall hphase
    · cases hphase

section Writes

variable {c : ℕ} {call : RefreshCall} {sessionId : SessionId} {version session : UserSession}
  {phase : RefreshPhase}

/-- A write under the row's lock: the call then holds that version, and what it held. -/
theorem Sound.write (h : Sound codec w) (hcall : w.calls[c]? = some call)
    (hfree : w.sessions.isHeldByOther c sessionId = false)
    (hversion : VersionOf codec w.sessions.committed sessionId version { call with phase })
    (hkept : ∀ k version', VersionOf codec w.sessions.committed k version' call → k ≠ sessionId →
      VersionOf codec w.sessions.committed k version' { call with phase })
    (hrotating : phase.isRotating = true → HoldsClaim codec
      { w.advance c phase with sessions := w.sessions.write c sessionId version } c
      { call with phase })
    (hcontaining : phase.isContaining = true → TokenMatches codec w call) :
    Sound codec { w.advance c phase with sessions := w.sessions.write c sessionId version } := by
  refine h.of_stepOf (.write hfree) hcall ?_ hrotating hcontaining
  intro k version' hheld
  have hheld' : (w.sessions.write c sessionId version).pending.get? k = some (c, version') := hheld
  rw [VersionedTable.get?_pending_write] at hheld'
  -- The row that is written, and the rows that the call held before.
  split at hheld'
  · rename_i hkey
    subst hkey
    cases hheld'
    exact hversion
  · rename_i hkey
    exact hkept k version' (h.versionOf hcall hheld') (Ne.symm hkey)

theorem Sound.claim (h : Sound codec w) (hcall : w.calls[c]? = some call)
    (hphase : call.phase = .awaitingRow)
    (hfree : w.sessions.isHeldByOther c call.claims.sessionId = false)
    (hrow : w.sessions.visible c call.claims.sessionId = some session)
    (hclaim : session.isClaimable codec call.token = true) :
    Sound codec { w.advance c (.selecting true) with
      sessions := w.sessions.write c call.claims.sessionId session.revoke } := by
  have hnothing : ∀ k version, ¬ VersionOf codec w.sessions.committed k version call := by
    intro k version hversion
    cases hversion <;> simp_all [RefreshPhase.isRotating]
  have hcommitted := h.committed_of_visible hcall hrow fun version hversion =>
    absurd hversion (hnothing _ version)
  refine h.write hcall hfree (.claimed session (.inl rfl) rfl hcommitted hclaim rfl)
    (fun k version' hheld _ => absurd hheld (hnothing k version')) (fun _ => ?_) ?_
  · refine ⟨session, hcommitted, hclaim, ?_⟩
    show (w.sessions.write c _ _).pending.get? _ = _
    rw [VersionedTable.get?_pending_write, if_pos rfl]
  · intro hcontaining
    cases hcontaining

theorem Sound.revokeRow (h : Sound codec w) {userId : UserId} {targets : List SessionId}
    {issuedBefore : ℕ} (hcall : w.calls[c]? = some call)
    (hphase : call.phase = .revoking userId targets issuedBefore)
    (hfree : w.sessions.isHeldByOther c sessionId = false)
    (hrow : w.sessions.visible c sessionId = some session)
    (hactive : session.isActiveOf userId = true) :
    Sound codec { w.advance c (.revoking userId (targets.erase sessionId) issuedBefore) with
      sessions := w.sessions.write c sessionId session.revoke } := by
  have hcontained : ∀ k version, VersionOf codec w.sessions.committed k version call →
      ∃ row, w.sessions.committed.get? k = some row ∧ version = row.revoke := by
    intro k version hversion
    cases hversion with
    | contained row _ _ _ _ hrow hversion => exact ⟨row, hrow, hversion⟩
    | _ => simp_all [RefreshPhase.isRotating]
  -- What the call sees is committed: its own versions are revoked, and this one is active.
  have hcommitted : w.sessions.committed.get? sessionId = some session := by
    refine h.committed_of_visible hcall hrow fun version hversion => ?_
    obtain ⟨row, -, rfl⟩ := hcontained sessionId version hversion
    intro heq
    rw [UserSession.isActiveOf_iff, ← heq] at hactive
    cases hactive.2
  refine h.write hcall hfree (.contained session _ _ _ rfl hcommitted rfl) ?_ ?_ ?_
  · intro k version' hheld _
    obtain ⟨row, hrow', hversion⟩ := hcontained k version' hheld
    exact .contained row _ _ _ rfl hrow' hversion
  · intro hrotating
    cases hrotating
  · intro _
    exact h.containing c call hcall (by rw [hphase]; rfl)

theorem Sound.issueTokens (h : Sound codec w) {session : UserSession} {refreshToken : String}
    (hcall : w.calls[c]? = some call) (hphase : call.phase = .issuing session)
    (hcommitted : w.sessions.committed.get? sessionId = none)
    (hpending : w.sessions.pending.get? sessionId = none)
    (hdecode : codec.decode refreshToken = some ⟨sessionId, call.claims.userId⟩)
    (huser : version.userId = call.claims.userId) :
    Sound codec { w.advance c (.committing sessionId) with
      sessions := w.sessions.write c sessionId version } := by
  refine h.write hcall (VersionedTable.isHeldByOther_of_not_pending hpending)
    (.inserted refreshToken rfl hcommitted hdecode huser) ?_ ?_ ?_
  · intro k version' hheld _
    cases hheld with
    | claimed session' _ hkey hrow hclaim hversion =>
      exact .claimed session' (.inl rfl) hkey hrow hclaim hversion
    | _ => simp_all
  · intro _
    obtain ⟨claimed, hrow, hclaim, hheld⟩ := h.rotating c call hcall (by rw [hphase]; rfl)
    -- The new session is not the claimed one, whose row the call holds.
    have hne : sessionId ≠ call.claims.sessionId := by
      rintro rfl
      cases hpending.symm.trans hheld
    refine ⟨claimed, hrow, hclaim, ?_⟩
    show (w.sessions.write c _ _).pending.get? _ = _
    rw [VersionedTable.get?_pending_write, if_neg hne]
    exact hheld
  · intro hcontaining
    cases hcontaining

end Writes

/-- **Step lemma.** Every statement of every call keeps the invariant. -/
theorem Sound.step (h : Sound codec w) (e : RefreshEvent) : Sound codec (step codec w e) := by
  have hstep := step_cases codec w e
  generalize AuthWorld.step codec w e = w' at hstep ⊢
  cases hstep with
  | idle => exact h
  | begins token claims hdecode => exact h.begin hdecode
  | moves he hcall hmove => exact h.advance hcall hmove
  | claims hcall hphase hfree hrow hclaim => exact h.claim hcall hphase hfree hrow hclaim
  | revokes hcall hphase hfree hrow hactive => exact h.revokeRow hcall hphase hfree hrow hactive
  | contains hcall hphase => exact h.finish hcall (.commit h rfl rfl) rfl
  | issues hcall hphase hcommitted hpending hdecode =>
    exact h.issueTokens hcall hphase hcommitted hpending hdecode rfl
  | commits hcall hphase => exact h.finish hcall (.commit h rfl rfl) rfl
  | aborts hcall => exact h.finish hcall .rollback rfl

theorem sound_initial (codec : TokenCodec) (sessions : Dict SessionId UserSession) :
    Sound codec (initial sessions) where
  decoded _ _ hcall := by cases hcall
  versions _ _ _ hheld := by cases hheld
  rotating _ _ hcall := by cases hcall
  containing _ _ hcall := by cases hcall

/-- No statement removes a row or gives it back to life. -/
theorem Sound.persists (h : Sound codec w) (e : RefreshEvent) :
    Persists w.sessions.committed (AuthWorld.step codec w e).sessions.committed := by
  have hstep := step_cases codec w e
  generalize AuthWorld.step codec w e = w' at hstep ⊢
  cases hstep with
  | @contains c call userId issuedBefore hcall hphase =>
    have hends : StepOf w (w.commitContainment c userId) c .finished := .commit h rfl rfl
    exact hends.persists
  | @commits c call sessionId hcall hphase =>
    have hends : StepOf w (w.commit c call sessionId) c .finished := .commit h rfl rfl
    exact hends.persists
  | _ => exact .refl _

/-! ## Layer C: Issued sessions -/

/-- The session that an issued one came from is revoked, and no token issued two. -/
structure IssuedOnce (codec : TokenCodec) (w : AuthWorld) : Prop where
  spent : ∀ s ∈ w.issued, ∃ claims session, codec.decode s.token = some claims ∧
    w.sessions.committed.get? claims.sessionId = some session ∧ session.revoked = true
  tokens : (w.issued.map IssuedSession.token).Nodup

/-- Where nothing is issued the record stays as it is. -/
theorem IssuedOnce.of_issued_eq {w' : AuthWorld} (h : IssuedOnce codec w)
    (hissued : w'.issued = w.issued)
    (hp : Persists w.sessions.committed w'.sessions.committed) : IssuedOnce codec w' where
  spent s hs := by
    obtain ⟨claims, session, hdecode, hrow, hrevoked⟩ := h.spent s (hissued ▸ hs)
    rcases hp _ _ hrow with hrow' | hrow'
    · exact ⟨claims, session, hdecode, hrow', hrevoked⟩
    · exact ⟨claims, session.revoke, hdecode, hrow', rfl⟩
  tokens := hissued ▸ h.tokens

theorem IssuedOnce.commit {c : ℕ} {call : RefreshCall} {sessionId : SessionId}
    (h : IssuedOnce codec w) (hsound : Sound codec w) (hcall : w.calls[c]? = some call)
    (hphase : call.phase = .committing sessionId) :
    IssuedOnce codec (w.commit c call sessionId) := by
  have hends : StepOf w (w.commit c call sessionId) c .finished := .commit hsound rfl rfl
  obtain ⟨session, hrow, hclaim, hheld⟩ := hsound.rotating c call hcall (by rw [hphase]; rfl)
  have hdecode := hsound.decoded c call hcall
  have hold : IssuedOnce codec { w.commit c call sessionId with issued := w.issued } :=
    h.of_issued_eq rfl hends.persists
  constructor
  · intro s hs
    rcases List.mem_append.mp hs with hs | hs
    · exact hold.spent s hs
    · rw [List.mem_singleton.mp hs]
      refine ⟨call.claims, session.revoke, hdecode, ?_, rfl⟩
      show (w.sessions.commit c).committed.get? _ = _
      rw [VersionedTable.get?_committed_commit, VersionedTable.visible_of_pending hheld]
  · show ((w.issued ++ [_]).map IssuedSession.token).Nodup
    rw [List.map_append, List.nodup_append]
    refine ⟨h.tokens, List.nodup_singleton _, ?_⟩
    intro token htoken token' htoken' heq
    obtain ⟨s, hs, rfl⟩ := List.mem_map.mp htoken
    obtain ⟨claims, spent, hdecode', hrow', hrevoked⟩ := h.spent s hs
    -- An earlier session of the same token has left the row revoked, but the claim found it live.
    rw [heq, List.mem_singleton.mp htoken'] at hdecode'
    cases hdecode.symm.trans hdecode'
    cases hrow.symm.trans hrow'
    rw [UserSession.isClaimable_iff, hrevoked] at hclaim
    cases hclaim.1

theorem IssuedOnce.step (h : IssuedOnce codec w) (hsound : Sound codec w) (e : RefreshEvent) :
    IssuedOnce codec (AuthWorld.step codec w e) := by
  have hp := hsound.persists e
  have hstep := step_cases codec w e
  generalize AuthWorld.step codec w e = w' at hstep hp ⊢
  cases hstep with
  | commits hcall hphase => exact h.commit hsound hcall hphase
  | _ => exact h.of_issued_eq rfl hp

theorem issued_step (codec : TokenCodec) (w : AuthWorld) (e : RefreshEvent) :
    ∃ new, (AuthWorld.step codec w e).issued = w.issued ++ new := by
  have hstep := step_cases codec w e
  generalize AuthWorld.step codec w e = w' at hstep ⊢
  cases hstep with
  | commits hcall hphase => exact ⟨_, rfl⟩
  | _ => exact ⟨[], (List.append_nil _).symm⟩

/-- A row that the end of a transaction adds is the one that the call has inserted. -/
theorem Sound.phase_of_new (h : Sound codec w) {c : ℕ} {call : RefreshCall}
    (hcall : w.calls[c]? = some call) {sessionId : SessionId} {session : UserSession}
    (hrow : (w.sessions.commit c).committed.get? sessionId = some session)
    (hnew : w.sessions.committed.get? sessionId = none) : call.phase = .committing sessionId := by
  rw [VersionedTable.get?_committed_commit] at hrow
  by_cases hown : ∃ version, w.sessions.pending.get? sessionId = some (c, version)
  · obtain ⟨version, hown⟩ := hown
    cases h.versionOf hcall hown with
    | claimed row _ _ hcommitted _ _ => cases hnew.symm.trans hcommitted
    | contained row _ _ _ _ hcommitted _ => cases hnew.symm.trans hcommitted
    | inserted _ hphase _ _ _ => exact hphase
  · rw [VersionedTable.visible_of_not_pending (not_exists.mp hown)] at hrow
    cases hnew.symm.trans hrow

/-- A row that a step adds is issued in that step. -/
theorem Sound.issued_of_new (h : Sound codec w) {e : RefreshEvent} {sessionId : SessionId}
    {session : UserSession}
    (hrow : (AuthWorld.step codec w e).sessions.committed.get? sessionId = some session)
    (hnew : w.sessions.committed.get? sessionId = none) :
    ∃ s, (AuthWorld.step codec w e).issued = w.issued ++ [s] ∧ s.sessionId = sessionId := by
  have hstep := step_cases codec w e
  generalize AuthWorld.step codec w e = w' at hstep hrow ⊢
  cases hstep with
  | contains hcall hphase => cases hphase.symm.trans (h.phase_of_new hcall hrow hnew)
  | commits hcall hphase =>
    cases hphase.symm.trans (h.phase_of_new hcall hrow hnew)
    exact ⟨_, rfl, rfl⟩
  | _ => cases hnew.symm.trans hrow

/-- Every row was there at the start, or is recorded as issued. -/
def Recorded (sessions : Dict SessionId UserSession) (w : AuthWorld) : Prop :=
  ∀ sessionId session, w.sessions.committed.get? sessionId = some session →
    sessions.get? sessionId = none → ∃ s ∈ w.issued, s.sessionId = sessionId

theorem Recorded.step {sessions : Dict SessionId UserSession} (h : Recorded sessions w)
    (hsound : Sound codec w) (e : RefreshEvent) :
    Recorded sessions (AuthWorld.step codec w e) := by
  intro sessionId session hrow hfirst
  cases hold : w.sessions.committed.get? sessionId with
  | none =>
    obtain ⟨s, hissued, hkey⟩ := hsound.issued_of_new hrow hold
    exact ⟨s, hissued ▸ List.mem_append_right _ (List.mem_singleton_self s), hkey⟩
  | some row =>
    obtain ⟨s, hs, hkey⟩ := h sessionId row hold hfirst
    obtain ⟨new, hissued⟩ := issued_step codec w e
    exact ⟨s, hissued ▸ List.mem_append_left _ hs, hkey⟩

/-- A call whose token matches nothing leaves the table alone. -/
theorem Sound.sessions_step (h : Sound codec w) {c : ℕ} {call : RefreshCall}
    (hcall : w.calls[c]? = some call) {e : RefreshEvent} (he : e.call = some c)
    (hnot : ¬ TokenMatches codec w call) :
    (AuthWorld.step codec w e).sessions = w.sessions := by
  -- The call holds no version and is in no phase that writes: each needs a token that matches.
  have hnothing : ∀ k version, w.sessions.pending.get? k ≠ some (c, version) :=
    fun k version hheld => hnot (h.tokenMatches_of_pending hcall hheld)
  have hstill : call.phase.isRotating = false ∧ call.phase.isContaining = false :=
    ⟨Bool.eq_false_of_not_eq_true fun hphase => hnot (h.rotating c call hcall hphase).tokenMatches,
      Bool.eq_false_of_not_eq_true fun hphase => hnot (h.containing c call hcall hphase)⟩
  have hstep := step_cases codec w e
  generalize AuthWorld.step codec w e = w' at hstep ⊢
  cases hstep with
  | idle => rfl
  | begins => rfl
  | moves => rfl
  -- What it claims is committed, and its hash is the token's.
  | claims hcall' hphase hfree hrow hclaim =>
    cases he
    cases hcall.symm.trans hcall'
    rw [VersionedTable.visible_of_not_pending (hnothing _)] at hrow
    exact absurd ⟨_, hrow, (UserSession.isClaimable_iff.mp hclaim).2⟩ hnot
  -- To revoke or contain is to be containing.
  | revokes hcall' hphase hfree hrow hactive =>
    cases he
    cases hcall.symm.trans hcall'
    rw [hphase] at hstill
    cases hstill.2
  | contains hcall' hphase =>
    cases he
    cases hcall.symm.trans hcall'
    rw [hphase] at hstill
    cases hstill.2
  -- To issue or commit is to be rotating.
  | issues hcall' hphase hcommitted hpending hdecode =>
    cases he
    cases hcall.symm.trans hcall'
    rw [hphase] at hstill
    cases hstill.1
  | commits hcall' hphase =>
    cases he
    cases hcall.symm.trans hcall'
    rw [hphase] at hstill
    cases hstill.1
  -- A rollback takes back nothing.
  | aborts hcall' =>
    cases he
    exact VersionedTable.rollback_eq_self hnothing

/-- **Run lemma.** What holds after any statements of any calls. -/
theorem sound_run (codec : TokenCodec) (sessions : Dict SessionId UserSession)
    (es : List RefreshEvent) :
    let w := Logic.run (AuthWorld.step codec) (initial sessions) es
    Sound codec w ∧ IssuedOnce codec w ∧ Recorded sessions w := by
  refine invariant_run (I := fun w => Sound codec w ∧ IssuedOnce codec w ∧ Recorded sessions w)
    (fun w e h => ?_) es ⟨sound_initial codec sessions, ⟨?_, List.nodup_nil⟩, ?_⟩
  · exact ⟨h.1.step e, h.2.1.step h.1 e, h.2.2.step h.1 e⟩
  · intro s hs
    cases hs
  · intro sessionId session hrow hfirst
    cases hfirst.symm.trans hrow

/-- **One rotation.** However the statements of any number of calls interleave, and however
their transactions end, a token issues one session at most, every new row is one of those,
and a call whose token does not match the stored hash changes no row. -/
theorem refresh_rotates_once (codec : TokenCodec) (sessions : Dict SessionId UserSession)
    (es : List RefreshEvent) :
    let w := Logic.run (AuthWorld.step codec) (initial sessions) es
    (∀ token, (w.issued.filter fun s => s.token = token).length ≤ 1) ∧
    (∀ sessionId session, w.sessions.committed.get? sessionId = some session →
      sessions.get? sessionId = none → ∃ s ∈ w.issued, s.sessionId = sessionId) ∧
    ∀ c call e, w.calls[c]? = some call → RefreshEvent.call e = some c →
      ¬ TokenMatches codec w call → (AuthWorld.step codec w e).sessions = w.sessions := by
  obtain ⟨hsound, hissued, hrecorded⟩ := sound_run codec sessions es
  refine ⟨fun token => ?_, hrecorded, fun c call e hcall he hnot => ?_⟩
  · have hcount := List.nodup_iff_count_le_one.mp hissued.tokens token
    rw [List.count_eq_countP, List.countP_map, List.countP_eq_length_filter] at hcount
    refine le_trans (le_of_eq (congrArg List.length (List.filter_congr fun s _ => ?_))) hcount
    exact (beq_eq_decide s.token token).symm
  · exact hsound.sessions_step hcall he hnot

end Step

/-! Two calls present the token of one session at once, and a third one forges a token for
it. -/

/-- Each token of the user is named after its session, and a forged one names the first. -/
def namedCodec : TokenCodec where
  decode token := some ⟨if token = "forged" then "first" else token, "user"⟩
  hash token := token

/-- One live session. -/
def oneSession : Dict SessionId UserSession :=
  Dict.empty.set "first"
    { userId := "user", refreshTokenHash := "first", deviceInfo := none, expiresAt := 100 }

/-- Both calls find the row, one of them claims it and issues, and the other loses. -/
def racingRefreshes : List RefreshEvent :=
  [.begin "first", .begin "first", .begin "forged", .claim 0, .claim 1, .claim 2, .lockClaimed 0,
    .lockClaimed 1, .select 0 50, .findUser 0 true, .issueTokens 0 "second" "second" 200,
    .commit 0, .lockClaimed 1, .select 1 50, .contain 1]

theorem refresh_rotates_once_racing :
    let w := Logic.run (AuthWorld.step namedCodec) (initial oneSession) racingRefreshes
    w.issued = [{ call := 0, token := "first", sessionId := "second" }] ∧
    (w.issued.filter fun s => s.token = "first").length ≤ 1 ∧
    (∃ s ∈ w.issued, s.sessionId = "second") ∧
    (AuthWorld.step namedCodec w (.select 2 50)).sessions = w.sessions := by
  obtain ⟨honce, hrecorded, hrefused⟩ := refresh_rotates_once namedCodec oneSession racingRefreshes
  refine ⟨by decide +kernel, honce "first", ?_, ?_⟩
  · exact hrecorded "second"
      { userId := "user", refreshTokenHash := "second", deviceInfo := none, expiresAt := 200 }
      (by decide +kernel) (by decide +kernel)
  · refine hrefused 2 { token := "forged", claims := ⟨"first", "user"⟩, phase := .selecting false }
      (.select 2 50) (by decide +kernel) rfl ?_
    rintro ⟨session, hrow, hhash⟩
    -- The forged token names the session, and does not match its hash.
    have hfirst : (Logic.run (AuthWorld.step namedCodec) (initial oneSession)
        racingRefreshes).sessions.committed.get? "first" = some
          { userId := "user", refreshTokenHash := "first", deviceInfo := none, revoked := true,
            expiresAt := 100 } := by
      decide +kernel
    cases hfirst.symm.trans hrow
    revert hhash
    decide +kernel

end AuthWorld

end SuperTrading
