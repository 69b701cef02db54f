import SuperTrading.Auth.RefreshOnce

/-!
# Containing the Reuse of a Refresh Token

A call that presents a token already rotated revokes every active session of the user. The
UPDATE that does so works on the rows of its snapshot: a session that a rotation commits
after the snapshot is not among them, and is live when the containment commits.

- **Layer A**: what a containment has still to see to
- **Layer B**: one step
- **Layer C**: runs
-/

namespace SuperTrading

open SuperTrading.Logic

namespace AuthWorld

/-! ## Layer A: Snapshots -/

/-- No session of a contained user is live that was inserted by a call begun before the
containment was committed. -/
def Contained (w : AuthWorld) : Prop :=
  ∀ k ∈ w.containments, ∀ sessionId session,
    w.sessions.committed.get? sessionId = some session → session.userId = k.userId →
      (∀ s ∈ w.issued, s.sessionId = sessionId → s.call < k.begun) → session.revoked = true

/-- The condition on a step: when a containment commits, every session of its user that a
rotation has committed since its snapshot is revoked. -/
def IssuedSinceRevoked (w : AuthWorld) : RefreshEvent → Prop
  | .commitContainment c => ∀ call userId issuedBefore, w.calls[c]? = some call →
      call.phase = .revoking userId [] issuedBefore → ∀ s ∈ w.issued.drop issuedBefore,
        ∀ session, w.sessions.visible c s.sessionId = some session →
          session.userId = userId → session.revoked = true
  | _ => True

/-- Every session of a contained user is revoked, whenever it was inserted. -/
def AllRevoked (w : AuthWorld) : Prop :=
  ∀ k ∈ w.containments, ∀ sessionId session,
    w.sessions.committed.get? sessionId = some session → session.userId = k.userId →
      session.revoked = true

theorem AllRevoked.contained {w : AuthWorld} (h : AllRevoked w) : Contained w :=
  fun k hk sessionId session hrow huser _ => h k hk sessionId session hrow huser

/-- A containment sees to every active session of its user: the session is among the rows
still to lock, or the call has written it, or it was issued after the snapshot. -/
structure Covers (w : AuthWorld) (c : ℕ) (userId : UserId) (targets : List SessionId)
    (issuedBefore : ℕ) : Prop where
  bound : issuedBefore ≤ w.issued.length
  active : ∀ sessionId session, w.sessions.committed.get? sessionId = some session →
    session.isActiveOf userId = true →
      sessionId ∈ targets ∨ (∃ version, w.sessions.pending.get? sessionId = some (c, version)) ∨
        ∃ s ∈ w.issued.drop issuedBefore, s.sessionId = sessionId

/-- The containments under way cover their users. -/
def Tracked (w : AuthWorld) : Prop :=
  ∀ (c : ℕ) (call : RefreshCall) (userId : UserId) (targets : List SessionId) (issuedBefore : ℕ),
    w.calls[c]? = some call → call.phase = .revoking userId targets issuedBefore →
      Covers w c userId targets issuedBefore

/-- Tokens are minted with the session that they name, so the user they name is its user. -/
def OwnedBy (owner : SessionId → UserId) (w : AuthWorld) : Prop :=
  ∀ sessionId session, w.sessions.committed.get? sessionId = some session →
    session.userId = owner sessionId

/-- Every issued session came from a call that has begun. -/
def Begun (w : AuthWorld) : Prop := ∀ s ∈ w.issued, s.call < w.calls.length

/-! ## Layer B: One step -/

section Step

variable {codec : TokenCodec} {w : AuthWorld}

theorem length_calls_step (codec : TokenCodec) (w : AuthWorld) (e : RefreshEvent) :
    w.calls.length ≤ (AuthWorld.step codec w e).calls.length := by
  have hstep := step_cases codec w e
  generalize AuthWorld.step codec w e = w' at hstep ⊢
  cases hstep with
  | idle => exact le_refl _
  | begins => simp
  | contains hcall hphase => exact (length_calls_advance w _ _).ge
  | commits hcall hphase => exact (length_calls_advance w _ _).ge
  | aborts hcall => exact (length_calls_advance w _ _).ge
  | _ => simp

theorem Begun.step (h : Begun w) (codec : TokenCodec) (e : RefreshEvent) :
    Begun (AuthWorld.step codec w e) := by
  have hlength := length_calls_step codec w e
  have hstep := step_cases codec w e
  generalize AuthWorld.step codec w e = w' at hstep hlength ⊢
  cases hstep with
  | commits hcall hphase =>
    intro s hs
    rcases List.mem_append.mp hs with hs | hs
    · exact lt_of_lt_of_le (h s hs) hlength
    · rw [List.mem_singleton.mp hs]
      exact lt_of_lt_of_le (List.getElem?_eq_some_iff.mp hcall).1 hlength
  | _ => exact fun s hs => lt_of_lt_of_le (h s hs) hlength

theorem OwnedBy.step {owner : SessionId → UserId} (h : OwnedBy owner w) (hsound : Sound codec w)
    (howner : ∀ token claims, codec.decode token = some claims →
      owner claims.sessionId = claims.userId) (e : RefreshEvent) :
    OwnedBy owner (AuthWorld.step codec w e) := by
  -- The rows that the end of a transaction leaves.
  have hcommit : ∀ c call, w.calls[c]? = some call → ∀ sessionId session,
      (w.sessions.commit c).committed.get? sessionId = some session →
        session.userId = owner sessionId := by
    intro c call hcall sessionId session hrow
    rw [VersionedTable.get?_committed_commit] at hrow
    by_cases hown : ∃ version, w.sessions.pending.get? sessionId = some (c, version)
    · obtain ⟨version, hown⟩ := hown
      rw [VersionedTable.visible_of_pending hown] at hrow
      cases hrow
      cases hsound.versionOf hcall hown with
      | claimed row _ _ hcommitted _ hversion => exact hversion ▸ h sessionId row hcommitted
      | contained row _ _ _ _ hcommitted hversion => exact hversion ▸ h sessionId row hcommitted
      | inserted token _ _ hdecode huser => exact huser.trans (howner token _ hdecode).symm
    · rw [VersionedTable.visible_of_not_pending (not_exists.mp hown)] at hrow
      exact h sessionId session hrow
  have hstep := step_cases codec w e
  generalize AuthWorld.step codec w e = w' at hstep ⊢
  cases hstep with
  | contains hcall hphase => exact hcommit _ _ hcall
  | commits hcall hphase => exact hcommit _ _ hcall
  | _ => exact h

/-- A step that only adds to what the call has written keeps its rows covered. -/
theorem Covers.step {c : ℕ} {userId : UserId} {targets : List SessionId} {issuedBefore : ℕ}
    (h : Covers w c userId targets issuedBefore) (hsound : Sound codec w) (e : RefreshEvent)
    (hheld : ∀ sessionId, (∃ version, w.sessions.pending.get? sessionId = some (c, version)) →
      ∃ version, (AuthWorld.step codec w e).sessions.pending.get? sessionId = some (c, version)) :
    Covers (AuthWorld.step codec w e) c userId targets issuedBefore := by
  obtain ⟨new, hissued⟩ := issued_step codec w e
  constructor
  · rw [hissued, List.length_append]
    exact le_trans h.bound (Nat.le_add_right _ _)
  intro sessionId session hrow hactive
  cases hold : w.sessions.committed.get? sessionId with
  | none =>
    obtain ⟨s, hs, hkey⟩ := hsound.issued_of_new hrow hold
    refine .inr (.inr ⟨s, ?_, hkey⟩)
    rw [hs, List.drop_append_of_le_length h.bound]
    exact List.mem_append_right _ (List.mem_singleton_self s)
  | some row =>
    -- The row is still active, so the step has not revoked it.
    have hsame : session = row := by
      rcases hsound.persists e sessionId row hold with hrow' | hrow'
      · exact Option.some.inj (hrow.symm.trans hrow')
      · cases hrow.symm.trans hrow'
        cases (UserSession.isActiveOf_iff.mp hactive).2
    subst hsame
    rcases h.active sessionId session hold hactive with htarget | hown | ⟨s, hs, hkey⟩
    · exact .inl htarget
    · exact .inr (.inl (hheld sessionId hown))
    · refine .inr (.inr ⟨s, ?_, hkey⟩)
      rw [hissued, List.drop_append_of_le_length h.bound]
      exact List.mem_append_left _ hs

/-- The snapshot of a containment has every active session of its user. -/
theorem Covers.snapshot (hsound : Sound codec w) {c : ℕ} {call : RefreshCall} {userId : UserId}
    (hcall : w.calls[c]? = some call) (hphase : call.phase = .containing userId) :
    Covers w c userId (w.sessions.select c (·.isActiveOf userId)) w.issued.length where
  bound := le_refl _
  active sessionId session hrow hactive := by
    have hnot : ∀ version, w.sessions.pending.get? sessionId ≠ some (c, version) := by
      intro version hheld
      cases hsound.versionOf hcall hheld <;> simp_all [RefreshPhase.isRotating]
    refine .inl (VersionedTable.mem_select.mpr ⟨session, ?_, hactive⟩)
    rw [VersionedTable.visible_of_not_pending hnot, hrow]

/-- A row of the snapshot is done with once the call has written it or has found it inactive. -/
theorem Covers.erase {c : ℕ} {userId : UserId} {targets : List SessionId} {issuedBefore : ℕ}
    (h : Covers w c userId targets issuedBefore) {sessionId : SessionId}
    (hdone : ∀ session, w.sessions.committed.get? sessionId = some session →
      session.isActiveOf userId = true →
        ∃ version, w.sessions.pending.get? sessionId = some (c, version)) :
    Covers w c userId (targets.erase sessionId) issuedBefore where
  bound := h.bound
  active k session hrow hactive := by
    rcases h.active k session hrow hactive with htarget | hrest
    · by_cases hk : k = sessionId
      · subst hk
        exact .inr (.inl (hdone session hrow hactive))
      · exact .inl ((List.mem_erase_of_ne hk).mpr htarget)
    · exact .inr hrest

/-- The calls that a step is not of keep what they track. -/
theorem Tracked.of_stepOf {w' : AuthWorld} {e : RefreshEvent} {c : ℕ} {phase : RefreshPhase}
    {call : RefreshCall} (h : Tracked w) (hsound : Sound codec w)
    (hw' : w' = AuthWorld.step codec w e) (hstep : StepOf w w' c phase)
    (hcall : w.calls[c]? = some call)
    (hown : ∀ userId targets issuedBefore, phase = .revoking userId targets issuedBefore →
      Covers w' c userId targets issuedBefore) : Tracked w' := by
  intro d call' userId targets issuedBefore hcall' hphase'
  obtain ⟨rfl, rfl⟩ | ⟨hd, hkept⟩ := hstep.moved_or_kept hcall hcall'
  · exact hown userId targets issuedBefore hphase'
  · have hcovers := h d call' userId targets issuedBefore hkept hphase'
    subst hw'
    refine hcovers.step hsound e fun sessionId hheld => ?_
    obtain ⟨version, hheld⟩ := hheld
    exact ⟨version, (hstep.others d sessionId version hd).mpr hheld⟩

theorem Tracked.step (h : Tracked w) (hsound : Sound codec w) (e : RefreshEvent) :
    Tracked (AuthWorld.step codec w e) := by
  have hstep := step_cases codec w e
  generalize hw' : AuthWorld.step codec w e = w' at hstep ⊢
  cases hstep with
  | idle => exact h
  | begins token claims hdecode =>
    intro d call userId targets issuedBefore hcall hphase
    rcases getElem?_concat_eq_some hcall with hcall' | ⟨-, rfl⟩
    · exact ⟨(h d call userId targets issuedBefore hcall' hphase).bound,
        (h d call userId targets issuedBefore hcall' hphase).active⟩
    · -- The new call has come to nothing yet.
      cases hphase
  -- A snapshot covers the active sessions, and a target that is passed was not active.
  | @moves e c call phase he hcall hmove =>
    refine h.of_stepOf hsound hw'.symm .advance hcall fun userId targets issuedBefore hphase => ?_
    subst hphase
    cases hmove with
    | snapshot userId hphase' =>
      have hcovers := Covers.snapshot hsound hcall hphase'
      exact ⟨hcovers.bound, hcovers.active⟩
    | passed userId targets issuedBefore sessionId hphase' hpassed =>
      have hcovers : Covers w c userId (targets.erase sessionId) issuedBefore := by
        refine (h _ _ _ _ _ hcall hphase').erase fun session hrow hactive => ?_
        by_contra hnot
        have hvisible := VersionedTable.visible_of_not_pending (not_exists.mp hnot)
        rw [hpassed session (hvisible.trans hrow)] at hactive
        cases hactive
      exact ⟨hcovers.bound, hcovers.active⟩
  -- The call that claims writes one row, and is in no containment itself.
  | claims hcall hphase hfree hrow hclaim =>
    refine h.of_stepOf hsound hw'.symm (.write hfree) hcall ?_
    intro userId targets issuedBefore hphase
    cases hphase
  -- The target that is revoked here is held by the call from now on.
  | @revokes c call userId targets issuedBefore sessionId session hcall hphase hfree hrow hactive =>
    refine h.of_stepOf hsound hw'.symm (.write hfree) hcall ?_
    intro userId' targets' issuedBefore' hphase'
    cases hphase'
    have hcovers := (h c call userId targets issuedBefore hcall hphase).step hsound
      (.revokeRow c sessionId)
    rw [hw'] at hcovers
    refine (hcovers fun k hheld => ?_).erase fun _ _ _ => ⟨session.revoke, ?_⟩
    · obtain ⟨version, hheld⟩ := hheld
      show ∃ version, (w.sessions.write c sessionId session.revoke).pending.get? k = _
      rw [VersionedTable.get?_pending_write]
      split
      · exact ⟨_, rfl⟩
      · exact ⟨version, hheld⟩
    · show (w.sessions.write c sessionId session.revoke).pending.get? sessionId = _
      rw [VersionedTable.get?_pending_write, if_pos rfl]
  -- Once committed, the containment is over.
  | contains hcall hphase =>
    refine h.of_stepOf hsound hw'.symm (.commit hsound rfl rfl) hcall ?_
    intro userId targets issuedBefore hphase
    cases hphase
  | issues hcall hphase hcommitted hpending hdecode =>
    refine h.of_stepOf hsound hw'.symm
      (.write (VersionedTable.isHeldByOther_of_not_pending hpending)) hcall ?_
    intro userId targets issuedBefore hphase
    cases hphase
  | commits hcall hphase =>
    refine h.of_stepOf hsound hw'.symm (.commit hsound rfl rfl) hcall ?_
    intro userId targets issuedBefore hphase
    cases hphase
  | aborts hcall =>
    refine h.of_stepOf hsound hw'.symm .rollback hcall ?_
    intro userId targets issuedBefore hphase
    cases hphase

/-- What holds of a world besides that the contained users have no live session. -/
structure Watched (codec : TokenCodec) (owner : SessionId → UserId) (w : AuthWorld) : Prop where
  sound : Sound codec w
  owned : OwnedBy owner w
  begun : Begun w
  tracked : Tracked w

theorem Watched.step {owner : SessionId → UserId} (h : Watched codec owner w)
    (howner : ∀ token claims, codec.decode token = some claims →
      owner claims.sessionId = claims.userId) (e : RefreshEvent) :
    Watched codec owner (AuthWorld.step codec w e) :=
  ⟨h.sound.step e, h.owned.step h.sound howner e, h.begun.step codec e, h.tracked.step h.sound e⟩

/-- A containment that commits has every session of its user revoked, if those issued since
its snapshot are. -/
theorem AllRevoked.commitContainment {c : ℕ} {call : RefreshCall} {userId : UserId}
    {issuedBefore : ℕ} (h : AllRevoked w) (hsound : Sound codec w) (htracked : Tracked w)
    (hcall : w.calls[c]? = some call) (hphase : call.phase = .revoking userId [] issuedBefore)
    (hissued : IssuedSinceRevoked w (.commitContainment c)) :
    AllRevoked (w.commitContainment c userId) := by
  intro k hk sessionId session hrow huser
  have hvisible : w.sessions.visible c sessionId = some session := by
    rw [← VersionedTable.get?_committed_commit]
    exact hrow
  by_cases hown : ∃ version, w.sessions.pending.get? sessionId = some (c, version)
  · -- What the call has written is revoked.
    obtain ⟨version, hown⟩ := hown
    rw [VersionedTable.visible_of_pending hown] at hvisible
    cases hvisible
    cases hsound.versionOf hcall hown with
    | claimed row _ _ _ _ hversion => exact hversion ▸ row.revoked_revoke
    | contained row _ _ _ _ _ hversion => exact hversion ▸ row.revoked_revoke
    | inserted _ hphase' _ _ _ => cases hphase.symm.trans hphase'
  · have hcommitted : w.sessions.committed.get? sessionId = some session :=
      (VersionedTable.visible_of_not_pending (not_exists.mp hown)).symm.trans hvisible
    rcases List.mem_append.mp hk with hk | hk
    · exact h k hk sessionId session hcommitted huser
    · rw [List.mem_singleton.mp hk] at huser
      by_contra hlive
      have hactive : session.isActiveOf userId = true :=
        UserSession.isActiveOf_iff.mpr ⟨huser, Bool.eq_false_of_not_eq_true hlive⟩
      rcases (htracked c call userId [] issuedBefore hcall hphase).active sessionId session
        hcommitted hactive with htarget | hheld | ⟨s, hs, rfl⟩
      · cases htarget
      · exact hown hheld
      · exact hlive (hissued call userId issuedBefore hcall hphase s hs session hvisible huser)

/-- A rotation of a contained user cannot commit: it would hold a live session of the user. -/
theorem AllRevoked.commit {owner : SessionId → UserId} {c : ℕ} {call : RefreshCall}
    {sessionId : SessionId} (h : AllRevoked w) (hsound : Sound codec w) (howned : OwnedBy owner w)
    (howner : ∀ token claims, codec.decode token = some claims →
      owner claims.sessionId = claims.userId)
    (hcall : w.calls[c]? = some call) (hphase : call.phase = .committing sessionId) :
    AllRevoked (w.commit c call sessionId) := by
  intro k hk sessionId' session hrow huser
  have hvisible : w.sessions.visible c sessionId' = some session := by
    rw [← VersionedTable.get?_committed_commit]
    exact hrow
  by_cases hown : ∃ version, w.sessions.pending.get? sessionId' = some (c, version)
  · obtain ⟨version, hown⟩ := hown
    rw [VersionedTable.visible_of_pending hown] at hvisible
    cases hvisible
    cases hsound.versionOf hcall hown with
    | claimed row _ _ _ _ hversion => exact hversion ▸ row.revoked_revoke
    | contained row _ _ _ _ _ hversion => exact hversion ▸ row.revoked_revoke
    | inserted _ _ _ _ huser' =>
      -- The row that the call has claimed is the user's, and it was live.
      obtain ⟨claimed, hrow', hclaim, -⟩ := hsound.rotating c call hcall (by rw [hphase]; rfl)
      have hclaims := howner call.token call.claims (hsound.decoded c call hcall)
      have huser'' : claimed.userId = k.userId := by
        rw [howned _ _ hrow', hclaims, ← huser', huser]
      have hrevoked := h k hk call.claims.sessionId claimed hrow' huser''
      rw [(UserSession.isClaimable_iff.mp hclaim).1] at hrevoked
      cases hrevoked
  · rw [VersionedTable.visible_of_not_pending (not_exists.mp hown)] at hvisible
    exact h k hk sessionId' session hvisible huser

/-- **Step lemma.** A step that meets the condition leaves no contained user a live session. -/
theorem AllRevoked.step {owner : SessionId → UserId} (h : AllRevoked w)
    (hwatched : Watched codec owner w)
    (howner : ∀ token claims, codec.decode token = some claims →
      owner claims.sessionId = claims.userId) {e : RefreshEvent} (he : IssuedSinceRevoked w e) :
    AllRevoked (AuthWorld.step codec w e) := by
  have hstep := step_cases codec w e
  generalize AuthWorld.step codec w e = w' at hstep ⊢
  cases hstep with
  | contains hcall hphase =>
    exact h.commitContainment hwatched.sound hwatched.tracked hcall hphase he
  | commits hcall hphase => exact h.commit hwatched.sound hwatched.owned howner hcall hphase
  | _ => exact h

/-- A containment that commits past a live session issued since its snapshot leaves it live. -/
theorem not_contained_of_not_revoked (hbegun : Begun w) {e : RefreshEvent}
    (he : ¬ IssuedSinceRevoked w e) : ¬ Contained (AuthWorld.step codec w e) := by
  cases e with
  | commitContainment c =>
    simp only [IssuedSinceRevoked, not_forall] at he
    obtain ⟨call, userId, issuedBefore, hcall, hphase, s, hs, session, hrow, huser, hlive⟩ := he
    have hstep : AuthWorld.step codec w (.commitContainment c) = w.commitContainment c userId := by
      simp only [AuthWorld.step, onCall, hcall, hphase]
    rw [hstep]
    intro hcontained
    refine hlive (hcontained ⟨userId, w.calls.length⟩ ?_ s.sessionId session ?_ huser ?_)
    · exact List.mem_append_right _ (List.mem_singleton_self _)
    · show (w.sessions.commit c).committed.get? _ = _
      rw [VersionedTable.get?_committed_commit, hrow]
    · exact fun s' hs' _ => hbegun s' hs'
  | _ => exact absurd trivial he

/-! ## Layer C: Runs -/

/-- **Containment.** In a run of any calls no session escapes the containment of its user
exactly if each containment commits with the sessions revoked that rotations of the user
have committed since its snapshot. Tokens are signed: two that name the same session name
the same user, and it is the session's. -/
theorem contained_throughout_iff (codec : TokenCodec) (owner : SessionId → UserId)
    (howner : ∀ token claims, codec.decode token = some claims →
      owner claims.sessionId = claims.userId)
    (sessions : Dict SessionId UserSession)
    (hsessions : ∀ sessionId session, sessions.get? sessionId = some session →
      session.userId = owner sessionId) (es : List RefreshEvent) :
    Throughout (AuthWorld.step codec) Contained (initial sessions) es ↔
      Each (AuthWorld.step codec) IssuedSinceRevoked (initial sessions) es := by
  -- A commit that leaves a later session active does not leave its user contained.
  have hrevokes : ∀ w e, Watched codec owner w ∧ AllRevoked w →
      Contained (AuthWorld.step codec w e) → IssuedSinceRevoked w e := by
    intro w e hw hcontained
    by_contra he
    exact not_contained_of_not_revoked hw.1.begun he hcontained
  refine throughout_iff_each (I := fun w => Watched codec owner w ∧ AllRevoked w) ?_ ?_ ?_ ?_
  · intro w e hw _ hcontained
    exact ⟨hw.1.step howner e, hw.2.step hw.1 howner (hrevokes w e hw hcontained)⟩
  · intro w e hw _
    exact ⟨hrevokes w e hw, fun he => (hw.2.step hw.1 howner he).contained⟩
  · refine ⟨⟨sound_initial codec sessions, hsessions, ?_, ?_⟩, ?_⟩
    · intro s hs
      cases hs
    · intro c call userId targets issuedBefore hcall
      cases hcall
    · intro k hk
      cases hk
  · intro k hk
    cases hk

end Step

/-- A session that has rotated, and the live one of its user. -/
def rotatedAndLive : Dict SessionId UserSession :=
  oneSession.set "old"
    { userId := "user", refreshTokenHash := "old", deviceInfo := none, revoked := true,
      expiresAt := 100 }

/-- The rotated token is presented again after the live one has rotated. -/
def reuseAfterRotation : List RefreshEvent :=
  [.begin "first", .begin "old", .claim 0, .lockClaimed 0, .select 0 50, .findUser 0 true,
    .issueTokens 0 "second" "second" 200, .commit 0, .claim 1, .select 1 50, .contain 1,
    .revokeRow 1 "second", .commitContainment 1]

theorem contained_throughout_iff_after :
    Throughout (AuthWorld.step namedCodec) Contained (initial rotatedAndLive)
      reuseAfterRotation := by
  have hsessions : ∀ sessionId session, rotatedAndLive.get? sessionId = some session →
      session.userId = "user" := by
    intro sessionId session hrow
    have hall : ∀ session ∈ rotatedAndLive.values, session.userId = "user" := by
      decide +kernel
    exact hall session (rotatedAndLive.mem_values_iff.mpr ⟨sessionId, hrow⟩)
  refine (contained_throughout_iff namedCodec (fun _ => "user") (fun token claims h => ?_)
    rotatedAndLive hsessions reuseAfterRotation).mpr ?_
  · cases h
    rfl
  · -- Only the last step is a containment's commit, and nothing was issued after its snapshot.
    refine ⟨trivial, trivial, trivial, trivial, trivial, trivial, trivial, trivial, trivial,
      trivial, trivial, trivial, fun call userId issuedBefore hcall hphase s hs => ?_, trivial⟩
    have hlast : (Logic.run (AuthWorld.step namedCodec) (initial rotatedAndLive)
        reuseAfterRotation.dropLast).calls[1]? = some
          { token := "old", claims := ⟨"old", "user"⟩, phase := .revoking "user" [] 1 } := by
      decide +kernel
    have hissued : (Logic.run (AuthWorld.step namedCodec) (initial rotatedAndLive)
        reuseAfterRotation.dropLast).issued.length = 1 := by
      decide +kernel
    cases hlast.symm.trans hcall
    cases hphase
    have hnone := List.drop_eq_nil_of_le hissued.le
    cases hnone ▸ hs

/-- The rotated token is presented while the live one rotates: the snapshot comes before the
rotation's commit. -/
def reuseDuringRotation : List RefreshEvent :=
  [.begin "first", .begin "old", .claim 0, .lockClaimed 0, .select 0 50, .findUser 0 true,
    .issueTokens 0 "second" "second" 200, .claim 1, .select 1 50, .contain 1, .commit 0,
    .revokeRow 1 "first", .commitContainment 1]

/-- The session that the rotation has issued is live after the containment. -/
theorem session_escapes_containment :
    ¬ Throughout (AuthWorld.step namedCodec) Contained (initial rotatedAndLive)
      reuseDuringRotation := by
  intro h
  have hlive : (Logic.run (AuthWorld.step namedCodec) (initial rotatedAndLive)
      reuseDuringRotation).sessions.committed.get? "second" = some
        { userId := "user", refreshTokenHash := "second", deviceInfo := none,
          expiresAt := 200 } := by
    decide +kernel
  have hrevoked := h.last ⟨"user", 2⟩ (by decide +kernel) "second" _ hlive rfl
    (by decide +kernel)
  cases hrevoked

end AuthWorld

end SuperTrading
