import SuperTrading.Logic.Runs
import Mathlib.Data.List.Nodup

/-!
# The Version History of a Strategy

Any number of `PUT /strategies/{id}` requests interleave their statements. A request reads the
strategy under its row's lock, commits its edit with a snapshot of it, and reads the row once more
for its answer. The commit has released the lock by then, so that the answer can be a later edit.

- **Layer A**: the tables and the requests
- **Layer B**: one step
- **Layer C**: runs
-/

namespace SuperTrading.Strategies

open SuperTrading.Logic

/-! ## Layer A: Tables and requests -/

/-- A `StrategyDefinition`, with its dump. -/
structure StrategyPayload (δ : Type) where
  name : String
  definition : δ
  nonempty : 1 ≤ name.length
  fits : name.length ≤ 255
  deriving DecidableEq

structure StrategyRow (δ : Type) where
  userId : String
  name : String
  version : ℕ
  definition : δ
  deriving DecidableEq, Repr

/-- A row of `strategy_versions` for the strategy. -/
structure StrategyVersionRow (δ : Type) where
  version : ℕ
  name : String
  definition : δ
  deriving DecidableEq, Repr

variable {δ : Type}

/-- `_snapshot_version`. -/
def snapshotVersion (row : StrategyRow δ) : StrategyVersionRow δ where
  version := row.version
  name := row.name
  definition := row.definition

namespace StrategyRow

def edit (row : StrategyRow δ) (payload : StrategyPayload δ) : StrategyRow δ :=
  { row with
    definition := payload.definition
    name := payload.name
    version := row.version + 1 }

/-- The largest value of an INTEGER column. -/
def maxInteger : ℕ := 2147483647

end StrategyRow

/-- Where a request stands between two of its statements. -/
inductive PutPhase (δ : Type)
  | loading
  /-- Holds the lock of the row that it has read. -/
  | editing (row : StrategyRow δ)
  /-- Has committed the row. -/
  | refreshing (row : StrategyRow δ)
  | answered (row : StrategyRow δ)
  | notFound
  | failed
  deriving DecidableEq, Repr

structure PutRequest (δ : Type) where
  userId : String
  payload : StrategyPayload δ
  phase : PutPhase δ := .loading
  deriving DecidableEq

/-- What is committed of one strategy, who has the lock of its row, and the requests so far. No
endpoint deletes a strategy. -/
structure StrategyWorld (δ : Type) where
  row : StrategyRow δ
  versions : List (StrategyVersionRow δ)
  lock : Option ℕ := none
  requests : List (PutRequest δ) := []

inductive PutEvent (δ : Type)
  | arrive (userId : String) (payload : StrategyPayload δ)
  | load (r : ℕ)
  | commit (r : ℕ)
  | refresh (r : ℕ)
  | fail (r : ℕ)

namespace StrategyWorld

/-- `create_strategy`. -/
def createStrategy (userId : String) (payload : StrategyPayload δ) : StrategyWorld δ :=
  let row : StrategyRow δ :=
    { userId, name := payload.name, version := 1, definition := payload.definition }
  { row, versions := [snapshotVersion row] }

def advance (w : StrategyWorld δ) (r : ℕ) (phase : PutPhase δ) : StrategyWorld δ :=
  { w with requests := w.requests.modify r fun request => { request with phase } }

/-- A statement raises: the request is rolled back, which releases its lock. -/
def fail (w : StrategyWorld δ) (r : ℕ) : StrategyWorld δ :=
  { w.advance r .failed with lock := if w.lock = some r then none else w.lock }

/-- `db.get(StrategyRow, strategy_id, with_for_update=True)`, which waits for the lock of another,
and the check of the owner. -/
def load (w : StrategyWorld δ) (r : ℕ) (request : PutRequest δ) : StrategyWorld δ :=
  if w.lock.isSome then w
  else if w.row.userId ≠ request.userId then w.advance r .notFound
  else { w.advance r (.editing w.row) with lock := some r }

/-- The UPDATE, the INSERT of the snapshot and the commit. -/
def commit (w : StrategyWorld δ) (r : ℕ) (edited : StrategyRow δ) : StrategyWorld δ :=
  if edited.version ≤ StrategyRow.maxInteger ∧
      edited.version ∉ w.versions.map StrategyVersionRow.version then
    { w.advance r (.refreshing edited) with
      row := edited
      versions := w.versions ++ [snapshotVersion edited]
      lock := none }
  else w.fail r

def onRequest (w : StrategyWorld δ) (r : ℕ) (f : PutRequest δ → StrategyWorld δ) :
    StrategyWorld δ :=
  match w.requests[r]? with
  | some request => f request
  | none => w

/-- One statement of one request of `update_strategy`. -/
def step (w : StrategyWorld δ) : PutEvent δ → StrategyWorld δ
  | .arrive userId payload => { w with requests := w.requests ++ [{ userId, payload }] }
  | .load r => w.onRequest r fun request =>
    match request.phase with
    | .loading => w.load r request
    | _ => w
  | .commit r => w.onRequest r fun request =>
    match request.phase with
    | .editing row => w.commit r (row.edit request.payload)
    | _ => w
  | .refresh r => w.onRequest r fun request =>
    match request.phase with
    | .refreshing _ => w.advance r (.answered w.row)
    | _ => w
  | .fail r => w.onRequest r fun request =>
    match request.phase with
    | .loading | .editing _ | .refreshing _ => w.fail r
    | _ => w

variable {w w' : StrategyWorld δ} {r d : ℕ} {request : PutRequest δ} {phase : PutPhase δ}

/-! ## Layer B: One step -/

theorem getElem?_advance : (w.advance r phase).requests[d]? =
    if r = d then w.requests[d]?.map (fun request => { request with phase })
    else w.requests[d]? :=
  getElem?_modify_eq _

/-- What a request has read or written, by where it stands. -/
def RequestSound (w : StrategyWorld δ) (r : ℕ) (request : PutRequest δ) : Prop :=
  match request.phase with
  | .loading | .notFound | .failed => True
  | .editing row => w.lock = some r ∧ row = w.row
  | .refreshing row =>
    snapshotVersion row ∈ w.versions ∧ row.name = request.payload.name ∧
      row.definition = request.payload.definition
  | .answered row =>
    snapshotVersion row ∈ w.versions ∧ ∃ snapshot ∈ w.versions,
      snapshot.name = request.payload.name ∧ snapshot.definition = request.payload.definition

/-- What holds between any two statements. -/
structure Sound (w : StrategyWorld δ) : Prop where
  numbered : w.versions.map StrategyVersionRow.version = List.range' 1 w.row.version
  current : snapshotVersion w.row ∈ w.versions
  requests : ∀ (r : ℕ) (request : PutRequest δ), w.requests[r]? = some request →
    w.RequestSound r request

theorem Sound.created (userId : String) (payload : StrategyPayload δ) :
    (createStrategy userId payload).Sound where
  numbered := rfl
  current := List.mem_singleton.mpr rfl
  requests _ _ h := nomatch h

/-- A request stays sound while snapshots are only appended, if no other takes its lock. -/
theorem RequestSound.mono (h : w.RequestSound r request) (hversions : w.versions <+: w'.versions)
    (hlock : w.lock = some r → w'.lock = some r ∧ w'.row = w.row) : w'.RequestSound r request := by
  unfold RequestSound at h ⊢
  cases hphase : request.phase with
  | loading | notFound | failed => trivial
  | editing row =>
    simp only [hphase] at h ⊢
    obtain ⟨hheld, hrow⟩ := hlock h.1
    exact ⟨hheld, h.2.trans hrow.symm⟩
  | refreshing row =>
    simp only [hphase] at h ⊢
    exact ⟨hversions.subset h.1, h.2⟩
  | answered row =>
    simp only [hphase] at h ⊢
    obtain ⟨hrow, snapshot, hmem, hown⟩ := h
    exact ⟨hversions.subset hrow, snapshot, hversions.subset hmem, hown⟩

/-- A statement of one request keeps the others sound. -/
theorem Sound.of_advance (h : w.Sound) (hrequests : w'.requests = (w.advance r phase).requests)
    (hnumbered : w'.versions.map StrategyVersionRow.version = List.range' 1 w'.row.version)
    (hcurrent : snapshotVersion w'.row ∈ w'.versions) (hversions : w.versions <+: w'.versions)
    (hlock : ∀ d ≠ r, w.lock = some d → w'.lock = some d ∧ w'.row = w.row)
    (hphase : ∀ request, w.requests[r]? = some request →
      w'.RequestSound r { request with phase }) : w'.Sound where
  numbered := hnumbered
  current := hcurrent
  requests d request hrequest := by
    rw [hrequests, getElem?_advance] at hrequest
    split at hrequest
    · rename_i hself
      subst hself
      obtain ⟨before, hbefore, rfl⟩ := Option.map_eq_some_iff.mp hrequest
      exact hphase before hbefore
    · rename_i hother
      exact (h.requests d request hrequest).mono hversions (hlock d (Ne.symm hother))

/-- What one statement can do. -/
inductive StepsTo (w : StrategyWorld δ) : PutEvent δ → StrategyWorld δ → Prop
  | still (e : PutEvent δ) : StepsTo w e w
  | arrived (userId : String) (payload : StrategyPayload δ) :
    StepsTo w (.arrive userId payload)
      { w with requests := w.requests ++ [{ userId, payload }] }
  | notFound (r : ℕ) : StepsTo w (.load r) (w.advance r .notFound)
  | locked (r : ℕ) (hfree : w.lock = none) :
    StepsTo w (.load r) { w.advance r (.editing w.row) with lock := some r }
  | failed (e : PutEvent δ) (r : ℕ) : StepsTo w e (w.fail r)
  | committed (r : ℕ) (request : PutRequest δ) (row : StrategyRow δ)
    (hrequest : w.requests[r]? = some request) (hphase : request.phase = .editing row) :
    StepsTo w (.commit r)
      { w.advance r (.refreshing (row.edit request.payload)) with
        row := row.edit request.payload
        versions := w.versions ++ [snapshotVersion (row.edit request.payload)]
        lock := none }
  | refreshed (r : ℕ) (request : PutRequest δ) (row : StrategyRow δ)
    (hrequest : w.requests[r]? = some request) (hphase : request.phase = .refreshing row) :
    StepsTo w (.refresh r) (w.advance r (.answered w.row))

/-- A statement of no request does nothing. -/
theorem onRequest_rule {P : StrategyWorld δ → Prop} {f : PutRequest δ → StrategyWorld δ} (hw : P w)
    (hf : ∀ request, w.requests[r]? = some request → P (f request)) : P (w.onRequest r f) := by
  unfold onRequest
  cases h : w.requests[r]? with
  | none => exact hw
  | some request => exact hf request h

theorem stepsTo (w : StrategyWorld δ) (e : PutEvent δ) : w.StepsTo e (w.step e) := by
  cases e with
  | arrive userId payload => exact .arrived userId payload
  | load r =>
    refine onRequest_rule (.still _) fun request _ => ?_
    split
    · unfold load
      split_ifs with hlocked howner
      · exact .still _
      · exact .notFound r
      · exact .locked r (Option.not_isSome_iff_eq_none.mp hlocked)
    · exact .still _
  | commit r =>
    refine onRequest_rule (.still _) fun request hrequest => ?_
    split
    · rename_i row hphase
      -- A version that is taken, or too large for its column, fails the transaction.
      unfold commit
      split_ifs
      · exact .committed r request row hrequest hphase
      · exact .failed _ r
    · exact .still _
  | refresh r =>
    refine onRequest_rule (.still _) fun request hrequest => ?_
    split
    · rename_i row hphase
      exact .refreshed r request row hrequest hphase
    · exact .still _
  | fail r =>
    refine onRequest_rule (.still _) fun request _ => ?_
    split
    · exact .failed _ r
    · exact .failed _ r
    · exact .failed _ r
    · exact .still _

variable {e : PutEvent δ}

/-- No snapshot is altered. -/
theorem StepsTo.versions (h : w.StepsTo e w') : w.versions <+: w'.versions := by
  cases h with
  | still | arrived | notFound | locked | failed | refreshed => exact List.prefix_rfl
  | committed => exact List.prefix_append _ _

theorem StepsTo.sound (hstep : w.StepsTo e w') (h : w.Sound) : w'.Sound := by
  cases hstep with
  | still => exact h
  | arrived userId payload =>
    refine ⟨h.numbered, h.current, fun d request hrequest => ?_⟩
    rcases getElem?_concat_eq_some hrequest with hold | ⟨-, rfl⟩
    · exact h.requests d request hold
    · trivial
  | notFound r =>
    exact h.of_advance rfl h.numbered h.current List.prefix_rfl (fun _ _ hheld => ⟨hheld, rfl⟩)
      fun _ _ => trivial
  | locked r hfree =>
    refine h.of_advance rfl h.numbered h.current List.prefix_rfl (fun d _ hheld => ?_)
      fun _ _ => ⟨rfl, rfl⟩
    cases hfree.symm.trans hheld
  | failed _ r =>
    refine h.of_advance rfl h.numbered h.current List.prefix_rfl (fun d hd hheld => ?_)
      fun _ _ => trivial
    have hkept : w.lock ≠ some r := fun hself => hd (Option.some.inj (hheld.symm.trans hself))
    exact ⟨(if_neg hkept).trans hheld, rfl⟩
  | committed r request row hrequest hphase =>
    -- The row that the request has read under its lock is the committed one.
    have hheld : w.lock = some r ∧ row = w.row := by
      have hsound := h.requests r request hrequest
      rwa [RequestSound, hphase] at hsound
    obtain ⟨hlock, rfl⟩ := hheld
    refine h.of_advance rfl ?_ ?_ (List.prefix_append _ _) ?_ ?_
    · rw [List.map_append, h.numbered]
      change List.range' 1 w.row.version ++ [w.row.version + 1] = List.range' 1 (w.row.version + 1)
      rw [List.range'_1_concat, Nat.add_comm 1]
    · exact List.mem_append_right _ (List.mem_singleton.mpr rfl)
    · -- Nobody else is editing, as the lock was this request's.
      intro d hd hother
      exact absurd (Option.some.inj (hother.symm.trans hlock)) hd
    · intro request' hrequest'
      cases hrequest.symm.trans hrequest'
      exact ⟨List.mem_append_right _ (List.mem_singleton.mpr rfl), rfl, rfl⟩
  | refreshed r request row hrequest hphase =>
    have hcommitted := h.requests r request hrequest
    rw [RequestSound, hphase] at hcommitted
    refine h.of_advance rfl h.numbered h.current List.prefix_rfl (fun _ _ hheld => ⟨hheld, rfl⟩) ?_
    intro request' hrequest'
    cases hrequest.symm.trans hrequest'
    exact ⟨h.current, _, hcommitted⟩

/-- A phase that is no answer adds none. -/
theorem getElem?_of_advance (hrequests : w'.requests = (w.advance r phase).requests)
    (hother : ∀ row, phase ≠ .answered row) (hrequest : w'.requests[d]? = some request)
    {row : StrategyRow δ} (hphase : request.phase = .answered row) :
    w.requests[d]? = some request := by
  rw [hrequests, getElem?_advance] at hrequest
  split at hrequest
  · obtain ⟨before, -, rfl⟩ := Option.map_eq_some_iff.mp hrequest
    exact absurd hphase (hother row)
  · exact hrequest

/-- A request is answered with what is committed when it refreshes. -/
theorem StepsTo.answered (h : w.StepsTo e w') {row : StrategyRow δ}
    (hrequest : w'.requests[d]? = some request) (hphase : request.phase = .answered row) :
    w.requests[d]? = some request ∨
      e = .refresh d ∧ ∃ before committed, w.requests[d]? = some before ∧
        before.phase = .refreshing committed ∧
        request = { before with phase := .answered w.row } := by
  cases h with
  | still => exact .inl hrequest
  | arrived userId payload =>
    rcases getElem?_concat_eq_some hrequest with hold | ⟨-, rfl⟩
    · exact .inl hold
    · cases hphase
  | notFound => exact .inl (getElem?_of_advance rfl (fun _ h => by cases h) hrequest hphase)
  | locked => exact .inl (getElem?_of_advance rfl (fun _ h => by cases h) hrequest hphase)
  | failed => exact .inl (getElem?_of_advance rfl (fun _ h => by cases h) hrequest hphase)
  | committed => exact .inl (getElem?_of_advance rfl (fun _ h => by cases h) hrequest hphase)
  | refreshed r before committed hbefore hrefreshing =>
    -- Only a refresh answers, and it answers with the row as it is now.
    rw [getElem?_advance] at hrequest
    split at hrequest
    · rename_i hself
      subst hself
      rw [hbefore] at hrequest
      exact .inr ⟨rfl, before, committed, hbefore, hrefreshing, (Option.some.inj hrequest).symm⟩
    · exact .inl hrequest

/-! ## Layer C: Runs -/

/-- The committed versions are 1 to n, each with one snapshot, the strategy is the last of them,
and the definition of an answered request is the snapshot of the version that it was answered. -/
structure History (w : StrategyWorld δ) : Prop where
  numbered : w.versions.map StrategyVersionRow.version = List.range' 1 w.row.version
  current : ∃ snapshot ∈ w.versions, snapshot.version = w.row.version ∧
    snapshot.name = w.row.name ∧ snapshot.definition = w.row.definition
  answered : ∀ (r : ℕ) (request : PutRequest δ) (row : StrategyRow δ),
    w.requests[r]? = some request → request.phase = .answered row →
    ∃ snapshot ∈ w.versions, snapshot.version = row.version ∧
      snapshot.definition = request.payload.definition

/-- In every state, and no snapshot is ever altered. -/
def VersionHistory (w : StrategyWorld δ) (es : List (PutEvent δ)) : Prop :=
  Throughout step History w es ∧
    ∀ pre pre', pre <+: pre' → pre' <+: es →
      (run step w pre).versions <+: (run step w pre').versions

/-- At a refresh the strategy still has the definition of the request, whoever edited it last. -/
def StillOwn (w : StrategyWorld δ) : PutEvent δ → Prop
  | .refresh r => ∀ request row, w.requests[r]? = some request →
      request.phase = .refreshing row → w.row.definition = request.payload.definition
  | _ => True

/-- There is one snapshot of a version. -/
theorem Sound.snapshot_unique (h : w.Sound) {s s' : StrategyVersionRow δ} (hs : s ∈ w.versions)
    (hs' : s' ∈ w.versions) (hversion : s.version = s'.version) : s = s' := by
  have hnodup : (w.versions.map StrategyVersionRow.version).Nodup :=
    h.numbered ▸ List.nodup_range'
  exact List.inj_on_of_nodup_map hnodup hs hs' hversion

/-- **A statement keeps the history exactly if it is no refresh after the edit of another.** -/
theorem History.step_iff (hsound : w.Sound) (h : w.History) :
    (w.step e).History ↔ w.StillOwn e := by
  have hstep := w.stepsTo e
  constructor
  · intro hafter
    cases e with
    | refresh r =>
      intro request row hrequest hphase
      have hrefreshed : w.step (.refresh r) = w.advance r (.answered w.row) := by
        simp only [step, onRequest, hrequest, hphase]
      have hanswered : (w.step (.refresh r)).requests[r]? =
          some { request with phase := .answered w.row } := by
        rw [hrefreshed, getElem?_advance, if_pos rfl, hrequest]
        rfl
      obtain ⟨snapshot, hmem, hversion, hdefinition⟩ := hafter.answered r _ w.row hanswered rfl
      rw [hrefreshed] at hmem
      -- The answer has the current version, and its one snapshot is that of the row.
      have hsame : snapshot = snapshotVersion w.row :=
        hsound.snapshot_unique hmem hsound.current hversion
      rw [← hdefinition, hsame]
      rfl
    | arrive | load | commit | fail => trivial
  · intro hown
    have hsound' := hstep.sound hsound
    refine ⟨hsound'.numbered, ⟨_, hsound'.current, rfl, rfl, rfl⟩, ?_⟩
    intro r request row hrequest hphase
    rcases hstep.answered hrequest hphase with hold |
      ⟨rfl, before, committed, hbefore, hrefreshing, rfl⟩
    · obtain ⟨snapshot, hmem, hsnapshot⟩ := h.answered r request row hold hphase
      exact ⟨snapshot, hstep.versions.subset hmem, hsnapshot⟩
    · cases hphase
      exact ⟨_, hstep.versions.subset hsound.current, rfl,
        hown before committed hbefore hrefreshing⟩

theorem versions_run (w : StrategyWorld δ) (es : List (PutEvent δ)) :
    w.versions <+: (run step w es).versions :=
  invariant_run (I := fun w' : StrategyWorld δ => w.versions <+: w'.versions)
    (fun w' e h => h.trans (w'.stepsTo e).versions) es List.prefix_rfl

/-- **The version history of a strategy**, over all interleavings of its edits, is as it should be
exactly if no request refreshes after another has committed a different definition. -/
theorem strategy_version_history (userId : String) (payload : StrategyPayload δ)
    (es : List (PutEvent δ)) :
    VersionHistory (createStrategy userId payload) es ↔
      Each step StillOwn (createStrategy userId payload) es := by
  have hcreated := Sound.created userId payload
  have hhistory : (createStrategy userId payload).History :=
    ⟨hcreated.numbered, ⟨_, hcreated.current, rfl, rfl, rfl⟩, fun _ _ _ h => nomatch h⟩
  have happended : ∀ pre pre' : List (PutEvent δ), pre <+: pre' → pre' <+: es →
      (run step (createStrategy userId payload) pre).versions <+:
        (run step (createStrategy userId payload) pre').versions := by
    rintro pre _ ⟨rest, rfl⟩ -
    rw [run, run, List.foldl_append]
    exact versions_run _ rest
  refine (and_iff_left happended).trans ?_
  exact throughout_iff_each (fun w e hsound _ _ => (w.stepsTo e).sound hsound)
    (fun _ _ hsound h => h.step_iff hsound) hcreated hhistory

/-- **No edit is lost**: each answered one has a snapshot, though not always of the version that it
was answered. -/
theorem edit_lands (userId : String) (payload : StrategyPayload δ) (es : List (PutEvent δ))
    {row : StrategyRow δ}
    (hrequest : (run step (createStrategy userId payload) es).requests[r]? = some request)
    (hphase : request.phase = .answered row) :
    ∃ snapshot ∈ (run step (createStrategy userId payload) es).versions,
      snapshot.name = request.payload.name ∧ snapshot.definition = request.payload.definition := by
  have hsound : (run step (createStrategy userId payload) es).Sound :=
    invariant_run (fun w e h => (w.stepsTo e).sound h) es (.created userId payload)
  have hanswered := hsound.requests r request hrequest
  rw [RequestSound, hphase] at hanswered
  exact hanswered.2

def payloadA : StrategyPayload ℕ := ⟨"A", 2, by decide, by decide⟩

def payloadB : StrategyPayload ℕ := ⟨"B", 3, by decide, by decide⟩

/-- The second edit is committed between the commit of the first and its refresh, which answers the
first with the version and the definition of the second. -/
theorem answered_with_later_edit :
    let created : StrategyWorld ℕ := createStrategy "u" ⟨"S", 1, by decide, by decide⟩
    let es : List (PutEvent ℕ) := [.arrive "u" payloadA, .arrive "u" payloadB, .load 0, .commit 0,
      .load 1, .commit 1, .refresh 0]
    ((run step created es).requests[0]?.map PutRequest.phase =
        some (.answered { userId := "u", name := "B", version := 3, definition := 3 })) ∧
      ¬ VersionHistory created es := by
  intro created es
  have hanswered : (run step created es).requests[0]? =
      some { userId := "u", payload := payloadA, phase := .answered ⟨"u", "B", 3, 3⟩ } := by
    decide +kernel
  refine ⟨by rw [hanswered]; rfl, fun h => ?_⟩
  obtain ⟨snapshot, hmem, hversion, hdefinition⟩ := h.1.last.answered 0 _ _ hanswered rfl
  have hversions : (run step created es).versions =
      [⟨1, "S", 1⟩, ⟨2, "A", 2⟩, ⟨3, "B", 3⟩] := by
    decide +kernel
  rw [hversions] at hmem
  -- The snapshot of version 3 is the other edit.
  rcases List.mem_cons.mp hmem with rfl | hmem
  · exact absurd hversion (by decide)
  rcases List.mem_cons.mp hmem with rfl | hmem
  · exact absurd hversion (by decide)
  · cases List.mem_singleton.mp hmem
    exact absurd hdefinition (by decide)

end StrategyWorld

end SuperTrading.Strategies
