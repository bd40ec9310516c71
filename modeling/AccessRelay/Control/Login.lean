import AccessRelay.Control.Policy
import AccessRelay.Machine.Pool
import AccessRelay.Storage.Grants

/-!
# Ending a session while grants are issued

`internal/control/login` and the grant handler of `internal/control/httpapi`. A grant request
resolves the operator's session with one transaction, evaluates policy and signs, and records
the grant with another. Ending a session revokes the session row with one transaction and the
grants issued under it with the next.

The liveness check and the insert are not in one transaction, so a request that was admitted
before the session ended can record its grant after the grants of the session have been revoked
(`grant_outlives_session`). `recordsBeforeSweep` rules exactly that order out, and then an ended
session leaves no live grant behind (`ended_session_has_no_live_grant`).
-/

namespace AccessRelay.Control

open Encoding Go Proto Storage Machine

/-- A request to the grant handler: who the certificate says is calling, the hash of the bearer
token, and what is asked for. -/
structure GrantRequest where
  issuer : Issuer
  rules : List Rule
  operatorID : Bytes
  tokenHash : Bytes
  deviceID : Bytes
  resourceID : Bytes
  ttlSeconds : Int64

/-- The lifetime the handler asks `Issue` for. The product wraps as `time.Duration` does. -/
def GrantRequest.ttl (req : GrantRequest) : Duration :=
  if req.ttlSeconds * second ≤ 0 then maxGrantTTL else req.ttlSeconds * second

/-- How a call failed. -/
inductive ApiError where
  | session (error : StoreError)
  | sessionUser
  | issue (error : IssueError)
  | store
  deriving DecidableEq

/-- Ending a session: which one, who asked, and why. -/
structure Ending where
  sessionID : Bytes
  actorID : Bytes
  reason : Bytes
  deriving DecidableEq

/-- A call in progress, named after what it does next. -/
inductive LoginCall where
  | login (userID remote tokenHash : Bytes) (ttl : Duration)
  | requireSession (req : GrantRequest)
  | issue (req : GrantRequest) (sessionID : Bytes)
  | recordGrant (row : GrantRecord) (event : AuditEvent)
  | lookupOwner (ending : Ending)
  | revokeSession (ending : Ending) (role : ActorRole)
  | readClock (ending : Ending) (role : ActorRole)
  | revokeGrants (ending : Ending) (role : ActorRole) (now : Time)
  | loggedIn (sessionID : Bytes)
  | granted (grantID : Bytes)
  | ended (sessionID : Bytes) (revoked : List GrantRecord)
  | failed (error : ApiError)

/-- The call has returned. -/
def LoginCall.returned : LoginCall → Bool
  | .loggedIn _ | .granted _ | .ended _ _ | .failed _ => true
  | _ => false

/-- The call is a grant request that has resolved this session and has not finished. -/
def LoginCall.requesting (sessionID : Bytes) : LoginCall → Bool
  | .issue _ id => id = sessionID
  | .recordGrant row _ => row.sessionID = sessionID
  | _ => false

/-- The database and the clock, with a history of the sessions whose grants have been revoked by
a committed `RevokeGrantsWhere`. -/
structure ControlState where
  tables : Tables
  clock : Time
  swept : List Bytes

/-- What the environment supplies to a step. -/
structure LoginInput where
  now : Time
  random : Option Bytes
  signature : Bytes
  fault : Bool

/-- `newSessionID`. -/
def newSessionID (random : Bytes) : Bytes := ascii "ses_" ++ hexEncode random

/-- The `Issue` call of a request. -/
def GrantRequest.call (req : GrantRequest) (sessionID : Bytes) (input : LoginInput) :
    IssueCall where
  issuer := req.issuer
  rules := req.rules
  request := ⟨[], req.operatorID, req.deviceID, req.resourceID, req.ttl, 0, sessionID⟩
  now := input.now
  random := input.random
  signature := input.signature
  recorded := true

/-- The row `Issue` records for a signed grant. -/
def grantRow (g : Grant) (decision : Decision) (sessionID : Bytes) : GrantRecord where
  grantID := g.grantID
  orgID := g.orgID
  userID := g.userID
  deviceID := g.deviceID
  resourceID := g.resourceID
  policyID := decision.policyID
  sessionID := sessionID
  issuedAt := unix g.issuedAt
  expiresAt := unix g.expiresAt
  maxBytes := g.maxBytes
  revokedAt := none
  revokeReason := []

/-- The creation event of a grant. -/
def createdEvent (row : GrantRecord) : AuditEvent :=
  ⟨row.issuedAt, .grantCreated, row.orgID, .operator, row.userID, row.deviceID, row.resourceID,
    row.grantID, row.sessionID, []⟩

/-- `actorRole`: the owner ends a session as an operator, anyone else as an administrator. -/
def actorRole (actorID ownerID : Bytes) : ActorRole :=
  if actorID ≠ [] ∧ actorID = ownerID then .operator else .admin

/-- `eventForReason`. -/
def eventForReason (reason : Bytes) : EventName :=
  if reason = ascii "logout" then .operatorLogout else .operatorSessionEnded

/-- An audit event with only its actor filled in. -/
def actorEvent (name : EventName) (role : ActorRole) (actorID : Bytes) (now : Time) :
    AuditEvent :=
  ⟨unix now, name, [], role, actorID, [], [], [], [], []⟩

/-- The next operation of a call that has not returned and whose store does not fail. -/
def LoginCall.next (s : ControlState) (input : LoginInput) : LoginCall → ControlState × LoginCall
  | .login userID remote tokenHash ttl =>
      match input.random with
      | none => (s, .failed .store)
      | some random =>
          let now := input.now.truncateSecond
          let row : SessionRecord := ⟨newSessionID random, tokenHash, userID, unix now,
            unix (now.add ttl), none, remote⟩
          match s.tables.createSession row
              (actorEvent .operatorLogin .operator userID now) with
          | none => (s, .failed .store)
          | some tables => ({ s with tables }, .loggedIn row.sessionID)
  | .requireSession req =>
      match s.tables.lookupSession req.tokenHash input.now with
      | .error e => (s, .failed (.session e))
      | .ok row =>
          if row.userID ≠ req.operatorID then (s, .failed .sessionUser)
          else (s, .issue req row.sessionID)
  | .issue req sessionID =>
      match (req.call sessionID input).signs with
      | .error e => (s, .failed (.issue e))
      | .ok g =>
          let row := grantRow g (req.call sessionID input).decision sessionID
          (s, .recordGrant row (createdEvent row))
  | .recordGrant row event =>
      match s.tables.recordGrant row event with
      | none => (s, .failed (.issue .record))
      | some tables => ({ s with tables }, .granted row.grantID)
  | .lookupOwner ending =>
      match s.tables.lookupSessionByID ending.sessionID with
      | .error e => (s, .failed (.session e))
      | .ok owner => (s, .revokeSession ending (actorRole ending.actorID owner.userID))
  | .revokeSession ending role =>
      match s.tables.revokeSession ending.sessionID ending.reason
          (actorEvent (eventForReason ending.reason) role ending.actorID input.now) input.now with
      | (.error e, _) => (s, .failed (.session e))
      | (.ok row, tables) =>
          ({ s with tables }, .readClock { ending with sessionID := row.sessionID } role)
  | .readClock ending role => (s, .revokeGrants ending role input.now)
  | .revokeGrants ending role now =>
      let result := s.tables.revokeGrantsWhere .session ending.sessionID ending.reason
        (actorEvent .grantRevoked role ending.actorID now) now
      ({ s with tables := result.2, swept := ending.sessionID :: s.swept },
        .ended ending.sessionID result.1)
  | call => (s, call)

/-- One step of a call. The clock never goes back by a whole second. -/
def loginCallStep (s : ControlState) (call : LoginCall) (input : LoginInput) :
    Option (ControlState × LoginCall) :=
  if call.returned then none
  else if unix input.now < unix s.clock then none
  else if input.fault then some ({ s with clock := input.now }, .failed .store)
  else some (call.next { s with clock := input.now } input)

/-- Calls are started from outside; the later stages are reached only by stepping. -/
def loginMayStart (_ : ControlState) : LoginCall → Bool
  | .login _ _ _ _ | .requireSession _ | .lookupOwner _ => true
  | _ => false

/-- One action of the control plane. -/
def loginStep : Pool ControlState LoginCall → PoolAction LoginCall LoginInput →
    Option (Pool ControlState LoginCall) :=
  poolStep loginMayStart loginCallStep

/-- A control plane with an empty database. -/
def newControlPlane (clock : Time) : Pool ControlState LoginCall :=
  ⟨⟨Tables.empty, clock, []⟩, []⟩

/-- Once ending a session has returned success and every grant request under it has finished, no
grant of that session is live. -/
def EndedSessionsAreDead (pool : Pool ControlState LoginCall) : Prop :=
  ∀ sessionID revoked, .ended sessionID revoked ∈ pool.calls →
    (∀ call ∈ pool.calls, call.requesting sessionID = false) →
    ∀ row ∈ pool.shared.tables.grants, row.sessionID = sessionID →
      row.live pool.shared.clock = false

/-- The condition: a grant of a session is recorded before the grants of that session are
revoked, or not at all. -/
def recordsBeforeSweep (s : ControlState) (call : LoginCall) (_ : LoginInput) : Bool :=
  match call with
  | .recordGrant row _ => row.sessionID ∉ s.swept
  | _ => true

/-- A grant that is not live does not come back to life as time passes. -/
theorem live_eq_false_of_le {row : GrantRecord} {now later : Time}
    (h : row.live now = false) (hle : unix now ≤ unix later) : row.live later = false := by
  simp only [GrantRecord.live, Bool.and_eq_false_iff, decide_eq_false_iff_not,
    Int64.not_lt] at h ⊢
  exact h.imp_right fun hexpired => Int64.le_trans hexpired hle

/-- A revoked grant is not live. -/
@[simp] theorem live_revoke (row : GrantRecord) (reason : Bytes) (now at' : Time) :
    (row.revoke reason now).live at' = false := by
  simp [GrantRecord.revoke, GrantRecord.live]

/-- Every session has a name, and no grant of a swept session is live. -/
structure ControlState.Swept (s : ControlState) : Prop where
  named : ∀ row ∈ s.tables.sessions, row.sessionID ≠ []
  swept : ∀ sessionID ∈ s.swept, ∀ row ∈ s.tables.grants, row.sessionID = sessionID →
    row.live s.clock = false

/-- What a call that is ending a session knows. -/
def LoginCall.Knows (s : ControlState) : LoginCall → Prop
  | .readClock ending _ => ending.sessionID ≠ []
  | .revokeGrants ending _ now => ending.sessionID ≠ [] ∧ unix now ≤ unix s.clock
  | .ended sessionID _ => sessionID ∈ s.swept
  | _ => True

/-- The invariant survives the passage of time. -/
theorem ControlState.Swept.tick {s : ControlState} (h : s.Swept) {now : Time}
    (hle : unix s.clock ≤ unix now) : { s with clock := now }.Swept where
  named := h.named
  swept := by
    intro sessionID hswept row hrow hsession
    exact live_eq_false_of_le (h.swept sessionID hswept row hrow hsession) hle

/-- A session found by its identifier is in the table. -/
theorem lookup_session_by_id_mem {t : Tables} {sessionID : Bytes} {row : SessionRecord}
    (h : t.lookupSessionByID sessionID = .ok row) : row ∈ t.sessions := by
  unfold Tables.lookupSessionByID at h
  split at h
  · cases h
  next found hfound =>
    cases h
    exact List.mem_of_find?_eq_some hfound

/-- Revoking a session keeps the names of all sessions and the grants. -/
theorem revoke_session_ok {t tables : Tables} {sessionID reason : Bytes} {actor : AuditEvent}
    {now : Time} {row : SessionRecord}
    (h : t.revokeSession sessionID reason actor now = (.ok row, tables)) :
    (∃ old ∈ t.sessions, row.sessionID = old.sessionID) ∧ tables.grants = t.grants ∧
      ∀ r ∈ tables.sessions, ∃ old ∈ t.sessions, r.sessionID = old.sessionID := by
  unfold Tables.revokeSession at h
  cases hlookup : t.lookupSessionByID sessionID with
  | error e => simp [hlookup] at h
  | ok found =>
      have hmem := lookup_session_by_id_mem hlookup
      simp only [hlookup] at h
      split_ifs at h with hrevoked
      · cases h
        exact ⟨⟨row, hmem, rfl⟩, rfl, fun r hr => ⟨r, hr, rfl⟩⟩
      · cases h
        refine ⟨⟨found, hmem, rfl⟩, rfl, ?_⟩
        intro r hr
        obtain ⟨old, hold, rfl⟩ := List.mem_map.mp hr
        refine ⟨old, hold, ?_⟩
        unfold endRow
        split <;> rfl

/-- The sessions a new login leaves: the old ones and one with a name of its own. -/
theorem create_session_some {t tables : Tables} {row : SessionRecord} {event : AuditEvent}
    (h : t.createSession row event = some tables) :
    tables.grants = t.grants ∧ tables.sessions = row :: t.sessions := by
  unfold Tables.createSession at h
  split_ifs at h
  cases h
  exact ⟨rfl, rfl⟩

/-- The grants a recorded grant leaves. -/
theorem record_grant_some {t tables : Tables} {row : GrantRecord} {event : AuditEvent}
    (h : t.recordGrant row event = some tables) :
    tables.sessions = t.sessions ∧ tables.grants = row :: t.grants := by
  unfold Tables.recordGrant at h
  split_ifs at h
  cases h
  exact ⟨rfl, rfl⟩

theorem new_session_id_ne (random : Bytes) : newSessionID random ≠ [] := by
  simp [newSessionID, ascii]

/-- One operation keeps the invariant, if a grant it records is of a session that has not been
swept. -/
theorem LoginCall.next_swept {s : ControlState} {call : LoginCall} {input : LoginInput}
    (h : s.Swept) (hknows : call.Knows s) (hclock : s.clock = input.now)
    (hrecord : ∀ row event, call = .recordGrant row event → row.sessionID ∉ s.swept) :
    (call.next s input).1.Swept ∧ (call.next s input).2.Knows (call.next s input).1 := by
  cases call with
  | login userID remote tokenHash ttl =>
      simp only [LoginCall.next]
      split
      · exact ⟨h, trivial⟩
      next random _ =>
        split
        · exact ⟨h, trivial⟩
        next tables hcreate =>
          obtain ⟨hgrants, hsessions⟩ := create_session_some hcreate
          refine ⟨⟨?_, ?_⟩, trivial⟩
          · show ∀ row ∈ tables.sessions, row.sessionID ≠ []
            rw [hsessions]
            intro row hrow
            rcases List.mem_cons.mp hrow with rfl | hold
            · exact new_session_id_ne random
            · exact h.named row hold
          · intro sessionID hswept row hrow hsession
            exact h.swept sessionID hswept row (hgrants ▸ hrow) hsession
  | requireSession req =>
      simp only [LoginCall.next]
      split
      · exact ⟨h, trivial⟩
      · split
        · exact ⟨h, trivial⟩
        · exact ⟨h, trivial⟩
  | issue req sessionID =>
      simp only [LoginCall.next]
      split
      · exact ⟨h, trivial⟩
      · exact ⟨h, trivial⟩
  | recordGrant row event =>
      simp only [LoginCall.next]
      split
      · exact ⟨h, trivial⟩
      next tables hinsert =>
        obtain ⟨hsessions, hgrants⟩ := record_grant_some hinsert
        refine ⟨⟨?_, ?_⟩, trivial⟩
        · intro r hr
          exact h.named r (hsessions ▸ hr)
        · intro sessionID hswept r hr hsession
          rcases List.mem_cons.mp (hgrants ▸ hr) with rfl | hold
          · exact absurd (hsession ▸ hswept) (hrecord r event rfl)
          · exact h.swept sessionID hswept r hold hsession
  | lookupOwner ending =>
      simp only [LoginCall.next]
      split
      · exact ⟨h, trivial⟩
      · exact ⟨h, trivial⟩
  | revokeSession ending role =>
      simp only [LoginCall.next]
      split
      · exact ⟨h, trivial⟩
      next row tables hrevoke =>
        obtain ⟨⟨old, hold, hname⟩, hgrants, hsessions⟩ := revoke_session_ok hrevoke
        refine ⟨⟨?_, ?_⟩, ?_⟩
        · intro r hr
          obtain ⟨before, hbefore, hsame⟩ := hsessions r hr
          exact hsame ▸ h.named before hbefore
        · intro sessionID hswept r hr hsession
          exact h.swept sessionID hswept r (hgrants ▸ hr) hsession
        · show row.sessionID ≠ []
          exact hname ▸ h.named old hold
  | readClock ending role =>
      refine ⟨h, hknows, ?_⟩
      show unix input.now ≤ unix s.clock
      rw [hclock]
      exact Int64.le_refl _
  | revokeGrants ending role now =>
      obtain ⟨hname, hnow⟩ := hknows
      refine ⟨⟨h.named, ?_⟩, List.mem_cons_self⟩
      intro sessionID hswept row hrow hsession
      obtain ⟨old, hold, ⟨rfl, hselected⟩ | rfl⟩ := mem_revoke_grants_where hrow
      · rcases List.mem_cons.mp hswept with rfl | hbefore
        · have hcovers : GrantScope.session.covers ending.sessionID row = true := by
            simpa [GrantScope.covers, hsession] using hname
          exact live_eq_false_of_le (hselected hcovers) hnow
        · exact h.swept sessionID hbefore row hold hsession
      · exact live_revoke old _ _ _
  | loggedIn | granted | failed => exact ⟨h, trivial⟩
  | ended sessionID revoked => exact ⟨h, hknows⟩

/-- An operation does not touch the clock, and what has been swept stays swept. -/
theorem LoginCall.next_mono (s : ControlState) (call : LoginCall) (input : LoginInput) :
    (call.next s input).1.clock = s.clock ∧ s.swept ⊆ (call.next s input).1.swept := by
  cases call with
  | revokeGrants ending role now => exact ⟨rfl, List.subset_cons_self _ _⟩
  | login | requireSession | issue | recordGrant | lookupOwner | revokeSession =>
      simp only [LoginCall.next]
      repeat' split
      all_goals exact ⟨rfl, List.Subset.refl _⟩
  | readClock | loggedIn | granted | ended | failed => exact ⟨rfl, List.Subset.refl _⟩

/-- What a call knows stays true while the clock and the history advance. -/
theorem LoginCall.Knows.mono {s s' : ControlState} {call : LoginCall} (h : call.Knows s)
    (hclock : unix s.clock ≤ unix s'.clock) (hswept : s.swept ⊆ s'.swept) : call.Knows s' := by
  cases call with
  | readClock ending role => exact h
  | revokeGrants ending role now => exact ⟨h.1, Int64.le_trans h.2 hclock⟩
  | ended sessionID revoked => exact hswept h
  | _ => trivial

/-- What a step of a call does: time passes, then the store fails or the operation runs. -/
theorem login_call_step_cases {s s' : ControlState} {call call' : LoginCall} {input : LoginInput}
    (h : loginCallStep s call input = some (s', call')) :
    unix s.clock ≤ unix input.now ∧
      ((s' = { s with clock := input.now } ∧ call' = .failed .store) ∨
        (s', call') = call.next { s with clock := input.now } input) := by
  unfold loginCallStep at h
  split_ifs at h with hreturned hclock hfault
  · cases h
    exact ⟨Int64.not_lt.mp hclock, .inl ⟨rfl, rfl⟩⟩
  · exact ⟨Int64.not_lt.mp hclock, .inr (Option.some.inj h).symm⟩

/-- Every call knows what it needs, and swept sessions have no live grant. -/
def SweptPool (pool : Pool ControlState LoginCall) : Prop :=
  pool.Holds ControlState.Swept fun s call => call.Knows s

/-- A step that meets the condition keeps the invariant. -/
theorem login_step_swept {pool next : Pool ControlState LoginCall}
    {action : PoolAction LoginCall LoginInput} (hpool : SweptPool pool)
    (h : restrict (poolGuard recordsBeforeSweep) loginStep pool action = some next) :
    SweptPool next := by
  unfold loginStep at h
  rw [restrict_pool_guard] at h
  refine pool_step_holds ?_ ?_ ?_ hpool h
  · intro s call _ hmay
    cases call with
    | readClock | revokeGrants | ended => cases hmay
    | _ => trivial
  · intro s call input s' call' hswept hknows hstep
    obtain ⟨hguard, hstep⟩ := guarded_eq_some.mp hstep
    obtain ⟨hclock, ⟨rfl, rfl⟩ | hnext⟩ := login_call_step_cases hstep
    · exact ⟨hswept.tick hclock, trivial⟩
    · have hrecord : ∀ row event, call = .recordGrant row event → row.sessionID ∉ s.swept := by
        rintro row event rfl
        simpa [recordsBeforeSweep] using hguard
      obtain ⟨hinv, hcall⟩ := LoginCall.next_swept (hswept.tick hclock)
        (hknows.mono hclock (List.Subset.refl _)) rfl hrecord
      rw [← hnext] at hinv hcall
      exact ⟨hinv, hcall⟩
  · intro s call input s' call' other _ _ hstep hother
    obtain ⟨hclock, ⟨rfl, rfl⟩ | hnext⟩ :=
      login_call_step_cases (guarded_eq_some.mp hstep).2
    · exact hother.mono hclock (List.Subset.refl _)
    · obtain ⟨hsame, hsubset⟩ := LoginCall.next_mono { s with clock := input.now } call input
      rw [← hnext] at hsame hsubset
      exact hother.mono (hsame ▸ hclock) hsubset

/-- In every interleaving of logins, grant requests and session ends in which no grant of a
session is recorded after the grants of that session have been revoked, an ended session leaves
no live grant behind. -/
theorem ended_session_has_no_live_grant (clock : Time)
    {actions : List (PoolAction LoginCall LoginInput)} {pool : Pool ControlState LoginCall}
    (hrun : run (restrict (poolGuard recordsBeforeSweep) loginStep) (newControlPlane clock)
      actions = some pool) : EndedSessionsAreDead pool := by
  have hstart : SweptPool (newControlPlane clock) := by
    refine ⟨⟨?_, ?_⟩, ?_⟩ <;> simp [newControlPlane, Tables.empty]
  have hpool := run_invariant login_step_swept hstart hrun
  intro sessionID revoked hended _ row hrow hsession
  exact hpool.shared.swept sessionID (hpool.calls _ hended) row hrow hsession

section Race

/-- A step at a fixed second, drawing fixed random bytes. -/
def atSecond (t : Int64) : LoginInput := ⟨Time.ofUnix t, some [1], [], false⟩

/-- Operator `u` asks for a grant under the session of its token. -/
def sampleRequest : GrantRequest where
  issuer := ⟨[1], ascii "k", true⟩
  rules := [⟨ascii "p", [ascii "u"], [ascii "d"], [ascii "r"], 60 * second, .allow⟩]
  operatorID := ascii "u"
  tokenHash := ascii "hash"
  deviceID := ascii "d"
  resourceID := ascii "r"
  ttlSeconds := 60

/-- Log in, let the request pass `requireSession`, and end the session. -/
def requestThenEnd : List (PoolAction LoginCall LoginInput) :=
  [.start (.login (ascii "u") [] (ascii "hash") (60 * minute)), .advance 0 (atSecond 10),
    .start (.requireSession sampleRequest), .advance 1 (atSecond 11),
    .start (.lookupOwner ⟨newSessionID [1], ascii "u", ascii "logout"⟩),
    .advance 2 (atSecond 12), .advance 2 (atSecond 12)]

/-- The request records its grant before the grants of the session are revoked. -/
def recordedInTime : List (PoolAction LoginCall LoginInput) :=
  requestThenEnd ++ [.advance 1 (atSecond 13), .advance 1 (atSecond 13),
    .advance 2 (atSecond 13), .advance 2 (atSecond 14)]

/-- The request records its grant after the grants of the session were revoked. -/
def recordedLate : List (PoolAction LoginCall LoginInput) :=
  requestThenEnd ++ [.advance 2 (atSecond 13), .advance 2 (atSecond 14),
    .advance 1 (atSecond 15), .advance 1 (atSecond 15)]

/-- A grant recorded in time is revoked with its session. -/
theorem ended_session_recorded_in_time :
    ∃ pool, run (restrict (poolGuard recordsBeforeSweep) loginStep)
        (newControlPlane (Time.ofUnix 0)) recordedInTime = some pool ∧
      EndedSessionsAreDead pool := by
  have hsome : (run (restrict (poolGuard recordsBeforeSweep) loginStep)
      (newControlPlane (Time.ofUnix 0)) recordedInTime).isSome = true := by decide +kernel
  obtain ⟨pool, hrun⟩ := Option.isSome_iff_exists.mp hsome
  exact ⟨pool, hrun, ended_session_has_no_live_grant (Time.ofUnix 0) hrun⟩

/-- What the late request leaves: the session has ended, no request under it is in progress, and a
grant of the session is live. -/
def liveAfterEnd (pool : Pool ControlState LoginCall) : Bool :=
  (pool.calls.any fun call => match call with
    | .ended sessionID _ => sessionID = newSessionID [1]
    | _ => false) &&
  (pool.calls.all fun call => !call.requesting (newSessionID [1])) &&
  pool.shared.tables.grants.any fun row =>
    row.sessionID = newSessionID [1] && row.live pool.shared.clock

theorem not_dead_of_live_after_end {pool : Pool ControlState LoginCall}
    (h : liveAfterEnd pool = true) : ¬ EndedSessionsAreDead pool := by
  simp only [liveAfterEnd, Bool.and_eq_true, List.any_eq_true, List.all_eq_true] at h
  obtain ⟨⟨⟨call, hcall, hended⟩, hquiet⟩, row, hrow, hlive⟩ := h
  cases call with
  | ended sessionID revoked =>
      have hsession : sessionID = newSessionID [1] := by simpa using hended
      intro hdead
      subst hsession
      have hfalse := hdead _ revoked hcall (fun c hc => by simpa using hquiet c hc) row hrow
      simp_all
  | _ => cases hended

/-- The race: a request admitted before the session ended leaves a live grant behind it. -/
theorem grant_outlives_session :
    ∃ pool, run loginStep (newControlPlane (Time.ofUnix 0)) recordedLate = some pool ∧
      ¬ EndedSessionsAreDead pool := by
  have hlive : (run loginStep (newControlPlane (Time.ofUnix 0)) recordedLate).any liveAfterEnd =
      true := by decide +kernel
  cases hrun : run loginStep (newControlPlane (Time.ofUnix 0)) recordedLate with
  | none => simp [hrun] at hlive
  | some pool =>
      rw [hrun] at hlive
      exact ⟨pool, rfl, not_dead_of_live_after_end hlive⟩

end Race

end AccessRelay.Control
