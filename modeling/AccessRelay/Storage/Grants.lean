import AccessRelay.Storage.Identities

/-!
# Session and grant tables

The tables of `internal/storage/sessions.go` and `grants.go`, with the audit events that are
appended in the same transaction. Each operation is one transaction; a write transaction takes
the database lock when it begins, so operations are atomic with respect to each other.

`revokeGrantsWhere` selects and updates with the same condition. `mem_revoke_grants_where` says
what is left in the table: no row in scope that is neither revoked nor expired.
-/

namespace AccessRelay.Storage

open Encoding Go

/-- The names of the audit events recorded here. -/
inductive EventName where
  | operatorLogin
  | operatorLogout
  | operatorSessionEnded
  | grantCreated
  | grantRevoked
  deriving DecidableEq, Repr

/-- Who caused an event. -/
inductive ActorRole where
  | operator
  | admin
  deriving DecidableEq, Repr

/-- A row of the audit trail. -/
structure AuditEvent where
  ts : Int64
  event : EventName
  orgID : Bytes
  actorRole : ActorRole
  actorID : Bytes
  deviceID : Bytes
  resourceID : Bytes
  grantID : Bytes
  sessionID : Bytes
  reason : Bytes
  deriving DecidableEq

/-- A logged-in operator session; the bearer token is stored only as its hash. -/
structure SessionRecord where
  sessionID : Bytes
  tokenHash : Bytes
  userID : Bytes
  createdAt : Int64
  expiresAt : Int64
  revokedAt : Option Int64
  remote : Bytes
  deriving DecidableEq

/-- An issued grant. An empty `sessionID` is a grant issued under no session. -/
structure GrantRecord where
  grantID : Bytes
  orgID : Bytes
  userID : Bytes
  deviceID : Bytes
  resourceID : Bytes
  policyID : Bytes
  sessionID : Bytes
  issuedAt : Int64
  expiresAt : Int64
  maxBytes : UInt64
  revokedAt : Option Int64
  revokeReason : Bytes
  deriving DecidableEq

/-- The keys of the tables are unique. -/
structure Keys (sessions : List SessionRecord) (grants : List GrantRecord) : Prop where
  sessionIDs : (sessions.map (·.sessionID)).Nodup
  tokenHashes : (sessions.map (·.tokenHash)).Nodup
  grantIDs : (grants.map (·.grantID)).Nodup

theorem Keys.nil : Keys [] [] := ⟨List.nodup_nil, List.nodup_nil, List.nodup_nil⟩

/-- The three tables. -/
structure Tables where
  sessions : List SessionRecord
  grants : List GrantRecord
  audit : List AuditEvent
  keys : Keys sessions grants

/-- A new database. -/
def Tables.empty : Tables := ⟨[], [], [], Keys.nil⟩

/-- The condition of a listing of live grants: not revoked, and `expires_at > now`. -/
def GrantRecord.live (row : GrantRecord) (now : Time) : Bool :=
  row.revokedAt.isNone && unix now < row.expiresAt

/-- The condition of a listing of active sessions: not revoked, and `expires_at > now`. -/
def SessionRecord.active (row : SessionRecord) (now : Time) : Bool :=
  row.revokedAt.isNone && unix now < row.expiresAt

/-- `SessionRecord.Active`: whether a session may still be used. -/
def SessionRecord.activeAt (row : SessionRecord) (now : Time) : Bool :=
  row.revokedAt.isNone && now.before (fromUnix row.expiresAt)

/-- `GrantRecord.Revoked`. -/
def GrantRecord.revoked (row : GrantRecord) : Bool := row.revokedAt.isSome

/-- `GrantRecord.Expired`: the grant's own lifetime has run out. -/
def GrantRecord.expired (row : GrantRecord) (now : Time) : Bool :=
  now.after (fromUnix row.expiresAt)

/-- `GrantRecord.Usable`: the question the relay asks. -/
def GrantRecord.usable (row : GrantRecord) (now : Time) : Bool :=
  !row.revoked && !row.expired now

/-- The number of rows that a listing returns when none is asked for. -/
def defaultAuditLimit : Int := 100

/-- The largest number of rows that a listing returns. -/
def maxAuditLimit : Int := 10000

/-- What a session listing is narrowed to. An empty user is any user. -/
structure SessionFilter where
  userID : Bytes
  activeOnly : Bool
  limit : Int

/-- The row meets the conditions of the filter. -/
def SessionFilter.admits (f : SessionFilter) (now : Time) (row : SessionRecord) : Bool :=
  (f.userID = [] || row.userID = f.userID) && (!f.activeOnly || row.active now)

/-- The number of rows that a listing returns for a limit, within the bounds of the store. -/
def rowLimit (limit : Int) : Nat :=
  let limit := if limit ≤ 0 then defaultAuditLimit else limit
  (if maxAuditLimit < limit then maxAuditLimit else limit).toNat

/-- `ORDER BY created_at DESC, session_id DESC`. -/
def SessionRecord.listedBefore (a b : SessionRecord) : Bool :=
  b.createdAt < a.createdAt || (a.createdAt = b.createdAt && b.sessionID ≤ a.sessionID)

/-- What a grant listing is narrowed to. An empty identifier is any. -/
structure GrantFilter where
  userID : Bytes
  deviceID : Bytes
  sessionID : Bytes
  activeOnly : Bool
  limit : Int

/-- The row meets the conditions of the filter. -/
def GrantFilter.admits (f : GrantFilter) (now : Time) (row : GrantRecord) : Bool :=
  (f.userID = [] || row.userID = f.userID) && (f.deviceID = [] || row.deviceID = f.deviceID) &&
    (f.sessionID = [] || row.sessionID = f.sessionID) && (!f.activeOnly || row.live now)

/-- `ORDER BY issued_at DESC, grant_id DESC`. -/
def GrantRecord.listedBefore (a b : GrantRecord) : Bool :=
  b.issuedAt < a.issuedAt || (a.issuedAt = b.issuedAt && b.grantID ≤ a.grantID)

/-- The column a cascading revocation matches on. -/
inductive GrantScope where
  | user
  | device
  | session
  deriving DecidableEq, Repr

/-- The row has this value in that column. A grant without a session has no value there, and
equals none. -/
def GrantScope.covers : GrantScope → Bytes → GrantRecord → Bool
  | .user, value, row => row.userID = value
  | .device, value, row => row.deviceID = value
  | .session, value, row => row.sessionID ≠ [] ∧ row.sessionID = value

/-- The row marked revoked. -/
def GrantRecord.revoke (row : GrantRecord) (reason : Bytes) (now : Time) : GrantRecord :=
  { row with revokedAt := some (unix now), revokeReason := reason }

/-- The row as a cascading revocation returns it: six columns are selected, and the rest is left
at its zero value. -/
def GrantRecord.scanned (row : GrantRecord) (reason : Bytes) (now : Time) : GrantRecord :=
  { row.revoke reason now with
    orgID := [], policyID := [], issuedAt := unix Time.zero, maxBytes := 0 }

/-- Mark the grants that meet a condition. -/
def markWhere (selected : GrantRecord → Bool) (reason : Bytes) (now : Time)
    (grants : List GrantRecord) : List GrantRecord :=
  grants.map fun row => if selected row then row.revoke reason now else row

/-- End the session with an identifier, unless it has ended. -/
def endRow (sessionID : Bytes) (now : Time) (row : SessionRecord) : SessionRecord :=
  if row.sessionID = sessionID ∧ row.revokedAt.isNone
  then { row with revokedAt := some (unix now) } else row

/-- The audit event of one revoked grant. -/
def GrantRecord.revocation (row : GrantRecord) (reason : Bytes) (actor : AuditEvent) :
    AuditEvent :=
  { actor with
    grantID := row.grantID, deviceID := row.deviceID, resourceID := row.resourceID
    sessionID := row.sessionID, reason }

section Keys

variable {sessions : List SessionRecord} {grants : List GrantRecord}

theorem Keys.insert_session (h : Keys sessions grants) {row : SessionRecord}
    (hnew : ¬ (sessions.any fun old =>
      old.sessionID = row.sessionID || old.tokenHash = row.tokenHash) = true) :
    Keys (row :: sessions) grants := by
  simp only [List.any_eq_true, Bool.or_eq_true, decide_eq_true_eq, not_exists, not_and,
    not_or] at hnew
  refine ⟨List.nodup_cons.mpr ⟨?_, h.sessionIDs⟩, List.nodup_cons.mpr ⟨?_, h.tokenHashes⟩,
    h.grantIDs⟩
  · intro hmem
    obtain ⟨old, hold, heq⟩ := List.mem_map.mp hmem
    exact (hnew old hold).1 heq
  · intro hmem
    obtain ⟨old, hold, heq⟩ := List.mem_map.mp hmem
    exact (hnew old hold).2 heq

theorem Keys.insert_grant (h : Keys sessions grants) {row : GrantRecord}
    (hnew : ¬ (grants.any fun old => old.grantID = row.grantID) = true) :
    Keys sessions (row :: grants) := by
  refine ⟨h.sessionIDs, h.tokenHashes, List.nodup_cons.mpr ⟨fun hmem => hnew ?_, h.grantIDs⟩⟩
  obtain ⟨old, hold, heq⟩ := List.mem_map.mp hmem
  exact List.any_eq_true.mpr ⟨old, hold, decide_eq_true heq⟩

@[simp] theorem end_row_session_id {sessionID : Bytes} {now : Time} {row : SessionRecord} :
    (endRow sessionID now row).sessionID = row.sessionID := by
  unfold endRow
  split <;> rfl

@[simp] theorem end_row_token_hash {sessionID : Bytes} {now : Time} {row : SessionRecord} :
    (endRow sessionID now row).tokenHash = row.tokenHash := by
  unfold endRow
  split <;> rfl

/-- Ending a session changes no key. -/
theorem Tables.end_keys (t : Tables) (sessionID : Bytes) (now : Time) :
    Keys (t.sessions.map (endRow sessionID now)) t.grants := by
  refine ⟨?_, ?_, t.keys.grantIDs⟩
  · simpa only [List.map_map, Function.comp_def, end_row_session_id] using t.keys.sessionIDs
  · simpa only [List.map_map, Function.comp_def, end_row_token_hash] using t.keys.tokenHashes

variable (selected : GrantRecord → Bool) (reason : Bytes) (now : Time)

/-- Marking changes no identifier. -/
theorem mark_where_ids (grants : List GrantRecord) :
    (markWhere selected reason now grants).map (·.grantID) = grants.map (·.grantID) := by
  unfold markWhere
  rw [List.map_map]
  refine List.map_congr_left fun row _ => ?_
  show (if selected row then row.revoke reason now else row).grantID = row.grantID
  split <;> rfl

theorem Keys.mark_where (h : Keys sessions grants) :
    Keys sessions (markWhere selected reason now grants) :=
  ⟨h.sessionIDs, h.tokenHashes, mark_where_ids selected reason now grants ▸ h.grantIDs⟩

end Keys

namespace Tables

variable (t : Tables)

/-- `CreateSession`: a session and its login event. Both keys have to be new. -/
def createSession (row : SessionRecord) (event : AuditEvent) : Option Tables :=
  if h : t.sessions.any fun old => old.sessionID = row.sessionID || old.tokenHash = row.tokenHash
  then none
  else some ⟨row :: t.sessions, t.grants, event :: t.audit, t.keys.insert_session h⟩

/-- `LookupSession`: a bearer token to a live session. -/
def lookupSession (tokenHash : Bytes) (now : Time) : Except StoreError SessionRecord :=
  match t.sessions.find? fun row => row.tokenHash = tokenHash with
  | none => .error .sessionUnknown
  | some row =>
      if row.revokedAt.isSome then .error .sessionRevoked
      else if now.after (fromUnix row.expiresAt) then .error .sessionExpired
      else .ok row

/-- `LookupSessionByID`: a session whatever its state. -/
def lookupSessionByID (sessionID : Bytes) : Except StoreError SessionRecord :=
  match t.sessions.find? fun row => row.sessionID = sessionID with
  | none => .error .sessionUnknown
  | some row => .ok row

/-- `ListSessions`: matching sessions, newest first. -/
def listSessions (f : SessionFilter) (now : Time) : List SessionRecord :=
  ((t.sessions.filter (f.admits now)).mergeSort SessionRecord.listedBefore).take (rowLimit f.limit)

/-- `ActiveSessionsForUser`. -/
def activeSessionsForUser (userID : Bytes) (now : Time) : List SessionRecord :=
  t.listSessions ⟨userID, true, maxAuditLimit⟩ now

/-- `RevokeSession`: end one session and record it. A session that has already ended is returned
as it is, without a second event. -/
def revokeSession (sessionID reason : Bytes) (actor : AuditEvent) (now : Time) :
    Except StoreError SessionRecord × Tables :=
  match t.lookupSessionByID sessionID with
  | .error e => (.error e, t)
  | .ok row =>
      if row.revokedAt.isSome then (.ok row, t)
      else
        (.ok { row with revokedAt := some (unix now) },
          ⟨t.sessions.map (endRow sessionID now), t.grants,
            { actor with sessionID := row.sessionID, reason } :: t.audit,
            t.end_keys sessionID now⟩)

/-- `RecordGrant`: a grant and its creation event, together or not at all. The identifier has to
be new, and the session it names has to exist. -/
def recordGrant (row : GrantRecord) (event : AuditEvent) : Option Tables :=
  if h : t.grants.any fun old => old.grantID = row.grantID then none
  else if row.sessionID ≠ [] ∧ ¬ t.sessions.any fun s => s.sessionID = row.sessionID then none
  else some ⟨t.sessions, row :: t.grants, event :: t.audit, t.keys.insert_grant h⟩

/-- `LookupGrant`: what is known about one grant. -/
def lookupGrant (grantID : Bytes) : Except StoreError GrantRecord :=
  match t.grants.find? fun row => row.grantID = grantID with
  | none => .error .grantUnknown
  | some row => .ok row

/-- `ListGrants`: matching grants, newest first. -/
def listGrants (f : GrantFilter) (now : Time) : List GrantRecord :=
  ((t.grants.filter (f.admits now)).mergeSort GrantRecord.listedBefore).take (rowLimit f.limit)

/-- `RevokeGrant`: mark one grant revoked and record why. Revoking twice changes nothing. -/
def revokeGrant (grantID reason : Bytes) (actor : AuditEvent) (now : Time) :
    Except StoreError GrantRecord × Tables :=
  match t.lookupGrant grantID with
  | .error e => (.error e, t)
  | .ok row =>
      if row.revokedAt.isSome then (.ok row, t)
      else
        let selected (r : GrantRecord) : Bool := r.grantID = grantID ∧ r.revokedAt.isNone
        (.ok (row.revoke reason now),
          ⟨t.sessions, markWhere selected reason now t.grants,
            row.revocation reason actor :: t.audit, t.keys.mark_where selected reason now⟩)

/-- `RevokeGrantsWhere`: revoke every live grant in a scope, in one transaction, and return what
was revoked. `now` is read before the transaction begins. -/
def revokeGrantsWhere (scope : GrantScope) (value reason : Bytes) (actor : AuditEvent)
    (now : Time) : List GrantRecord × Tables :=
  let selected (row : GrantRecord) : Bool := scope.covers value row && row.live now
  let affected := t.grants.filter selected
  (affected.map (·.scanned reason now),
    ⟨t.sessions, markWhere selected reason now t.grants,
      (affected.map fun row => row.revocation reason { actor with ts := unix now }).reverse ++
        t.audit, t.keys.mark_where selected reason now⟩)

end Tables

/-- A row left by a cascading revocation is a row that was there, revoked if it was in scope and
live. -/
theorem mem_revoke_grants_where {t : Tables} {scope : GrantScope} {value reason : Bytes}
    {actor : AuditEvent} {now : Time} {row : GrantRecord}
    (h : row ∈ (t.revokeGrantsWhere scope value reason actor now).2.grants) :
    ∃ old ∈ t.grants, (row = old ∧ (scope.covers value old = true → old.live now = false)) ∨
      row = old.revoke reason now := by
  obtain ⟨old, hold, hrow⟩ := List.mem_map.mp h
  refine ⟨old, hold, ?_⟩
  split at hrow
  · exact .inr hrow.symm
  next hselected =>
    refine .inl ⟨hrow.symm, ?_⟩
    intro hscope
    simpa [hscope] using hselected

end AccessRelay.Storage
