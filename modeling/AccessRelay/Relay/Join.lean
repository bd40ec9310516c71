import AccessRelay.Machine.Pool
import AccessRelay.Proto.Grant
import AccessRelay.Relay.LiveStreams
import AccessRelay.Storage.Grants

/-!
# Joining streams while grants are revoked

`Server.joinStream` and `Server.TerminateGrants` of `internal/relay`. A join asks the store
whether its grant is revoked, opens a stream to the agent, and registers the pair, as three
separate steps. A revocation marks rows in the store and then resets the streams registered
under the grants it revoked.

A join that was checked before the row was marked and is registered after the register was read
is missed by the revocation (`stream_survives_revocation`). `registersInTime` rules exactly that
order out, and then no stream survives (`revocation_reaches_every_stream`).
-/

namespace AccessRelay.Relay

open Encoding Go Proto Storage Machine

/-- A mux stream of the relay: the session it belongs to and its identifier there. -/
structure StreamRef where
  session : Nat
  id : UInt32
  deriving DecidableEq

/-- The relay's configuration: the signature primitive, the key it verifies grants with, and
whether a grant checker and an auditor are configured. -/
structure Config where
  ed25519Verify : Bytes → Bytes → Bytes → Bool
  grantKey : Bytes
  grants : Bool
  audit : Bool

/-- The arguments of `joinStream`: the operator's stream with its OPEN_STREAM payload, the
agent's session, and the identities both ends proved. -/
structure JoinRequest where
  operator : StreamRef
  payload : Bytes
  agentSession : Nat
  deviceID : Bytes
  userID : Bytes
  deriving DecidableEq

/-- The checks `joinStream` makes by itself, in its order. -/
def JoinRequest.authorize (cfg : Config) (req : JoinRequest) (now : Time) :
    Except Reason Grant :=
  if req.payload = [] then .error reasonPolicyDenied
  else match decodeGrant req.payload with
    | .error e => .error (reasonForGrant e)
    | .ok signed =>
        match signed.verify cfg.ed25519Verify cfg.grantKey now signed.grant.deviceID with
        | .error e => .error (reasonForGrant e)
        | .ok () =>
            if signed.grant.userID ≠ req.userID then .error reasonPolicyDenied
            else if signed.grant.deviceID ≠ req.deviceID then .error reasonGrantDeviceMismatch
            else .ok signed.grant

/-- Everything the relay needs to know about an issued grant. -/
structure GrantState where
  known : Bool
  revoked : Bool
  sessionID : Bytes
  userID : Bytes
  deriving DecidableEq

/-- `StateOf`: a grant nobody has a record of is unknown rather than an error. -/
def stateOf (tables : Tables) (grantID : Bytes) : GrantState :=
  match tables.lookupGrant grantID with
  | .error _ => ⟨false, false, [], []⟩
  | .ok row => ⟨true, row.revokedAt.isSome, row.sessionID, row.userID⟩

/-- How opening the agent's stream failed, with the text of the error. -/
inductive OpenError where
  | tooManyStreams (text : Bytes)
  | streamRefused (text : Bytes)
  | other (text : Bytes)
  deriving DecidableEq

/-- The reason the operator is given. -/
def OpenError.reason : OpenError → Reason
  | .tooManyStreams _ | .streamRefused _ => reasonLimitStreamsExceeded
  | .other _ => reasonNoAgent

/-- `err.Error()`. -/
def OpenError.text : OpenError → Bytes
  | .tooManyStreams text | .streamRefused text | .other text => text

/-- The audit events of the relay. -/
inductive RelayEvent where
  | streamOpened (grant : Grant) (sessionID : Bytes)
  | streamDenied (grant : Grant) (reason : Reason) (detail : Bytes)
  | streamClosed (grant : Grant) (aToB bToA : UInt64) (elapsed : Duration) (reason : Reason)
  deriving DecidableEq

/-- A pair that has been joined, and what `Add` returned for it. -/
structure Joined where
  grant : Grant
  sessionID : Bytes
  pair : StreamPair StreamRef
  key : Option Registration
  deriving DecidableEq

/-- What is revoked: one grant, or every live grant in a scope. -/
inductive Revocation where
  | grant (grantID : Bytes)
  | cascade (scope : GrantScope) (value : Bytes) (now : Time)
  deriving DecidableEq

/-- A call in progress, named after what it does next. -/
inductive RelayCall where
  | join (req : JoinRequest)
  | checkGrant (req : JoinRequest) (grant : Grant)
  | openAgent (req : JoinRequest) (grant : Grant) (sessionID : Bytes)
  | deny (req : JoinRequest) (grant : Grant) (reason : Reason) (detail : Bytes)
  | refuse (req : JoinRequest) (reason : Reason)
  | register (req : JoinRequest) (grant : Grant) (sessionID : Bytes) (agent : StreamRef)
  | recordOpened (joined : Joined)
  | copying (joined : Joined)
  | recordClosed (joined : Joined) (event : RelayEvent)
  | release (joined : Joined)
  | returned (refused : Option Reason)
  | revoke (revocation : Revocation) (reason : Bytes) (actor : AuditEvent)
  | terminate (grantIDs : List Bytes)
  | resetting (grantIDs : List Bytes) (rest : List (StreamPair StreamRef))
      (agent : Option StreamRef)
  | revoked (grantIDs : List Bytes)
  | revokeFailed
  deriving DecidableEq

/-- The database, the register of live streams, the resets sent and the audit trail, with a
history of the grants whose streams `Terminate` has collected. -/
structure RelayState where
  tables : Tables
  live : LiveStreams StreamRef
  resets : List (StreamRef × Reason)
  trail : List RelayEvent
  terminated : List Bytes

/-- What the environment supplies to a step: the clock, whether the store fails, the outcome of
opening the agent's stream, how the copy loop ended, and which pair is reset next. -/
structure RelayInput where
  now : Time
  fault : Bool
  opened : Except OpenError UInt32
  aToB : UInt64
  bToA : UInt64
  elapsed : Duration
  joinFailed : Bool
  choice : Nat

/-- A write of the auditor succeeds: there is one, and the store does not fail. -/
def RelayInput.records (input : RelayInput) (cfg : Config) : Bool := cfg.audit && !input.fault

/-- `Recorder.Record`: an event that cannot be written is logged and lost. -/
def RelayState.record (s : RelayState) (cfg : Config) (input : RelayInput) (event : RelayEvent) :
    RelayState :=
  if input.records cfg then { s with trail := event :: s.trail } else s

/-- `Stream.Reset` on one end. -/
def RelayState.reset (s : RelayState) (ref : StreamRef) (reason : Reason) : RelayState :=
  { s with resets := (ref, reason) :: s.resets }

/-- The revocation lookup of `joinStream`. A lookup that fails and a grant that is unknown are
both let through, on the agent's authority. -/
def checkGrantStep (cfg : Config) (s : RelayState) (req : JoinRequest) (grant : Grant)
    (fault : Bool) : RelayCall :=
  if ¬ cfg.grants ∨ fault then .openAgent req grant []
  else
    let state := stateOf s.tables grant.grantID
    if ¬ state.known then .openAgent req grant []
    else if state.revoked then
      .deny req grant reasonGrantRevoked (ascii "grant revoked before expiry")
    else .openAgent req grant state.sessionID

/-- The store's part of a revocation: the grants whose streams have to go, and the new tables. -/
def Revocation.commit (tables : Tables) (reason : Bytes) (actor : AuditEvent) (now : Time) :
    Revocation → Except StoreError (List Bytes) × Tables
  | .grant grantID =>
      match tables.revokeGrant grantID reason actor now with
      | (.error e, tables) => (.error e, tables)
      | (.ok row, tables) => (.ok [row.grantID], tables)
  | .cascade scope value now =>
      let result := tables.revokeGrantsWhere scope value reason actor now
      (.ok (result.1.map (·.grantID)), result.2)

/-- The next operation of a call. -/
def RelayCall.next (cfg : Config) (s : RelayState) (input : RelayInput) :
    RelayCall → Option (RelayState × RelayCall)
  | .join req =>
      match req.authorize cfg input.now with
      | .error reason => some (s, .refuse req reason)
      | .ok grant => some (s, .checkGrant req grant)
  | .checkGrant req grant => some (s, checkGrantStep cfg s req grant input.fault)
  | .openAgent req grant sessionID =>
      match input.opened with
      | .error e => some (s, .deny req grant e.reason e.text)
      | .ok id => some (s, .register req grant sessionID ⟨req.agentSession, id⟩)
  | .deny req grant reason detail =>
      some (s.record cfg input (.streamDenied grant reason detail), .refuse req reason)
  | .refuse req reason => some (s.reset req.operator reason, .returned (some reason))
  | .register req grant sessionID agent =>
      let pair : StreamPair StreamRef := ⟨req.operator, agent⟩
      let result := s.live.add grant.grantID pair
      some ({ s with live := result.1 }, .recordOpened ⟨grant, sessionID, pair, result.2⟩)
  | .recordOpened j => some (s.record cfg input (.streamOpened j.grant j.sessionID), .copying j)
  | .copying j =>
      -- `bridge.Join` returns when both directions have ended.
      let reason := if input.joinFailed then reasonShutdown else reasonOK
      some (s, .recordClosed j (.streamClosed j.grant input.aToB input.bToA input.elapsed reason))
  | .recordClosed j event => some (s.record cfg input event, .release j)
  | .release j => some ({ s with live := s.live.release j.key }, .returned none)
  | .revoke revocation reason actor =>
      if input.fault then some (s, .revokeFailed)
      else match revocation.commit s.tables reason actor input.now with
        | (.error _, tables) => some ({ s with tables }, .revokeFailed)
        | (.ok grantIDs, tables) =>
            some ({ s with tables },
              if grantIDs = [] then .revoked [] else .terminate grantIDs)
  | .terminate grantIDs =>
      let result := s.live.collect grantIDs
      some ({ s with live := result.2, terminated := grantIDs ++ s.terminated },
        .resetting grantIDs result.1 none)
  | .resetting grantIDs rest (some agent) =>
      some (s.reset agent reasonGrantRevoked, .resetting grantIDs rest none)
  | .resetting grantIDs [] none => some (s, .revoked grantIDs)
  | .resetting grantIDs rest none =>
      -- Map iteration visits the pairs in any order.
      (rest[input.choice]?).map fun pair =>
        (s.reset pair.operator reasonGrantRevoked,
          .resetting grantIDs (rest.eraseIdx input.choice) (some pair.agent))
  | .returned _ | .revoked _ | .revokeFailed => none

/-- Joins and revocations are started from outside. -/
def relayMayStart (_ : RelayState) : RelayCall → Bool
  | .join _ | .revoke _ _ _ => true
  | _ => false

/-- One action of the relay and the store. -/
def relayStep (cfg : Config) : Pool RelayState RelayCall → PoolAction RelayCall RelayInput →
    Option (Pool RelayState RelayCall) :=
  poolStep relayMayStart fun s call input => call.next cfg s input

/-- A relay that carries no stream yet, on some database. -/
def newRelay (tables : Tables) : Pool RelayState RelayCall :=
  ⟨⟨tables, LiveStreams.empty, [], [], []⟩, []⟩

/-- The join has returned or reached its copy loop. -/
def RelayCall.settled : RelayCall → Bool
  | .copying _ | .returned _ => true
  | .join _ | .checkGrant _ _ | .openAgent _ _ _ | .deny _ _ _ _ | .refuse _ _
  | .register _ _ _ _ | .recordOpened _ | .recordClosed _ _ | .release _ => false
  | .revoke _ _ _ | .terminate _ | .resetting _ _ _ | .revoked _ | .revokeFailed => true

/-- The call is resetting streams of a grant. -/
def RelayCall.terminating (grantID : Bytes) : RelayCall → Bool
  | .resetting grantIDs _ _ => grantID ∈ grantIDs
  | _ => false

/-- Both ends of a pair have been reset. -/
def RelayState.isReset (s : RelayState) (pair : StreamPair StreamRef) : Prop :=
  pair.operator ∈ s.resets.map (·.1) ∧ pair.agent ∈ s.resets.map (·.1)

/-- Once a revocation of a grant has completed, and every join that started before it has
returned or reached its copy loop, no pair under the grant is left copying without having been
reset. If several revocations name the grant, all of them have completed. -/
def RevocationReaches (pool : Pool RelayState RelayCall) : Prop :=
  ∀ (index : Nat) (grantIDs : List Bytes) (grantID : Bytes),
    pool.calls[index]? = some (.revoked grantIDs) → grantID ∈ grantIDs →
    (∀ call ∈ pool.calls, call.terminating grantID = false) →
    (∀ call ∈ pool.calls.take index, call.settled = true) →
    ∀ joined, .copying joined ∈ pool.calls → joined.grant.grantID = grantID →
      pool.shared.isReset joined.pair

/-- The condition: no stream is registered under a grant after the streams of that grant have been
collected, and the register has not run out of numbers. -/
def registersInTime (s : RelayState) (call : RelayCall) (_ : RelayInput) : Bool :=
  match call with
  | .register _ grant _ _ => grant.grantID ∉ s.terminated ∧ s.live.nextID < s.live.nextID + 1
  | _ => true

/-- The registration a join holds. -/
def RelayCall.registration : RelayCall → Option Registration
  | .recordOpened j | .copying j | .recordClosed j _ | .release j => j.key
  | _ => none

/-- The pair a join is about to copy or copying. -/
def RelayCall.joined : RelayCall → Option Joined
  | .recordOpened j | .copying j => some j
  | _ => none

/-- The call is terminating the grant and still has to reset the pair, or only its agent's end. -/
def RelayCall.owes (s : RelayState) (grantID : Bytes) (pair : StreamPair StreamRef) :
    RelayCall → Prop
  | .resetting grantIDs rest agent =>
      grantID ∈ grantIDs ∧
        (pair ∈ rest ∨ (agent = some pair.agent ∧ pair.operator ∈ s.resets.map (·.1)))
  | _ => False

/-- The register holds no stream of a terminated grant, and every row has an identifier. -/
structure RelayState.Terminated (s : RelayState) : Prop where
  named : ∀ row ∈ s.tables.grants, row.grantID ≠ []
  live : ∀ e ∈ s.live.entries, e.key.grantID ∉ s.terminated

/-- What a call knows: its registration has a number that was given out, under its own grant; the
grants it is revoking have identifiers, and those it has terminated are terminated. -/
def RelayCall.Knows (s : RelayState) : RelayCall → Prop
  | .recordOpened j | .copying j | .recordClosed j _ | .release j =>
      (∀ key, j.key = some key → key.grantID = j.grant.grantID ∧ key.id ≤ s.live.nextID) ∧
        (j.key = none → j.grant.grantID = [])
  | .terminate grantIDs => [] ∉ grantIDs
  | .resetting grantIDs _ _ | .revoked grantIDs => [] ∉ grantIDs ∧ grantIDs ⊆ s.terminated
  | _ => True

/-- What a step does to the register, the resets and the call's own part in them. -/
structure StepSpec (s : RelayState) (call : RelayCall) (s' : RelayState) (call' : RelayCall) :
    Prop where
  resets : s.resets ⊆ s'.resets
  numbers : s.live.nextID ≤ s'.live.nextID
  terminated : s.terminated ⊆ s'.terminated
  kept : ∀ e ∈ s.live.entries, e.key.id ≤ s.live.nextID →
    e ∈ s'.live.entries ∨ call.registration = some e.key ∨ call'.owes s' e.key.grantID e.pair
  owed : ∀ grantID pair, call.owes s grantID pair →
    call'.owes s' grantID pair ∨ s'.isReset pair
  registered : ∀ key, call'.registration = some key →
    call.registration = some key ∨ s.live.nextID < key.id
  joined : ∀ j, call'.joined = some j →
    (call.joined = some j ∧ s'.live = s.live) ∨
      ∀ key, j.key = some key → ⟨key, j.pair⟩ ∈ s'.live.entries

/-- The steps that leave the register alone and reset no pair. -/
theorem StepSpec.quiet {s s' : RelayState} {call call' : RelayCall} (hlive : s'.live = s.live)
    (hterminated : s'.terminated = s.terminated) (hresets : s.resets ⊆ s'.resets)
    (howes : ∀ grantID pair, ¬ call.owes s grantID pair)
    (hkey : ∀ key, call'.registration = some key → call.registration = some key)
    (hjoined : ∀ j, call'.joined = some j → call.joined = some j) :
    StepSpec s call s' call' where
  resets := hresets
  numbers := hlive ▸ UInt64.le_refl _
  terminated := hterminated ▸ List.Subset.refl _
  kept := fun _ he _ => .inl (hlive ▸ he)
  owed := fun grantID pair hpair => absurd hpair (howes grantID pair)
  registered := fun key hk => .inl (hkey key hk)
  joined := fun j hj => .inl ⟨hjoined j hj, hlive⟩

section Record

variable (s : RelayState) (cfg : Config) (input : RelayInput) (event : RelayEvent)

@[simp] theorem record_live : (s.record cfg input event).live = s.live := by
  unfold RelayState.record
  split <;> rfl

@[simp] theorem record_resets : (s.record cfg input event).resets = s.resets := by
  unfold RelayState.record
  split <;> rfl

@[simp] theorem record_terminated : (s.record cfg input event).terminated = s.terminated := by
  unfold RelayState.record
  split <;> rfl

@[simp] theorem record_tables : (s.record cfg input event).tables = s.tables := by
  unfold RelayState.record
  split <;> rfl

end Record

/-- The revocation lookup leads to the agent or to a refusal. -/
theorem check_grant_step_cases (cfg : Config) (s : RelayState) (req : JoinRequest)
    (grant : Grant) (fault : Bool) :
    (∃ sessionID, checkGrantStep cfg s req grant fault = .openAgent req grant sessionID) ∨
      ∃ reason detail, checkGrantStep cfg s req grant fault = .deny req grant reason detail := by
  unfold checkGrantStep
  dsimp only
  split
  · exact .inl ⟨_, rfl⟩
  · split
    · exact .inl ⟨_, rfl⟩
    · split
      · exact .inr ⟨_, _, rfl⟩
      · exact .inl ⟨_, rfl⟩

/-- Registering a pair: nothing registered before is lost, and the number is new. -/
theorem StepSpec.register {s : RelayState} {req : JoinRequest} {grant : Grant}
    {sessionID : Bytes} {agent : StreamRef} (hnext : s.live.nextID < s.live.nextID + 1)
    {pair : StreamPair StreamRef} :
    StepSpec s (.register req grant sessionID agent)
      { s with live := (s.live.add grant.grantID pair).1 }
      (.recordOpened ⟨grant, sessionID, pair, (s.live.add grant.grantID pair).2⟩) := by
  by_cases hgrant : grant.grantID = []
  · have hadd : s.live.add grant.grantID pair = (s.live, none) := by
      simp [LiveStreams.add, hgrant]
    rw [hadd]
    exact {
      resets := List.Subset.refl _
      numbers := UInt64.le_refl _
      terminated := List.Subset.refl _
      kept := fun e he _ => .inl he
      owed := fun _ _ h => h.elim
      registered := by
        intro key hkey
        cases hkey
      joined := by
        intro j hj
        cases hj
        exact .inr fun key hkey => by cases hkey }
  · have hadd : s.live.add grant.grantID pair =
        (⟨⟨⟨grant.grantID, s.live.nextID + 1⟩, pair⟩ ::
          (s.live.remove ⟨grant.grantID, s.live.nextID + 1⟩).entries, s.live.nextID + 1⟩,
          some ⟨grant.grantID, s.live.nextID + 1⟩) := by
      simp [LiveStreams.add, hgrant]
    rw [hadd]
    exact {
      resets := List.Subset.refl _
      numbers := UInt64.le_of_lt hnext
      terminated := List.Subset.refl _
      kept := by
        intro e he hid
        refine .inl (List.mem_cons_of_mem _ (LiveStreams.mem_remove.mpr ⟨he, ?_⟩))
        intro hkey
        rw [hkey] at hid
        exact absurd hnext (UInt64.not_lt.mpr hid)
      owed := fun _ _ h => h.elim
      registered := by
        intro key hkey
        cases hkey
        exact .inr hnext
      joined := by
        intro j hj
        cases hj
        refine .inr ?_
        intro key hkey
        cases hkey
        exact List.mem_cons_self }

/-- Collecting the streams of grants: every pair that leaves the register is owed a reset. -/
theorem StepSpec.terminate {s : RelayState} {grantIDs : List Bytes} :
    StepSpec s (.terminate grantIDs)
      { s with live := (s.live.collect grantIDs).2, terminated := grantIDs ++ s.terminated }
      (.resetting grantIDs (s.live.collect grantIDs).1 none) where
  resets := List.Subset.refl _
  numbers := by simp
  terminated := List.subset_append_right _ _
  kept := by
    intro e he _
    by_cases hgrant : e.key.grantID ∈ grantIDs
    · exact .inr (.inr ⟨hgrant, .inl (LiveStreams.mem_collect_streams.mpr ⟨e, he, hgrant, rfl⟩)⟩)
    · exact .inl (LiveStreams.mem_collect_entries.mpr ⟨he, hgrant⟩)
  owed := fun _ _ h => h.elim
  registered := by
    intro key hkey
    cases hkey
  joined := by
    intro j hj
    cases hj

/-- Resetting one end: the pairs owed are reset, or still owed. -/
theorem StepSpec.reset {s : RelayState} {grantIDs : List Bytes} {ref : StreamRef}
    {rest rest' : List (StreamPair StreamRef)} {agent agent' : Option StreamRef}
    (hrest : ∀ pair ∈ rest, pair ∈ rest' ∨ (pair.operator = ref ∧ agent' = some pair.agent))
    (hagent : agent = some ref ∨ agent = none) :
    StepSpec s (.resetting grantIDs rest agent) (s.reset ref reasonGrantRevoked)
      (.resetting grantIDs rest' agent') where
  resets := List.subset_cons_self _ _
  numbers := UInt64.le_refl _
  terminated := List.Subset.refl _
  kept := fun e he _ => .inl he
  owed := by
    intro grantID pair hpair
    obtain ⟨hgrant, hmem | ⟨hlast, hoperator⟩⟩ := hpair
    · rcases hrest pair hmem with hstill | ⟨hop, hnext⟩
      · exact .inl ⟨hgrant, .inl hstill⟩
      · exact .inl ⟨hgrant, .inr ⟨hnext, by simp [RelayState.reset, hop]⟩⟩
    · rcases hagent with rfl | rfl
      · cases hlast
        exact .inr ⟨by simp [RelayState.reset, hoperator], by simp [RelayState.reset]⟩
      · cases hlast
  registered := by
    intro key hkey
    cases hkey
  joined := by
    intro j hj
    cases hj

/-- Every step that meets the condition is as `StepSpec` says. -/
theorem relay_call_step_spec {cfg : Config} {s s' : RelayState} {call call' : RelayCall}
    {input : RelayInput} (hguard : registersInTime s call input = true)
    (h : call.next cfg s input = some (s', call')) : StepSpec s call s' call' := by
  cases call with
  | join req =>
      simp only [RelayCall.next] at h
      split at h <;> cases h <;>
        exact .quiet rfl rfl (List.Subset.refl _) (fun _ _ hp => hp) (fun _ hk => hk) fun _ hj => hj
  | checkGrant req grant =>
      simp only [RelayCall.next, Option.some.injEq, Prod.mk.injEq] at h
      obtain ⟨rfl, rfl⟩ := h
      rcases check_grant_step_cases cfg s req grant input.fault with ⟨_, hnext⟩ | ⟨_, _, hnext⟩ <;>
        rw [hnext] <;>
        exact .quiet rfl rfl (List.Subset.refl _) (fun _ _ hp => hp) (fun _ hk => hk) fun _ hj => hj
  | openAgent req grant sessionID =>
      simp only [RelayCall.next] at h
      split at h <;> cases h <;>
        exact .quiet rfl rfl (List.Subset.refl _) (fun _ _ hp => hp) (fun _ hk => hk) fun _ hj => hj
  | deny req grant reason detail =>
      cases h
      exact .quiet (by simp) (by simp) (by simp) (fun _ _ hp => hp) (fun _ hk => hk) fun _ hj => hj
  | refuse req reason =>
      cases h
      exact .quiet rfl rfl (List.subset_cons_self _ _) (fun _ _ hp => hp) (fun _ hk => hk)
        fun _ hj => hj
  | register req grant sessionID agent =>
      cases h
      have hnext : s.live.nextID < s.live.nextID + 1 := by
        simp only [registersInTime, decide_eq_true_eq] at hguard
        exact hguard.2
      exact .register hnext
  | recordOpened j =>
      cases h
      exact .quiet (by simp) (by simp) (by simp) (fun _ _ hp => hp) (fun _ hk => hk) fun _ hj => hj
  | copying j =>
      cases h
      exact .quiet rfl rfl (List.Subset.refl _) (fun _ _ hp => hp) (fun _ hk => hk)
        fun _ hj => by cases hj
  | recordClosed j event =>
      cases h
      exact .quiet (by simp) (by simp) (by simp) (fun _ _ hp => hp) (fun _ hk => hk) fun _ hj => hj
  | release j =>
      cases h
      exact {
        resets := List.Subset.refl _
        numbers := by cases hkey : j.key <;> exact UInt64.le_refl _
        terminated := List.Subset.refl _
        kept := by
          intro e he _
          cases hkey : j.key with
          | none => exact .inl he
          | some key =>
              by_cases heq : e.key = key
              · exact .inr (.inl (heq ▸ hkey))
              · exact .inl (LiveStreams.mem_remove.mpr ⟨he, heq⟩)
        owed := fun _ _ hp => hp.elim
        registered := fun _ hk => by cases hk
        joined := fun _ hj => by cases hj }
  | revoke revocation reason actor =>
      simp only [RelayCall.next] at h
      split at h
      · cases h
        exact .quiet rfl rfl (List.Subset.refl _) (fun _ _ hp => hp) (fun _ hk => hk)
          fun _ hj => hj
      · split at h <;> cases h
        · exact .quiet rfl rfl (List.Subset.refl _) (fun _ _ hp => hp) (fun _ hk => hk)
            fun _ hj => hj
        · split <;>
            exact .quiet rfl rfl (List.Subset.refl _) (fun _ _ hp => hp) (fun _ hk => hk)
              fun _ hj => hj
  | terminate grantIDs =>
      cases h
      exact .terminate
  | resetting grantIDs rest agent =>
      match rest, agent with
      | rest, some agent =>
          cases h
          exact .reset (fun _ hp => .inl hp) (.inl rfl)
      | [], none =>
          cases h
          exact .quiet rfl rfl (List.Subset.refl _) (by simp [RelayCall.owes])
            (fun _ hk => hk) fun _ hj => hj
      | pair :: rest, none =>
          obtain ⟨chosen, hchosen, hnext⟩ := Option.map_eq_some_iff.mp h
          cases hnext
          refine .reset ?_ (.inr rfl)
          intro p hp
          by_cases hsame : p = chosen
          · exact .inr ⟨by rw [hsame], by rw [hsame]⟩
          · obtain ⟨i, hi⟩ := List.mem_iff_getElem?.mp hp
            refine .inl (List.mem_eraseIdx_iff_getElem?.mpr ⟨i, ?_, hi⟩)
            intro hchoice
            rw [hchoice, hchosen] at hi
            exact hsame (Option.some.inj hi).symm
  | returned | revoked | revokeFailed => cases h

/-- A step keeps what the other calls know. -/
theorem RelayCall.Knows.mono {s s' : RelayState} {call : RelayCall} (h : call.Knows s)
    (hnumbers : s.live.nextID ≤ s'.live.nextID) (hterminated : s.terminated ⊆ s'.terminated) :
    call.Knows s' := by
  cases call with
  | recordOpened j | copying j | recordClosed j | release j =>
      exact ⟨fun key hkey => ⟨(h.1 key hkey).1, UInt64.le_trans (h.1 key hkey).2 hnumbers⟩, h.2⟩
  | resetting | revoked => exact ⟨h.1, List.Subset.trans h.2 hterminated⟩
  | terminate => exact h
  | _ => trivial

/-- The number of a registration a call holds has been given out. -/
theorem RelayCall.Knows.id_le {s : RelayState} {call : RelayCall} {key : Registration}
    (h : call.Knows s) (hkey : call.registration = some key) : key.id ≤ s.live.nextID := by
  cases call with
  | recordOpened j | copying j | recordClosed j | release j => exact (h.1 key hkey).2
  | _ => cases hkey

/-- The grants a revocation names are rows of the table, and no row is renamed. -/
theorem revocation_commit_named {tables tables' : Tables} {reason : Bytes} {actor : AuditEvent}
    {now : Time} {revocation : Revocation} {result : Except StoreError (List Bytes)}
    (hnamed : ∀ row ∈ tables.grants, row.grantID ≠ [])
    (h : revocation.commit tables reason actor now = (result, tables')) :
    (∀ row ∈ tables'.grants, row.grantID ≠ []) ∧
      ∀ grantIDs, result = .ok grantIDs → [] ∉ grantIDs := by
  cases revocation with
  | grant grantID =>
      simp only [Revocation.commit, Tables.revokeGrant, Tables.lookupGrant] at h
      cases hfind : tables.grants.find? fun row => row.grantID = grantID with
      | none =>
          simp only [hfind] at h
          cases h
          exact ⟨hnamed, fun _ hok => by cases hok⟩
      | some row =>
          have hrow := hnamed row (List.mem_of_find?_eq_some hfind)
          simp only [hfind] at h
          split_ifs at h <;> cases h
          · exact ⟨hnamed, fun _ hok => by cases hok; simpa using hrow.symm⟩
          · refine ⟨?_, fun _ hok => by cases hok; simpa [GrantRecord.revoke] using hrow.symm⟩
            intro r hr
            obtain ⟨old, hold, rfl⟩ := List.mem_map.mp hr
            split
            · exact hnamed old hold
            · exact hnamed old hold
  | cascade scope value now =>
      cases h
      refine ⟨?_, ?_⟩
      · intro r hr
        obtain ⟨old, hold, rfl⟩ := List.mem_map.mp hr
        split
        · exact hnamed old hold
        · exact hnamed old hold
      · intro grantIDs hok hempty
        cases hok
        obtain ⟨row, hrow, hid⟩ := List.mem_map.mp hempty
        obtain ⟨old, hold, rfl⟩ := List.mem_map.mp hrow
        exact hnamed old (List.mem_filter.mp hold).1 hid

/-- A step that meets the condition keeps the invariant and what its own call knows. -/
theorem relay_call_step_knows {cfg : Config} {s s' : RelayState} {call call' : RelayCall}
    {input : RelayInput} (hinv : s.Terminated) (hknows : call.Knows s)
    (hguard : registersInTime s call input = true)
    (h : call.next cfg s input = some (s', call')) : s'.Terminated ∧ call'.Knows s' := by
  cases call with
  | join req =>
      simp only [RelayCall.next] at h
      split at h <;> cases h <;> exact ⟨hinv, trivial⟩
  | checkGrant req grant =>
      simp only [RelayCall.next, Option.some.injEq, Prod.mk.injEq] at h
      obtain ⟨rfl, rfl⟩ := h
      rcases check_grant_step_cases cfg s req grant input.fault with ⟨_, hnext⟩ | ⟨_, _, hnext⟩ <;>
        rw [hnext] <;> exact ⟨hinv, trivial⟩
  | openAgent req grant sessionID =>
      simp only [RelayCall.next] at h
      split at h <;> cases h <;> exact ⟨hinv, trivial⟩
  | deny req grant reason detail =>
      cases h
      exact ⟨⟨by simpa using hinv.named, by simpa using hinv.live⟩, trivial⟩
  | refuse req reason =>
      cases h
      exact ⟨⟨hinv.named, hinv.live⟩, trivial⟩
  | register req grant sessionID agent =>
      cases h
      have hgrant : grant.grantID ∉ s.terminated := by
        simp only [registersInTime, decide_eq_true_eq] at hguard
        exact hguard.1
      by_cases hempty : grant.grantID = []
      · simp only [LiveStreams.add, hempty, if_true]
        exact ⟨⟨hinv.named, hinv.live⟩, (fun key hkey => by cases hkey), fun _ => hempty⟩
      · simp only [LiveStreams.add, hempty, if_false]
        refine ⟨⟨hinv.named, ?_⟩, ?_, fun hkey => by cases hkey⟩
        · intro e he
          rcases List.mem_cons.mp he with rfl | hold
          · exact hgrant
          · exact hinv.live e (LiveStreams.mem_remove.mp hold).1
        · intro key hkey
          cases hkey
          exact ⟨rfl, UInt64.le_refl _⟩
  | recordOpened j | recordClosed j =>
      cases h
      exact ⟨⟨by simpa using hinv.named, by simpa using hinv.live⟩,
        hknows.mono (by simp) (by simp)⟩
  | copying j =>
      cases h
      exact ⟨hinv, hknows⟩
  | release j =>
      cases h
      refine ⟨⟨hinv.named, ?_⟩, trivial⟩
      intro e he
      cases hkey : j.key with
      | none =>
          rw [hkey] at he
          exact hinv.live e he
      | some key =>
          rw [hkey] at he
          exact hinv.live e (LiveStreams.mem_remove.mp he).1
  | revoke revocation reason actor =>
      simp only [RelayCall.next] at h
      split at h
      · cases h
        exact ⟨hinv, trivial⟩
      · split at h
        next tables hcommit =>
          cases h
          exact ⟨⟨(revocation_commit_named hinv.named hcommit).1, hinv.live⟩, trivial⟩
        next grantIDs tables hcommit =>
          cases h
          obtain ⟨hrows, hids⟩ := revocation_commit_named hinv.named hcommit
          refine ⟨⟨hrows, hinv.live⟩, ?_⟩
          split
          · exact ⟨by simp, by simp⟩
          · exact hids grantIDs rfl
  | terminate grantIDs =>
      cases h
      refine ⟨⟨hinv.named, ?_⟩, hknows, List.subset_append_left _ _⟩
      intro e he
      obtain ⟨hmem, hgrant⟩ := LiveStreams.mem_collect_entries.mp he
      simpa [hgrant] using hinv.live e hmem
  | resetting grantIDs rest agent =>
      match rest, agent with
      | rest, some agent =>
          cases h
          exact ⟨⟨hinv.named, hinv.live⟩, hknows⟩
      | [], none =>
          cases h
          exact ⟨hinv, hknows⟩
      | pair :: rest, none =>
          obtain ⟨chosen, _, hnext⟩ := Option.map_eq_some_iff.mp h
          cases hnext
          exact ⟨⟨hinv.named, hinv.live⟩, hknows⟩
  | returned | revoked | revokeFailed => cases h

/-- The pair of a join is registered, reset, or owed a reset by a call in progress. -/
def Tracked (pool : Pool RelayState RelayCall) (joined : Joined) : Prop :=
  ∀ key, joined.key = some key →
    ⟨key, joined.pair⟩ ∈ pool.shared.live.entries ∨ pool.shared.isReset joined.pair ∨
      ∃ call ∈ pool.calls, call.owes pool.shared key.grantID joined.pair

/-- The invariant of joins and revocations: registrations are not shared, and every pair that is
copying can be found. -/
structure Reaching (pool : Pool RelayState RelayCall) : Prop where
  holds : pool.Holds RelayState.Terminated fun s call => call.Knows s
  apart : pool.Apart RelayCall.registration
  tracked : ∀ call ∈ pool.calls, ∀ joined, call.joined = some joined → Tracked pool joined

theorem isReset_mono {s s' : RelayState} {pair : StreamPair StreamRef}
    (hresets : s.resets ⊆ s'.resets) (h : s.isReset pair) : s'.isReset pair :=
  ⟨List.map_subset _ hresets h.1, List.map_subset _ hresets h.2⟩

theorem owes_mono {s s' : RelayState} {call : RelayCall} {grantID : Bytes}
    {pair : StreamPair StreamRef} (hresets : s.resets ⊆ s'.resets)
    (h : call.owes s grantID pair) : call.owes s' grantID pair := by
  cases call with
  | resetting grantIDs rest agent =>
      exact ⟨h.1, h.2.imp_right fun hagent => ⟨hagent.1, List.map_subset _ hresets hagent.2⟩⟩
  | _ => exact h.elim

/-- The registration of a pair that is copying is the one its call holds. -/
theorem registration_of_joined {call : RelayCall} {joined : Joined}
    (h : call.joined = some joined) : call.registration = joined.key := by
  cases call with
  | recordOpened j | copying j =>
      cases h
      rfl
  | _ => cases h

/-- A pair owed a reset before a step is owed it afterwards, or has been reset. -/
theorem owed_advance {pool : Pool RelayState RelayCall} {index : Nat} {call call' : RelayCall}
    {s' : RelayState} (hcall : pool.calls[index]? = some call)
    (hspec : StepSpec pool.shared call s' call') {grantID : Bytes} {pair : StreamPair StreamRef}
    (h : ∃ c ∈ pool.calls, c.owes pool.shared grantID pair) :
    s'.isReset pair ∨ ∃ c ∈ pool.calls.set index call', c.owes s' grantID pair := by
  obtain ⟨c, hc, howes⟩ := h
  obtain ⟨k, hk⟩ := List.mem_iff_getElem?.mp hc
  by_cases hindex : index = k
  · subst hindex
    obtain rfl : call = c := Option.some.inj (hcall.symm.trans hk)
    have hlt := (List.getElem?_eq_some_iff.mp hk).1
    rcases hspec.owed grantID pair howes with hstill | hreset
    · exact .inr ⟨call', List.mem_set hlt call', hstill⟩
    · exact .inl hreset
  · have hmem : c ∈ pool.calls.set index call' := by
      refine List.mem_of_getElem? (i := k) ?_
      rw [List.getElem?_set_ne hindex, hk]
    exact .inr ⟨c, hmem, owes_mono hspec.resets howes⟩

/-- Every pair that is copying can still be found after a step of some call. -/
theorem tracked_advance {pool : Pool RelayState RelayCall} {index : Nat} {call call' : RelayCall}
    {s' : RelayState} (hpool : Reaching pool) (hcall : pool.calls[index]? = some call)
    (hspec : StepSpec pool.shared call s' call') {k : Nat} {d : RelayCall} {joined : Joined}
    (hd : (pool.calls.set index call')[k]? = some d) (hjoined : d.joined = some joined) :
    Tracked ⟨s', pool.calls.set index call'⟩ joined := by
  intro key hkey
  have hlt := (List.getElem?_eq_some_iff.mp hcall).1
  rcases get_set_cases hd with ⟨rfl, rfl⟩ | ⟨hk, hold⟩
  · rcases hspec.joined joined hjoined with ⟨hbefore, hlive⟩ | hnew
    · have htracked := hpool.tracked call (List.mem_of_getElem? hcall) joined hbefore key hkey
      rcases htracked with hentry | hreset | howed
      · exact .inl (hlive ▸ hentry)
      · exact .inr (.inl (isReset_mono hspec.resets hreset))
      · exact .inr (owed_advance hcall hspec howed)
    · exact .inl (hnew key hkey)
  · have hmem := List.mem_of_getElem? hold
    rcases hpool.tracked d hmem joined hjoined key hkey with hentry | hreset | howed
    · have hown : d.registration = some key := (registration_of_joined hjoined).trans hkey
      have hid := (hpool.holds.calls d hmem).id_le hown
      rcases hspec.kept _ hentry hid with hstill | hreleased | howes
      · exact .inl hstill
      · -- The call that moved would hold the registration of another call.
        exact absurd (hpool.apart hold hcall hown hreleased) hk
      · exact .inr (.inr ⟨call', List.mem_set hlt call', howes⟩)
    · exact .inr (.inl (isReset_mono hspec.resets hreset))
    · exact .inr (owed_advance hcall hspec howed)

/-- A step that meets the condition keeps the invariant. -/
theorem relay_step_reaching {cfg : Config} {pool next : Pool RelayState RelayCall}
    {action : PoolAction RelayCall RelayInput} (hpool : Reaching pool)
    (h : restrict (poolGuard registersInTime) (relayStep cfg) pool action = some next) :
    Reaching next := by
  unfold relayStep at h
  rw [restrict_pool_guard] at h
  refine ⟨?_, ?_, ?_⟩
  · refine pool_step_holds ?_ ?_ ?_ hpool.holds h
    · intro s call _ hmay
      cases call with
      | join | revoke => trivial
      | _ => cases hmay
    · intro s call input s' call' hinv hknows hstep
      obtain ⟨hguard, hnext⟩ := guarded_eq_some.mp hstep
      exact relay_call_step_knows hinv hknows hguard hnext
    · intro s call input s' call' other _ _ hstep hother
      obtain ⟨hguard, hnext⟩ := guarded_eq_some.mp hstep
      have hspec := relay_call_step_spec hguard hnext
      exact hother.mono hspec.numbers hspec.terminated
  · refine pool_step_apart ?_ ?_ hpool.apart h
    · intro call hmay
      cases call with
      | join | revoke => rfl
      | _ => cases hmay
    · intro call input s' call' key hstep hkey
      obtain ⟨hguard, hnext⟩ := guarded_eq_some.mp hstep
      rcases (relay_call_step_spec hguard hnext).registered key hkey with hown | hfresh
      · exact .inl hown
      · refine .inr ?_
        intro other hother hsame
        have hle := (hpool.holds.calls other hother).id_le hsame
        exact absurd hfresh (UInt64.not_lt.mpr hle)
  · rcases pool_step_cases h with ⟨call, -, hmay, rfl⟩ |
      ⟨index, input, call, s', call', -, hcall, hstep, rfl⟩
    · intro c hc joined hjoined key hkey
      rcases List.mem_append.mp hc with hold | hnew
      · rcases hpool.tracked c hold joined hjoined key hkey with hentry | hreset | ⟨d, hd, howes⟩
        · exact .inl hentry
        · exact .inr (.inl hreset)
        · exact .inr (.inr ⟨d, List.mem_append_left _ hd, howes⟩)
      · obtain rfl := List.mem_singleton.mp hnew
        cases c with
        | recordOpened | copying => cases hmay
        | _ => cases hjoined
    · intro c hc joined hjoined
      obtain ⟨k, hk⟩ := List.mem_iff_getElem?.mp hc
      obtain ⟨hguard, hnext⟩ := guarded_eq_some.mp hstep
      exact tracked_advance hpool hcall (relay_call_step_spec hguard hnext) hk hjoined

/-- In every interleaving of joins and revocations in which no stream is registered under a grant
after the streams of that grant have been collected, no stream survives a revocation. -/
theorem revocation_reaches_every_stream (cfg : Config) {tables : Tables}
    (hnamed : ∀ row ∈ tables.grants, row.grantID ≠ [])
    {actions : List (PoolAction RelayCall RelayInput)} {pool : Pool RelayState RelayCall}
    (hrun : run (restrict (poolGuard registersInTime) (relayStep cfg)) (newRelay tables)
      actions = some pool) : RevocationReaches pool := by
  have hstart : Reaching (newRelay tables) := by
    refine ⟨⟨⟨hnamed, ?_⟩, ?_⟩, ?_, ?_⟩
    · simp [newRelay, LiveStreams.empty]
    · simp [newRelay]
    · intro i k c d name hc
      simp [newRelay] at hc
    · simp [newRelay]
  have hpool := run_invariant relay_step_reaching hstart hrun
  intro index grantIDs grantID hrevoked hgrant hquiet _ joined hcopying hjoined
  obtain ⟨hnonempty, hterminated⟩ := hpool.holds.calls _ (List.mem_of_getElem? hrevoked)
  obtain ⟨hkeys, hunregistered⟩ := hpool.holds.calls _ hcopying
  cases hkey : joined.key with
  | none =>
      rw [← hjoined, hunregistered hkey] at hgrant
      exact absurd hgrant hnonempty
  | some key =>
      have hid : key.grantID = grantID := (hkeys key hkey).1.trans hjoined
      rcases hpool.tracked _ hcopying joined rfl key hkey with
        hentry | hreset | ⟨call, hcall, howes⟩
      · exact absurd (hterminated (hid ▸ hgrant)) (hpool.holds.shared.live _ hentry)
      · exact hreset
      · have hbusy := hquiet call hcall
        cases call with
        | resetting ids rest agent =>
            simp only [RelayCall.terminating, decide_eq_false_iff_not] at hbusy
            exact absurd (hid ▸ howes.1) hbusy
        | _ => exact howes.elim

section Race

/-- A grant for operator `u` to reach `r` on device `d`. -/
def sampleGrant : Grant where
  version := grantVersion
  keyID := ascii "k"
  grantID := ascii "g"
  orgID := []
  userID := ascii "u"
  deviceID := ascii "d"
  resourceID := ascii "r"
  issuedAt := Time.ofUnix 0
  expiresAt := Time.ofUnix 60
  maxBytes := 0

/-- The store's row of the grant. -/
def sampleRow : GrantRecord :=
  ⟨ascii "g", [], ascii "u", ascii "d", ascii "r", ascii "p", [], 0, 60, 0, none, []⟩

theorem sample_keys : Keys [] [sampleRow] :=
  ⟨List.nodup_nil, List.nodup_nil, List.nodup_singleton _⟩

/-- A store with that row. -/
def sampleTables : Tables := ⟨[], [sampleRow], [], sample_keys⟩

/-- A relay whose signature check accepts. -/
def sampleConfig : Config := ⟨fun _ _ _ => true, [], true, true⟩

/-- Stream 1 of operator session 1 presents the grant; the agent's session is session 2. -/
def sampleJoin : JoinRequest :=
  ⟨⟨1, 1⟩, (⟨sampleGrant, List.replicate 64 0⟩ : SignedGrant).encode, 2, ascii "d", ascii "u"⟩

/-- Nothing fails, and the agent's stream is stream 1 of its session. -/
def sampleInput : RelayInput := ⟨Time.ofUnix 10, false, .ok 1, 0, 0, 0, false, 0⟩

/-- An administrator revokes the grant. -/
def sampleRevocation : RelayCall :=
  .revoke (.grant (ascii "g")) (ascii "revoked_by_admin")
    ⟨10, .grantRevoked, [], .admin, [], [], [], [], [], []⟩

/-- The join is checked and its agent's stream is opened; then the revocation begins. -/
def checkedThenRevoked : List (PoolAction RelayCall RelayInput) :=
  [.start (.join sampleJoin), .advance 0 sampleInput, .advance 0 sampleInput,
    .advance 0 sampleInput, .start sampleRevocation, .advance 1 sampleInput]

/-- The join is registered before its grant is terminated. -/
def registeredInTime : List (PoolAction RelayCall RelayInput) :=
  checkedThenRevoked ++ [.advance 0 sampleInput, .advance 0 sampleInput, .advance 1 sampleInput,
    .advance 1 sampleInput, .advance 1 sampleInput, .advance 1 sampleInput]

/-- The join is registered after the revocation has completed. -/
def registeredLate : List (PoolAction RelayCall RelayInput) :=
  checkedThenRevoked ++ [.advance 1 sampleInput, .advance 1 sampleInput, .advance 0 sampleInput,
    .advance 0 sampleInput]

/-- A stream that is registered in time is reset by the revocation. -/
theorem revocation_reaches_registered_stream :
    ∃ pool, run (restrict (poolGuard registersInTime) (relayStep sampleConfig))
        (newRelay sampleTables) registeredInTime = some pool ∧
      pool.calls[1]? = some (.revoked [ascii "g"]) ∧ RevocationReaches pool := by
  have hcalls : (run (restrict (poolGuard registersInTime) (relayStep sampleConfig))
      (newRelay sampleTables) registeredInTime).map (fun pool => pool.calls[1]?) =
      some (some (.revoked [ascii "g"])) := by decide +kernel
  obtain ⟨pool, hrun, hdone⟩ := Option.map_eq_some_iff.mp hcalls
  exact ⟨pool, hrun, hdone, revocation_reaches_every_stream sampleConfig (by decide) hrun⟩

/-- The race: a stream that was checked before the row was marked and registered after the
register was read goes on copying. -/
theorem stream_survives_revocation :
    ∃ pool, run (relayStep sampleConfig) (newRelay sampleTables) registeredLate =
        some pool ∧ ¬ RevocationReaches pool := by
  have hcalls : (run (relayStep sampleConfig) (newRelay sampleTables)
      registeredLate).map (fun pool => (pool.calls, pool.shared.resets)) =
      some ([.copying ⟨sampleGrant, [], ⟨⟨1, 1⟩, ⟨2, 1⟩⟩, some ⟨ascii "g", 1⟩⟩,
        .revoked [ascii "g"]], []) := by decide +kernel
  obtain ⟨pool, hrun, hpool⟩ := Option.map_eq_some_iff.mp hcalls
  obtain ⟨hcalls, hresets⟩ := Prod.mk.inj hpool
  refine ⟨pool, hrun, ?_⟩
  intro hreaches
  have hreset := hreaches 1 [ascii "g"] (ascii "g") (by rw [hcalls]; rfl) (by simp)
    (by rw [hcalls]; decide) (by rw [hcalls]; decide) _ (by rw [hcalls]; exact List.mem_cons_self)
    rfl
  simp [RelayState.isReset, hresets] at hreset

end Race

end AccessRelay.Relay
