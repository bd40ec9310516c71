import AccessRelay.Control.Login
import AccessRelay.Storage.Lifecycle

/-!
# Logging out and revoking an operator

`handleLogout` of `internal/control/httpapi` and `EndAllForUser` of `internal/control/login`, as
sequences of store operations on any tables. Each operation reads the clock and may fail, and one
that fails leaves the tables as they are.

`handleLogout` answers 200 whenever it could not resolve the session, also when the store could not
be read, when an earlier logout has revoked the session and not its grants, and when the session has
expired before its grants. `logout_means_it` says that the session and its grants are over exactly
if it was resolved, or they were over before.

`EndAllForUser` ends the sessions of one listing, and a listing is cut at `maxAuditLimit` rows.
`user_has_nothing_left` says when nothing is left of the user and the others keep what they have.
-/

namespace AccessRelay.Control

open Encoding Go Storage

/-- The clock that each store operation reads, and which of them fail. The clock never goes back by
a whole second. -/
structure Environment where
  now : Nat → Time
  fault : Nat → Bool
  mono : ∀ n, unix (now n) ≤ unix (now (n + 1))

/-- The tables, and the number of store operations so far. -/
structure Progress where
  tables : Tables
  ops : Nat

/-- Code that calls the store: it returns a value or an error, and leaves tables in either case. -/
def StoreCall (α : Type) := Progress → Except ApiError α × Progress

instance : Monad StoreCall where
  pure a := fun p => (.ok a, p)
  bind x f := fun p =>
    match x p with
    | (.error e, p') => (.error e, p')
    | (.ok a, p') => f a p'

/-- One store operation. -/
def perform {α : Type} (env : Environment) (op : Time → Tables → Except StoreError α × Tables) :
    StoreCall α := fun p =>
  if env.fault p.ops then (.error .store, { p with ops := p.ops + 1 })
  else
    let result := op (env.now p.ops) p.tables
    (result.1.mapError .session, ⟨result.2, p.ops + 1⟩)

/-- `Resolve`. An empty token does not reach the store. -/
def resolve (env : Environment) (hashToken : Bytes → Bytes) (token : Bytes) :
    StoreCall SessionRecord := fun p =>
  if token = [] then (.error (.session .sessionUnknown), p)
  else perform env (fun now t => (t.lookupSession (hashToken token) now, t)) p

/-- `End`: the session row, and then the grants issued under it. -/
def endSession (env : Environment) (sessionID actorID reason : Bytes) :
    StoreCall (List GrantRecord) := do
  let owner ← perform env fun _ t => (t.lookupSessionByID sessionID, t)
  let role := actorRole actorID owner.userID
  let row ← perform env fun now t =>
    t.revokeSession sessionID reason (actorEvent (eventForReason reason) role actorID now) now
  perform env fun now t =>
    let result := t.revokeGrantsWhere .session row.sessionID reason
      (actorEvent .grantRevoked role actorID now) now
    (.ok result.1, result.2)

def reasonLogout : Bytes := ascii "logout"

/-- The answers of `handleLogout`. -/
inductive LogoutResponse where
  | ok (sessionID : Bytes) (grantsRevoked : Nat)
  | forbidden
  | internalError
  deriving DecidableEq, Repr

/-- `handleLogout`, once the certificate has been resolved to an operator. -/
def handleLogout (env : Environment) (hashToken : Bytes → Bytes) (operatorID token : Bytes)
    (p : Progress) : LogoutResponse × Progress :=
  match resolve env hashToken token p with
  | (.error _, p) => (.ok [] 0, p)
  | (.ok row, p) =>
      if row.userID ≠ operatorID then (.forbidden, p)
      else
        match endSession env row.sessionID operatorID reasonLogout p with
        | (.error _, p) => (.internalError, p)
        | (.ok revoked, p) => (.ok row.sessionID revoked.length, p)

/-- The loop of `EndAllForUser`. -/
def endEach (env : Environment) (actorID reason : Bytes) :
    List SessionRecord → StoreCall (List GrantRecord)
  | [] => pure []
  | row :: rest => do
      let revoked ← endSession env row.sessionID actorID reason
      let all ← endEach env actorID reason rest
      pure (revoked ++ all)

/-- `EndAllForUser`: the sessions of the user, and then the grants issued without a session. -/
def endAllForUser (env : Environment) (userID actorID reason : Bytes) :
    StoreCall (List GrantRecord) := do
  let sessions ← perform env fun now t => (.ok (t.activeSessionsForUser userID now), t)
  let all ← endEach env actorID reason sessions
  let direct ← perform env fun now t =>
    let result := t.revokeGrantsWhere .user userID reason
      (actorEvent .grantRevoked .admin actorID now) now
    (.ok result.1, result.2)
  pure (all ++ direct)

section Requests

variable {env : Environment} {α β : Type} {p p' : Progress}

/-- A sequence of two requests succeeds if both do. -/
theorem bind_eq_ok {x : StoreCall α} {f : α → StoreCall β} {b : β} :
    (x >>= f) p = (.ok b, p') ↔ ∃ a q, x p = (.ok a, q) ∧ f a q = (.ok b, p') := by
  show (match x p with
    | (.error e, q) => (.error e, q)
    | (.ok a, q) => f a q) = (.ok b, p') ↔ _
  rcases hx : x p with ⟨r, q⟩
  cases r with
  | error e => simp
  | ok a => simp

/-- An operation that succeeds. -/
theorem perform_eq_ok {op : Time → Tables → Except StoreError α × Tables} {a : α} :
    perform env op p = (.ok a, p') ↔
      env.fault p.ops = false ∧ ∃ t, op (env.now p.ops) p.tables = (.ok a, t) ∧
        p' = ⟨t, p.ops + 1⟩ := by
  unfold perform
  cases env.fault p.ops with
  | true => simp
  | false =>
      rcases hop : op (env.now p.ops) p.tables with ⟨r, t⟩
      cases r with
      | error e => simp [Except.mapError]
      | ok a' =>
          constructor
          · intro h
            cases h
            exact ⟨rfl, t, rfl, rfl⟩
          · rintro ⟨-, _, ⟨⟩, rfl⟩
            rfl

/-- The clock of a later operation. -/
theorem Environment.le_now (env : Environment) {m n : Nat} (h : m ≤ n) :
    unix (env.now m) ≤ unix (env.now n) := by
  induction n, h using Nat.le_induction with
  | base => exact Int64.le_refl _
  | succ n _ ih => exact Int64.le_trans ih (env.mono n)

end Requests

section EndRow

variable {sessionID : Bytes} {now : Time} {row : SessionRecord}

@[simp] theorem end_row_user_id : (endRow sessionID now row).userID = row.userID := by
  unfold endRow
  split <;> rfl

/-- The row of the session is over. -/
theorem end_row_revoked (h : row.sessionID = sessionID) :
    (endRow sessionID now row).revokedAt.isSome = true := by
  unfold endRow
  split
  · rfl
  next hnot =>
    simpa [h, Option.isSome_iff_ne_none] using hnot

/-- The row of another session, or one that is over, stays as it is. -/
theorem end_row_of_ne (h : row.sessionID ≠ sessionID ∨ row.revokedAt.isSome = true) :
    endRow sessionID now row = row := by
  unfold endRow
  rcases h with hne | hrevoked
  · rw [if_neg fun hand => hne hand.1]
  · rw [if_neg fun hand => by simp [Option.isNone_iff_eq_none.1 hand.2] at hrevoked]

end EndRow

section Tables

variable {t t' : Tables} {now : Time}

/-- A session that a token resolves to is on file under the hash, and not revoked. -/
theorem lookup_session_ok {tokenHash : Bytes} {row : SessionRecord}
    (h : t.lookupSession tokenHash now = .ok row) :
    row ∈ t.sessions ∧ row.tokenHash = tokenHash ∧ row.revokedAt.isSome = false := by
  unfold Tables.lookupSession at h
  split at h
  · cases h
  next found hfound =>
    split_ifs at h with hrevoked hexpired
    cases h
    exact ⟨List.mem_of_find?_eq_some hfound, by simpa using List.find?_some hfound,
      Bool.not_eq_true _ ▸ hrevoked⟩

/-- `RevokeSession` ends the one session with the identifier. -/
theorem revoke_session_rows {sessionID reason : Bytes} {actor : AuditEvent} {row : SessionRecord}
    (h : t.revokeSession sessionID reason actor now = (.ok row, t')) :
    row.sessionID = sessionID ∧ t'.sessions = t.sessions.map (endRow sessionID now) ∧
      t'.grants = t.grants := by
  unfold Tables.revokeSession at h
  cases hlookup : t.lookupSessionByID sessionID with
  | error e => simp [hlookup] at h
  | ok found =>
      have hmem := lookup_session_by_id_mem hlookup
      have hid : found.sessionID = sessionID := by
        unfold Tables.lookupSessionByID at hlookup
        split at hlookup
        · cases hlookup
        next hfound =>
          cases hlookup
          simpa using List.find?_some hfound
      simp only [hlookup] at h
      split_ifs at h with hrevoked
      · cases h
        refine ⟨hid, ?_, rfl⟩
        refine ((List.map_congr_left fun r hr => ?_).trans (List.map_id _)).symm
        refine end_row_of_ne ?_
        by_cases hr' : r.sessionID = sessionID
        · have hsame : r = row :=
            List.inj_on_of_nodup_map t.keys.sessionIDs hr hmem (hr'.trans hid.symm)
          exact .inr (hsame ▸ hrevoked)
        · exact .inl hr'
      · cases h
        exact ⟨hid, rfl, rfl⟩

/-- No grant in scope is live after the sweep. -/
theorem not_live_of_mem_mark_where {scope : GrantScope} {value reason : Bytes} {later : Time}
    {grants : List GrantRecord} {g : GrantRecord}
    (hg : g ∈ markWhere (fun row => scope.covers value row && row.live now) reason now grants)
    (hscope : scope.covers value g = true) (hle : unix now ≤ unix later) :
    g.live later = false := by
  obtain ⟨old, -, rfl⟩ := List.mem_map.1 hg
  split
  · exact live_revoke old reason now later
  next hnot =>
    rw [if_neg hnot] at hscope
    refine live_eq_false_of_le ?_ hle
    simpa [hscope] using hnot

end Tables

section Ending

variable {env : Environment} {p p' : Progress} {sessionID actorID reason : Bytes}
  {revoked : List GrantRecord}

/-- What `End` does when it succeeds. -/
theorem end_session_ok
    (h : endSession env sessionID actorID reason p = (.ok revoked, p')) :
    p'.ops = p.ops + 3 ∧
      p'.tables.sessions = p.tables.sessions.map (endRow sessionID (env.now (p.ops + 1))) ∧
      p'.tables.grants = markWhere
        (fun row => GrantScope.session.covers sessionID row && row.live (env.now (p.ops + 2)))
        reason (env.now (p.ops + 2)) p.tables.grants := by
  obtain ⟨owner, q₁, howner, h⟩ := bind_eq_ok.1 h
  obtain ⟨row, q₂, hrow, h⟩ := bind_eq_ok.1 h
  obtain ⟨-, t₁, hlookup, rfl⟩ := perform_eq_ok.1 howner
  obtain ⟨-, t₂, hrevoke, rfl⟩ := perform_eq_ok.1 hrow
  obtain ⟨-, t₃, hsweep, rfl⟩ := perform_eq_ok.1 h
  obtain ⟨-, rfl⟩ := Prod.mk.inj hlookup
  obtain ⟨hid, hsessions, hgrants⟩ := revoke_session_rows hrevoke
  obtain ⟨-, rfl⟩ := Prod.mk.inj hsweep
  refine ⟨rfl, hsessions, ?_⟩
  show markWhere _ reason _ t₂.grants = _
  rw [hgrants, hid]

end Ending

/-- The session can no longer be used, and no grant issued under it is live. -/
def Over (t : Tables) (session : SessionRecord) (now : Time) : Prop :=
  (∀ g ∈ t.grants, GrantScope.session.covers session.sessionID g = true → g.live now = false) ∧
    ∀ row, t.lookupSession session.tokenHash now ≠ .ok row

section Logout

variable {env : Environment} {hashToken : Bytes → Bytes} {token : Bytes} {p p' : Progress}

/-- Resolving changes no table. -/
theorem resolve_tables (env : Environment) (hashToken : Bytes → Bytes) (token : Bytes)
    (p : Progress) : (resolve env hashToken token p).2.tables = p.tables := by
  unfold resolve
  split
  · rfl
  · unfold perform
    split <;> rfl

theorem resolve_eq_ok {row : SessionRecord} (h : resolve env hashToken token p = (.ok row, p')) :
    p.tables.lookupSession (hashToken token) (env.now p.ops) = .ok row := by
  unfold resolve at h
  split at h
  · cases h
  · obtain ⟨-, t, hlookup, -⟩ := perform_eq_ok.1 h
    exact (Prod.mk.inj hlookup).1

/-- A session that was ended is over. -/
theorem over_end_session {session : SessionRecord} (hsession : session ∈ p.tables.sessions)
    {actorID reason : Bytes} {revoked : List GrantRecord}
    (h : endSession env session.sessionID actorID reason p = (.ok revoked, p')) :
    Over p'.tables session (env.now p'.ops) := by
  obtain ⟨hops, hsessions, hgrants⟩ := end_session_ok h
  constructor
  · intro g hg hscope
    rw [hgrants] at hg
    exact not_live_of_mem_mark_where hg hscope (env.le_now (by omega))
  · intro row hlookup
    obtain ⟨hrow, hhash, hrevoked⟩ := lookup_session_ok hlookup
    rw [hsessions] at hrow
    obtain ⟨old, hold, rfl⟩ := List.mem_map.1 hrow
    rw [end_row_token_hash] at hhash
    have hsame : old = session :=
      List.inj_on_of_nodup_map p.tables.keys.tokenHashes hold hsession hhash
    rw [end_row_revoked (congrArg _ hsame)] at hrevoked
    cases hrevoked

end Logout

/-- When `handleLogout` answers 200 to the token of a session, the session and its grants are over
if and only if the session was resolved, or they were over before. -/
theorem logout_means_it {env : Environment} {hashToken : Bytes → Bytes} {t : Tables} {n : Nat}
    {session : SessionRecord} (hsession : session ∈ t.sessions) {token : Bytes}
    (htoken : session.tokenHash = hashToken token) {operatorID sessionID : Bytes} {count : Nat}
    {p : Progress}
    (hanswer : handleLogout env hashToken operatorID token ⟨t, n⟩ = (.ok sessionID count, p)) :
    Over p.tables session (env.now p.ops) ↔
      (∃ row q, resolve env hashToken token ⟨t, n⟩ = (.ok row, q)) ∨
        Over t session (env.now p.ops) := by
  have hsame := resolve_tables env hashToken token ⟨t, n⟩
  unfold handleLogout at hanswer
  rcases hresolve : resolve env hashToken token ⟨t, n⟩ with ⟨r, q⟩
  rw [hresolve] at hanswer hsame
  cases r with
  | error e =>
      cases hanswer
      rw [hsame]
      constructor
      · exact .inr
      · rintro (⟨row, q, hok⟩ | hover)
        · cases hok
        · exact hover
  | ok row =>
      refine ⟨fun _ => .inl ⟨row, q, rfl⟩, fun _ => ?_⟩
      obtain ⟨hrow, hhash, -⟩ := lookup_session_ok (resolve_eq_ok hresolve)
      have hrow : row = session :=
        List.inj_on_of_nodup_map t.keys.tokenHashes hrow hsession (hhash.trans htoken.symm)
      subst hrow
      simp only at hanswer
      split_ifs at hanswer with howner
      · cases hanswer
      · rcases hend : endSession env row.sessionID operatorID reasonLogout q with ⟨r, q'⟩
        rw [hend] at hanswer
        cases r with
        | error e => cases hanswer
        | ok revoked =>
            cases hanswer
            exact over_end_session (hsame ▸ hsession) hend

/-- A session of a user. -/
def aliceSession : SessionRecord := ⟨ascii "ses_1", ascii "token", ascii "alice", 0, 100, none, []⟩

/-- A grant that was issued under the session and lives longer. -/
def aliceGrant : GrantRecord :=
  ⟨ascii "g_1", [], ascii "alice", ascii "door", ascii "web", [], ascii "ses_1", 50, 300, 0, none,
    []⟩

theorem alice_keys : Keys [aliceSession] [aliceGrant] :=
  ⟨List.nodup_singleton _, List.nodup_singleton _, List.nodup_singleton _⟩

/-- A store with the two. -/
def loggedIn : Tables := ⟨[aliceSession], [aliceGrant], [], alice_keys⟩

/-- A clock that stands still, and the operations that fail. -/
def standing (sec : Int64) (faults : List Nat) : Environment where
  now _ := Time.ofUnix sec
  fault n := n ∈ faults
  mono _ := Int64.le_refl _

/-- A grant under the session is live. -/
def liveUnder (t : Tables) (sessionID : Bytes) (now : Time) : Bool :=
  t.grants.any fun g => GrantScope.session.covers sessionID g && g.live now

theorem not_over_of_live_under {t : Tables} {session : SessionRecord} {now : Time}
    (h : liveUnder t session.sessionID now = true) : ¬ Over t session now := by
  rintro ⟨hgrants, -⟩
  obtain ⟨g, hg, hlive⟩ := List.any_eq_true.1 h
  obtain ⟨hscope, hlive⟩ := Bool.and_eq_true_iff.1 hlive
  rw [hgrants g hg hscope] at hlive
  cases hlive

/-- The logout of its owner. -/
def aliceLogsOut (env : Environment) (p : Progress) : LogoutResponse × Progress :=
  handleLogout env id (ascii "alice") (ascii "token") p

theorem alice_logout_means_it :
    Over (aliceLogsOut (standing 60 []) ⟨loggedIn, 0⟩).2.tables aliceSession (Time.ofUnix 60) := by
  have hsession : aliceSession ∈ loggedIn.sessions := List.mem_cons_self
  have htoken : aliceSession.tokenHash = id (ascii "token") := rfl
  have hresolved : resolve (standing 60 []) id (ascii "token") ⟨loggedIn, 0⟩ =
      (.ok aliceSession, ⟨loggedIn, 1⟩) := by
    refine Prod.ext ?_ rfl
    decide +kernel
  have hanswer : handleLogout (standing 60 []) id (ascii "alice") (ascii "token") ⟨loggedIn, 0⟩ =
      (.ok (ascii "ses_1") 1, (aliceLogsOut (standing 60 []) ⟨loggedIn, 0⟩).2) := by
    refine Prod.ext ?_ rfl
    decide +kernel
  exact (logout_means_it hsession htoken hanswer).2 (.inl ⟨_, _, hresolved⟩)

/-- Three answers of 200 that leave the grant: the store could not be read; a second logout after
one that revoked the session and failed to revoke the grants; a session that has expired before its
grant. -/
theorem logout_leaves_grant :
    ((aliceLogsOut (standing 60 [0]) ⟨loggedIn, 0⟩).1 = .ok [] 0 ∧
      ¬ Over (aliceLogsOut (standing 60 [0]) ⟨loggedIn, 0⟩).2.tables aliceSession
        (Time.ofUnix 60)) ∧
    ((aliceLogsOut (standing 60 [3]) ⟨loggedIn, 0⟩).1 = .internalError ∧
      (aliceLogsOut (standing 60 []) (aliceLogsOut (standing 60 [3]) ⟨loggedIn, 0⟩).2).1 =
        .ok [] 0 ∧
      ¬ Over (aliceLogsOut (standing 60 [])
        (aliceLogsOut (standing 60 [3]) ⟨loggedIn, 0⟩).2).2.tables aliceSession
        (Time.ofUnix 60)) ∧
    ((aliceLogsOut (standing 200 []) ⟨loggedIn, 0⟩).1 = .ok [] 0 ∧
      ¬ Over (aliceLogsOut (standing 200 []) ⟨loggedIn, 0⟩).2.tables aliceSession
        (Time.ofUnix 200)) := by
  refine ⟨⟨?_, not_over_of_live_under ?_⟩, ⟨?_, ?_, not_over_of_live_under ?_⟩, ?_,
    not_over_of_live_under ?_⟩ <;> decide +kernel

/-- What ending some sessions one after another does to the tables: these sessions are over, and a
grant is touched exactly if it was issued under one of them and is live when that one is ended. -/
structure Trimmed (env : Environment) (ops : Nat) (ids : List Bytes) (t t' : Tables) : Prop where
  sessions : ∃ f : SessionRecord → SessionRecord, t'.sessions = t.sessions.map f ∧
    (∀ r, (f r).userID = r.userID) ∧
    (∀ r, r.sessionID ∈ ids → (f r).revokedAt.isSome = true) ∧
    ∀ r, r.sessionID ∉ ids ∨ r.revokedAt.isSome = true → f r = r
  grants : ∃ f : GrantRecord → GrantRecord, t'.grants = t.grants.map f ∧
    (∀ g, (f g).userID = g.userID) ∧
    ∀ g, f g = g ↔ ∀ i id, ids[i]? = some id → GrantScope.session.covers id g = true →
      g.live (env.now (ops + 3 * i + 2)) = false

section Trimmed

variable {env : Environment} {ops : Nat} {t t' t'' : Tables} {ids : List Bytes}
  {sessionID reason : Bytes}

theorem trimmed_nil (t : Tables) : Trimmed env ops [] t t where
  sessions := ⟨id, (List.map_id _).symm, fun _ => rfl, nofun, fun _ _ => rfl⟩
  grants := ⟨id, (List.map_id _).symm, fun _ => rfl, fun _ => by simp⟩

/-- One session is ended, and then others. -/
theorem Trimmed.cons (h : Trimmed env (ops + 3) ids t' t'')
    (hsessions : t'.sessions = t.sessions.map (endRow sessionID (env.now (ops + 1))))
    (hgrants : t'.grants = markWhere
      (fun row => GrantScope.session.covers sessionID row && row.live (env.now (ops + 2))) reason
      (env.now (ops + 2)) t.grants) : Trimmed env ops (sessionID :: ids) t t'' := by
  constructor
  · obtain ⟨f, hmap, huser, hended, hkept⟩ := h.sessions
    refine ⟨fun r => f (endRow sessionID (env.now (ops + 1)) r), ?_, ?_, ?_, ?_⟩
    · rw [hmap, hsessions, List.map_map]
      rfl
    · intro r
      rw [huser, end_row_user_id]
    · intro r hr
      beta_reduce
      rcases List.mem_cons.1 hr with hr | hr
      · have hover : (endRow sessionID (env.now (ops + 1)) r).revokedAt.isSome = true :=
          end_row_revoked hr
        rw [hkept _ (.inr hover)]
        exact hover
      · exact hended _ (by rwa [end_row_session_id])
    · intro r hr
      beta_reduce
      have hfirst : endRow sessionID (env.now (ops + 1)) r = r :=
        end_row_of_ne (hr.imp_left fun hnot heq => hnot (heq ▸ List.mem_cons_self))
      rw [hfirst]
      exact hkept r (hr.imp_left fun hnot hmem => hnot (List.mem_cons_of_mem _ hmem))
  · obtain ⟨f, hmap, huser, hkept⟩ := h.grants
    refine ⟨fun g => f (if GrantScope.session.covers sessionID g && g.live (env.now (ops + 2))
      then g.revoke reason (env.now (ops + 2)) else g), ?_, ?_, ?_⟩
    · rw [hmap, hgrants, markWhere, List.map_map]
      rfl
    · intro g
      rw [huser]
      split <;> rfl
    · intro g
      beta_reduce
      by_cases hselected :
          (GrantScope.session.covers sessionID g && g.live (env.now (ops + 2))) = true
      · obtain ⟨hscope, hlive⟩ := Bool.and_eq_true_iff.1 hselected
        -- A revoked row is not touched again, so it stays different.
        have hfixed : f (g.revoke reason (env.now (ops + 2))) =
            g.revoke reason (env.now (ops + 2)) := (hkept _).2 fun _ _ _ _ => live_revoke ..
        rw [if_pos hselected, hfixed]
        refine iff_of_false (fun heq => ?_) fun hall => ?_
        · rw [← heq, live_revoke] at hlive
          cases hlive
        · rw [hall 0 sessionID rfl hscope] at hlive
          cases hlive
      · have hops : ∀ i, ops + 3 * (i + 1) + 2 = ops + 3 + 3 * i + 2 := fun i => by omega
        rw [if_neg hselected, hkept]
        constructor
        · intro hall i id hid hscope
          cases i with
          | zero =>
              cases hid
              simpa [hscope] using hselected
          | succ i =>
              rw [hops]
              exact hall i id hid hscope
        · intro hall i id hid hscope
          rw [← hops]
          exact hall (i + 1) id hid hscope

end Trimmed

section EndAll

variable {env : Environment} {p p' : Progress} {userID actorID reason : Bytes}
  {revoked : List GrantRecord} {t : Tables}

/-- The loop ends the sessions it is given. -/
theorem end_each_ok {rows : List SessionRecord}
    (h : endEach env actorID reason rows p = (.ok revoked, p')) :
    Trimmed env p.ops (rows.map (·.sessionID)) p.tables p'.tables := by
  induction rows generalizing p revoked with
  | nil =>
      cases h
      exact trimmed_nil _
  | cons row rest ih =>
      obtain ⟨first, q, hfirst, h⟩ := bind_eq_ok.1 h
      obtain ⟨all, q', hrest, h⟩ := bind_eq_ok.1 h
      cases h
      obtain ⟨hops, hsessions, hgrants⟩ := end_session_ok hfirst
      exact (hops ▸ ih hrest).cons hsessions hgrants

/-- What `EndAllForUser` does when it succeeds. -/
theorem end_all_ok {n : Nat}
    (h : endAllForUser env userID actorID reason ⟨t, n⟩ = (.ok revoked, p')) :
    ∃ q : Progress,
      Trimmed env (n + 1) ((t.activeSessionsForUser userID (env.now n)).map (·.sessionID)) t
        q.tables ∧
      p'.ops = q.ops + 1 ∧ p'.tables.sessions = q.tables.sessions ∧
      p'.tables.grants = markWhere
        (fun row => GrantScope.user.covers userID row && row.live (env.now q.ops)) reason
        (env.now q.ops) q.tables.grants := by
  obtain ⟨rows, q₁, hrows, h⟩ := bind_eq_ok.1 h
  obtain ⟨all, q, hall, h⟩ := bind_eq_ok.1 h
  obtain ⟨direct, q₂, hdirect, h⟩ := bind_eq_ok.1 h
  cases h
  obtain ⟨-, t₁, hlisted, rfl⟩ := perform_eq_ok.1 hrows
  obtain ⟨-, t₂, hsweep, rfl⟩ := perform_eq_ok.1 hdirect
  obtain ⟨hsame, rfl⟩ := Prod.mk.inj hlisted
  obtain rfl := Except.ok.inj hsame
  cases hsweep
  exact ⟨q, end_each_ok hall, rfl, rfl, rfl⟩

/-- A listing of active sessions has only sessions of the user, if there is one. -/
theorem mem_active_sessions {now : Time} {row : SessionRecord}
    (h : row ∈ t.activeSessionsForUser userID now) :
    row ∈ t.sessions ∧ row.active now = true ∧ (userID ≠ [] → row.userID = userID) := by
  have hrow := List.mem_mergeSort.1 (List.mem_of_mem_take h)
  obtain ⟨hmem, hadmits⟩ := List.mem_filter.1 hrow
  obtain ⟨huserID, hactive⟩ := Bool.and_eq_true_iff.1 hadmits
  exact ⟨hmem, by simpa using hactive, fun huser => by simpa [huser] using huserID⟩

/-- A session has been listed if its identifier has. -/
theorem listed_iff {now : Time} {row : SessionRecord} (hrow : row ∈ t.sessions) :
    row.sessionID ∈ (t.activeSessionsForUser userID now).map (·.sessionID) ↔
      row ∈ t.activeSessionsForUser userID now := by
  constructor
  · intro hmem
    obtain ⟨listed, hlisted, hid⟩ := List.mem_map.1 hmem
    exact List.inj_on_of_nodup_map t.keys.sessionIDs (mem_active_sessions hlisted).1 hrow hid ▸
      hlisted
  · exact List.mem_map_of_mem

/-- A listing that is not cut has every active session of the user. -/
theorem active_sessions_complete {now : Time} {row : SessionRecord} (huser : userID ≠ [])
    (hfew : (t.sessions.countP fun r => r.userID = userID ∧ r.active now) ≤ maxAuditLimit.toNat)
    (hrow : row ∈ t.sessions) (hid : row.userID = userID) (hactive : row.active now = true) :
    row ∈ t.activeSessionsForUser userID now := by
  have hcount : (t.sessions.filter
      (SessionFilter.admits ⟨userID, true, maxAuditLimit⟩ now)).length =
      t.sessions.countP fun r => r.userID = userID ∧ r.active now := by
    rw [← List.countP_eq_length_filter]
    refine List.countP_congr fun r _ => ?_
    simp [SessionFilter.admits, huser]
  show row ∈ List.take maxAuditLimit.toNat _
  rw [List.take_of_length_le (by rw [List.length_mergeSort, hcount]; exact hfew),
    List.mem_mergeSort, List.mem_filter]
  exact ⟨hrow, by simp [SessionFilter.admits, hid, hactive]⟩

/-- A map that makes no row one of a kind keeps the rows of that kind exactly if it leaves each of
them alone. -/
theorem filter_map_eq_iff {α : Type} {f : α → α} {kind : α → Bool} {rows : List α}
    (hkind : ∀ r ∈ rows, kind (f r) = kind r) :
    (rows.map f).filter kind = rows.filter kind ↔ ∀ r ∈ rows, kind r = true → f r = r := by
  have hsame : rows.filter (kind ∘ f) = rows.filter kind :=
    List.filter_congr fun r hr => hkind r hr
  rw [List.filter_map, hsame]
  nth_rewrite 2 [← List.map_id (rows.filter kind)]
  rw [List.map_inj_left]
  simp only [List.mem_filter, and_imp, id]

/-- The sweep over a user's grants leaves those of the others. -/
theorem mark_user_grants_others (userID reason : Bytes) (now : Time) (grants : List GrantRecord) :
    ((markWhere (fun row => GrantScope.user.covers userID row && row.live now) reason now
      grants).filter fun g => g.userID ≠ userID) = grants.filter fun g => g.userID ≠ userID := by
  refine (filter_map_eq_iff fun g _ => ?_).2 fun g _ hother => ?_
  · split <;> rfl
  · rw [if_neg]
    intro hselected
    have hscope := (Bool.and_eq_true_iff.1 hselected).1
    exact (of_decide_eq_true hother) (of_decide_eq_true hscope)

end EndAll

/-- When `EndAllForUser` returns without an error, the user has no active session and no live grant,
and the sessions and grants of all other users are as they were, if and only if every session of the
user that is still active was listed, only sessions of the user were, and no grant of another user
was live when the listed session that it was issued under was ended. -/
theorem user_has_nothing_left {env : Environment} {t : Tables} {n : Nat}
    {userID actorID reason : Bytes} {revoked : List GrantRecord} {p : Progress}
    (h : endAllForUser env userID actorID reason ⟨t, n⟩ = (.ok revoked, p)) :
    ((∀ r ∈ p.tables.sessions, r.userID = userID → r.active (env.now p.ops) = false) ∧
      (∀ g ∈ p.tables.grants, g.userID = userID → g.live (env.now p.ops) = false) ∧
      (p.tables.sessions.filter fun r => r.userID ≠ userID) =
        (t.sessions.filter fun r => r.userID ≠ userID) ∧
      (p.tables.grants.filter fun g => g.userID ≠ userID) =
        t.grants.filter fun g => g.userID ≠ userID) ↔
    ((∀ r ∈ t.sessions, r.userID = userID → r.active (env.now p.ops) = true →
        r ∈ t.activeSessionsForUser userID (env.now n)) ∧
      (∀ r ∈ t.activeSessionsForUser userID (env.now n), r.userID = userID) ∧
      ∀ i r, (t.activeSessionsForUser userID (env.now n))[i]? = some r → ∀ g ∈ t.grants,
        GrantScope.session.covers r.sessionID g = true → g.userID ≠ userID →
        g.live (env.now (n + 1 + 3 * i + 2)) = false) := by
  obtain ⟨q, htrimmed, hops, hsessions, hgrants⟩ := end_all_ok h
  obtain ⟨f, hmap, huser, hended, hkept⟩ := htrimmed.sessions
  obtain ⟨f', hmap', huser', hkept'⟩ := htrimmed.grants
  rw [hgrants, mark_user_grants_others, hmap', filter_map_eq_iff fun g _ => by rw [huser'],
    hsessions, hmap, filter_map_eq_iff fun r _ => by rw [huser]]
  simp only [List.getElem?_map, Option.map_eq_some_iff] at hkept'
  constructor
  · rintro ⟨hinactive, -, hothers, hothers'⟩
    refine ⟨?_, ?_, ?_⟩
    · -- A session that was not listed is as it was.
      intro r hr hid hactive
      by_contra hnot
      have hsame : f r = r := hkept r (.inl fun hmem => hnot ((listed_iff hr).1 hmem))
      have hover := hinactive (f r) (List.mem_map_of_mem hr) ((huser r).trans hid)
      rw [hsame, hactive] at hover
      cases hover
    · intro r hr
      obtain ⟨hmem, hactive, -⟩ := mem_active_sessions hr
      by_contra hother
      have hover := hended r ((listed_iff hmem).2 hr)
      rw [hothers r hmem (decide_eq_true hother)] at hover
      simp [SessionRecord.active, Option.isSome_iff_ne_none.1 hover] at hactive
    · intro i r hr g hg hscope hother
      exact (hkept' g).1 (hothers' g hg (decide_eq_true hother)) i _ ⟨r, hr, rfl⟩ hscope
  · rintro ⟨hlisted, hown, hexpired⟩
    refine ⟨?_, ?_, ?_, ?_⟩
    · intro r hr hid
      obtain ⟨old, hold, rfl⟩ := List.mem_map.1 hr
      by_cases hmem : old.sessionID ∈
          (t.activeSessionsForUser userID (env.now n)).map (·.sessionID)
      · obtain ⟨at', hat⟩ := Option.isSome_iff_exists.1 (hended old hmem)
        simp [SessionRecord.active, hat]
      · rw [hkept old (.inl hmem)] at hid ⊢
        exact Bool.eq_false_of_not_eq_true fun hactive =>
          hmem ((listed_iff hold).2 (hlisted old hold hid hactive))
    · intro g hg hid
      rw [← hmap'] at hg
      exact not_live_of_mem_mark_where hg (decide_eq_true hid) (env.le_now (by omega))
    · intro r hr hother
      refine hkept r (.inl fun hmem => ?_)
      exact (of_decide_eq_true hother) (hown r ((listed_iff hr).1 hmem))
    · intro g hg hother
      refine (hkept' g).2 ?_
      rintro i _ ⟨r, hr, rfl⟩ hscope
      exact hexpired i r hr g hg hscope (of_decide_eq_true hother)

section Succeeds

variable {env : Environment} {p : Progress} {t : Tables} {sessionID userID : Bytes}

/-- A session that is on file can be read and revoked. -/
theorem revoke_session_succeeds (h : ∃ s ∈ t.sessions, s.sessionID = sessionID) :
    (∃ owner, t.lookupSessionByID sessionID = .ok owner) ∧
      ∀ reason actor now, ∃ row t', t.revokeSession sessionID reason actor now = (.ok row, t') := by
  obtain ⟨owner, howner⟩ : ∃ owner, t.lookupSessionByID sessionID = .ok owner := by
    obtain ⟨s, hs, hid⟩ := h
    unfold Tables.lookupSessionByID
    cases hfind : t.sessions.find? fun row => row.sessionID = sessionID with
    | none => simpa [hid] using List.find?_eq_none.1 hfind s hs
    | some owner => exact ⟨owner, rfl⟩
  refine ⟨⟨owner, howner⟩, fun reason actor now => ?_⟩
  unfold Tables.revokeSession
  rw [howner]
  by_cases hrevoked : owner.revokedAt.isSome = true
  · exact ⟨owner, t, by simp only [if_pos hrevoked]⟩
  · simp only [if_neg hrevoked]
    exact ⟨_, _, rfl⟩

theorem end_session_succeeds (hfault : ∀ n, env.fault n = false) (actorID reason : Bytes)
    (h : ∃ s ∈ p.tables.sessions, s.sessionID = sessionID) :
    ∃ revoked p', endSession env sessionID actorID reason p = (.ok revoked, p') := by
  obtain ⟨⟨owner, howner⟩, hrevoke⟩ := revoke_session_succeeds h
  obtain ⟨row, t', hrow⟩ := hrevoke reason
    (actorEvent (eventForReason reason) (actorRole actorID owner.userID) actorID
      (env.now (p.ops + 1))) (env.now (p.ops + 1))
  refine ⟨_, _, bind_eq_ok.2 ⟨owner, ⟨p.tables, p.ops + 1⟩, ?_, bind_eq_ok.2 ⟨row, ⟨t', p.ops + 2⟩,
    ?_, perform_eq_ok.2 ⟨hfault _, _, rfl, rfl⟩⟩⟩⟩
  · exact perform_eq_ok.2 ⟨hfault _, _, Prod.ext howner rfl, rfl⟩
  · exact perform_eq_ok.2 ⟨hfault _, _, hrow, rfl⟩

theorem end_each_succeeds (hfault : ∀ n, env.fault n = false) (actorID reason : Bytes)
    {rows : List SessionRecord}
    (h : ∀ r ∈ rows, ∃ s ∈ p.tables.sessions, s.sessionID = r.sessionID) :
    ∃ revoked p', endEach env actorID reason rows p = (.ok revoked, p') := by
  induction rows generalizing p with
  | nil => exact ⟨_, _, rfl⟩
  | cons row rest ih =>
      obtain ⟨first, q, hfirst⟩ :=
        end_session_succeeds hfault actorID reason (h row List.mem_cons_self)
      have hstill : ∀ r ∈ rest, ∃ s ∈ q.tables.sessions, s.sessionID = r.sessionID := by
        intro r hr
        obtain ⟨s, hs, hid⟩ := h r (List.mem_cons_of_mem _ hr)
        rw [(end_session_ok hfirst).2.1]
        exact ⟨_, List.mem_map_of_mem hs, end_row_session_id.trans hid⟩
      obtain ⟨all, q', hall⟩ := ih hstill
      exact ⟨_, _, bind_eq_ok.2 ⟨first, q, hfirst, bind_eq_ok.2 ⟨all, q', hall, rfl⟩⟩⟩

/-- If no operation fails, `EndAllForUser` returns without an error. -/
theorem end_all_succeeds (env : Environment) (hfault : ∀ n, env.fault n = false) (t : Tables)
    (n : Nat) (userID actorID reason : Bytes) :
    ∃ revoked p, endAllForUser env userID actorID reason ⟨t, n⟩ = (.ok revoked, p) := by
  have hlisted : ∀ r ∈ t.activeSessionsForUser userID (env.now n),
      ∃ s ∈ t.sessions, s.sessionID = r.sessionID := by
    intro r hr
    have hrow := List.mem_mergeSort.1 (List.mem_of_mem_take hr)
    exact ⟨r, List.mem_of_mem_filter hrow, rfl⟩
  obtain ⟨all, q, hall⟩ : ∃ all q, endEach env actorID reason
      (t.activeSessionsForUser userID (env.now n)) ⟨t, n + 1⟩ = (.ok all, q) :=
    end_each_succeeds hfault actorID reason hlisted
  refine ⟨_, _, bind_eq_ok.2 ⟨_, ⟨t, n + 1⟩, perform_eq_ok.2 ⟨hfault _, _, rfl, rfl⟩,
    bind_eq_ok.2 ⟨all, q, hall, bind_eq_ok.2 ⟨_, _, perform_eq_ok.2 ⟨hfault _, _, rfl, rfl⟩,
      rfl⟩⟩⟩⟩

/-- A listing names at most `maxAuditLimit` sessions, so one of more sessions is left as it is. -/
theorem session_left_out (hmany : maxAuditLimit.toNat < t.sessions.length)
    {n : Nat} {actorID reason : Bytes} {revoked : List GrantRecord}
    (h : endAllForUser env userID actorID reason ⟨t, n⟩ = (.ok revoked, p)) :
    ∃ r ∈ t.sessions, r ∈ p.tables.sessions := by
  obtain ⟨q, htrimmed, -, hsessions, -⟩ := end_all_ok h
  obtain ⟨f, hmap, -, -, hkept⟩ := htrimmed.sessions
  obtain ⟨r, hr, hnot⟩ : ∃ r ∈ t.sessions,
      r.sessionID ∉ (t.activeSessionsForUser userID (env.now n)).map (·.sessionID) := by
    by_contra hall
    push Not at hall
    have hsubset : t.sessions.map (·.sessionID) ⊆
        (t.activeSessionsForUser userID (env.now n)).map (·.sessionID) := by
      intro id hid
      obtain ⟨r, hr, rfl⟩ := List.mem_map.1 hid
      exact hall r hr
    have hle := (t.keys.sessionIDs.subperm hsubset).length_le
    have hlisted : (t.activeSessionsForUser userID (env.now n)).length ≤ maxAuditLimit.toNat :=
      (List.length_take_le _ _)
    rw [List.length_map, List.length_map] at hle
    omega
  refine ⟨r, hr, ?_⟩
  rw [hsessions, hmap]
  exact List.mem_map.2 ⟨r, hr, hkept r (.inl hnot)⟩

end Succeeds

theorem alice_has_nothing_left :
    ∃ revoked p, endAllForUser (standing 60 []) (ascii "alice") (ascii "root") (ascii "revoked")
        ⟨loggedIn, 0⟩ = (.ok revoked, p) ∧
      (∀ r ∈ p.tables.sessions, r.userID = ascii "alice" → r.active (Time.ofUnix 60) = false) ∧
      ∀ g ∈ p.tables.grants, g.userID = ascii "alice" → g.live (Time.ofUnix 60) = false := by
  obtain ⟨revoked, p, h⟩ := end_all_succeeds (standing 60 []) (fun _ => rfl) loggedIn 0
    (ascii "alice") (ascii "root") (ascii "revoked")
  have hname : ascii "alice" ≠ [] := by decide
  have hfew : (loggedIn.sessions.countP fun r => r.userID = ascii "alice" ∧
      r.active (Time.ofUnix 60)) ≤ maxAuditLimit.toNat := by decide
  have howned : ∀ g ∈ loggedIn.grants, g.userID = ascii "alice" := by decide
  have hnothing := (user_has_nothing_left h).2
    ⟨fun r hr hid hactive => active_sessions_complete hname hfew hr hid hactive,
      fun r hr => (mem_active_sessions hr).2.2 hname,
      fun i r hr g hg hscope hother => absurd (howned g hg) hother⟩
  exact ⟨revoked, p, h, hnothing.1, hnothing.2.1⟩

/-- One session more than a listing returns, all active and of one user. -/
def crowdSessions : List SessionRecord :=
  (List.range 10001).map fun i =>
    ⟨List.replicate i 0, List.replicate i 0, ascii "alice", 0, 100, none, []⟩

theorem crowd_keys : Keys crowdSessions [] := by
  have hnodup : ((List.range 10001).map fun i => List.replicate i (0 : UInt8)).Nodup :=
    List.nodup_range.map fun i j hij => by simpa using congrArg List.length hij
  refine ⟨?_, ?_, List.nodup_nil⟩ <;> simpa [crowdSessions, Function.comp_def] using hnodup

/-- A store with all of them. -/
def crowd : Tables := ⟨crowdSessions, [], [], crowd_keys⟩

/-- `EndAllForUser` returns without an error, and the user has an active session. -/
theorem crowd_keeps_session :
    ∃ revoked p, endAllForUser (standing 60 []) (ascii "alice") (ascii "root") (ascii "revoked")
        ⟨crowd, 0⟩ = (.ok revoked, p) ∧
      ∃ r ∈ p.tables.sessions, r.userID = ascii "alice" ∧ r.active (Time.ofUnix 60) = true := by
  obtain ⟨revoked, p, h⟩ := end_all_succeeds (standing 60 []) (fun _ => rfl) crowd 0
    (ascii "alice") (ascii "root") (ascii "revoked")
  obtain ⟨r, hr, hleft⟩ := session_left_out (by simp [crowd, crowdSessions, maxAuditLimit]) h
  simp only [crowd, crowdSessions, List.mem_map] at hr
  obtain ⟨i, -, rfl⟩ := hr
  refine ⟨revoked, p, h, _, hleft, rfl, ?_⟩
  show (true && decide (unix (Time.ofUnix 60) < 100)) = true
  decide +kernel

end AccessRelay.Control
