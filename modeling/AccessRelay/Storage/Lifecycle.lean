import AccessRelay.Machine.Run
import AccessRelay.Storage.Grants
import Mathlib.Data.List.Nodup

/-!
# The life of a grant and its evidence

The five transactions that write the session and grant tables, statement by statement. What a
transaction commits is what the operations of `Storage.Grants` compute (`run_statements`); one that
fails at any of its statements, or at the commit, leaves the tables as they were.

A `History` is the tables after a sequence of transactions, with what is not in the tables: which
kind of transaction appended each event of the trail, and which grants the cascading revocations
have returned. `grant_lifecycle` says that the trail has one creation for each grant, and one
revocation for each grant that is revoked.
-/

namespace AccessRelay.Storage

open Encoding Go Machine

/-- The statements that write. -/
inductive Statement where
  | insertSession (row : SessionRecord)
  | endSession (sessionID : Bytes) (now : Time)
  | insertGrant (row : GrantRecord)
  | markGrant (grantID reason : Bytes) (now : Time)
  | markGrants (scope : GrantScope) (value reason : Bytes) (now : Time)
  | insertAudit (event : AuditEvent)

/-- `UPDATE grants SET revoked_at = now, revoke_reason = reason`, where a condition is met. -/
def Tables.mark (t : Tables) (selected : GrantRecord → Bool) (reason : Bytes) (now : Time) :
    Tables :=
  ⟨t.sessions, markWhere selected reason now t.grants, t.audit,
    t.keys.mark_where selected reason now⟩

/-- One statement; a violated constraint fails it. A new row has no time of revocation. -/
def Tables.exec (t : Tables) : Statement → Option Tables
  | .insertSession row =>
      if h : t.sessions.any fun old =>
          old.sessionID = row.sessionID || old.tokenHash = row.tokenHash
      then none
      else some ⟨{ row with revokedAt := none } :: t.sessions, t.grants, t.audit,
        t.keys.insert_session h⟩
  | .endSession sessionID now =>
      some ⟨t.sessions.map (endRow sessionID now), t.grants, t.audit,
        t.end_keys sessionID now⟩
  | .insertGrant row =>
      if h : t.grants.any fun old => old.grantID = row.grantID then none
      else if row.sessionID ≠ [] ∧ ¬ t.sessions.any fun s => s.sessionID = row.sessionID then none
      else some ⟨t.sessions, { row with revokedAt := none, revokeReason := [] } :: t.grants,
        t.audit, t.keys.insert_grant h⟩
  | .markGrant grantID reason now => some <|
      t.mark (fun row => row.grantID = grantID ∧ row.revokedAt.isNone) reason now
  | .markGrants scope value reason now => some <|
      t.mark (fun row => scope.covers value row && row.live now) reason now
  | .insertAudit event => some { t with audit := event :: t.audit }

/-- The event that a statement appends. -/
def Statement.event : Statement → Option AuditEvent
  | .insertAudit event => some event
  | _ => none

/-- The transactions, with their arguments and the clock that they read. -/
inductive Transaction where
  | recordGrant (row : GrantRecord) (event : AuditEvent)
  | revokeGrant (grantID reason : Bytes) (actor : AuditEvent) (now : Time)
  | revokeGrantsWhere (scope : GrantScope) (value reason : Bytes) (actor : AuditEvent)
      (now : Time)
  | createSession (row : SessionRecord) (event : AuditEvent)
  | revokeSession (sessionID reason : Bytes) (actor : AuditEvent) (now : Time)

namespace Transaction

variable (t : Tables)

/-- The grants that `RevokeGrantsWhere` selects. -/
def affected (scope : GrantScope) (value : Bytes) (now : Time) : List GrantRecord :=
  t.grants.filter fun row => scope.covers value row && row.live now

/-- The statements of a transaction, once it has read what it selects. -/
def statements : Transaction → List Statement
  | .recordGrant row event => [.insertGrant row, .insertAudit event]
  | .revokeGrant grantID reason actor now =>
      match t.lookupGrant grantID with
      | .error _ => []
      | .ok row =>
          if row.revokedAt.isSome then []
          else [.markGrant grantID reason now, .insertAudit (row.revocation reason actor)]
  | .revokeGrantsWhere scope value reason actor now =>
      if affected t scope value now = [] then []
      else .markGrants scope value reason now ::
        (affected t scope value now).map fun row =>
          .insertAudit (row.revocation reason { actor with ts := unix now })
  | .createSession row event => [.insertSession row, .insertAudit event]
  | .revokeSession sessionID reason actor now =>
      match t.lookupSessionByID sessionID with
      | .error _ => []
      | .ok row =>
          if row.revokedAt.isSome then []
          else [.endSession sessionID now,
            .insertAudit { actor with sessionID := row.sessionID, reason }]

/-- What `RevokeGrantsWhere` returns; the other transactions report no grant as newly revoked. -/
def returned : Transaction → List GrantRecord
  | .revokeGrantsWhere scope value reason _ now =>
      (affected t scope value now).map (·.scanned reason now)
  | _ => []

/-- The transaction as one operation on the tables. -/
def apply : Transaction → Option Tables
  | .recordGrant row event =>
      t.recordGrant { row with revokedAt := none, revokeReason := [] } event
  | .revokeGrant grantID reason actor now => some (t.revokeGrant grantID reason actor now).2
  | .revokeGrantsWhere scope value reason actor now =>
      some (t.revokeGrantsWhere scope value reason actor now).2
  | .createSession row event => t.createSession { row with revokedAt := none } event
  | .revokeSession sessionID reason actor now =>
      some (t.revokeSession sessionID reason actor now).2

/-- The events that a transaction appends, the last one first. -/
def events (tx : Transaction) : List AuditEvent :=
  ((tx.statements t).filterMap Statement.event).reverse

end Transaction

/-- Appending events one by one. -/
theorem run_insert_audit (t : Tables) (events : List AuditEvent) :
    run Tables.exec t (events.map .insertAudit) =
      some { t with audit := events.reverse ++ t.audit } := by
  induction events generalizing t with
  | nil => rfl
  | cons event rest ih =>
      rw [List.map_cons, run_cons]
      show run Tables.exec { t with audit := event :: t.audit } _ = _
      rw [ih, List.reverse_cons, List.append_assoc]
      rfl

/-- If nothing is selected, nothing is marked. -/
theorem mark_where_eq_self {selected : GrantRecord → Bool} {grants : List GrantRecord}
    (h : grants.filter selected = []) (reason : Bytes) (now : Time) :
    markWhere selected reason now grants = grants := by
  refine (List.map_congr_left fun row hrow => ?_).trans (List.map_id grants)
  rw [if_neg (List.filter_eq_nil_iff.1 h row hrow)]
  rfl

/-- A transaction that commits has done what the operation of the store says. -/
theorem run_statements (t : Tables) (tx : Transaction) :
    run Tables.exec t (tx.statements t) = tx.apply t := by
  cases tx with
  | recordGrant row event =>
      simp only [Transaction.statements, Transaction.apply, run_cons, Tables.exec,
        Tables.recordGrant]
      split
      · rfl
      · split <;> rfl
  | revokeGrant grantID reason actor now =>
      simp only [Transaction.statements, Transaction.apply, Tables.revokeGrant]
      cases hlookup : t.lookupGrant grantID with
      | error e => rfl
      | ok row =>
          by_cases hrevoked : row.revokedAt.isSome = true
          · simp only [if_pos hrevoked, run_nil]
          · simp only [if_neg hrevoked]
            rfl
  | revokeGrantsWhere scope value reason actor now =>
      simp only [Transaction.statements, Transaction.apply, Tables.revokeGrantsWhere]
      split
      case isTrue hnone =>
          have hgrants := mark_where_eq_self hnone reason now
          rw [Transaction.affected] at hnone
          simp only [hnone, hgrants]
          rfl
      case isFalse hsome =>
          have h := run_insert_audit
            (t.mark (fun row => scope.covers value row && row.live now) reason now)
            ((Transaction.affected t scope value now).map fun row =>
              row.revocation reason { actor with ts := unix now })
          rw [List.map_map] at h
          exact h
  | createSession row event =>
      simp only [Transaction.statements, Transaction.apply, run_cons, Tables.exec,
        Tables.createSession]
      split <;> rfl
  | revokeSession sessionID reason actor now =>
      simp only [Transaction.statements, Transaction.apply, Tables.revokeSession]
      cases hlookup : t.lookupSessionByID sessionID with
      | error e => rfl
      | ok row =>
          by_cases hrevoked : row.revokedAt.isSome = true
          · simp only [if_pos hrevoked, run_nil]
          · simp only [if_neg hrevoked]
            rfl

/-- The trail after a transaction is the trail before it, with the events of the transaction. -/
theorem audit_run {t t' : Tables} {statements : List Statement}
    (h : run Tables.exec t statements = some t') :
    t'.audit = (statements.filterMap Statement.event).reverse ++ t.audit := by
  induction statements generalizing t with
  | nil =>
      cases h
      rfl
  | cons statement rest ih =>
      obtain ⟨middle, hmiddle, hrest⟩ := Option.bind_eq_some_iff.1 h
      rw [ih hrest]
      cases statement with
      | insertAudit event =>
          cases hmiddle
          simp [Statement.event]
      | insertSession row =>
          obtain ⟨_, hmiddle⟩ := Option.dite_none_left_eq_some.1 hmiddle
          cases hmiddle
          rfl
      | insertGrant row =>
          obtain ⟨_, hmiddle⟩ := Option.dite_none_left_eq_some.1 hmiddle
          obtain ⟨-, hmiddle⟩ := Option.ite_none_left_eq_some.1 hmiddle
          cases hmiddle
          rfl
      | endSession sessionID now =>
          cases hmiddle
          rfl
      | markGrant grantID reason now =>
          cases hmiddle
          rfl
      | markGrants scope value reason now =>
          cases hmiddle
          rfl

/-- What a transaction appends events for: the grant that it inserts, grants that it revokes, or
a session. -/
inductive Origin where
  | creation (grantID : Bytes)
  | revocation
  | session
  deriving DecidableEq, Repr

def Transaction.origin : Transaction → Origin
  | .recordGrant row _ => .creation row.grantID
  | .revokeGrant .. | .revokeGrantsWhere .. => .revocation
  | .createSession .. | .revokeSession .. => .session

/-- The tables after some transactions, each event of the trail with what it was appended for, and
the grants that were returned as newly revoked. -/
structure History where
  tables : Tables
  appended : List (Origin × AuditEvent)
  reported : List Bytes

/-- A new database. -/
def History.new : History := ⟨.empty, [], []⟩

/-- A transaction, and the statement at which it fails if it does. -/
structure Attempt where
  tx : Transaction
  fault : Option Nat

namespace History

/-- What an attempt commits. -/
def commit (h : History) (a : Attempt) : Option Tables :=
  transact Tables.exec h.tables (a.tx.statements h.tables) a.fault

/-- A transaction has left these tables. -/
def extend (h : History) (tx : Transaction) (tables : Tables) : History where
  tables := tables
  appended := (tx.events h.tables).map (tx.origin, ·) ++ h.appended
  reported := (tx.returned h.tables).map (·.grantID) ++ h.reported

/-- The next transaction commits, or is rolled back. -/
def next (h : History) (a : Attempt) : History :=
  match h.commit a with
  | none => h
  | some tables => h.extend a.tx tables

/-- The history after a sequence of transactions. -/
def after (h : History) (attempts : List Attempt) : History := attempts.foldl next h

/-- The events that were appended with a grant. -/
def creations (h : History) (grantID : Bytes) : Nat :=
  h.appended.countP fun entry => entry.1 = .creation grantID

/-- The events that a revocation appended and that name a grant. -/
def revocations (h : History) (grantID : Bytes) : Nat :=
  h.appended.countP fun entry => entry.1 = .revocation ∧ entry.2.grantID = grantID

end History

/-- The grants that are revoked in the second tables and were not in the first. -/
def newlyRevoked (t t' : Tables) : List Bytes :=
  (t.grants.filter fun row => row.revokedAt.isNone ∧
    t'.grants.any fun row' => row'.grantID = row.grantID ∧ row'.revokedAt.isSome).map (·.grantID)

/-- What a committed transaction does to the grants, with the events it appends: it inserts one,
marks some that were not revoked, or leaves them alone. -/
inductive Effect (t : Tables) (tx : Transaction) (t' : Tables) : Prop where
  | inserts (row : GrantRecord) (event : AuditEvent)
      (hfresh : row.revokedAt = none) (hgrants : t'.grants = row :: t.grants)
      (hevents : tx.events t = [event]) (horigin : tx.origin = .creation row.grantID)
      (hreturned : tx.returned t = [])
  | marks (selected : GrantRecord → Bool) (reason : Bytes) (actor : AuditEvent) (now : Time)
      (hselected : ∀ row, selected row = true → row.revokedAt = none)
      (hgrants : t'.grants = markWhere selected reason now t.grants)
      (hevents : tx.events t =
        ((t.grants.filter selected).map (·.revocation reason actor)).reverse)
      (horigin : tx.origin = .revocation)
      (hreturned : tx.returned t = [] ∨
        (tx.returned t).map (·.grantID) = (t.grants.filter selected).map (·.grantID))
  | leaves (hgrants : t'.grants = t.grants) (hevents : tx.events t = [] ∨ tx.origin = .session)
      (hreturned : tx.returned t = [])

section Effect

variable {t t' : Tables} {tx : Transaction}

/-- A grant that is on file is the only one with its identifier. -/
theorem filter_grant_id {grantID : Bytes} {row : GrantRecord}
    (hlookup : t.lookupGrant grantID = .ok row) :
    t.grants.filter (fun r => decide (r.grantID = grantID)) = [row] := by
  unfold Tables.lookupGrant at hlookup
  split at hlookup
  · cases hlookup
  next row' hfind =>
    cases hlookup
    obtain ⟨hid, front, back, hsplit, hfront⟩ := List.find?_eq_some_iff_append.1 hfind
    have hunique := t.keys.grantIDs
    rw [hsplit, List.map_append, List.map_cons] at hunique
    have hback := (List.nodup_cons.1 (List.nodup_append.1 hunique).2.1).1
    have hid : row.grantID = grantID := of_decide_eq_true hid
    have hnoFront : front.filter (fun r => decide (r.grantID = grantID)) = [] :=
      List.filter_eq_nil_iff.2 fun r hr => by simpa using hfront r hr
    have hnoBack : back.filter (fun r => decide (r.grantID = grantID)) = [] := by
      refine List.filter_eq_nil_iff.2 fun r hr heq => hback ?_
      rw [hid, ← of_decide_eq_true heq]
      exact List.mem_map_of_mem hr
    rw [hsplit, List.filter_append, List.filter_cons, hnoFront, hnoBack,
      if_pos (decide_eq_true hid)]
    rfl

/-- The events of a transaction that appends one for each of a list of grants. -/
theorem events_map (rows : List GrantRecord) (event : GrantRecord → AuditEvent) :
    (rows.map fun row => Statement.insertAudit (event row)).filterMap Statement.event =
      rows.map event := by
  rw [List.filterMap_map]
  exact List.filterMap_eq_map_iff_forall_eq_some.2 fun row _ => rfl

/-- The events of a cascading revocation, one for each grant that was selected. -/
theorem events_revoke_grants_where (t : Tables) (scope : GrantScope) (value reason : Bytes)
    (actor : AuditEvent) (now : Time) :
    (Transaction.revokeGrantsWhere scope value reason actor now).events t =
      ((Transaction.affected t scope value now).map
        (·.revocation reason { actor with ts := unix now })).reverse := by
  simp only [Transaction.events, Transaction.statements]
  split
  case isTrue hnone =>
      rw [hnone]
      rfl
  case isFalse hsome =>
      rw [List.filterMap_cons]
      simp only [Statement.event]
      rw [events_map]

theorem effect_of_apply (h : tx.apply t = some t') : Effect t tx t' := by
  cases tx with
  | recordGrant row event =>
      simp only [Transaction.apply, Tables.recordGrant] at h
      obtain ⟨_, h⟩ := Option.dite_none_left_eq_some.1 h
      obtain ⟨-, h⟩ := Option.ite_none_left_eq_some.1 h
      cases h
      exact .inserts { row with revokedAt := none, revokeReason := [] } event rfl rfl rfl rfl rfl
  | revokeGrant grantID reason actor now =>
      simp only [Transaction.apply, Tables.revokeGrant] at h
      cases hlookup : t.lookupGrant grantID with
      | error e =>
          simp only [hlookup] at h
          cases h
          refine .leaves rfl (.inl ?_) rfl
          simp [Transaction.events, Transaction.statements, hlookup]
      | ok row =>
          simp only [hlookup] at h
          by_cases hrevoked : row.revokedAt.isSome = true
          · simp only [if_pos hrevoked] at h
            cases h
            refine .leaves rfl (.inl ?_) rfl
            simp [Transaction.events, Transaction.statements, hlookup, hrevoked]
          · simp only [if_neg hrevoked] at h
            cases h
            have hnone : row.revokedAt.isNone = true := by simpa using hrevoked
            -- The identifier is a key, so the update marks the row that was looked up.
            have honly : t.grants.filter
                (fun r => decide (r.grantID = grantID ∧ r.revokedAt.isNone)) = [row] := by
              have hfilter := congrArg (List.filter fun r => r.revokedAt.isNone)
                (filter_grant_id hlookup)
              rw [List.filter_filter, List.filter_cons, if_pos hnone] at hfilter
              refine (List.filter_congr fun r _ => ?_).trans hfilter
              rw [Bool.decide_and, Bool.decide_eq_true, Bool.and_comm]
            refine .marks (fun r => decide (r.grantID = grantID ∧ r.revokedAt.isNone)) reason actor
              now ?_ rfl ?_ rfl (.inl rfl)
            · intro r hr
              exact Option.isNone_iff_eq_none.1 (of_decide_eq_true hr).2
            · rw [honly]
              simp only [Transaction.events, Transaction.statements, hlookup, if_neg hrevoked]
              rfl
  | revokeGrantsWhere scope value reason actor now =>
      simp only [Transaction.apply] at h
      cases h
      refine .marks (fun row => scope.covers value row && row.live now) reason
        { actor with ts := unix now } now ?_ rfl
        (events_revoke_grants_where t scope value reason actor now) rfl (.inr ?_)
      · intro row hrow
        have hlive := (Bool.and_eq_true_iff.1 hrow).2
        exact Option.isNone_iff_eq_none.1 (Bool.and_eq_true_iff.1 hlive).1
      · simp only [Transaction.returned, List.map_map, Transaction.affected]
        rfl
  | createSession row event =>
      simp only [Transaction.apply, Tables.createSession] at h
      obtain ⟨_, h⟩ := Option.dite_none_left_eq_some.1 h
      cases h
      exact .leaves rfl (.inr rfl) rfl
  | revokeSession sessionID reason actor now =>
      refine .leaves ?_ (.inr rfl) rfl
      simp only [Transaction.apply, Tables.revokeSession] at h
      split at h
      · cases h
        rfl
      · split at h <;> cases h <;> rfl

end Effect

section Marking

variable (selected : GrantRecord → Bool) (reason : Bytes) (now : Time) (grants : List GrantRecord)

variable {selected} in
/-- The revoked rows after marking are those before and the selected ones. -/
theorem count_mark_where (hselected : ∀ row, selected row = true → row.revokedAt = none)
    (grantID : Bytes) :
    ((markWhere selected reason now grants).countP
        fun row => row.grantID = grantID ∧ row.revokedAt.isSome) =
      (grants.countP fun row => row.grantID = grantID ∧ row.revokedAt.isSome) +
        (grants.filter selected).countP fun row => row.grantID = grantID := by
  induction grants with
  | nil => rfl
  | cons row rest ih =>
      unfold markWhere at ih ⊢
      rw [List.map_cons, List.countP_cons, List.countP_cons, ih]
      cases hrow : selected row with
      | true =>
          have hnone := hselected row hrow
          rw [List.filter_cons_of_pos hrow, List.countP_cons]
          simp only [hnone, GrantRecord.revoke, if_true, Option.isSome_none, Option.isSome_some,
            and_true, Bool.false_eq_true, and_false, decide_false, if_false]
          omega
      | false =>
          rw [List.filter_cons_of_neg (by simp [hrow])]
          simp only [Bool.false_eq_true, if_false]
          omega

end Marking

/-- A key that occurs once in a table counts once. -/
theorem count_grant_id {grants : List GrantRecord} (hunique : (grants.map (·.grantID)).Nodup)
    {row : GrantRecord} (hrow : row ∈ grants) (selected : GrantRecord → Bool) :
    (grants.countP fun r => r.grantID = row.grantID ∧ selected r) =
      if selected row then 1 else 0 := by
  induction grants with
  | nil => cases hrow
  | cons first rest ih =>
      rw [List.map_cons, List.nodup_cons] at hunique
      rw [List.countP_cons]
      rcases List.mem_cons.1 hrow with rfl | hrest
      · have hnone : (rest.countP fun r => r.grantID = row.grantID ∧ selected r) = 0 := by
          refine List.countP_eq_zero.2 fun r hr hcount => hunique.1 ?_
          rw [← (of_decide_eq_true hcount).1]
          exact List.mem_map_of_mem hr
        rw [hnone]
        simp
      · have hne : first.grantID ≠ row.grantID :=
          fun heq => hunique.1 (heq ▸ List.mem_map_of_mem hrest)
        rw [ih hunique.2 hrest]
        simp [hne]

/-- What every history keeps. -/
structure History.Accounted (h : History) : Prop where
  trail : h.appended.map Prod.snd = h.tables.audit
  created : ∀ g, h.creations g = h.tables.grants.countP fun row => row.grantID = g
  revoked : ∀ g, h.revocations g =
    h.tables.grants.countP fun row => row.grantID = g ∧ row.revokedAt.isSome
  reported : h.reported.Nodup
  marked : ∀ g ∈ h.reported, ∃ row ∈ h.tables.grants, row.grantID = g ∧ row.revokedAt.isSome

section Accounted

variable {h : History} {a : Attempt} {tx : Transaction} {tables : Tables}

/-- What the tables become when an attempt commits. -/
theorem commit_effect (hcommit : h.commit a = some tables) : Effect h.tables a.tx tables := by
  have hrun := transact_eq_some hcommit
  rw [run_statements] at hrun
  exact effect_of_apply hrun

theorem next_of_commit (hcommit : h.commit a = some tables) : h.next a = h.extend a.tx tables := by
  unfold History.next
  rw [hcommit]

theorem next_of_rollback (hcommit : h.commit a = none) : h.next a = h := by
  unfold History.next
  rw [hcommit]

/-- The creations that a transaction adds. -/
theorem creations_extend (h : History) (tx : Transaction) (tables : Tables) (g : Bytes) :
    (h.extend tx tables).creations g =
      (if tx.origin = .creation g then (tx.events h.tables).length else 0) + h.creations g := by
  unfold History.creations History.extend
  rw [List.countP_append, List.countP_map]
  congr 1
  split
  case isTrue horigin => simp [Function.comp_def, horigin]
  case isFalse horigin => simp [Function.comp_def, horigin]

/-- The revocations that a transaction adds. -/
theorem revocations_extend (h : History) (tx : Transaction) (tables : Tables) (g : Bytes) :
    (h.extend tx tables).revocations g =
      (if tx.origin = .revocation
        then (tx.events h.tables).countP (fun event => event.grantID = g) else 0) +
        h.revocations g := by
  unfold History.revocations History.extend
  rw [List.countP_append, List.countP_map]
  congr 1
  split
  case isTrue horigin => simp [Function.comp_def, horigin]
  case isFalse horigin => simp [Function.comp_def, horigin]

/-- The entries stay the entries of the trail. -/
theorem trail_extend (hh : h.Accounted)
    (haudit : tables.audit = tx.events h.tables ++ h.tables.audit) :
    (h.extend tx tables).appended.map Prod.snd = tables.audit := by
  show ((tx.events h.tables).map (tx.origin, ·) ++ h.appended).map Prod.snd = tables.audit
  rw [haudit, List.map_append, List.map_map, hh.trail]
  congr 1
  exact List.map_id _

/-- A new grant comes with its one creation and without a revocation. -/
theorem accounted_inserts (hh : h.Accounted)
    (haudit : tables.audit = tx.events h.tables ++ h.tables.audit)
    {row : GrantRecord} {event : AuditEvent}
    (hfresh : row.revokedAt = none) (hgrants : tables.grants = row :: h.tables.grants)
    (hevents : tx.events h.tables = [event])
    (horigin : tx.origin = .creation row.grantID) (hreturned : tx.returned h.tables = []) :
    (h.extend tx tables).Accounted := by
  have hreported : (h.extend tx tables).reported = h.reported := by
    simp only [History.extend, hreturned, List.map_nil, List.nil_append]
  refine ⟨trail_extend hh haudit, ?_, ?_, hreported ▸ hh.reported, ?_⟩
  · intro g
    show _ = tables.grants.countP _
    rw [creations_extend, hh.created, horigin, hevents, hgrants, List.countP_cons]
    simp only [Origin.creation.injEq, List.length_singleton, decide_eq_true_eq]
    omega
  · intro g
    show _ = tables.grants.countP _
    rw [revocations_extend, hh.revoked, horigin, hgrants, List.countP_cons]
    simp [hfresh]
  · rw [hreported]
    intro g hg
    obtain ⟨old, hold, hid⟩ := hh.marked g hg
    exact ⟨old, hgrants ▸ List.mem_cons_of_mem _ hold, hid⟩

/-- Each grant that is marked gets its one revocation. It was not revoked before, so no earlier
call has returned it. -/
theorem accounted_marks (hh : h.Accounted)
    (haudit : tables.audit = tx.events h.tables ++ h.tables.audit)
    {selected : GrantRecord → Bool} {reason : Bytes} {actor : AuditEvent} {now : Time}
    (hselected : ∀ row, selected row = true → row.revokedAt = none)
    (hgrants : tables.grants = markWhere selected reason now h.tables.grants)
    (hevents : tx.events h.tables =
      ((h.tables.grants.filter selected).map (·.revocation reason actor)).reverse)
    (horigin : tx.origin = .revocation)
    (hreturned : tx.returned h.tables = [] ∨
      (tx.returned h.tables).map (·.grantID) =
        (h.tables.grants.filter selected).map (·.grantID)) :
    (h.extend tx tables).Accounted := by
  -- What the call returns it has marked itself.
  have hmine : ∀ g ∈ (tx.returned h.tables).map (·.grantID),
      ∃ row ∈ h.tables.grants, row.grantID = g ∧ selected row = true := by
    intro g hg
    rcases hreturned with hnone | hids
    · rw [hnone] at hg
      cases hg
    · rw [hids] at hg
      obtain ⟨row, hrow, hid⟩ := List.mem_map.1 hg
      obtain ⟨hrow, hrowSelected⟩ := List.mem_filter.1 hrow
      exact ⟨row, hrow, hid, hrowSelected⟩
  have hkept : ∀ row ∈ h.tables.grants, selected row = true ∨ row.revokedAt.isSome →
      ∃ row' ∈ tables.grants, row'.grantID = row.grantID ∧ row'.revokedAt.isSome := by
    intro row hrow hor
    rw [hgrants]
    refine ⟨_, List.mem_map_of_mem hrow, ?_⟩
    split
    · exact ⟨rfl, rfl⟩
    next hnot => exact ⟨rfl, hor.resolve_left hnot⟩
  refine ⟨trail_extend hh haudit, ?_, ?_, ?_, ?_⟩
  · intro g
    have hids := congrArg (List.countP fun id => decide (id = g))
      (mark_where_ids selected reason now h.tables.grants)
    rw [List.countP_map, List.countP_map] at hids
    show _ = tables.grants.countP _
    rw [creations_extend, hh.created, horigin, hgrants]
    simp only [reduceCtorEq, if_false, Nat.zero_add]
    exact hids.symm
  · intro g
    show _ = tables.grants.countP _
    rw [revocations_extend, hh.revoked, horigin, hgrants, count_mark_where reason now _ hselected,
      hevents, List.countP_reverse, List.countP_map, if_pos rfl, Nat.add_comm]
    rfl
  · refine List.nodup_append.2 ⟨?_, hh.reported, ?_⟩
    · rcases hreturned with hnone | hids
      · rw [hnone]
        exact List.nodup_nil
      · rw [hids]
        exact (List.filter_sublist.map _).nodup h.tables.keys.grantIDs
    · -- A grant that an earlier call returned is marked, and a marked row is not selected.
      intro g hg g' hg' heq
      subst heq
      obtain ⟨row, hrow, hid, hrowSelected⟩ := hmine g hg
      obtain ⟨row', hrow', hid', hrevoked⟩ := hh.marked g hg'
      have hsame : row' = row :=
        List.inj_on_of_nodup_map h.tables.keys.grantIDs hrow' hrow (hid'.trans hid.symm)
      rw [hsame, hselected row hrowSelected] at hrevoked
      cases hrevoked
  · intro g hg
    rcases List.mem_append.1 hg with hg | hg
    · obtain ⟨row, hrow, hid, hrowSelected⟩ := hmine g hg
      exact hid ▸ hkept row hrow (.inl hrowSelected)
    · obtain ⟨row, hrow, hid, hrevoked⟩ := hh.marked g hg
      exact hid ▸ hkept row hrow (.inr hrevoked)

/-- The transactions on sessions say nothing about grants. -/
theorem accounted_leaves (hh : h.Accounted)
    (haudit : tables.audit = tx.events h.tables ++ h.tables.audit)
    (hgrants : tables.grants = h.tables.grants)
    (hevents : tx.events h.tables = [] ∨ tx.origin = .session)
    (hreturned : tx.returned h.tables = []) : (h.extend tx tables).Accounted := by
  have hreported : (h.extend tx tables).reported = h.reported := by
    simp only [History.extend, hreturned, List.map_nil, List.nil_append]
  refine ⟨trail_extend hh haudit, ?_, ?_, hreported ▸ hh.reported, ?_⟩
  · intro g
    show _ = tables.grants.countP _
    rw [creations_extend, hh.created, hgrants]
    rcases hevents with hnone | horigin
    · simp [hnone]
    · simp [horigin]
  · intro g
    show _ = tables.grants.countP _
    rw [revocations_extend, hh.revoked, hgrants]
    rcases hevents with hnone | horigin
    · simp [hnone]
    · simp [horigin]
  · rw [hreported]
    exact fun g hg => hgrants ▸ hh.marked g hg

/-- Every transaction keeps the account. -/
theorem accounted_next (hh : h.Accounted) (a : Attempt) : (h.next a).Accounted := by
  cases hcommit : h.commit a with
  | none => exact (next_of_rollback hcommit).symm ▸ hh
  | some tables =>
      have haudit : tables.audit = a.tx.events h.tables ++ h.tables.audit :=
        audit_run (transact_eq_some hcommit)
      rw [next_of_commit hcommit]
      cases commit_effect hcommit with
      | inserts row event hfresh hgrants hevents horigin hreturned =>
          exact accounted_inserts hh haudit hfresh hgrants hevents horigin hreturned
      | marks selected reason actor now hselected hgrants hevents horigin hreturned =>
          exact accounted_marks hh haudit hselected hgrants hevents horigin hreturned
      | leaves hgrants hevents hreturned =>
          exact accounted_leaves hh haudit hgrants hevents hreturned

theorem accounted_after (hh : h.Accounted) (attempts : List Attempt) :
    (h.after attempts).Accounted := by
  induction attempts generalizing h with
  | nil => exact hh
  | cons a rest ih => exact ih (accounted_next hh a)

theorem accounted_new : History.new.Accounted where
  trail := rfl
  created _ := rfl
  revoked _ := rfl
  reported := List.nodup_nil
  marked := nofun

/-- A grant stays on file, and once it is revoked it stays as it is. -/
theorem grant_kept_next (a : Attempt) {row : GrantRecord}
    (hrow : row ∈ h.tables.grants) :
    ∃ row' ∈ (h.next a).tables.grants, row'.grantID = row.grantID ∧
      (row.revokedAt.isSome → row' = row) := by
  cases hcommit : h.commit a with
  | none => exact (next_of_rollback hcommit).symm ▸ ⟨row, hrow, rfl, fun _ => rfl⟩
  | some tables =>
      rw [next_of_commit hcommit]
      show ∃ row' ∈ tables.grants, _
      cases commit_effect hcommit with
      | inserts new event hfresh hgrants hevents horigin hreturned =>
          exact ⟨row, hgrants ▸ List.mem_cons_of_mem _ hrow, rfl, fun _ => rfl⟩
      | marks selected reason actor now hselected hgrants hevents horigin hreturned =>
          rw [hgrants]
          refine ⟨_, List.mem_map_of_mem hrow, ?_⟩
          split
          next hrowSelected =>
            refine ⟨rfl, fun hrevoked => ?_⟩
            rw [hselected row hrowSelected] at hrevoked
            cases hrevoked
          · exact ⟨rfl, fun _ => rfl⟩
      | leaves hgrants hevents hreturned => exact ⟨row, hgrants ▸ hrow, rfl, fun _ => rfl⟩

theorem grant_kept_after (attempts : List Attempt) {row : GrantRecord}
    (hrow : row ∈ h.tables.grants) :
    ∃ row' ∈ (h.after attempts).tables.grants, row'.grantID = row.grantID ∧
      (row.revokedAt.isSome → row' = row) := by
  induction attempts generalizing h row with
  | nil => exact ⟨row, hrow, rfl, fun _ => rfl⟩
  | cons a rest ih =>
      -- A row that is revoked now is the same row in between, so it is still revoked there.
      obtain ⟨middle, hmiddle, hid, hsame⟩ := grant_kept_next a hrow
      obtain ⟨final, hfinal, hid', hsame'⟩ := ih hmiddle
      refine ⟨final, hfinal, hid'.trans hid, fun hrevoked => ?_⟩
      have hmid := hsame hrevoked
      exact (hsame' (hmid ▸ hrevoked)).trans hmid

/-- What is newly revoked after marking is what was selected. -/
theorem newly_revoked_mark_where {t t' : Tables} (selected : GrantRecord → Bool)
    (reason : Bytes) (now : Time)
    (hselected : ∀ row, selected row = true → row.revokedAt = none)
    (hgrants : t'.grants = markWhere selected reason now t.grants) :
    newlyRevoked t t' = (t.grants.filter selected).map (·.grantID) := by
  unfold newlyRevoked
  congr 1
  refine List.filter_congr fun row hrow => ?_
  rw [Bool.eq_iff_iff, decide_eq_true_iff, List.any_eq_true]
  constructor
  · rintro ⟨hnone, row', hrow', hmatch⟩
    obtain ⟨hid, hrevoked⟩ := of_decide_eq_true hmatch
    rw [hgrants] at hrow'
    obtain ⟨old, hold, heq⟩ := List.mem_map.1 hrow'
    have hidOld : old.grantID = row.grantID := by
      rw [← hid, ← heq]
      split <;> rfl
    have hsame : old = row := List.inj_on_of_nodup_map t.keys.grantIDs hold hrow hidOld
    subst hsame
    by_contra hnot
    rw [if_neg hnot] at heq
    subst heq
    rw [Option.isNone_iff_eq_none.1 hnone] at hrevoked
    cases hrevoked
  · intro hrowSelected
    refine ⟨Option.isNone_iff_eq_none.2 (hselected row hrowSelected), row.revoke reason now, ?_,
      decide_eq_true ⟨rfl, rfl⟩⟩
    rw [hgrants]
    exact List.mem_map.2 ⟨row, hrow, if_pos hrowSelected⟩

/-- A cascading revocation returns and records exactly the grants that its update has marked. -/
theorem returned_eq_newly_revoked {scope : GrantScope} {value reason : Bytes}
    {actor : AuditEvent} {now : Time} {fault : Option Nat}
    (hcommit : h.commit ⟨.revokeGrantsWhere scope value reason actor now, fault⟩ = some tables) :
    ((Transaction.revokeGrantsWhere scope value reason actor now).returned h.tables).map
        (·.grantID) = newlyRevoked h.tables tables ∧
      ∃ recorded : List AuditEvent, tables.audit = recorded.reverse ++ h.tables.audit ∧
        recorded.map (·.grantID) = newlyRevoked h.tables tables := by
  have hrun := transact_eq_some hcommit
  have haudit := audit_run hrun
  rw [run_statements] at hrun
  have hmarked : newlyRevoked h.tables tables =
      (Transaction.affected h.tables scope value now).map (·.grantID) := by
    refine newly_revoked_mark_where
      (fun row => scope.covers value row && row.live now) reason now ?_ ?_
    · intro row hrow
      have hlive := (Bool.and_eq_true_iff.1 hrow).2
      exact Option.isNone_iff_eq_none.1 (Bool.and_eq_true_iff.1 hlive).1
    · cases hrun
      rfl
  rw [hmarked]
  refine ⟨?_, (Transaction.affected h.tables scope value now).map
    (·.revocation reason { actor with ts := unix now }), ?_, ?_⟩
  · simp only [Transaction.returned, List.map_map]
    rfl
  · rw [← events_revoke_grants_where]
    exact haudit
  · rw [List.map_map]
    rfl

end Accounted

/-- The events carry the names that the callers of the store give them. -/
def Transaction.Named : Transaction → Prop
  | .recordGrant row event => event.event = .grantCreated ∧ event.grantID = row.grantID
  | .revokeGrant _ _ actor _ | .revokeGrantsWhere _ _ _ actor _ => actor.event = .grantRevoked
  | .createSession _ event => event.event ≠ .grantCreated ∧ event.event ≠ .grantRevoked
  | .revokeSession _ _ actor _ => actor.event ≠ .grantCreated ∧ actor.event ≠ .grantRevoked

/-- An event that shows what it was appended for. -/
def Telling (entry : Origin × AuditEvent) : Prop :=
  (∀ g, entry.1 = .creation g ↔ entry.2.event = .grantCreated ∧ entry.2.grantID = g) ∧
    (entry.1 = .revocation ↔ entry.2.event = .grantRevoked)

section Named

variable {h : History}

theorem telling_revocation {event : AuditEvent} (hname : event.event = .grantRevoked) :
    Telling (.revocation, event) := by
  refine ⟨fun g => ⟨nofun, ?_⟩, fun _ => hname, fun _ => rfl⟩
  rintro ⟨hcreated, -⟩
  rw [hname] at hcreated
  cases hcreated

theorem telling_session {event : AuditEvent} (hcreated : event.event ≠ .grantCreated)
    (hrevoked : event.event ≠ .grantRevoked) : Telling (.session, event) :=
  ⟨fun _ => ⟨nofun, fun hc => absurd hc.1 hcreated⟩, nofun, fun hr => absurd hr hrevoked⟩

theorem telling_events {tx : Transaction} (hnamed : tx.Named) (t : Tables) :
    ∀ event ∈ tx.events t, Telling (tx.origin, event) := by
  intro event hevent
  rw [Transaction.events, List.mem_reverse, List.mem_filterMap] at hevent
  obtain ⟨statement, hmem, hevent⟩ := hevent
  cases tx with
  | recordGrant row created =>
      rcases List.mem_pair.1 hmem with rfl | rfl
      · cases hevent
      · cases hevent
        refine ⟨fun g => ⟨?_, ?_⟩, nofun, ?_⟩
        · intro heq
          cases heq
          exact hnamed
        · rintro ⟨-, hid⟩
          exact congrArg Origin.creation (hnamed.2.symm.trans hid)
        · intro hrevoked
          rw [hnamed.1] at hrevoked
          cases hrevoked
  | revokeGrant grantID reason actor now =>
      simp only [Transaction.statements] at hmem
      split at hmem
      · cases hmem
      · split at hmem
        · cases hmem
        · rcases List.mem_pair.1 hmem with rfl | rfl
          · cases hevent
          · cases hevent
            exact telling_revocation hnamed
  | revokeGrantsWhere scope value reason actor now =>
      simp only [Transaction.statements] at hmem
      split at hmem
      · cases hmem
      · rcases List.mem_cons.1 hmem with rfl | hmem
        · cases hevent
        · obtain ⟨row, -, rfl⟩ := List.mem_map.1 hmem
          cases hevent
          exact telling_revocation hnamed
  | createSession row created =>
      rcases List.mem_pair.1 hmem with rfl | rfl
      · cases hevent
      · cases hevent
        exact telling_session hnamed.1 hnamed.2
  | revokeSession sessionID reason actor now =>
      simp only [Transaction.statements] at hmem
      split at hmem
      · cases hmem
      · split at hmem
        · cases hmem
        · rcases List.mem_pair.1 hmem with rfl | rfl
          · cases hevent
          · cases hevent
            exact telling_session hnamed.1 hnamed.2

theorem telling_after (hh : ∀ entry ∈ h.appended, Telling entry) {attempts : List Attempt}
    (hnamed : ∀ a ∈ attempts, a.tx.Named) :
    ∀ entry ∈ (h.after attempts).appended, Telling entry := by
  induction attempts generalizing h with
  | nil => exact hh
  | cons a rest ih =>
      refine ih ?_ fun b hb => hnamed b (List.mem_cons_of_mem _ hb)
      cases hcommit : h.commit a with
      | none => exact (next_of_rollback hcommit).symm ▸ hh
      | some tables =>
          rw [next_of_commit hcommit]
          intro entry hentry
          rcases List.mem_append.1 hentry with hentry | hentry
          · obtain ⟨event, hevent, rfl⟩ := List.mem_map.1 hentry
            exact telling_events (hnamed a List.mem_cons_self) h.tables event hevent
          · exact hh entry hentry

/-- If the events tell, the trail itself can be counted. -/
theorem count_audit (htrail : h.appended.map Prod.snd = h.tables.audit)
    (htelling : ∀ entry ∈ h.appended, Telling entry) (g : Bytes) :
    (h.tables.audit.countP fun e => e.event = .grantCreated ∧ e.grantID = g) = h.creations g ∧
      (h.tables.audit.countP fun e => e.event = .grantRevoked ∧ e.grantID = g) =
        h.revocations g := by
  rw [← htrail, List.countP_map, List.countP_map]
  constructor
  · refine List.countP_congr fun entry hentry => ?_
    rw [Function.comp_apply, decide_eq_true_iff, decide_eq_true_iff]
    exact ((htelling entry hentry).1 g).symm
  · refine List.countP_congr fun entry hentry => ?_
    rw [Function.comp_apply, decide_eq_true_iff, decide_eq_true_iff, (htelling entry hentry).2]

end Named

/-- After any sequence of transactions, each committed or rolled back whole: a grant stays on file,
and as it is once it is revoked; each grant on file has the one event that was appended with it, and
one event of a revocation if it is revoked and none otherwise; no grant has been returned as newly
revoked twice, and a cascading revocation returns and records exactly the grants that it marks. With
the names that the callers of the store give to events, the trail alone shows it. -/
theorem grant_lifecycle (before later : List Attempt) :
    let h := History.new.after before
    let h' := h.after later
    (h'.tables.grants.map (·.grantID)).Nodup ∧
    (∀ row ∈ h.tables.grants, ∃ row' ∈ h'.tables.grants, row'.grantID = row.grantID ∧
      (row.revokedAt.isSome → row' = row)) ∧
    h'.appended.map Prod.snd = h'.tables.audit ∧
    (∀ row ∈ h'.tables.grants, h'.creations row.grantID = 1 ∧
      h'.revocations row.grantID = if row.revokedAt.isSome then 1 else 0) ∧
    ((∀ a ∈ before ++ later, a.tx.Named) → ∀ row ∈ h'.tables.grants,
      (h'.tables.audit.countP fun e => e.event = .grantCreated ∧ e.grantID = row.grantID) = 1 ∧
      (h'.tables.audit.countP fun e => e.event = .grantRevoked ∧ e.grantID = row.grantID) =
        if row.revokedAt.isSome then 1 else 0) ∧
    h'.reported.Nodup ∧
    ∀ scope value reason actor now fault tables,
      h'.commit ⟨.revokeGrantsWhere scope value reason actor now, fault⟩ = some tables →
      ((Transaction.revokeGrantsWhere scope value reason actor now).returned h'.tables).map
          (·.grantID) = newlyRevoked h'.tables tables ∧
        ∃ recorded : List AuditEvent, tables.audit = recorded.reverse ++ h'.tables.audit ∧
          recorded.map (·.grantID) = newlyRevoked h'.tables tables := by
  intro h h'
  have hh : h.Accounted := accounted_after accounted_new before
  have hh' : h'.Accounted := accounted_after hh later
  have hcounts : ∀ row ∈ h'.tables.grants, h'.creations row.grantID = 1 ∧
      h'.revocations row.grantID = if row.revokedAt.isSome then 1 else 0 := by
    intro row hrow
    have hone := count_grant_id h'.tables.keys.grantIDs hrow fun _ => true
    simp only [and_true, if_true] at hone
    exact ⟨(hh'.created _).trans hone,
      (hh'.revoked _).trans
        (count_grant_id h'.tables.keys.grantIDs hrow fun r => r.revokedAt.isSome)⟩
  refine ⟨h'.tables.keys.grantIDs, fun row hrow => grant_kept_after later hrow, hh'.trail, hcounts,
    ?_, hh'.reported, ?_⟩
  · intro hnamed row hrow
    have htelling : ∀ entry ∈ h'.appended, Telling entry := by
      have hnew : ∀ entry ∈ History.new.appended, Telling entry :=
        fun _ hentry => absurd hentry List.not_mem_nil
      refine telling_after (telling_after hnew fun a ha => ?_) fun a ha => ?_
      · exact hnamed a (List.mem_append_left _ ha)
      · exact hnamed a (List.mem_append_right _ ha)
    obtain ⟨hcreated, hrevoked⟩ := count_audit hh'.trail htelling row.grantID
    rw [hcreated, hrevoked]
    exact hcounts row hrow
  · intro scope value reason actor now fault tables hcommit
    exact returned_eq_newly_revoked hcommit

end AccessRelay.Storage
