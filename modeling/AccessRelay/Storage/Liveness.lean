import AccessRelay.Data.Listing
import AccessRelay.Storage.Grants

/-!
# What is live

Six places of the store decide whether a session or a grant is live. `LookupSession`, `Active` and
`Usable` compare the instant with the expiry; the listings and the cascading revocation compare
whole seconds in the database. `readers_agree_iff` says when they come to the same: not at the very
instant of the expiry, which `LookupSession` and `Usable` still honour and the others do not.

The listings also have a row limit, so a live row may be missing from one; `SessionCut` and
`GrantCut` say when.
-/

namespace AccessRelay.Storage

open Encoding Go Data

/-- The instant and the stored expiry are on the same side of the end of the range of instants, so
that comparing their seconds is comparing instants. -/
def SameEra (now : Time) (expiresAt : Int64) : Prop :=
  Time.PastEnd (unix now) ↔ Time.PastEnd expiresAt

instance (now : Time) (expiresAt : Int64) : Decidable (SameEra now expiresAt) :=
  inferInstanceAs (Decidable (_ ↔ _))

/-- The session is live, and enough sessions that the filter admits are listed before it to fill
the listing. -/
def Tables.SessionCut (t : Tables) (f : SessionFilter) (now : Time) (row : SessionRecord) : Prop :=
  row.active now = true ∧
    rowLimit f.limit ≤ ahead SessionRecord.listedBefore (t.sessions.filter (f.admits now)) row

/-- The grant is live, and enough grants that the filter admits are listed before it to fill the
listing. -/
def Tables.GrantCut (t : Tables) (f : GrantFilter) (now : Time) (row : GrantRecord) : Prop :=
  row.live now = true ∧
    rowLimit f.limit ≤ ahead GrantRecord.listedBefore (t.grants.filter (f.admits now)) row

instance (t : Tables) (f : SessionFilter) (now : Time) (row : SessionRecord) :
    Decidable (t.SessionCut f now row) := inferInstanceAs (Decidable (_ ∧ _))

instance (t : Tables) (f : GrantFilter) (now : Time) (row : GrantRecord) :
    Decidable (t.GrantCut f now row) := inferInstanceAs (Decidable (_ ∧ _))

/-- The filter asks for live grants, and the columns of the row are what it asks for. -/
def GrantFilter.Covers (f : GrantFilter) (row : GrantRecord) : Prop :=
  f.activeOnly = true ∧ (f.userID = [] ∨ row.userID = f.userID) ∧
    (f.deviceID = [] ∨ row.deviceID = f.deviceID) ∧
    (f.sessionID = [] ∨ row.sessionID = f.sessionID)

/-- The filter asks for active sessions, of the user of the row or of any. -/
def SessionFilter.Covers (f : SessionFilter) (row : SessionRecord) : Prop :=
  f.activeOnly = true ∧ (f.userID = [] ∨ row.userID = f.userID)

section NewestFirst

variable {α : Type} {time : α → Int64} {id : α → Bytes}

/-- `ORDER BY time DESC, id DESC`. -/
def newestFirst (time : α → Int64) (id : α → Bytes) (a b : α) : Bool :=
  time b < time a || (time a = time b && id b ≤ id a)

theorem newest_first_iff {a b : α} : newestFirst time id a b = true ↔
    time b < time a ∨ (time a = time b ∧ id b ≤ id a) := by
  simp [newestFirst]

theorem newest_first_trans (a b c : α) (hab : newestFirst time id a b = true)
    (hbc : newestFirst time id b c = true) : newestFirst time id a c = true := by
  rw [newest_first_iff] at *
  rcases hab with hab | ⟨hab, hidAB⟩ <;> rcases hbc with hbc | ⟨hbc, hidBC⟩
  · exact .inl (Int64.lt_trans hbc hab)
  · exact .inl (hbc ▸ hab)
  · exact .inl (hab ▸ hbc)
  · exact .inr ⟨hab.trans hbc, List.le_trans hidBC hidAB⟩

theorem newest_first_total (a b : α) :
    (newestFirst time id a b || newestFirst time id b a) = true := by
  rw [Bool.or_eq_true, newest_first_iff, newest_first_iff]
  by_cases hba : time b < time a
  · exact .inl (.inl hba)
  by_cases hab : time a < time b
  · exact .inr (.inl hab)
  have heq : time a = time b := Int64.le_antisymm (Int64.not_lt.mp hba) (Int64.not_lt.mp hab)
  rcases List.le_total (id b) (id a) with hle | hle
  · exact .inl (.inr ⟨heq, hle⟩)
  · exact .inr (.inr ⟨heq.symm, hle⟩)

/-- Rows that come before each other have the same identifier. -/
theorem newest_first_antisymm {a b : α} (hab : newestFirst time id a b = true)
    (hba : newestFirst time id b a = true) : id a = id b := by
  rw [newest_first_iff] at *
  rcases hab with hab | ⟨hab, hidAB⟩ <;> rcases hba with hba | ⟨hba, hidBA⟩
  · exact absurd hab (Int64.not_lt.mpr (Int64.le_of_lt hba))
  · exact absurd (hba ▸ hab) Int64.lt_irrefl
  · exact absurd (hab ▸ hba) Int64.lt_irrefl
  · exact List.le_antisymm hidBA hidAB

/-- A listing holds the rows that it admits, except where its limit cuts one off. -/
theorem mem_listing (time : α → Int64) {rows : List α} {admits : α → Bool} {limit : Nat} {row : α}
    (hkeys : (rows.map id).Nodup) (hrow : row ∈ rows) :
    row ∈ top (newestFirst time id) limit (rows.filter admits) ↔
      admits row = true ∧ ¬ (admits row = true ∧
        limit ≤ ahead (newestFirst time id) (rows.filter admits) row) := by
  have hstrict : Strict (newestFirst time id) (rows.filter admits) := by
    intro a ha b hb hab hba
    exact List.inj_on_of_nodup_map hkeys (List.mem_of_mem_filter ha) (List.mem_of_mem_filter hb)
      (newest_first_antisymm hab hba)
  have hnodup : (rows.filter admits).Nodup := (List.Nodup.of_map _ hkeys).filter _
  rw [mem_top ⟨newest_first_trans, newest_first_total⟩ hstrict hnodup, List.mem_filter, not_and,
    Nat.not_le]
  constructor
  · intro h
    exact ⟨h.1.2, fun _ => h.2⟩
  · intro h
    exact ⟨⟨hrow, h.1⟩, h.2 h.1⟩

end NewestFirst

theorem session_listed_before :
    SessionRecord.listedBefore = newestFirst (·.createdAt) (·.sessionID) := rfl

theorem grant_listed_before :
    GrantRecord.listedBefore = newestFirst (·.issuedAt) (·.grantID) := rfl

section Readers

variable {t : Tables} {now : Time}

/-- The row that is on file under a token's hash. -/
theorem lookup_session_iff {row : SessionRecord} (hrow : row ∈ t.sessions) :
    t.lookupSession row.tokenHash now = .ok row ↔
      row.revokedAt.isNone = true ∧ now.after (fromUnix row.expiresAt) = false := by
  have hfound : t.sessions.find? (fun old => old.tokenHash = row.tokenHash) = some row := by
    cases hfind : t.sessions.find? (fun old => old.tokenHash = row.tokenHash) with
    | none => simpa using List.find?_eq_none.mp hfind row hrow
    | some old =>
        have hhash : old.tokenHash = row.tokenHash := by simpa using List.find?_some hfind
        rw [List.inj_on_of_nodup_map t.keys.tokenHashes (List.mem_of_find?_eq_some hfind) hrow
          hhash]
  unfold Tables.lookupSession
  rw [hfound]
  cases hrevoked : row.revokedAt with
  | none => cases hexpired : now.after (fromUnix row.expiresAt) <;> simp [hrevoked, hexpired]
  | some since => simp [hrevoked]

theorem mem_list_sessions {f : SessionFilter} {row : SessionRecord}
    (hrow : row ∈ t.sessions) (hf : f.Covers row) :
    row ∈ t.listSessions f now ↔ row.active now = true ∧ ¬ t.SessionCut f now row := by
  have hadmits : f.admits now row = row.active now := by
    simp [SessionFilter.admits, hf.1, hf.2]
  have hlist : t.listSessions f now =
      top SessionRecord.listedBefore (rowLimit f.limit) (t.sessions.filter (f.admits now)) := rfl
  rw [hlist, Tables.SessionCut, session_listed_before, mem_listing _ t.keys.sessionIDs hrow,
    hadmits]

theorem mem_list_grants {f : GrantFilter} {row : GrantRecord}
    (hrow : row ∈ t.grants) (hf : f.Covers row) :
    row ∈ t.listGrants f now ↔ row.live now = true ∧ ¬ t.GrantCut f now row := by
  have hadmits : f.admits now row = row.live now := by
    obtain ⟨hactive, huser, hdevice, hsession⟩ := hf
    simp [GrantFilter.admits, hactive, huser, hdevice, hsession]
  have hlist : t.listGrants f now =
      top GrantRecord.listedBefore (rowLimit f.limit) (t.grants.filter (f.admits now)) := rfl
  rw [hlist, Tables.GrantCut, grant_listed_before, mem_listing _ t.keys.grantIDs hrow, hadmits]

/-- A cascading revocation whose scope covers the row revokes it exactly if it is live. -/
theorem revoked_where_iff {row : GrantRecord} (hrow : row ∈ t.grants)
    {scope : GrantScope} {value reason : Bytes} {actor : AuditEvent}
    (hscope : scope.covers value row = true) :
    (∃ g ∈ (t.revokeGrantsWhere scope value reason actor now).1, g.grantID = row.grantID) ↔
      row.live now = true := by
  constructor
  · intro h
    obtain ⟨g, hg, hid⟩ := h
    obtain ⟨old, hold, rfl⟩ := List.mem_map.mp hg
    obtain ⟨hmem, hselected⟩ := List.mem_filter.mp hold
    obtain rfl : old = row := List.inj_on_of_nodup_map t.keys.grantIDs hmem hrow hid
    exact (Bool.and_eq_true _ _ ▸ hselected).2
  · intro hlive
    have hselected : row ∈ t.grants.filter fun row => scope.covers value row && row.live now := by
      exact List.mem_filter.mpr ⟨hrow, by rw [hscope, hlive]; rfl⟩
    exact ⟨row.scanned reason now, List.mem_map_of_mem hselected, rfl⟩

/-- Comparing seconds is comparing instants, within one era. -/
theorem seconds_iff {expiresAt : Int64} : now.before (fromUnix expiresAt) = true ↔
    (unix now < expiresAt ↔ SameEra now expiresAt) :=
  Time.before_of_unix_iff

/-- At the instant of the expiry its second has come. -/
theorem unix_at_expiry {expiresAt : Int64} (h : now = fromUnix expiresAt) :
    unix now = expiresAt := by
  rw [h]
  exact Time.unix_of_unix expiresAt

/-- The readers of a session agree. -/
theorem session_readers_iff {row : SessionRecord} (hrow : row ∈ t.sessions)
    {f : SessionFilter} (hf : f.Covers row) :
    ((t.lookupSession row.tokenHash now = .ok row ↔ row.activeAt now = true) ∧
        (row.activeAt now = true ↔ row ∈ t.listSessions f now)) ↔
      (row.revokedAt.isSome = true ∨ (now ≠ fromUnix row.expiresAt ∧
        (SameEra now row.expiresAt ↔ ¬ t.SessionCut f now row))) := by
  rw [lookup_session_iff hrow, mem_list_sessions hrow hf, Time.not_after_iff]
  cases hrevoked : row.revokedAt with
  | some since => simp [SessionRecord.activeAt, SessionRecord.active, hrevoked]
  | none =>
      have hactive : row.active now = true ↔ unix now < row.expiresAt := by
        simp [SessionRecord.active, hrevoked]
      have hat : row.activeAt now = true ↔ now.before (fromUnix row.expiresAt) = true := by
        simp [SessionRecord.activeAt, hrevoked]
      rw [hactive, hat, seconds_iff]
      simp only [Option.isNone_none, Option.isSome_none, true_and, Bool.false_eq_true, false_or]
      by_cases hexpiry : now = fromUnix row.expiresAt
      · -- `LookupSession` accepts, `Active` does not.
        have hsame := unix_at_expiry hexpiry
        have hera : SameEra now row.expiresAt := by rw [SameEra, hsame]
        refine iff_of_false ?_ fun h => h.1 hexpiry
        intro h
        have hlt := (h.1.mp (.inr hexpiry)).mpr hera
        rw [hsame] at hlt
        exact Int64.lt_irrefl hlt
      · simp only [hexpiry, or_false, iff_self, true_and, ne_eq, not_false_eq_true]
        by_cases hlive : unix now < row.expiresAt
        · simp only [hlive, true_iff, true_and]
        · have hshown : ¬ t.SessionCut f now row := fun h => hlive (hactive.mp h.1)
          simp only [hlive, hshown, false_iff, false_and, iff_false, not_not, not_false_eq_true,
            iff_true]

/-- The readers of a grant agree. -/
theorem grant_readers_iff {row : GrantRecord} (hrow : row ∈ t.grants)
    {f : GrantFilter} (hf : f.Covers row) {scope : GrantScope} {value reason : Bytes}
    {actor : AuditEvent} (hscope : scope.covers value row = true) :
    ((row.usable now = true ↔ row ∈ t.listGrants f now) ∧
        (row.usable now = true ↔
          ∃ g ∈ (t.revokeGrantsWhere scope value reason actor now).1,
            g.grantID = row.grantID)) ↔
      (row.revokedAt.isSome = true ∨ (now ≠ fromUnix row.expiresAt ∧
        SameEra now row.expiresAt ∧ ¬ t.GrantCut f now row)) := by
  rw [mem_list_grants hrow hf, revoked_where_iff hrow hscope]
  cases hrevoked : row.revokedAt with
  | some since => simp [GrantRecord.usable, GrantRecord.revoked, GrantRecord.live, hrevoked]
  | none =>
      have hlive : row.live now = true ↔ unix now < row.expiresAt := by
        simp [GrantRecord.live, hrevoked]
      have husable : row.usable now = true ↔
          now.before (fromUnix row.expiresAt) = true ∨ now = fromUnix row.expiresAt := by
        rw [← Time.not_after_iff]
        simp [GrantRecord.usable, GrantRecord.revoked, GrantRecord.expired, hrevoked]
      rw [hlive, husable, seconds_iff]
      simp only [Option.isSome_none, Bool.false_eq_true, false_or]
      by_cases hexpiry : now = fromUnix row.expiresAt
      · -- `Usable` still holds, and no cascade would revoke the grant.
        refine iff_of_false ?_ fun h => h.1 hexpiry
        intro h
        have hlt := h.2.mp (.inr hexpiry)
        rw [unix_at_expiry hexpiry] at hlt
        exact Int64.lt_irrefl hlt
      · simp only [hexpiry, or_false, ne_eq, not_false_eq_true, true_and]
        by_cases hlt : unix now < row.expiresAt
        · simp only [hlt, true_iff, true_and, iff_true]
          constructor
          · intro h
            exact ⟨h.2, h.1.mp h.2⟩
          · intro h
            exact ⟨iff_of_true h.1 h.2, h.1⟩
        · have hshown : ¬ t.GrantCut f now row := fun h => hlt (hlive.mp h.1)
          simp only [hlt, hshown, false_iff, iff_false, not_not, and_self, not_false_eq_true,
            and_true]

end Readers

/-- For every stored session, `LookupSession`, `Active` and `ListSessions` agree on whether it is
live exactly if it is revoked, or the instant is not its very expiry and the listing shows it if it
is live. For every stored grant, `Usable`, `ListGrants` and `RevokeGrantsWhere` agree under the same
condition. Within one era a listing may miss a live row only because of its row limit. -/
theorem readers_agree_iff (t : Tables) (now : Time) :
    (∀ row ∈ t.sessions, ∀ f : SessionFilter, f.Covers row →
      (((t.lookupSession row.tokenHash now = .ok row ↔ row.activeAt now = true) ∧
          (row.activeAt now = true ↔ row ∈ t.listSessions f now)) ↔
        (row.revokedAt.isSome = true ∨ (now ≠ fromUnix row.expiresAt ∧
          (SameEra now row.expiresAt ↔ ¬ t.SessionCut f now row))))) ∧
    (∀ row ∈ t.grants, ∀ f : GrantFilter, f.Covers row → ∀ (scope : GrantScope)
        (value reason : Bytes) (actor : AuditEvent), scope.covers value row = true →
      (((row.usable now = true ↔ row ∈ t.listGrants f now) ∧
          (row.usable now = true ↔
            ∃ g ∈ (t.revokeGrantsWhere scope value reason actor now).1,
              g.grantID = row.grantID)) ↔
        (row.revokedAt.isSome = true ∨ (now ≠ fromUnix row.expiresAt ∧
          SameEra now row.expiresAt ∧ ¬ t.GrantCut f now row)))) := by
  refine ⟨?_, ?_⟩
  · intro row hrow f hf
    exact session_readers_iff hrow hf
  · intro row hrow f hf scope value reason actor hscope
    exact grant_readers_iff hrow hf hscope

/-- A session of one user that ends at second 100. -/
def panelSession : SessionRecord :=
  ⟨ascii "ses_1", ascii "hash", ascii "alice", 0, 100, none, []⟩

/-- A grant under that session which expires with it. -/
def panelGrant : GrantRecord :=
  ⟨ascii "grn_1", ascii "org", ascii "alice", ascii "panel", ascii "ssh", ascii "ops",
    ascii "ses_1", 0, 100, 0, none, []⟩

theorem panel_keys : Keys [panelSession] [panelGrant] :=
  ⟨List.nodup_singleton _, List.nodup_singleton _, List.nodup_singleton _⟩

/-- A store with the two. -/
def panelTables : Tables := ⟨[panelSession], [panelGrant], [], panel_keys⟩

/-- The administrator who revokes. -/
def rootActor : AuditEvent := ⟨0, .grantRevoked, [], .admin, ascii "root", [], [], [], [], []⟩

/-- Half a second before the expiry of both. -/
def beforeExpiry : Time := ⟨(fromUnix 99).sec, 500000000, Time.half_second_lt⟩

/-- Half a second before the expiry all readers take both for live. -/
theorem readers_agree_before_expiry :
    (panelTables.lookupSession (ascii "hash") beforeExpiry = .ok panelSession ∧
      panelSession ∈ panelTables.listSessions ⟨[], true, 0⟩ beforeExpiry) ∧
    (panelGrant ∈ panelTables.listGrants ⟨[], [], [], true, 0⟩ beforeExpiry ∧
      ∃ g ∈ (panelTables.revokeGrantsWhere .user (ascii "alice") (ascii "left") rootActor
        beforeExpiry).1, g.grantID = panelGrant.grantID) := by
  obtain ⟨hsessions, hgrants⟩ := readers_agree_iff panelTables beforeExpiry
  obtain ⟨hlookup, hlisted⟩ := (hsessions panelSession (by decide) ⟨[], true, 0⟩
    ⟨rfl, .inl rfl⟩).mpr (.inr ⟨by decide, by decide⟩)
  obtain ⟨hlisted', hrevoked⟩ := (hgrants panelGrant (by decide) ⟨[], [], [], true, 0⟩
    ⟨rfl, .inl rfl, .inl rfl, .inl rfl⟩ .user (ascii "alice") (ascii "left") rootActor
    (by decide)).mpr (.inr ⟨by decide, by decide, by decide⟩)
  have hactive : panelSession.activeAt beforeExpiry = true := by decide
  have husable : panelGrant.usable beforeExpiry = true := by decide
  exact ⟨⟨hlookup.mpr hactive, hlisted.mp hactive⟩, hlisted'.mp husable, hrevoked.mp husable⟩

/-- At the instant of the expiry the session is still accepted and the grant usable, the session is
not active, and a cascading revocation passes the grant over. -/
theorem readers_differ_at_expiry :
    panelTables.lookupSession (ascii "hash") (fromUnix 100) = .ok panelSession ∧
    panelSession.activeAt (fromUnix 100) = false ∧
    panelTables.listSessions ⟨[], true, 0⟩ (fromUnix 100) = [] ∧
    panelGrant.usable (fromUnix 100) = true ∧
    panelTables.listGrants ⟨[], [], [], true, 0⟩ (fromUnix 100) = [] ∧
    (panelTables.revokeGrantsWhere .user (ascii "alice") (ascii "left") rootActor
      (fromUnix 100)).1 = [] := by
  have hsessions : panelTables.sessions.filter
      ((⟨[], true, 0⟩ : SessionFilter).admits (fromUnix 100)) = [] := by decide
  have hgrants : panelTables.grants.filter
      ((⟨[], [], [], true, 0⟩ : GrantFilter).admits (fromUnix 100)) = [] := by decide
  refine ⟨by decide, by decide, ?_, by decide, ?_, by decide⟩
  · rw [Tables.listSessions, hsessions, List.mergeSort_nil, List.take_nil]
  · rw [Tables.listGrants, hgrants, List.mergeSort_nil, List.take_nil]

end AccessRelay.Storage
