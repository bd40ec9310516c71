import AccessRelay.Storage.AuditQuery
import AccessRelay.Storage.Tokens

/-!
# Importing the legacy store

`ImportLegacyJSON` of `internal/storage/import.go`, as a whole call: the file, the check for
identities, the rows that are inserted and the event that is recorded. The other operations on the
identity and token tables are given on the rows.

The check asks for identities only, while the import also brings tokens. `import_again_iff` says
when a second import of the same file is harmless: if the database has identities by then, or the
file has no token to bring. The revocation of a record is taken from its time, and the flag beside
it is not read. `import_faithful_iff` says when what is imported is what the file says.
-/

namespace AccessRelay.Storage

open Encoding Ca Go Machine

namespace Database

variable (db : Database)

/-- The row of an identity. -/
def records (id : Identity) : Option Record :=
  (db.identities.find? fun entry => entry.1 = id).map (·.2)

/-- The identity table alone, for the operations that read nothing else. -/
def identityTable : Identities := ⟨db.records, fun _ => none⟩

/-- `Lookup`. -/
def lookup (id : Identity) : Except StoreError Record := db.identityTable.lookup id

/-- An `UPDATE` of the row of an identity, under a condition. -/
def updateWhere (id : Identity) (condition : Record → Bool) (change : Record → Record) : Database :=
  { db with
    identities := db.identities.map fun entry =>
      if entry.1 = id ∧ condition entry.2 then (entry.1, change entry.2) else entry }

/-- `PutRecord`: insert a row, or replace the one that is there. -/
def putRecord (id : Identity) (enrolledAt : Int64) (serialHex : Bytes) (revokedAt : Option Int64) :
    Database :=
  let row : Record := ⟨enrolledAt, serialHex, revokedAt, [], none⟩
  if db.identities.any fun entry => entry.1 = id then db.updateWhere id (fun _ => true) fun _ => row
  else { db with identities := (id, row) :: db.identities }

/-- The statement of `PutPendingSerial`. -/
def putPendingSerial (id : Identity) (serialHex : Bytes) (now : Time) : Database :=
  db.updateWhere id (fun row => row.revokedAt.isNone) fun row =>
    { row with pendingSerialHex := serialHex, pendingIssuedAt := some (unix now) }

/-- The statement of `PromoteSerial`. -/
def promoteSerial (id : Identity) (serialHex : Bytes) : Database :=
  db.updateWhere id (fun row => row.pendingSerialHex = serialHex ∧ row.revokedAt.isNone) fun row =>
    { row with serialHex := row.pendingSerialHex, pendingSerialHex := [], pendingIssuedAt := none }

/-- The statement of `Revoke`. -/
def revoke (id : Identity) (now : Time) : Database :=
  db.updateWhere id (fun row => row.revokedAt.isNone) fun row =>
    { row with revokedAt := some (unix now) }

/-- `ConsumeToken`. -/
def consumeToken (hash : Bytes) (now : Time) : Except StoreError TokenRow × Database :=
  match db.tokens hash with
  | none => (.error .tokenUnknown, db)
  | some row =>
      if row.consumedAt.isSome then (.error .tokenConsumed, db)
      else if now.after (fromUnix row.expiresAt) then (.error .tokenExpired, db)
      else (.ok { row with consumedAt := some (unix now) }, (db.markToken hash now).2)

end Database

section Rows

variable {db : Database} {id : Identity}

theorem records_cons (entry : Identity × Record) (rest : List (Identity × Record))
    (tokens : Bytes → Option TokenRow) :
    (Database.mk (entry :: rest) tokens).records =
      Function.update (Database.mk rest tokens).records entry.1 (some entry.2) := by
  funext k
  by_cases hk : k = entry.1
  · subst hk
    simp [Database.records]
  · simp [Database.records, Function.update_of_ne hk, Ne.symm hk]

/-- The table has a row for an identity. -/
theorem any_identity_iff :
    (db.identities.any fun entry => entry.1 = id) = (db.records id).isSome := by
  rw [Database.records, Option.isSome_map, Bool.eq_iff_iff, List.any_eq_true, List.find?_isSome]

/-- The table is empty if no identity has a row. -/
theorem identities_eq_nil_iff : db.identities = [] ↔ ∀ id, db.records id = none := by
  constructor
  · intro hempty id
    simp [Database.records, hempty]
  · intro hnone
    refine List.eq_nil_iff_forall_not_mem.mpr fun entry hentry => ?_
    have hfound := hnone entry.1
    simp only [Database.records, Option.map_eq_none_iff, List.find?_eq_none, decide_eq_true_eq]
      at hfound
    exact hfound entry hentry rfl

end Rows

/-- A record of the legacy file. It is under the map of its role; the role and the pending
certificate that it may name itself are not read. -/
structure LegacyRecord where
  id : Bytes
  enrolledAt : Time
  serialHex : Bytes
  revoked : Bool
  revokedAt : Option Time
  deriving DecidableEq

/-- A token of the legacy file. -/
structure LegacyToken where
  hash : Bytes
  role : Bytes
  id : Bytes
  issuedAt : Time
  expiresAt : Time
  consumedAt : Option Time
  deriving DecidableEq

/-- `legacyState`: what the three maps of the file hold. Their keys are not read. -/
structure LegacyJSON where
  devices : List LegacyRecord
  operators : List LegacyRecord
  tokens : List LegacyToken

/-- The row that is inserted for a record. -/
def LegacyRecord.entry (role : Role) (r : LegacyRecord) : Identity × Record :=
  (⟨role, r.id⟩, ⟨unix r.enrolledAt, r.serialHex, r.revokedAt.map unix, [], none⟩)

/-- A token of the file as a row. -/
def LegacyToken.entry (t : LegacyToken) : Bytes × TokenRow :=
  (t.hash, ⟨t.role, t.id, unix t.issuedAt, unix t.expiresAt, t.consumedAt.map unix⟩)

/-- The records and tokens of the file, in some order. -/
def LegacyJSON.listed (json : LegacyJSON) : LegacyState where
  records := json.devices.map (·.entry .device) ++ json.operators.map (·.entry .operator)
  tokens := json.tokens.map (·.entry)

/-- The order in which an import ranges over the maps, which can be any. -/
structure Ranging (json : LegacyJSON) where
  order : LegacyState
  records_perm : order.records.Perm json.listed.records
  tokens_perm : order.tokens.Perm json.listed.tokens

/-- The maps in the order of the lists. -/
def Ranging.listed (json : LegacyJSON) : Ranging json :=
  ⟨json.listed, List.Perm.refl _, List.Perm.refl _⟩

/-- What there is at the path of the legacy file. `content none` does not parse. -/
inductive LegacyFile where
  | missing
  | unreadable
  | content (parsed : Option LegacyJSON)

/-- The tokens that the file brings. Consumed ones do not carry forward. -/
def LegacyFile.carried : LegacyFile → List LegacyToken
  | .content (some json) => json.tokens.filter fun t => t.consumedAt.isNone
  | _ => []

/-- Why an import failed. -/
inductive ImportError where
  | read
  | parse
  | identity (identity : Identity)
  | token
  deriving DecidableEq

/-- The error of an insert that fails. -/
def Insert.error : Insert → ImportError
  | .identity id _ _ _ => .identity id
  | .token _ _ => .token

/-- The inserts in order, up to the first that fails. -/
def Database.insertAll (db : Database) : List Insert → Except ImportError Database
  | [] => .ok db
  | statement :: rest =>
      match db.insert statement with
      | none => .error statement.error
      | some next => next.insertAll rest

/-- The path, the clock and the ranging of one call. -/
structure ImportCall where
  path : Bytes
  now : Time
  ranging : (json : LegacyJSON) → Ranging json

/-- The database: the tables that an import fills, the audit trail with the last sequence number
that was given out, and the other tables. -/
structure Store (Rest : Type) where
  db : Database
  trail : List AuditRow
  lastSeq : Int64
  rest : Rest

section Import

variable {Rest : Type}

/-- The event that an import appends to the trail. -/
def Store.recordImport (s : Store Rest) (call : ImportCall) (imported : Nat) : Store Rest :=
  { s with
    trail :=
      { seq := s.lastSeq + 1, ts := unix call.now, event := ascii "admin.action", orgID := []
        actorRole := ascii "admin", actorID := [], deviceID := [], resourceID := [], grantID := []
        sessionID := [], reason := [], bytesIn := 0, bytesOut := 0, durationMS := 0
        detail := ascii "imported " ++ ascii (toString imported) ++
          ascii " records from the legacy JSON store at " ++ call.path } :: s.trail
    lastSeq := s.lastSeq + 1 }

/-- The transaction of an import. It is rolled back if one of the inserts fails. -/
def Store.importRows (s : Store Rest) (call : ImportCall) (rows : List Insert) :
    Except ImportError Nat × Store Rest :=
  match s.db.insertAll rows with
  | .error e => (.error e, s)
  | .ok db =>
      (.ok rows.length,
        if 0 < rows.length then { s with db }.recordImport call rows.length else { s with db })

/-- `ImportLegacyJSON`: move an existing JSON store into the database, if it has no identities. -/
def Store.importLegacyJSON (s : Store Rest) (file : LegacyFile) (call : ImportCall) :
    Except ImportError Nat × Store Rest :=
  match file with
  | .missing => (.ok 0, s)
  | .unreadable => (.error .read, s)
  | .content parsed =>
      if s.db.identities ≠ [] then (.ok 0, s)
      else match parsed with
        | none => (.error .parse, s)
        | some json => s.importRows call (call.ranging json).order.inserts

/-- An operation of the store that writes. `elsewhere` stands for those on sessions and grants and
on the trail: they leave the identities and the tokens alone. -/
inductive StoreAction (Rest : Type) where
  | putToken (hash : Bytes) (row : TokenRow)
  | consumeToken (hash : Bytes) (now : Time)
  | putRecord (id : Identity) (enrolledAt : Int64) (serialHex : Bytes) (revokedAt : Option Int64)
  | putPendingSerial (id : Identity) (serialHex : Bytes) (now : Time)
  | promoteSerial (id : Identity) (serialHex : Bytes)
  | revoke (id : Identity) (now : Time)
  | importLegacyJSON (file : LegacyFile) (call : ImportCall)
  | elsewhere (trail : List AuditRow) (lastSeq : Int64) (rest : Rest)

/-- What an operation leaves, whether it succeeds or fails. -/
def Store.apply (s : Store Rest) : StoreAction Rest → Store Rest
  | .putToken hash row => { s with db := s.db.putToken hash row }
  | .consumeToken hash now => { s with db := (s.db.consumeToken hash now).2 }
  | .putRecord id enrolledAt serialHex revokedAt =>
      { s with db := s.db.putRecord id enrolledAt serialHex revokedAt }
  | .putPendingSerial id serialHex now =>
      { s with db := s.db.putPendingSerial id serialHex now }
  | .promoteSerial id serialHex => { s with db := s.db.promoteSerial id serialHex }
  | .revoke id now => { s with db := s.db.revoke id now }
  | .importLegacyJSON file call => (s.importLegacyJSON file call).2
  | .elsewhere trail lastSeq rest => { s with trail, lastSeq, rest }

/-- Operations one after another. -/
def Store.applyAll (s : Store Rest) (actions : List (StoreAction Rest)) : Store Rest :=
  actions.foldl Store.apply s

end Import

section Inserts

variable {db db' : Database} {rows : List Insert} {json : LegacyJSON}

/-- The row that a statement puts into the identity table. -/
def Insert.identityRow : Insert → Option (Identity × Record)
  | .identity id enrolledAt serialHex revokedAt =>
      some (id, ⟨enrolledAt, serialHex, revokedAt, [], none⟩)
  | .token _ _ => none

/-- The row that a statement puts into the token table. -/
def Insert.tokenRow : Insert → Option (Bytes × TokenRow)
  | .identity _ _ _ _ => none
  | .token hash row => some (hash, { row with consumedAt := none })

theorem insert_fills_records : Fills Database.records Insert.identityRow Database.insert := by
  intro db statement next hinsert
  cases statement with
  | identity identity enrolledAt serialHex revokedAt =>
      obtain ⟨hfree, hnext⟩ := Option.ite_none_left_eq_some.mp hinsert
      cases hnext
      rw [any_identity_iff] at hfree
      exact .inr ⟨_, _, rfl, by simpa using hfree, records_cons _ _ _⟩
  | token hash row =>
      obtain ⟨-, hnext⟩ := Option.ite_none_left_eq_some.mp hinsert
      cases hnext
      exact .inl ⟨rfl, rfl⟩

theorem insert_fills_tokens : Fills Database.tokens Insert.tokenRow Database.insert := by
  intro db statement next hinsert
  cases statement with
  | identity identity enrolledAt serialHex revokedAt =>
      obtain ⟨-, hnext⟩ := Option.ite_none_left_eq_some.mp hinsert
      cases hnext
      exact .inl ⟨rfl, rfl⟩
  | token hash row =>
      obtain ⟨hfree, hnext⟩ := Option.ite_none_left_eq_some.mp hinsert
      cases hnext
      exact .inr ⟨_, _, rfl, by simpa using hfree, rfl⟩

/-- The inserts succeed together as the run of all of them. -/
theorem insert_all_eq_ok :
    db.insertAll rows = .ok db' ↔ run Database.insert db rows = some db' := by
  induction rows generalizing db with
  | nil => simp [Database.insertAll]
  | cons statement rest ih =>
      rw [Database.insertAll, run_cons]
      cases db.insert statement with
      | none => simp
      | some next => exact ih

/-- The statements of an import, in whatever order it ranges over the maps. -/
theorem Ranging.mem_inserts (ranging : Ranging json) {statement : Insert} :
    statement ∈ ranging.order.inserts ↔ statement ∈ json.listed.inserts := by
  simp only [LegacyState.inserts, List.mem_append, List.mem_map, List.mem_filter,
    ranging.records_perm.mem_iff, ranging.tokens_perm.mem_iff]

/-- The rows that an import puts into the identity table. -/
theorem Ranging.identity_row_iff (ranging : Ranging json) {id : Identity} {row : Record} :
    (∃ statement ∈ ranging.order.inserts, statement.identityRow = some (id, row)) ↔
      (∃ r ∈ json.devices, r.entry .device = (id, row)) ∨
        ∃ r ∈ json.operators, r.entry .operator = (id, row) := by
  constructor
  · rintro ⟨statement, hmem, hrow⟩
    rcases List.mem_append.mp (ranging.mem_inserts.mp hmem) with hrecord | htoken
    · obtain ⟨entry, hentry, rfl⟩ := List.mem_map.mp hrecord
      rcases List.mem_append.mp hentry with hdevice | hoperator
      · obtain ⟨r, hr, rfl⟩ := List.mem_map.mp hdevice
        exact .inl ⟨r, hr, Option.some.inj hrow⟩
      · obtain ⟨r, hr, rfl⟩ := List.mem_map.mp hoperator
        exact .inr ⟨r, hr, Option.some.inj hrow⟩
    · obtain ⟨entry, -, rfl⟩ := List.mem_map.mp htoken
      cases hrow
  · intro h
    have hlisted : (id, row) ∈ json.listed.records := by
      rcases h with ⟨r, hr, hentry⟩ | ⟨r, hr, hentry⟩
      · exact List.mem_append_left _ (hentry ▸ List.mem_map_of_mem hr)
      · exact List.mem_append_right _ (hentry ▸ List.mem_map_of_mem hr)
    refine ⟨_, ranging.mem_inserts.mpr
      (List.mem_append_left _ (List.mem_map_of_mem hlisted)), ?_⟩
    rcases h with ⟨r, hr, hentry⟩ | ⟨r, hr, hentry⟩ <;>
      · cases hentry
        rfl

/-- The rows that an import puts into the token table. -/
theorem Ranging.token_row_iff (ranging : Ranging json) {hash : Bytes} {row : TokenRow} :
    (∃ statement ∈ ranging.order.inserts, statement.tokenRow = some (hash, row)) ↔
      ∃ t ∈ json.tokens, t.consumedAt = none ∧ t.entry = (hash, row) := by
  constructor
  · rintro ⟨statement, hmem, hrow⟩
    rcases List.mem_append.mp (ranging.mem_inserts.mp hmem) with hrecord | htoken
    · obtain ⟨entry, -, rfl⟩ := List.mem_map.mp hrecord
      cases hrow
    · obtain ⟨entry, hentry, rfl⟩ := List.mem_map.mp htoken
      obtain ⟨hlisted, hunused⟩ := List.mem_filter.mp hentry
      obtain ⟨t, ht, rfl⟩ := List.mem_map.mp hlisted
      have hnone : t.consumedAt = none := by simpa [LegacyToken.entry] using hunused
      refine ⟨t, ht, hnone, ?_⟩
      rw [← Option.some.inj hrow]
      simp [LegacyToken.entry, hnone]
  · rintro ⟨t, ht, hnone, hentry⟩
    have hlisted : t.entry ∈ json.listed.tokens.filter fun entry => entry.2.consumedAt.isNone :=
      List.mem_filter.mpr ⟨List.mem_map_of_mem ht, by simp [LegacyToken.entry, hnone]⟩
    refine ⟨_, ranging.mem_inserts.mpr
      (List.mem_append_right _ (List.mem_map_of_mem hlisted)), ?_⟩
    rw [← hentry]
    simp [Insert.tokenRow, LegacyToken.entry, hnone]

/-- What an import leaves that succeeds on a database without identities. -/
theorem import_ok {Rest : Type} {s s' : Store Rest} {call : ImportCall} {n : Nat}
    (hempty : s.db.identities = [])
    (himport : s.importLegacyJSON (.content (some json)) call = (.ok n, s')) :
    run Database.insert s.db (call.ranging json).order.inserts = some s'.db := by
  simp only [Store.importLegacyJSON, hempty, ne_eq, not_true_eq_false, if_false,
    Store.importRows] at himport
  cases hinserts : s.db.insertAll (call.ranging json).order.inserts with
  | error e =>
      rw [hinserts] at himport
      cases himport
  | ok db =>
      rw [hinserts] at himport
      obtain ⟨-, rfl⟩ := Prod.mk.inj himport
      rw [insert_all_eq_ok.mp hinserts]
      split <;> rfl

end Inserts

section Again

variable {Rest : Type} {s s' : Store Rest} {file : LegacyFile} {call again : ImportCall} {n : Nat}

/-- What no operation undoes: there are identities, and there is a token under a hash. -/
structure Store.Keeps (s s' : Store Rest) : Prop where
  identities : s.db.identities ≠ [] → s'.db.identities ≠ []
  tokens : ∀ hash, (s.db.tokens hash).isSome = true → (s'.db.tokens hash).isSome = true

theorem Store.Keeps.refl (s : Store Rest) : s.Keeps s := ⟨id, fun _ => id⟩

theorem Store.Keeps.trans {s₁ s₂ s₃ : Store Rest} (h : s₁.Keeps s₂) (h' : s₂.Keeps s₃) :
    s₁.Keeps s₃ :=
  ⟨fun hne => h'.identities (h.identities hne),
    fun hash hsome => h'.tokens hash (h.tokens hash hsome)⟩

/-- A row that is written does not take another away. -/
theorem update_keeps {tokens : Bytes → Option TokenRow} {hash k : Bytes} {row : TokenRow}
    (h : (tokens k).isSome = true) :
    (Function.update tokens hash (some row) k).isSome = true := by
  by_cases hk : k = hash
  · subst hk
    simp
  · rwa [Function.update_of_ne hk]

theorem update_where_keeps (s : Store Rest) (id : Identity) (condition : Record → Bool)
    (change : Record → Record) :
    s.Keeps { s with db := s.db.updateWhere id condition change } := by
  refine ⟨fun hne => ?_, fun _ h => h⟩
  simpa [Database.updateWhere] using hne

theorem import_rows_keeps (s : Store Rest) (call : ImportCall) (rows : List Insert) :
    s.Keeps (s.importRows call rows).2 := by
  unfold Store.importRows
  cases hinserts : s.db.insertAll rows with
  | error e => exact .refl s
  | ok db =>
      have hrun := insert_all_eq_ok.mp hinserts
      have hkeeps : s.Keeps { s with db } := by
        constructor
        · intro hne hempty
          refine hne (identities_eq_nil_iff.mpr fun id => ?_)
          have hnone := identities_eq_nil_iff.mp hempty id
          rw [Option.eq_none_iff_forall_ne_some] at hnone ⊢
          intro row hrow
          exact hnone row ((run_fills insert_fills_records hrun id row).mpr (.inl hrow))
        · intro hash hsome
          obtain ⟨row, hrow⟩ := Option.isSome_iff_exists.mp hsome
          have hafter := (run_fills insert_fills_tokens hrun hash row).mpr (.inl hrow)
          exact Option.isSome_iff_exists.mpr ⟨row, hafter⟩
      show s.Keeps (if 0 < rows.length then _ else _)
      split
      · exact ⟨hkeeps.identities, hkeeps.tokens⟩
      · exact hkeeps

theorem import_keeps (s : Store Rest) (file : LegacyFile) (call : ImportCall) :
    s.Keeps (s.importLegacyJSON file call).2 := by
  unfold Store.importLegacyJSON
  split
  · exact .refl s
  · exact .refl s
  · split_ifs
    · exact .refl s
    · split
      · exact .refl s
      · exact import_rows_keeps s call _

theorem apply_keeps (s : Store Rest) (action : StoreAction Rest) : s.Keeps (s.apply action) := by
  cases action with
  | putToken hash row => exact ⟨id, fun _ h => update_keeps h⟩
  | consumeToken hash now =>
      show s.Keeps { s with db := (s.db.consumeToken hash now).2 }
      unfold Database.consumeToken
      split
      · exact .refl s
      next row hrow =>
        split_ifs with hconsumed hexpired
        · exact .refl s
        · exact .refl s
        · rw [mark_token_of_unused hrow (by simpa using hconsumed)]
          exact ⟨id, fun _ h => update_keeps h⟩
  | putRecord id enrolledAt serialHex revokedAt =>
      show s.Keeps { s with db := s.db.putRecord id enrolledAt serialHex revokedAt }
      unfold Database.putRecord
      split
      · exact update_where_keeps s id _ _
      · exact ⟨fun _ => List.cons_ne_nil _ _, fun _ h => h⟩
  | putPendingSerial id serialHex now => exact update_where_keeps s id _ _
  | promoteSerial id serialHex => exact update_where_keeps s id _ _
  | revoke id now => exact update_where_keeps s id _ _
  | importLegacyJSON file call => exact import_keeps s file call
  | elsewhere trail lastSeq rest => exact ⟨id, fun _ h => h⟩

theorem apply_all_keeps (s : Store Rest) (actions : List (StoreAction Rest)) :
    s.Keeps (s.applyAll actions) := by
  induction actions generalizing s with
  | nil => exact .refl s
  | cons action rest ih => exact (apply_keeps s action).trans (ih (s.apply action))

/-- A database that an import leaves without identities had none before it. -/
theorem empty_before_import (himport : s.importLegacyJSON file call = (.ok n, s'))
    (hempty : s'.db.identities = []) : s.db.identities = [] := by
  by_contra hne
  refine (import_keeps s file call).identities hne ?_
  rw [himport]
  exact hempty

/-- An import that has succeeded has left identities, or what the file brings is there and the file
has no records. -/
theorem import_leaves {json : LegacyJSON}
    (himport : s.importLegacyJSON (.content (some json)) call = (.ok n, s'))
    (hempty : s'.db.identities = []) :
    json.devices = [] ∧ json.operators = [] ∧
      ∀ t ∈ json.tokens, t.consumedAt = none → (s'.db.tokens t.hash).isSome = true := by
  have hbefore := empty_before_import himport hempty
  have hrun := import_ok hbefore himport
  have hnone := identities_eq_nil_iff.mp hempty
  have hrecords : ∀ entry, ¬ ((∃ r ∈ json.devices, r.entry .device = entry) ∨
      ∃ r ∈ json.operators, r.entry .operator = entry) := by
    intro entry hentry
    have hfound := (run_fills insert_fills_records hrun entry.1 entry.2).mpr
      (.inr ((call.ranging json).identity_row_iff.mpr hentry))
    rw [hnone] at hfound
    cases hfound
  refine ⟨?_, ?_, ?_⟩
  · exact List.eq_nil_iff_forall_not_mem.mpr fun r hr => hrecords _ (.inl ⟨r, hr, rfl⟩)
  · exact List.eq_nil_iff_forall_not_mem.mpr fun r hr => hrecords _ (.inr ⟨r, hr, rfl⟩)
  · intro t ht hunused
    have hfound := (run_fills insert_fills_tokens hrun t.hash t.entry.2).mpr
      (.inr ((call.ranging json).token_row_iff.mpr ⟨t, ht, hunused, rfl⟩))
    exact Option.isSome_iff_exists.mpr ⟨_, hfound⟩

/-- An import of a file without records, into a database without identities that has the tokens of
the file: it succeeds only if there are none, and then it does nothing. -/
theorem import_of_present {json : LegacyJSON} (hempty : s.db.identities = [])
    (hdevices : json.devices = []) (hoperators : json.operators = [])
    (hpresent : ∀ t ∈ json.tokens, t.consumedAt = none → (s.db.tokens t.hash).isSome = true) :
    s.importLegacyJSON (.content (some json)) call = (.ok 0, s) ↔
      LegacyFile.carried (.content (some json)) = [] := by
  constructor
  · intro himport
    refine List.eq_nil_iff_forall_not_mem.mpr fun t ht => ?_
    obtain ⟨hmem, hunused⟩ := List.mem_filter.mp ht
    have hnone : t.consumedAt = none := by simpa using hunused
    obtain ⟨statement, hstatement, hputs⟩ :=
      (call.ranging json).token_row_iff.mpr ⟨t, hmem, hnone, rfl⟩
    have hfree := run_fills_free insert_fills_tokens (import_ok hempty himport) hstatement hputs
    have hsome := hpresent t hmem hnone
    rw [show s.db.tokens t.hash = none from hfree] at hsome
    cases hsome
  · intro hcarried
    have hinserts : (call.ranging json).order.inserts = [] := by
      refine List.eq_nil_iff_forall_not_mem.mpr fun statement hstatement => ?_
      cases hrow : statement.tokenRow with
      | some entry =>
          obtain ⟨t, ht, hnone, -⟩ :=
            (call.ranging json).token_row_iff.mp ⟨statement, hstatement, hrow⟩
          have hmem : t ∈ LegacyFile.carried (.content (some json)) :=
            List.mem_filter.mpr ⟨ht, by simp [hnone]⟩
          rw [hcarried] at hmem
          cases hmem
      | none =>
          cases statement with
          | token hash row => cases hrow
          | identity id enrolledAt serialHex revokedAt =>
              have hentry := (call.ranging json).identity_row_iff.mp ⟨_, hstatement, rfl⟩
              rw [hdevices, hoperators] at hentry
              simp at hentry
    simp [Store.importLegacyJSON, hempty, Store.importRows, hinserts, Database.insertAll]

end Again

/-- After an import has succeeded, and after any other operations, importing the same file again
does nothing exactly if the database has identities or the file brings no token. -/
theorem import_again_iff {Rest : Type} {s s' : Store Rest} {file : LegacyFile} {call : ImportCall}
    {n : Nat} (himport : s.importLegacyJSON file call = (.ok n, s'))
    (actions : List (StoreAction Rest)) (again : ImportCall) :
    (s'.applyAll actions).importLegacyJSON file again = (.ok 0, s'.applyAll actions) ↔
      (s'.applyAll actions).db.identities ≠ [] ∨ file.carried = [] := by
  have hkeeps := apply_all_keeps s' actions
  by_cases hempty : (s'.applyAll actions).db.identities = []
  · have hleft : s'.db.identities = [] := by
      by_contra hne
      exact hkeeps.identities hne hempty
    rw [or_iff_right (not_not_intro hempty)]
    cases file with
    | missing => exact ⟨fun _ => rfl, fun _ => rfl⟩
    | unreadable => cases himport
    | content parsed =>
        cases parsed with
        | none =>
            -- The first import would have failed on it.
            simp [Store.importLegacyJSON, empty_before_import himport hleft] at himport
        | some json =>
            obtain ⟨hdevices, hoperators, hpresent⟩ := import_leaves himport hleft
            exact import_of_present hempty hdevices hoperators
              fun t ht hunused => hkeeps.tokens _ (hpresent t ht hunused)
  · refine iff_of_true ?_ (.inl hempty)
    cases file with
    | missing => rfl
    | unreadable => cases himport
    | content parsed =>
        simp only [Store.importLegacyJSON, ne_eq, hempty, not_false_eq_true, if_true]

section Restarts

/-- A new database. -/
def newStore : Store Unit := ⟨⟨[], fun _ => none⟩, [], 0, ()⟩

/-- An import from `control.json`. -/
def controlImport : ImportCall := ⟨ascii "control.json", Time.ofUnix 100, Ranging.listed⟩

/-- A device that was enrolled under the old store. -/
def doorRecord : LegacyRecord := ⟨ascii "door", Time.ofUnix 1, ascii "0a", false, none⟩

/-- A token that was issued under the old store and has not been used. -/
def gateToken : LegacyToken :=
  ⟨ascii "6a7e", ascii "device", ascii "gate", Time.ofUnix 1, Time.ofUnix 1000, none⟩

/-- An old store with a device and a token. The second import finds the device, although it has been
revoked since. -/
theorem enrolled_import_again :
    ∃ s', newStore.importLegacyJSON (.content (some ⟨[doorRecord], [], [gateToken]⟩))
        controlImport = (.ok 2, s') ∧
      (s'.applyAll [.revoke ⟨.device, ascii "door"⟩ (Time.ofUnix 200)]).importLegacyJSON
          (.content (some ⟨[doorRecord], [], [gateToken]⟩)) controlImport =
        (.ok 0, s'.applyAll [.revoke ⟨.device, ascii "door"⟩ (Time.ofUnix 200)]) := by
  have himport : newStore.importLegacyJSON (.content (some ⟨[doorRecord], [], [gateToken]⟩))
      controlImport = (.ok 2, (newStore.importLegacyJSON
        (.content (some ⟨[doorRecord], [], [gateToken]⟩)) controlImport).2) := rfl
  refine ⟨_, himport, (import_again_iff himport _ controlImport).mpr (.inl ?_)⟩
  exact List.cons_ne_nil _ _

/-- An old store with a token only. The first start imports it; the next one finds no identities,
imports it again and fails on its hash. -/
theorem token_import_fails_again :
    ∃ s', newStore.importLegacyJSON (.content (some ⟨[], [], [gateToken]⟩)) controlImport =
        (.ok 1, s') ∧
      s'.importLegacyJSON (.content (some ⟨[], [], [gateToken]⟩)) controlImport =
        (.error .token, s') :=
  ⟨_, rfl, rfl⟩

end Restarts

section Faithful

/-- What `Lookup` should find for a record of the file. -/
def LegacyRecord.FoundIn (r : LegacyRecord) (role : Role) (db : Database) : Prop :=
  if r.revoked then db.lookup ⟨role, r.id⟩ = .error .revoked
  else ∃ row, db.lookup ⟨role, r.id⟩ = .ok row ∧ row.serialHex = r.serialHex

/-- The database says what the file says: each record is found, as revoked if it is marked so, there
are no other identities, and a token can be consumed only if it was not consumed in the file. -/
structure Faithful (json : LegacyJSON) (db : Database) : Prop where
  devices : ∀ r ∈ json.devices, r.FoundIn .device db
  operators : ∀ r ∈ json.operators, r.FoundIn .operator db
  others : ∀ id row, db.records id = some row →
    (∃ r ∈ json.devices, id = ⟨.device, r.id⟩) ∨ ∃ r ∈ json.operators, id = ⟨.operator, r.id⟩
  tokens : ∀ hash now row, (db.consumeToken hash now).1 = .ok row →
    ∃ t ∈ json.tokens, t.hash = hash ∧ t.consumedAt = none

/-- The two marks of revocation agree. -/
def LegacyRecord.MarkedOnce (r : LegacyRecord) : Prop := r.revoked = r.revokedAt.isSome

variable {db : Database} {r : LegacyRecord} {role : Role} {hash : Bytes}

/-- A record whose row has been inserted is found as it should be if its marks agree. -/
theorem found_iff (hrow : db.records ⟨role, r.id⟩ = some (r.entry role).2) :
    r.FoundIn role db ↔ r.MarkedOnce := by
  have hlookup : db.lookup ⟨role, r.id⟩ =
      if r.revokedAt.isSome then .error .revoked else .ok (r.entry role).2 := by
    simp only [Database.lookup, Identities.lookup, Identities.lookupAny, Database.identityTable,
      hrow]
    simp only [LegacyRecord.entry, Option.isSome_map]
  rw [LegacyRecord.FoundIn, LegacyRecord.MarkedOnce, hlookup]
  cases r.revoked <;> cases r.revokedAt <;> simp [LegacyRecord.entry]

/-- A token can be consumed at some time exactly if its row is there and not consumed. -/
theorem consumable_iff :
    (∃ now row, (db.consumeToken hash now).1 = .ok row) ↔
      ∃ row, db.tokens hash = some row ∧ row.consumedAt = none := by
  constructor
  · rintro ⟨now, used, hconsume⟩
    unfold Database.consumeToken at hconsume
    split at hconsume
    · cases hconsume
    next row hrow =>
      split_ifs at hconsume with hconsumed hexpired
      exact ⟨row, hrow, by simpa using hconsumed⟩
  · rintro ⟨row, hrow, hunused⟩
    -- At the time of its expiry a token has not expired.
    have hfresh : (fromUnix row.expiresAt).after (fromUnix row.expiresAt) = false :=
      Time.not_after_iff.mpr (.inr rfl)
    refine ⟨fromUnix row.expiresAt, { row with consumedAt := some (unix (fromUnix row.expiresAt)) },
      ?_⟩
    simp [Database.consumeToken, hrow, hunused, hfresh]

end Faithful

/-- An import into a database without identities is faithful exactly if the two marks of revocation
agree in every record of the file, and the database had no token left to consume before. -/
theorem import_faithful_iff {Rest : Type} {s s' : Store Rest} {json : LegacyJSON}
    {call : ImportCall} {n : Nat} (hempty : s.db.identities = [])
    (himport : s.importLegacyJSON (.content (some json)) call = (.ok n, s')) :
    Faithful json s'.db ↔
      (∀ r ∈ json.devices ++ json.operators, r.MarkedOnce) ∧
        ∀ hash row, s.db.tokens hash = some row → row.consumedAt ≠ none := by
  have hrun := import_ok hempty himport
  have hrecords := run_fills insert_fills_records hrun
  have htokens := run_fills insert_fills_tokens hrun
  have hnone := identities_eq_nil_iff.mp hempty
  have hdevice : ∀ r ∈ json.devices, s'.db.records ⟨.device, r.id⟩ = some (r.entry .device).2 := by
    intro r hr
    exact (hrecords _ _).mpr
      (.inr ((call.ranging json).identity_row_iff.mpr (.inl ⟨r, hr, rfl⟩)))
  have hoperator :
      ∀ r ∈ json.operators, s'.db.records ⟨.operator, r.id⟩ = some (r.entry .operator).2 := by
    intro r hr
    exact (hrecords _ _).mpr
      (.inr ((call.ranging json).identity_row_iff.mpr (.inr ⟨r, hr, rfl⟩)))
  constructor
  · intro h
    refine ⟨?_, ?_⟩
    · intro r hr
      rcases List.mem_append.mp hr with hmem | hmem
      · exact (found_iff (hdevice r hmem)).mp (h.devices r hmem)
      · exact (found_iff (hoperator r hmem)).mp (h.operators r hmem)
    · -- The row is still there, and the file has no such token: its insert would have failed.
      intro hash row hrow hunused
      obtain ⟨now, used, hconsume⟩ :=
        consumable_iff.mpr ⟨row, (htokens hash row).mpr (.inl hrow), hunused⟩
      obtain ⟨t, ht, rfl, hcarried⟩ := h.tokens hash now used hconsume
      obtain ⟨statement, hstatement, hputs⟩ :=
        (call.ranging json).token_row_iff.mpr ⟨t, ht, hcarried, rfl⟩
      have hfree := run_fills_free insert_fills_tokens hrun hstatement hputs
      rw [show s.db.tokens t.hash = none from hfree] at hrow
      cases hrow
  · rintro ⟨hmarked, hused⟩
    refine ⟨?_, ?_, ?_, ?_⟩
    · intro r hr
      exact (found_iff (hdevice r hr)).mpr (hmarked r (List.mem_append_left _ hr))
    · intro r hr
      exact (found_iff (hoperator r hr)).mpr (hmarked r (List.mem_append_right _ hr))
    · intro id row hrow
      rcases (hrecords id row).mp hrow with hold | hnew
      · rw [hnone] at hold
        cases hold
      · rcases (call.ranging json).identity_row_iff.mp hnew with ⟨r, hr, hentry⟩ | ⟨r, hr, hentry⟩
        · exact .inl ⟨r, hr, (Prod.mk.inj hentry).1.symm⟩
        · exact .inr ⟨r, hr, (Prod.mk.inj hentry).1.symm⟩
    · intro hash now used hconsume
      obtain ⟨row, hrow, hunused⟩ := consumable_iff.mp ⟨now, used, hconsume⟩
      rcases (htokens hash row).mp hrow with hold | hnew
      · exact absurd hunused (hused hash row hold)
      · obtain ⟨t, ht, hcarried, hentry⟩ := (call.ranging json).token_row_iff.mp hnew
        exact ⟨t, ht, (Prod.mk.inj hentry).1, hcarried⟩

section Imported

/-- A device that was revoked, with the time. -/
def revokedRecord : LegacyRecord :=
  ⟨ascii "cellar", Time.ofUnix 1, ascii "0b", true, some (Time.ofUnix 50)⟩

/-- A device that was revoked, without a time. -/
def flaggedRecord : LegacyRecord := ⟨ascii "attic", Time.ofUnix 1, ascii "0c", true, none⟩

theorem timed_import_faithful :
    ∃ s', newStore.importLegacyJSON
        (.content (some ⟨[revokedRecord], [doorRecord], [gateToken]⟩)) controlImport =
        (.ok 3, s') ∧
      Faithful ⟨[revokedRecord], [doorRecord], [gateToken]⟩ s'.db := by
  have himport : newStore.importLegacyJSON
      (.content (some ⟨[revokedRecord], [doorRecord], [gateToken]⟩)) controlImport =
      (.ok 3, (newStore.importLegacyJSON
        (.content (some ⟨[revokedRecord], [doorRecord], [gateToken]⟩)) controlImport).2) := rfl
  refine ⟨_, himport, (import_faithful_iff rfl himport).mpr ⟨?_, ?_⟩⟩
  · simp [LegacyRecord.MarkedOnce, revokedRecord, doorRecord]
  · intro hash row hrow
    cases hrow

/-- A record that only its flag marks as revoked is imported as one that is not: `Lookup` returns
its serial. -/
theorem flagged_record_restored :
    ∃ s', newStore.importLegacyJSON (.content (some ⟨[flaggedRecord], [], []⟩)) controlImport =
        (.ok 1, s') ∧
      s'.db.lookup ⟨.device, ascii "attic"⟩ = .ok ⟨1, ascii "0c", none, [], none⟩ ∧
      ¬ Faithful ⟨[flaggedRecord], [], []⟩ s'.db := by
  have himport : newStore.importLegacyJSON (.content (some ⟨[flaggedRecord], [], []⟩))
      controlImport = (.ok 1, (newStore.importLegacyJSON
        (.content (some ⟨[flaggedRecord], [], []⟩)) controlImport).2) := rfl
  have hlookup : (newStore.importLegacyJSON (.content (some ⟨[flaggedRecord], [], []⟩))
      controlImport).2.db.lookup ⟨.device, ascii "attic"⟩ =
      .ok ⟨1, ascii "0c", none, [], none⟩ := rfl
  refine ⟨_, himport, hlookup, ?_⟩
  intro hfaithful
  have hfound : _ = Except.error StoreError.revoked :=
    hfaithful.devices flaggedRecord (List.mem_singleton_self _)
  rw [show flaggedRecord.id = ascii "attic" from rfl, hlookup] at hfound
  cases hfound

end Imported

end AccessRelay.Storage
