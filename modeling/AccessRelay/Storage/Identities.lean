import AccessRelay.Ca.Identity
import AccessRelay.Go.Time

/-!
# Identity and token tables

The two tables of `internal/storage/identities.go`: enrolled identities, keyed by role and
name, and enrollment tokens, keyed by the hash of the token. Every operation here is one SQL
statement or one transaction, so each is a single step of any interleaving; what several of
them do in sequence is up to their callers.

The tables keep times as whole Unix seconds (`unix`).
-/

namespace AccessRelay.Storage

open Encoding Ca Go

/-- The stored form of an instant: whole seconds, rounded down. -/
def unix (t : Time) : Int64 := t.truncateSecond.unix

/-- The instant a stored timestamp denotes. -/
def fromUnix (v : Int64) : Time := Time.ofUnix v

/-- Errors of the store, distinct because callers choose a reason code from them. -/
inductive StoreError where
  | tokenUnknown
  | tokenConsumed
  | tokenExpired
  | revoked
  | notEnrolled
  | sessionUnknown
  | sessionExpired
  | sessionRevoked
  | grantUnknown
  deriving DecidableEq, Repr

/-- A row of `identities`. An empty `pendingSerialHex` means no renewal is outstanding. -/
structure Record where
  enrolledAt : Int64
  serialHex : Bytes
  revokedAt : Option Int64
  pendingSerialHex : Bytes
  pendingIssuedAt : Option Int64
  deriving DecidableEq

/-- A row of `enrollment_tokens`. -/
structure Token where
  identity : Identity
  issuedAt : Int64
  expiresAt : Int64
  consumedAt : Option Int64
  deriving DecidableEq, Repr

/-- The two tables. -/
structure Identities where
  identities : Identity → Option Record
  tokens : Bytes → Option Token

/-- A new database. -/
def Identities.empty : Identities := ⟨fun _ => none, fun _ => none⟩

namespace Identities

variable (db : Identities)

/-- `PutToken`: a token already on file keeps its consumption mark. -/
def putToken (hash : Bytes) (token : Token) : Identities :=
  let row := match db.tokens hash with
    | none => token
    | some old => { token with consumedAt := old.consumedAt }
  { db with tokens := Function.update db.tokens hash (some row) }

/-- `ConsumeToken`: validate a token and mark it used, in one transaction. -/
def consumeToken (hash : Bytes) (now : Time) : Except StoreError Token × Identities :=
  match db.tokens hash with
  | none => (.error .tokenUnknown, db)
  | some token =>
      if token.consumedAt.isSome then (.error .tokenConsumed, db)
      else if now.after (fromUnix token.expiresAt) then (.error .tokenExpired, db)
      else
        let used := { token with consumedAt := some (unix now) }
        (.ok used, { db with tokens := Function.update db.tokens hash (some used) })

/-- The table with one row replaced. -/
def setRow (id : Identity) (row : Record) : Identities :=
  { db with identities := Function.update db.identities id (some row) }

/-- `PutRecord`: store or replace an identity; any outstanding renewal is discarded and any
revocation cleared. -/
def putRecord (id : Identity) (serialHex : Bytes) (now : Time) : Identities :=
  db.setRow id ⟨unix now, serialHex, none, [], none⟩

/-- `lookupAny`: an identity whether or not it is revoked. -/
def lookupAny (id : Identity) : Except StoreError Record :=
  match db.identities id with
  | none => .error .notEnrolled
  | some rec => .ok rec

/-- `Lookup`: an identity, refusing revoked ones. -/
def lookup (id : Identity) : Except StoreError Record :=
  match db.lookupAny id with
  | .error e => .error e
  | .ok rec => if rec.revokedAt.isSome then .error .revoked else .ok rec

/-- `PutPendingSerial`: record a renewed certificate without superseding the current one. The
condition of the UPDATE is that the row exists and is not revoked, and nothing else. -/
def putPendingSerial (id : Identity) (serialHex : Bytes) (now : Time) :
    Except StoreError Unit × Identities :=
  match db.identities id with
  | none => (.error .notEnrolled, db)
  | some rec =>
      if rec.revokedAt.isSome then (.error .revoked, db)
      else
        (.ok (), db.setRow id { rec with
          pendingSerialHex := serialHex, pendingIssuedAt := some (unix now) })

/-- `PromoteSerial`: make the pending certificate the current one, if the row still has this
serial pending and is not revoked. No row updated is not an error. -/
def promoteSerial (id : Identity) (serialHex : Bytes) : Identities :=
  match db.identities id with
  | none => db
  | some rec =>
      if rec.pendingSerialHex = serialHex ∧ rec.revokedAt.isNone then
        db.setRow id { rec with
          serialHex := rec.pendingSerialHex, pendingSerialHex := [], pendingIssuedAt := none }
      else db

/-- `Revoke`: mark an identity revoked; revoking twice changes nothing. -/
def revoke (id : Identity) (now : Time) : Except StoreError Unit × Identities :=
  match db.identities id with
  | none => (.error .notEnrolled, db)
  | some rec =>
      if rec.revokedAt.isSome then (.ok (), db)
      else
        (.ok (), db.setRow id { rec with revokedAt := some (unix now) })

variable {db} {id : Identity} {rec : Record}

@[simp] theorem set_row_same (db : Identities) (id : Identity) (row : Record) :
    (db.setRow id row).identities id = some row := by
  simp [setRow]

theorem set_row_other (db : Identities) {id other : Identity} (row : Record) (h : other ≠ id) :
    (db.setRow id row).identities other = db.identities other := by
  simp [setRow, h]

/-- `Lookup` succeeds exactly on a row that is not revoked. -/
theorem lookup_eq_ok_iff :
    db.lookup id = .ok rec ↔ db.identities id = some rec ∧ rec.revokedAt = none := by
  unfold lookup lookupAny
  cases hrow : db.identities id with
  | none => simp
  | some row =>
      simp only [Option.some.injEq]
      split
      · constructor
        · intro h
          cases h
        · rintro ⟨rfl, hlive⟩
          simp_all
      · constructor
        · intro h
          cases h
          exact ⟨rfl, by simp_all⟩
        · rintro ⟨rfl, -⟩
          rfl

/-- `PutPendingSerial` replaces the pending serial of a row that is not revoked, whatever its
current serial is, and otherwise changes nothing. -/
theorem put_pending_serial_cases (db : Identities) (id : Identity) (serialHex : Bytes)
    (now : Time) :
    (∃ rec, db.lookup id = .ok rec ∧ db.putPendingSerial id serialHex now =
      (.ok (), db.setRow id { rec with
        pendingSerialHex := serialHex, pendingIssuedAt := some (unix now) })) ∨
    (∃ e, db.lookup id = .error e ∧ db.putPendingSerial id serialHex now = (.error e, db)) := by
  unfold putPendingSerial lookup lookupAny
  cases hrow : db.identities id with
  | none => exact .inr ⟨_, rfl, rfl⟩
  | some row =>
      cases hrevoked : row.revokedAt with
      | none => exact .inl ⟨row, by simp [hrevoked], by simp [hrevoked]⟩
      | some at' => exact .inr ⟨.revoked, by simp [hrevoked], by simp [hrevoked]⟩

/-- `PromoteSerial` moves the pending serial into place if it is still the one presented, and
otherwise changes nothing. -/
theorem promote_serial_cases (db : Identities) (id : Identity) (serialHex : Bytes) :
    (∃ rec, db.identities id = some rec ∧ rec.pendingSerialHex = serialHex ∧
      rec.revokedAt = none ∧ db.promoteSerial id serialHex = db.setRow id { rec with
        serialHex, pendingSerialHex := [], pendingIssuedAt := none }) ∨
    ((∀ rec, db.identities id = some rec → rec.revokedAt = none →
      rec.pendingSerialHex ≠ serialHex) ∧ db.promoteSerial id serialHex = db) := by
  unfold promoteSerial
  cases hrow : db.identities id with
  | none => exact .inr ⟨by simp, rfl⟩
  | some row =>
      by_cases hpending : row.pendingSerialHex = serialHex ∧ row.revokedAt.isNone
      · refine .inl ⟨row, rfl, hpending.1, by simpa using hpending.2, ?_⟩
        simp [hpending]
      · refine .inr ⟨?_, by simp only [hpending, if_false]⟩
        rintro rec ⟨⟩ hlive hserial
        exact hpending ⟨hserial, by simp [hlive]⟩

end Identities

end AccessRelay.Storage
