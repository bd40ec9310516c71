import AccessRelay.Machine.Pool
import AccessRelay.Storage.Identities

/-!
# Enrollment and renewal

`internal/control/enrollment`: `verifyEnrolled` decides whether a presented certificate still
belongs to a live identity, `Renew` issues a new certificate to the holder of an accepted one,
and `Enroll` turns a token into a certificate.

The service is a pool of concurrent calls on the database. Each step of a call is one store
operation, exactly as the source separates them: `Renew` looks the record up, promotes a pending
serial if that is what was presented, and later records the new serial as pending with a
statement of its own. Signing is local to the call and is part of the step that records its
result. The serial numbers the authority draws are inputs, and a serial never repeats.

`Ledger` keeps two histories that the database itself does not: which certificates were issued
and on whose authority, and which serials each commit retired.
-/

namespace AccessRelay.Control

open Encoding Ca Go Storage Machine

/-- Errors of the enrollment service. `storeFailure` is any failure of the database itself. -/
inductive EnrollError where
  | ca (error : CaError)
  | store (error : StoreError)
  | superseded
  | invalidCSR
  | storeFailure
  deriving DecidableEq, Repr

/-- What the record on file says of a presented serial. -/
inductive Verdict where
  | current
  | pending
  | superseded
  deriving DecidableEq, Repr

/-- The switch in `VerifyEnrolled`. -/
def verdict (rec : Record) (presented : Bytes) : Verdict :=
  if rec.serialHex = presented then .current
  else if rec.pendingSerialHex ≠ [] ∧ rec.pendingSerialHex = presented then .pending
  else .superseded

/-- `VerifyEnrolled` run by itself: the certificate's identity, and the database after a first
use of a renewed certificate has promoted it. -/
def verifyEnrolled (db : Identities) (cert : Certificate) :
    Except EnrollError Identity × Identities :=
  match identityOf cert with
  | .error e => (.error (.ca e), db)
  | .ok id =>
      match db.lookup id with
      | .error e => (.error (.store e), db)
      | .ok rec =>
          match verdict rec cert.serialHex with
          | .current => (.ok id, db)
          | .pending => (.ok id, db.promoteSerial id cert.serialHex)
          | .superseded => (.error .superseded, db)

/-- `parseCSR` followed by `CA.Sign`; `none` is a request that does not parse. -/
def issueCertificate (csr : Option CertificateRequest) (id : Identity) (serialHex : Bytes)
    (hserial : serialHex ≠ []) : Except EnrollError Certificate :=
  match csr with
  | none => .error .invalidCSR
  | some csr =>
      match sign csr id serialHex hserial with
      | .error e => .error (.ca e)
      | .ok cert => .ok cert

/-- The lifetime of an enrollment token, `DefaultTokenTTL`. -/
def defaultTokenTTL : Duration := hour

/-- What a verified certificate is wanted for: the connection itself, or a renewal. -/
inductive Purpose where
  | verify
  | renew (csr : Option CertificateRequest)
  deriving DecidableEq

/-- A call in progress, named after the store operation it performs next. -/
inductive Call where
  | lookup (purpose : Purpose) (cert : Certificate)
  | promote (purpose : Purpose) (cert : Certificate) (id : Identity)
  | putPending (cert : Certificate) (id : Identity) (csr : Option CertificateRequest)
  | consumeToken (token : Bytes) (csr : Option CertificateRequest)
  | putRecord (id : Identity) (csr : Option CertificateRequest)
  | issueToken (token : Bytes) (id : Identity)
  | revoke (id : Identity)
  | verified (id : Identity)
  | issued (cert : Certificate)
  | done
  | failed (error : EnrollError)
  deriving DecidableEq

/-- `VerifyEnrolled` has accepted the certificate: return, or go on to the renewal. -/
def Call.afterVerify (cert : Certificate) (id : Identity) : Purpose → Call
  | .verify => .verified id
  | .renew csr => .putPending cert id csr

/-- The call has returned. -/
def Call.returned : Call → Bool
  | .verified _ | .issued _ | .done | .failed _ => true
  | _ => false

/-- A certificate the authority signed. `auth` is the serial that authenticated the renewal, and
`none` for an enrollment. -/
structure Issued where
  cert : Certificate
  id : Identity
  auth : Option Bytes
  deriving DecidableEq

/-- A `PutRecord` or a promotion: what it retired and what it made current. -/
structure Commit where
  id : Identity
  retired : List Bytes
  current : Bytes
  deriving DecidableEq

/-- The database, and the history of what was issued and retired. -/
structure Ledger where
  db : Identities
  issued : List Issued
  commits : List Commit

/-- A new deployment. -/
def Ledger.empty : Ledger := ⟨Identities.empty, [], []⟩

/-- The serials a record accepts. -/
def serials (rec : Record) : List Bytes :=
  if rec.pendingSerialHex = [] then [rec.serialHex] else [rec.serialHex, rec.pendingSerialHex]

/-- The serials on file for an identity. -/
def serialsOf (db : Identities) (id : Identity) : List Bytes :=
  (db.identities id).elim [] serials

/-- A commit that replaces the row of one identity. The serials it retires are those the old row
accepted and the new row does not. -/
def Ledger.commit (ledger : Ledger) (id : Identity) (after : Identities) : Ledger :=
  match after.identities id with
  | none => { ledger with db := after }
  | some rec =>
      let retired := (serialsOf ledger.db id).filter fun serial => serial ∉ serialsOf after id
      { ledger with db := after, commits := ⟨id, retired, rec.serialHex⟩ :: ledger.commits }

/-- What the environment supplies to a step: the clock, the serial number drawn if the step
signs, and whether the store operation fails. -/
structure Input where
  now : Time
  serialHex : Bytes
  serialHex_ne : serialHex ≠ []
  fault : Bool

/-- The next store operation of a call. `hash` is `storage.HashToken`. -/
def callStep (hash : Bytes → Bytes) (ledger : Ledger) (call : Call) (input : Input) :
    Option (Ledger × Call) :=
  if call.returned then none
  else if input.fault then some (ledger, .failed .storeFailure)
  else match call with
  | .lookup purpose cert =>
      match identityOf cert with
      | .error e => some (ledger, .failed (.ca e))
      | .ok id =>
          match ledger.db.lookup id with
          | .error e => some (ledger, .failed (.store e))
          | .ok rec =>
              match verdict rec cert.serialHex with
              | .current => some (ledger, .afterVerify cert id purpose)
              | .pending => some (ledger, .promote purpose cert id)
              | .superseded => some (ledger, .failed .superseded)
  | .promote purpose cert id =>
      some (ledger.commit id (ledger.db.promoteSerial id cert.serialHex),
        .afterVerify cert id purpose)
  | .putPending cert id csr =>
      match issueCertificate csr id input.serialHex input.serialHex_ne with
      | .error e => some (ledger, .failed e)
      | .ok new =>
          if ∃ old ∈ ledger.issued, old.cert.serialHex = new.serialHex then none
          else
            let issued := ⟨new, id, some cert.serialHex⟩ :: ledger.issued
            match ledger.db.putPendingSerial id new.serialHex input.now with
            | (.error e, _) => some ({ ledger with issued }, .failed (.store e))
            | (.ok (), db) => some ({ ledger with db, issued }, .issued new)
  | .consumeToken token csr =>
      match ledger.db.consumeToken (hash token) input.now with
      | (.error e, _) => some (ledger, .failed (.store e))
      | (.ok token, db) => some ({ ledger with db }, .putRecord token.identity csr)
  | .putRecord id csr =>
      match issueCertificate csr id input.serialHex input.serialHex_ne with
      | .error e => some (ledger, .failed e)
      | .ok new =>
          if ∃ old ∈ ledger.issued, old.cert.serialHex = new.serialHex then none
          else
            let ledger := { ledger with issued := ⟨new, id, none⟩ :: ledger.issued }
            some (ledger.commit id (ledger.db.putRecord id new.serialHex input.now),
              .issued new)
  | .issueToken token id =>
      let row := ⟨id, unix input.now, unix (input.now.add defaultTokenTTL), none⟩
      some ({ ledger with db := ledger.db.putToken (hash token) row }, .done)
  | .revoke id =>
      match ledger.db.revoke id input.now with
      | (.error e, _) => some (ledger, .failed (.store e))
      | (.ok (), db) => some ({ ledger with db }, .done)
  | _ => none

/-- The calls that can be started. TLS admits only certificates the authority signed, and
`IssueToken` refuses an empty identity. -/
def mayStart (ledger : Ledger) : Call → Bool
  | .lookup _ cert => ledger.issued.any fun issue => issue.cert = cert
  | .consumeToken _ _ | .revoke _ => true
  | .issueToken _ id => id.id ≠ []
  | _ => false

/-- One action of the enrollment service. -/
def serviceStep (hash : Bytes → Bytes) :
    Pool Ledger Call → PoolAction Call Input → Option (Pool Ledger Call) :=
  poolStep mayStart (callStep hash)

/-- A serial on file is the current or the pending one. -/
theorem mem_serials {rec : Record} {serial : Bytes} :
    serial ∈ serials rec ↔ serial = rec.serialHex ∨
      (rec.pendingSerialHex ≠ [] ∧ serial = rec.pendingSerialHex) := by
  unfold serials
  split <;> simp_all

/-- The serials on file for an identity are those of its record. -/
theorem mem_serials_of {db : Identities} {id : Identity} {serial : Bytes} :
    serial ∈ serialsOf db id ↔ ∃ rec, db.identities id = some rec ∧ serial ∈ serials rec := by
  unfold serialsOf
  cases db.identities id <;> simp

/-- `VerifyEnrolled` accepts a certificate exactly when it names an identity that is not revoked
and whose record has its serial on file. -/
theorem verify_enrolled_ok_iff {db : Identities} {cert : Certificate} {id : Identity} :
    (verifyEnrolled db cert).1 = .ok id ↔ identityOf cert = .ok id ∧
      ∃ rec, db.lookup id = .ok rec ∧ cert.serialHex ∈ serials rec := by
  unfold verifyEnrolled
  cases identityOf cert with
  | error e => simp
  | ok named =>
      simp only [Except.ok.injEq]
      cases hlookup : db.lookup named with
      | error e =>
          constructor
          · intro h
            cases h
          · rintro ⟨rfl, rec, hrec, -⟩
            simp [hlookup] at hrec
      | ok row =>
          simp only [verdict]
          split_ifs with hcurrent hpending
          · constructor
            · rintro ⟨⟩
              exact ⟨rfl, row, hlookup, mem_serials.mpr (.inl hcurrent.symm)⟩
            · rintro ⟨rfl, -⟩
              rfl
          · constructor
            · rintro ⟨⟩
              exact ⟨rfl, row, hlookup, mem_serials.mpr (.inr ⟨hpending.1, hpending.2.symm⟩)⟩
            · rintro ⟨rfl, -⟩
              rfl
          · constructor
            · intro h
              cases h
            · rintro ⟨rfl, rec, hrec, hserial⟩
              obtain rfl : row = rec := by simpa [hlookup] using hrec
              rcases mem_serials.mp hserial with h | h
              · exact absurd h.symm hcurrent
              · exact absurd ⟨h.1, h.2.symm⟩ hpending

@[simp] theorem Ledger.commit_db (ledger : Ledger) (id : Identity) (after : Identities) :
    (ledger.commit id after).db = after := by
  unfold Ledger.commit
  split <;> rfl

@[simp] theorem Ledger.commit_issued (ledger : Ledger) (id : Identity) (after : Identities) :
    (ledger.commit id after).issued = ledger.issued := by
  unfold Ledger.commit
  split <;> rfl

/-- What the next store operation of a call can do to the ledger and to the call. -/
inductive CallEffect (ledger : Ledger) : Call → Ledger → Call → Prop
  | failed {call : Call} (hlive : call.returned = false) (error : EnrollError) :
      CallEffect ledger call ledger (.failed error)
  | accepted {purpose : Purpose} {cert : Certificate} {id : Identity} {rec : Record}
      (hid : identityOf cert = .ok id) (hrec : ledger.db.lookup id = .ok rec)
      (hserial : rec.serialHex = cert.serialHex) :
      CallEffect ledger (.lookup purpose cert) ledger (.afterVerify cert id purpose)
  | firstUse {purpose : Purpose} {cert : Certificate} {id : Identity} {rec : Record}
      (hid : identityOf cert = .ok id) (hrec : ledger.db.lookup id = .ok rec)
      (hserial : rec.pendingSerialHex = cert.serialHex) :
      CallEffect ledger (.lookup purpose cert) ledger (.promote purpose cert id)
  | promoted {purpose : Purpose} {cert : Certificate} {id : Identity} :
      CallEffect ledger (.promote purpose cert id)
        (ledger.commit id (ledger.db.promoteSerial id cert.serialHex))
        (.afterVerify cert id purpose)
  | renewed {cert new : Certificate} {id : Identity} {csr : Option CertificateRequest}
      {rec : Record} {now : Time} (hrec : ledger.db.lookup id = .ok rec)
      (hid : identityOf new = .ok id)
      (hfresh : ∀ old ∈ ledger.issued, old.cert.serialHex ≠ new.serialHex) :
      CallEffect ledger (.putPending cert id csr)
        { ledger with
          db := ledger.db.setRow id { rec with
            pendingSerialHex := new.serialHex, pendingIssuedAt := some (unix now) }
          issued := ⟨new, id, some cert.serialHex⟩ :: ledger.issued }
        (.issued new)
  | unrecorded {cert new : Certificate} {id : Identity} {csr : Option CertificateRequest}
      {error : StoreError} (hid : identityOf new = .ok id)
      (hfresh : ∀ old ∈ ledger.issued, old.cert.serialHex ≠ new.serialHex) :
      CallEffect ledger (.putPending cert id csr)
        { ledger with issued := ⟨new, id, some cert.serialHex⟩ :: ledger.issued }
        (.failed (.store error))
  | enrolled {new : Certificate} {id : Identity} {csr : Option CertificateRequest} {now : Time}
      (hid : identityOf new = .ok id)
      (hfresh : ∀ old ∈ ledger.issued, old.cert.serialHex ≠ new.serialHex) :
      CallEffect ledger (.putRecord id csr)
        ({ ledger with issued := ⟨new, id, none⟩ :: ledger.issued }.commit id
          (ledger.db.putRecord id new.serialHex now))
        (.issued new)
  | tokens {call call' : Call} {db : Identities} (hsame : db.identities = ledger.db.identities)
      (hcall : (∃ token csr id, call = .consumeToken token csr ∧ call' = .putRecord id csr) ∨
        (∃ token id, call = .issueToken token id ∧ call' = .done) ∨
        (∃ id, call = .revoke id ∧ call' = .done)) :
      CallEffect ledger call { ledger with db } call'
  | revoked {id : Identity} {rec : Record} {at' : Option Int64}
      (hrec : ledger.db.identities id = some rec) :
      CallEffect ledger (.revoke id)
        { ledger with db := ledger.db.setRow id { rec with revokedAt := at' } } .done

/-- A certificate that was issued names the identity it was issued for. -/
theorem identity_of_issue {csr : Option CertificateRequest} {id : Identity} {serialHex : Bytes}
    {hserial : serialHex ≠ []} {cert : Certificate}
    (h : issueCertificate csr id serialHex hserial = .ok cert) : identityOf cert = .ok id := by
  cases csr with
  | none => cases h
  | some csr =>
      cases hsign : sign csr id serialHex hserial with
      | error e => simp [issueCertificate, hsign] at h
      | ok new =>
          obtain rfl : new = cert := by simpa [issueCertificate, hsign] using h
          exact (identity_of_sign hsign).1

/-- Every step of a call is one of the effects above. -/
theorem call_step_effect {hash : Bytes → Bytes} {ledger ledger' : Ledger} {call call' : Call}
    {input : Input} (h : callStep hash ledger call input = some (ledger', call')) :
    CallEffect ledger call ledger' call' := by
  unfold callStep at h
  split at h
  · cases h
  next hlive =>
  rw [Bool.not_eq_true] at hlive
  split at h
  · cases h
    exact .failed hlive _
  cases call with
  | lookup purpose cert =>
      dsimp only at h
      cases hid : identityOf cert with
      | error e =>
          simp only [hid, Option.some.injEq, Prod.mk.injEq] at h
          obtain ⟨rfl, rfl⟩ := h
          exact .failed rfl _
      | ok id =>
          simp only [hid] at h
          cases hrec : ledger.db.lookup id with
          | error e =>
              simp only [hrec, Option.some.injEq, Prod.mk.injEq] at h
              obtain ⟨rfl, rfl⟩ := h
              exact .failed rfl _
          | ok rec =>
              simp only [hrec, verdict] at h
              split_ifs at h with hcurrent hpending
              · cases h
                exact .accepted hid hrec hcurrent
              · cases h
                exact .firstUse hid hrec hpending.2
              · cases h
                exact .failed rfl _
  | promote purpose cert id =>
      cases h
      exact .promoted
  | putPending cert id csr =>
      dsimp only at h
      split at h
      · cases h
        exact .failed rfl _
      next new hnew =>
        have hid := identity_of_issue hnew
        split at h
        · cases h
        next hold =>
          push Not at hold
          rcases ledger.db.put_pending_serial_cases id new.serialHex input.now with
            ⟨rec, hrec, hput⟩ | ⟨e, -, hput⟩
          · rw [hput] at h
            cases h
            exact .renewed hrec hid hold
          · rw [hput] at h
            cases h
            exact .unrecorded hid hold
  | consumeToken token csr =>
      dsimp only [Identities.consumeToken] at h
      cases hrow : ledger.db.tokens (hash token) with
      | none =>
          simp only [hrow, Option.some.injEq, Prod.mk.injEq] at h
          obtain ⟨rfl, rfl⟩ := h
          exact .failed rfl _
      | some row =>
          simp only [hrow] at h
          split_ifs at h <;> cases h
          · exact .failed rfl _
          · exact .failed rfl _
          · exact .tokens rfl (.inl ⟨token, csr, row.identity, rfl, rfl⟩)
  | putRecord id csr =>
      dsimp only at h
      split at h
      · cases h
        exact .failed rfl _
      next new hnew =>
        split at h
        · cases h
        next hold =>
          push Not at hold
          cases h
          exact .enrolled (identity_of_issue hnew) hold
  | issueToken token id =>
      cases h
      exact .tokens rfl (.inr (.inl ⟨token, id, rfl, rfl⟩))
  | revoke id =>
      dsimp only [Identities.revoke] at h
      cases hrow : ledger.db.identities id with
      | none =>
          simp only [hrow, Option.some.injEq, Prod.mk.injEq] at h
          obtain ⟨rfl, rfl⟩ := h
          exact .failed rfl _
      | some row =>
          simp only [hrow] at h
          split_ifs at h <;> cases h
          · exact .tokens rfl (.inr (.inr ⟨id, rfl, rfl⟩))
          · exact .revoked hrow
  | verified | issued | done | failed => cases h

end AccessRelay.Control
