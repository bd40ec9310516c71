import AccessRelay.Control.Superseded

/-!
# Acceptance over the life of an identity

`Superseded` looks at calls that interleave. Here every operation runs to its end before the
next one begins: `Operation.perform` runs one call of the service alone, with whatever the
store and the authority answer it, and `operationStep` is the machine of such operations.

In that setting the current serial, the pending serial and the revocation mark of a row behave
as one would hope (`acceptance_over_life`). Everything follows from what a step does to the row
of one identity (`RowEffect`): a serial that it puts on file was not issued before, so a serial
that has left the file cannot return to it.
-/

namespace AccessRelay.Control

open Encoding Ca Go Storage Machine

/-- `VerifyEnrolled` accepts the certificate for the identity. -/
def Accepts (db : Identities) (id : Identity) (cert : Certificate) : Prop :=
  (verifyEnrolled db cert).1 = .ok id

instance (db : Identities) (id : Identity) (cert : Certificate) :
    Decidable (Accepts db id cert) :=
  inferInstanceAs (Decidable ((verifyEnrolled db cert).1 = .ok id))

/-- The operations of the service, by the call they begin with: `VerifyEnrolled` and `Renew`
look the certificate up, `Enroll` consumes its token. -/
def Call.begins : Call → Bool
  | .lookup _ _ | .consumeToken _ _ | .revoke _ => true
  | .issueToken _ id => id.id ≠ []
  | _ => false

/-- One call, and what the environment supplies to each of its steps. -/
structure Operation where
  call : Call
  inputs : List Input

/-- A step of a call that has the store to itself. -/
def soloStep (hash : Bytes → Bytes) (state : Ledger × Call) (input : Input) :
    Option (Ledger × Call) :=
  callStep hash state.1 state.2 input

/-- Run an operation until it returns: the ledger it leaves and how it ended. -/
def Operation.perform (hash : Bytes → Bytes) (ledger : Ledger) (op : Operation) :
    Option (Ledger × Call) :=
  if op.call.begins then
    (run (soloStep hash) (ledger, op.call) op.inputs).filter fun state => state.2.returned
  else none

/-- A complete operation on the ledger. -/
def operationStep (hash : Bytes → Bytes) (ledger : Ledger) (op : Operation) : Option Ledger :=
  (op.perform hash ledger).map Prod.fst

/-- The identity whose row a call works on. For an enrollment it is the one the token names. -/
def Call.subject (hash : Bytes → Bytes) (db : Identities) : Call → Option Identity
  | .lookup _ cert => (identityOf cert).toOption
  | .consumeToken token _ => (db.tokens (hash token)).map Token.identity
  | .promote _ _ id | .putPending _ id _ | .putRecord id _ | .revoke id => some id
  | _ => none

/-- The serial is on file for an identity that is not revoked. -/
def OnFile (db : Identities) (id : Identity) (serial : Bytes) : Prop :=
  ∃ rec, db.lookup id = .ok rec ∧ serial ∈ serials rec

theorem accepts_iff {db : Identities} {id : Identity} {cert : Certificate} :
    Accepts db id cert ↔ identityOf cert = .ok id ∧ OnFile db id cert.serialHex :=
  verify_enrolled_ok_iff

section Rows

variable {hash : Bytes → Bytes} {ledger ledger' : Ledger} {call call' : Call} {id : Identity}

/-- `Lookup` reads the row of its identity and nothing else. -/
theorem lookup_congr {db db' : Identities} (h : db'.identities id = db.identities id) :
    db'.lookup id = db.lookup id := by
  simp only [Identities.lookup, Identities.lookupAny, h]

/-- What is on file for an identity depends on its row alone. -/
theorem on_file_congr {db db' : Identities} (h : db'.identities id = db.identities id)
    {serial : Bytes} : OnFile db' id serial ↔ OnFile db id serial := by
  rw [OnFile, OnFile, lookup_congr h]

/-- A row in place that is not revoked accepts its own serials. -/
theorem on_file_iff_of_row {db : Identities} {row : Record} (hrow : db.identities id = some row)
    {serial : Bytes} : OnFile db id serial ↔ row.revokedAt = none ∧ serial ∈ serials row := by
  constructor
  · rintro ⟨rec, hrec, hserial⟩
    obtain ⟨hrec, hlive⟩ := Identities.lookup_eq_ok_iff.mp hrec
    obtain rfl : row = rec := Option.some.inj (hrow.symm.trans hrec)
    exact ⟨hlive, hserial⟩
  · rintro ⟨hlive, hserial⟩
    exact ⟨row, Identities.lookup_eq_ok_iff.mpr ⟨hrow, hlive⟩, hserial⟩

/-- A revoked row has nothing on file. -/
theorem not_on_file_of_revoked {db : Identities} {row : Record}
    (hrow : db.identities id = some row) (hrevoked : row.revokedAt.isSome) (serial : Bytes) :
    ¬ OnFile db id serial := by
  intro hserial
  obtain ⟨hlive, -⟩ := (on_file_iff_of_row hrow).mp hserial
  rw [hlive] at hrevoked
  cases hrevoked

/-- What a step of a call can do to the row of one identity. -/
inductive RowEffect (ledger : Ledger) (id : Identity) (ledger' : Ledger) : Call → Prop
  | kept {call : Call} (hsame : ledger'.db.identities id = ledger.db.identities id) :
      RowEffect ledger id ledger' call
  | promoted {purpose : Purpose} {cert : Certificate} {rec : Record}
      (hrec : ledger.db.lookup id = .ok rec) (hpending : rec.pendingSerialHex = cert.serialHex)
      (hrow : ledger'.db.identities id = some { rec with
        serialHex := cert.serialHex, pendingSerialHex := [], pendingIssuedAt := none }) :
      RowEffect ledger id ledger' (.promote purpose cert id)
  | renewed {cert new : Certificate} {csr : Option CertificateRequest} {rec : Record}
      {now : Time} (hrec : ledger.db.lookup id = .ok rec)
      (hrow : ledger'.db.identities id = some { rec with
        pendingSerialHex := new.serialHex, pendingIssuedAt := some (unix now) })
      (hissued : ⟨new, id, some cert.serialHex⟩ ∈ ledger'.issued)
      (hfresh : ∀ old ∈ ledger.issued, old.cert.serialHex ≠ new.serialHex) :
      RowEffect ledger id ledger' (.putPending cert id csr)
  | enrolled {new : Certificate} {csr : Option CertificateRequest} {now : Time}
      (hrow : ledger'.db.identities id = some ⟨unix now, new.serialHex, none, [], none⟩)
      (hissued : ⟨new, id, none⟩ ∈ ledger'.issued)
      (hfresh : ∀ old ∈ ledger.issued, old.cert.serialHex ≠ new.serialHex) :
      RowEffect ledger id ledger' (.putRecord id csr)
  | revoked {row : Record} (hrow : ledger'.db.identities id = some row)
      (hrevoked : row.revokedAt.isSome) : RowEffect ledger id ledger' (.revoke id)

/-- `Revoke` returns with the row of its identity marked, and leaves the others alone. -/
theorem revoke_row {db db' : Identities} {now : Time} (h : db.revoke id now = (.ok (), db')) :
    (∃ row, db'.identities id = some row ∧ row.revokedAt.isSome) ∧
      ∀ other, other ≠ id → db'.identities other = db.identities other := by
  unfold Identities.revoke at h
  cases hrow : db.identities id with
  | none => simp [hrow] at h
  | some row =>
      simp only [hrow] at h
      split_ifs at h with hrevoked <;> cases h
      · exact ⟨⟨row, hrow, hrevoked⟩, fun _ _ => rfl⟩
      · exact ⟨⟨_, Identities.set_row_same .., rfl⟩, fun _ => Identities.set_row_other _ _⟩

/-- A step of `Revoke` fails and changes nothing, or returns with the row marked. -/
theorem revoke_step {input : Input}
    (h : callStep hash ledger (.revoke id) input = some (ledger', call')) :
    (ledger' = ledger ∧ call' ≠ .done) ∨
      (∃ row, ledger'.db.identities id = some row ∧ row.revokedAt.isSome) ∧
        ∀ other, other ≠ id → ledger'.db.identities other = ledger.db.identities other := by
  simp only [callStep, Call.returned, Bool.false_eq_true, if_false] at h
  split at h
  · cases h
    refine .inl ⟨rfl, ?_⟩
    intro hdone
    cases hdone
  split at h
  · cases h
    refine .inl ⟨rfl, ?_⟩
    intro hdone
    cases hdone
  next db hrevoke =>
    cases h
    exact .inr (revoke_row hrevoke)

/-- Every step does one of these things to the row of any identity. -/
theorem call_step_row {input : Input}
    (h : callStep hash ledger call input = some (ledger', call')) (id : Identity) :
    RowEffect ledger id ledger' call := by
  by_cases hrevoke : ∃ target, call = .revoke target
  · obtain ⟨target, rfl⟩ := hrevoke
    rcases revoke_step h with ⟨rfl, -⟩ | ⟨⟨row, hrow, hrevoked⟩, hother⟩
    · exact .kept rfl
    · by_cases heq : id = target
      · subst heq
        exact .revoked hrow hrevoked
      · exact .kept (hother id heq)
  cases call_step_effect h with
  | failed | accepted | firstUse => exact .kept rfl
  | @promoted purpose cert target =>
      rcases ledger.db.promote_serial_cases target cert.serialHex with
        ⟨rec, hrec, hpending, hlive, hset⟩ | ⟨-, hset⟩
      · by_cases heq : id = target
        · subst heq
          refine .promoted (Identities.lookup_eq_ok_iff.mpr ⟨hrec, hlive⟩) hpending ?_
          rw [Ledger.commit_db, hset, Identities.set_row_same]
        · refine .kept ?_
          rw [Ledger.commit_db, hset, Identities.set_row_other _ _ heq]
      · refine .kept ?_
        rw [Ledger.commit_db, hset]
  | @renewed cert new target csr rec now hrec hid hfresh =>
      by_cases heq : id = target
      · subst heq
        exact .renewed hrec (Identities.set_row_same ..) List.mem_cons_self hfresh
      · exact .kept (Identities.set_row_other _ _ heq)
  | unrecorded => exact .kept rfl
  | @enrolled new target csr now hid hfresh =>
      by_cases heq : id = target
      · subst heq
        refine @RowEffect.enrolled _ _ _ new _ now ?_ ?_ hfresh
        · rw [Ledger.commit_db, Identities.putRecord, Identities.set_row_same]
        · rw [Ledger.commit_issued]
          exact List.mem_cons_self
      · refine .kept ?_
        rw [Ledger.commit_db, Identities.putRecord, Identities.set_row_other _ _ heq]
  | tokens hsame => exact .kept (congrFun hsame id)
  | @revoked target => exact absurd ⟨target, rfl⟩ hrevoke

/-- A serial on file after a step was on file before it, or is one that the step issued. -/
theorem RowEffect.on_file (h : RowEffect ledger id ledger' call) {serial : Bytes}
    (hserial : OnFile ledger'.db id serial) :
    OnFile ledger.db id serial ∨
      (∀ old ∈ ledger.issued, old.cert.serialHex ≠ serial) ∧
        ∃ issue ∈ ledger'.issued, issue.cert.serialHex = serial := by
  cases h with
  | kept hsame => exact .inl ((on_file_congr hsame).mp hserial)
  | @promoted purpose cert rec hrec hpending hrow =>
      obtain ⟨-, hmem⟩ := (on_file_iff_of_row hrow).mp hserial
      obtain rfl : serial = cert.serialHex := by simpa [serials] using hmem
      refine .inl ⟨rec, hrec, mem_serials.mpr (.inr ⟨?_, hpending.symm⟩)⟩
      rw [hpending]
      exact cert.serialHex_ne
  | @renewed cert new csr rec now hrec hrow hissued hfresh =>
      obtain ⟨-, hmem⟩ := (on_file_iff_of_row hrow).mp hserial
      rcases mem_serials.mp hmem with hcurrent | ⟨-, hnew⟩
      · exact .inl ⟨rec, hrec, mem_serials.mpr (.inl hcurrent)⟩
      · subst hnew
        exact .inr ⟨hfresh, _, hissued, rfl⟩
  | @enrolled new csr now hrow hissued hfresh =>
      obtain ⟨-, hmem⟩ := (on_file_iff_of_row hrow).mp hserial
      obtain rfl : serial = new.serialHex := by simpa [serials] using hmem
      exact .inr ⟨hfresh, _, hissued, rfl⟩
  | revoked hrow hrevoked => exact absurd hserial (not_on_file_of_revoked hrow hrevoked serial)

/-- An identity with nothing on file gets something on file only by an enrollment. -/
theorem RowEffect.on_file_enrolled (h : RowEffect ledger id ledger' call) {serial : Bytes}
    (hserial : OnFile ledger'.db id serial) :
    (∃ old, OnFile ledger.db id old) ∨
      ∃ issue ∈ ledger'.issued, issue.id = id ∧ issue.auth = none ∧ issue ∉ ledger.issued := by
  cases h with
  | kept hsame => exact .inl ⟨serial, (on_file_congr hsame).mp hserial⟩
  | promoted hrec => exact .inl ⟨_, _, hrec, mem_serials.mpr (.inl rfl)⟩
  | renewed hrec => exact .inl ⟨_, _, hrec, mem_serials.mpr (.inl rfl)⟩
  | enrolled hrow hissued hfresh =>
      exact .inr ⟨_, hissued, rfl, rfl, fun hold => hfresh _ hold rfl⟩
  | revoked hrow hrevoked => exact absurd hserial (not_on_file_of_revoked hrow hrevoked serial)

/-- `ConsumeToken` hands out the token on file and leaves the identities alone. -/
theorem consume_token_ok {db db' : Identities} {tokenHash : Bytes} {now : Time} {token : Token}
    (h : db.consumeToken tokenHash now = (.ok token, db')) :
    db'.identities = db.identities ∧ (db.tokens tokenHash).map Token.identity =
      some token.identity := by
  unfold Identities.consumeToken at h
  cases hrow : db.tokens tokenHash with
  | none => simp [hrow] at h
  | some row =>
      simp only [hrow] at h
      split_ifs at h <;> cases h
      exact ⟨rfl, rfl⟩

theorem Call.subject_after_verify (hash : Bytes → Bytes) (db : Identities) (cert : Certificate)
    (id : Identity) (purpose : Purpose) :
    (Call.afterVerify cert id purpose).subject hash db = some id ∨
      (Call.afterVerify cert id purpose).subject hash db = none := by
  cases purpose with
  | verify => exact .inr rfl
  | renew csr => exact .inl rfl

/-- A call keeps its subject from step to step until it returns. -/
theorem call_step_subject {input : Input}
    (h : callStep hash ledger call input = some (ledger', call')) :
    call'.subject hash ledger'.db = call.subject hash ledger.db ∨
      call'.subject hash ledger'.db = none := by
  by_cases htoken : ∃ token csr, call = .consumeToken token csr
  · obtain ⟨token, csr, rfl⟩ := htoken
    simp only [callStep, Call.returned, Bool.false_eq_true, if_false] at h
    split at h
    · cases h
      exact .inr rfl
    split at h
    · cases h
      exact .inr rfl
    next hconsume =>
      cases h
      exact .inl (consume_token_ok hconsume).2.symm
  cases call_step_effect h with
  | failed | renewed | unrecorded | enrolled | revoked => exact .inr rfl
  | accepted hid =>
      simp only [Call.subject, hid, Except.toOption]
      exact Call.subject_after_verify ..
  | firstUse hid =>
      simp only [Call.subject, hid, Except.toOption]
      exact .inl trivial
  | promoted => exact Call.subject_after_verify ..
  | tokens _ hcall =>
      rcases hcall with ⟨token, csr, target, rfl, rfl⟩ | ⟨token, target, rfl, rfl⟩ |
        ⟨target, rfl, rfl⟩
      · exact absurd ⟨token, csr, rfl⟩ htoken
      · exact .inr rfl
      · exact .inr rfl

/-- A step leaves every row but its subject's as it is. -/
theorem call_step_other {input : Input}
    (h : callStep hash ledger call input = some (ledger', call'))
    (hother : call.subject hash ledger.db ≠ some id) :
    ledger'.db.identities id = ledger.db.identities id := by
  cases call_step_row h id with
  | kept hsame => exact hsame
  | promoted | renewed | enrolled | revoked => exact absurd rfl hother

end Rows

section Operations

variable {hash : Bytes → Bytes} {ledger ledger' : Ledger} {op : Operation} {ops : List Operation}

theorem perform_eq_some {state : Ledger × Call} :
    op.perform hash ledger = some state ↔ op.call.begins = true ∧
      run (soloStep hash) (ledger, op.call) op.inputs = some state ∧
        state.2.returned = true := by
  simp [Operation.perform, Option.ite_none_right_eq_some, Option.filter_eq_some_iff]

/-- What every step of a call keeps holds after any sequence of operations. -/
theorem operations_invariant (inv : Ledger → Prop)
    (hstep : ∀ {ledger ledger' call call' input}, inv ledger →
      callStep hash ledger call input = some (ledger', call') → inv ledger')
    (hstart : inv ledger) (hrun : run (operationStep hash) ledger ops = some ledger') :
    inv ledger' := by
  refine run_invariant (fun {start op finish} hinv h => ?_) hstart hrun
  obtain ⟨state, hperform, rfl⟩ := Option.map_eq_some_iff.mp h
  obtain ⟨-, hsolo, -⟩ := perform_eq_some.mp hperform
  exact @run_invariant _ _ (soloStep hash) (fun state => inv state.1)
    (fun hinv hnext => hstep hinv hnext) _ _ _ hinv hsolo

/-- Every serial on file was issued. -/
def Filed (ledger : Ledger) : Prop :=
  ∀ id serial, OnFile ledger.db id serial → ∃ issue ∈ ledger.issued, issue.cert.serialHex = serial

theorem filed_run (hrun : run (operationStep hash) Ledger.empty ops = some ledger) :
    Filed ledger := by
  refine operations_invariant Filed ?_ ?_ hrun
  · intro before after call call' input hfiled h id serial hserial
    rcases (call_step_row h id).on_file hserial with hold | ⟨-, hissued⟩
    · obtain ⟨issue, hissue, heq⟩ := hfiled id serial hold
      exact ⟨issue, (call_step_effect h).issued_subset hissue, heq⟩
    · exact hissued
  · rintro id serial ⟨rec, hrec, -⟩
    cases hrec

/-- A serial on file at the end of a run was on file at its start, or had not been issued. -/
theorem on_file_run (hrun : run (operationStep hash) ledger ops = some ledger') {id : Identity}
    {serial : Bytes} (hserial : OnFile ledger'.db id serial) :
    OnFile ledger.db id serial ∨ ∀ old ∈ ledger.issued, old.cert.serialHex ≠ serial := by
  have hinv := operations_invariant (fun later => ledger.issued ⊆ later.issued ∧
    ∀ serial, OnFile later.db id serial → OnFile ledger.db id serial ∨
      ∀ old ∈ ledger.issued, old.cert.serialHex ≠ serial) ?_
    ⟨List.Subset.refl _, fun _ h => .inl h⟩ hrun
  · exact hinv.2 serial hserial
  · rintro before after call call' input ⟨hsubset, hbefore⟩ h
    refine ⟨List.Subset.trans hsubset (call_step_effect h).issued_subset, ?_⟩
    intro serial hafter
    rcases (call_step_row h id).on_file hafter with hold | ⟨hfresh, -⟩
    · exact hbefore serial hold
    · exact .inr fun old hold => hfresh old (hsubset hold)

/-- An identity with nothing on file has something on file at the end of a run only if the run
enrolled it. -/
theorem on_file_run_enrolled (hrun : run (operationStep hash) ledger ops = some ledger')
    {id : Identity} (hnone : ∀ serial, ¬ OnFile ledger.db id serial) {serial : Bytes}
    (hserial : OnFile ledger'.db id serial) :
    ∃ issue ∈ ledger'.issued, issue.id = id ∧ issue.auth = none ∧ issue ∉ ledger.issued := by
  have hinv := operations_invariant (fun later => ledger.issued ⊆ later.issued ∧
    ∀ serial, OnFile later.db id serial → ∃ issue ∈ later.issued,
      issue.id = id ∧ issue.auth = none ∧ issue ∉ ledger.issued) ?_
    ⟨List.Subset.refl _, fun serial h => absurd h (hnone serial)⟩ hrun
  · exact hinv.2 serial hserial
  · rintro before after call call' input ⟨hsubset, hbefore⟩ h
    have hgrown := (call_step_effect h).issued_subset
    refine ⟨List.Subset.trans hsubset hgrown, fun serial hafter => ?_⟩
    rcases (call_step_row h id).on_file_enrolled hafter with
      ⟨old, hold⟩ | ⟨issue, hissue, hid, hauth, hnew⟩
    · obtain ⟨issue, hissue, hrest⟩ := hbefore old hold
      exact ⟨issue, hgrown hissue, hrest⟩
    · exact ⟨issue, hissue, hid, hauth, fun hold => hnew (hsubset hold)⟩

/-- A complete `Revoke` leaves nothing on file for its identity. -/
theorem perform_revoke {id : Identity} {inputs : List Input}
    (h : Operation.perform hash ledger ⟨.revoke id, inputs⟩ = some (ledger', .done))
    (serial : Bytes) : ¬ OnFile ledger'.db id serial := by
  obtain ⟨-, hsolo, -⟩ := perform_eq_some.mp h
  cases inputs with
  | nil => cases hsolo
  | cons input rest =>
      obtain ⟨⟨next, call⟩, hnext, hrest⟩ := Option.bind_eq_some_iff.mp hsolo
      -- The first step returns, and a call that has returned takes no further step.
      have hcall : call.returned = true := by
        cases call_step_effect hnext with
        | failed | revoked => rfl
        | tokens _ hcall =>
            rcases hcall with ⟨_, _, _, h, -⟩ | ⟨_, _, h, -⟩ | ⟨_, -, rfl⟩
            · cases h
            · cases h
            · rfl
      cases rest with
      | cons input rest => simp [run_cons, soloStep, callStep, hcall] at hrest
      | nil =>
          cases hrest
          rcases revoke_step hnext with ⟨-, hdone⟩ | ⟨⟨row, hrow, hrevoked⟩, -⟩
          · exact absurd rfl hdone
          · exact not_on_file_of_revoked hrow hrevoked serial

/-- A complete operation leaves every row but its subject's as it is. -/
theorem perform_other {state : Ledger × Call} {id : Identity}
    (h : op.perform hash ledger = some state)
    (hother : op.call.subject hash ledger.db ≠ some id) :
    state.1.db.identities id = ledger.db.identities id := by
  obtain ⟨-, hsolo, -⟩ := perform_eq_some.mp h
  have hinv := @run_invariant _ _ (soloStep hash) (fun state => state.1.db.identities id =
    ledger.db.identities id ∧ state.2.subject hash state.1.db ≠ some id) ?_ _ _ _
    ⟨rfl, hother⟩ hsolo
  · exact hinv.1
  · rintro ⟨before, call⟩ input ⟨after, call'⟩ ⟨hsame, hsubject⟩ hnext
    refine ⟨(call_step_other hnext hsubject).trans hsame, ?_⟩
    rcases call_step_subject hnext with heq | heq
    · exact heq ▸ hsubject
    · exact heq ▸ nofun

end Operations

section Renewed

variable {hash : Bytes → Bytes} {start ledger ledger' : Ledger} {call call' : Call}
  {cert : Certificate} {id : Identity} {input : Input}

/-- Of the serials that were on file for the identity in `start`, only the certificate's own is
left. -/
def Narrowed (start : Ledger) (cert : Certificate) (id : Identity) (ledger : Ledger) : Prop :=
  start.issued ⊆ ledger.issued ∧
    ∀ serial, OnFile start.db id serial → OnFile ledger.db id serial → serial = cert.serialHex

/-- No step brings back a serial that was on file in `start`: what it files is new. -/
theorem Narrowed.step (hfiled : Filed start) (h : Narrowed start cert id ledger)
    (hstep : callStep hash ledger call input = some (ledger', call')) :
    Narrowed start cert id ledger' := by
  refine ⟨List.Subset.trans h.1 (call_step_effect hstep).issued_subset, ?_⟩
  intro serial hstart hafter
  rcases (call_step_row hstep id).on_file hafter with hold | ⟨hfresh, -⟩
  · exact h.2 serial hstart hold
  · obtain ⟨issue, hissue, heq⟩ := hfiled id serial hstart
    exact absurd heq (hfresh issue (h.1 hissue))

/-- Where an operation that presents a renewed certificate stands: it has not got past the
promotion, or the previous serial is retired. -/
def Presenting (start : Ledger) (cert : Certificate) (id : Identity) : Ledger × Call → Prop
  | (ledger, .lookup _ presented) => ledger = start ∧ presented = cert
  | (ledger, .promote _ presented target) => ledger = start ∧ presented = cert ∧ target = id
  | (ledger, .putPending _ _ _) | (ledger, .verified _) | (ledger, .issued _) =>
      Narrowed start cert id ledger
  | (ledger, .failed error) => error = .storeFailure ∨ Narrowed start cert id ledger
  | _ => False

theorem presenting_after_verify (h : Narrowed start cert id ledger) (purpose : Purpose)
    (presented : Certificate) (target : Identity) :
    Presenting start cert id (ledger, .afterVerify presented target purpose) := by
  cases purpose <;> exact h

variable {rec : Record}

/-- A row whose current serial is the certificate's and has no other is narrowed already. -/
theorem narrowed_self (hrec : start.db.lookup id = .ok rec)
    (hpending : rec.pendingSerialHex = cert.serialHex)
    (hcurrent : rec.serialHex = cert.serialHex) : Narrowed start cert id start := by
  refine ⟨List.Subset.refl _, fun serial hserial _ => ?_⟩
  obtain ⟨row, hrow, hmem⟩ := hserial
  obtain rfl : rec = row := Except.ok.inj (hrec.symm.trans hrow)
  rcases mem_serials.mp hmem with h | ⟨-, h⟩
  · exact h.trans hcurrent
  · exact h.trans hpending

/-- The promotion leaves the presented serial alone on file. -/
theorem narrowed_promote (hrec : start.db.lookup id = .ok rec)
    (hpending : rec.pendingSerialHex = cert.serialHex) :
    Narrowed start cert id (start.commit id (start.db.promoteSerial id cert.serialHex)) := by
  obtain ⟨hrow, hlive⟩ := Identities.lookup_eq_ok_iff.mp hrec
  rcases start.db.promote_serial_cases id cert.serialHex with
    ⟨row, -, -, -, hset⟩ | ⟨hnot, -⟩
  · refine ⟨by rw [Ledger.commit_issued]; exact List.Subset.refl _, fun serial _ hafter => ?_⟩
    rw [Ledger.commit_db, hset] at hafter
    obtain ⟨-, hmem⟩ := (on_file_iff_of_row (Identities.set_row_same ..)).mp hafter
    simpa [serials] using hmem
  · exact absurd hpending (hnot rec hrow hlive)

/-- A step of an operation that presents a renewed certificate. -/
theorem presenting_step (hfiled : Filed start) (hid : identityOf cert = .ok id)
    (hrec : start.db.lookup id = .ok rec) (hpending : rec.pendingSerialHex = cert.serialHex)
    (h : Presenting start cert id (ledger, call))
    (hstep : callStep hash ledger call input = some (ledger', call')) :
    Presenting start cert id (ledger', call') := by
  cases call with
  | lookup purpose presented =>
      obtain ⟨rfl, rfl⟩ := h
      simp only [callStep, Call.returned, Bool.false_eq_true, if_false, hid, hrec, verdict,
        hpending, presented.serialHex_ne, ne_eq, not_false_eq_true, and_self, if_true] at hstep
      -- A pending serial that is the current one too is not promoted.
      split_ifs at hstep with hfault hcurrent
      · cases hstep
        exact .inl rfl
      · cases hstep
        exact presenting_after_verify (narrowed_self hrec hpending hcurrent) ..
      · cases hstep
        exact ⟨rfl, rfl, rfl⟩
  | promote purpose presented target =>
      obtain ⟨rfl, rfl, rfl⟩ := h
      simp only [callStep, Call.returned, Bool.false_eq_true, if_false] at hstep
      split_ifs at hstep with hfault
      · cases hstep
        exact .inl rfl
      · cases hstep
        exact presenting_after_verify (narrowed_promote hrec hpending) ..
  | putPending presented target csr =>
      have hafter := Narrowed.step hfiled h hstep
      cases call_step_effect hstep with
      | failed | unrecorded => exact .inr hafter
      | renewed => exact hafter
      | tokens _ hcall => rcases hcall with ⟨_, _, _, h, -⟩ | ⟨_, _, h, -⟩ | ⟨_, h, -⟩ <;> cases h
  | verified | issued | failed => cases hstep
  | consumeToken | putRecord | issueToken | revoke | done => exact h.elim

/-- A complete operation that presented a renewed certificate and got past the store has retired
the previous one. -/
theorem perform_presenting (hfiled : Filed start) (hid : identityOf cert = .ok id)
    (hrec : start.db.lookup id = .ok rec) (hpending : rec.pendingSerialHex = cert.serialHex)
    {purpose : Purpose} {inputs : List Input}
    (h : Operation.perform hash start ⟨.lookup purpose cert, inputs⟩ = some (ledger', call'))
    (hended : call' ≠ .failed .storeFailure) : Narrowed start cert id ledger' := by
  obtain ⟨-, hsolo, hreturned⟩ := perform_eq_some.mp h
  have hbegun : Presenting start cert id (start, .lookup purpose cert) := ⟨rfl, rfl⟩
  have hinv : Presenting start cert id (ledger', call') :=
    run_invariant (fun hbefore hnext => presenting_step hfiled hid hrec hpending hbefore hnext)
      hbegun hsolo
  cases call' with
  | failed error =>
      rcases hinv with rfl | hnarrowed
      · exact absurd rfl hended
      · exact hnarrowed
  | verified | issued => exact hinv
  | done => exact hinv.elim
  | _ => cases hreturned

end Renewed

/-- Acceptance over the life of an identity, for every sequence of complete operations from a
new deployment. At every point an identity has at most two acceptable serials. A serial that was
acceptable at `ledger₁` and is refused at `ledger₂` is refused from then on. Presenting the
renewed certificate of an identity, to connect or to renew again, retires every other one unless
the store failed. After `Revoke` nothing is accepted until a certificate has been issued to the
identity by an enrollment. An operation never changes what is accepted for an identity that is
not its subject. -/
theorem acceptance_over_life (hash : Bytes → Bytes) {before middle later : List Operation}
    {ledger₁ ledger₂ ledger₃ : Ledger}
    (hbefore : run (operationStep hash) Ledger.empty before = some ledger₁)
    (hmiddle : run (operationStep hash) ledger₁ middle = some ledger₂)
    (hlater : run (operationStep hash) ledger₂ later = some ledger₃) :
    (∀ id, ∃ current pending, ∀ cert, Accepts ledger₁.db id cert →
      cert.serialHex = current ∨ cert.serialHex = pending) ∧
    (∀ id₁ cert₁, Accepts ledger₁.db id₁ cert₁ → ∀ id cert, cert.serialHex = cert₁.serialHex →
      ¬ Accepts ledger₂.db id cert → ¬ Accepts ledger₃.db id cert) ∧
    (∀ purpose cert inputs id rec ledger call, identityOf cert = .ok id →
      ledger₁.db.lookup id = .ok rec → rec.pendingSerialHex = cert.serialHex →
      Operation.perform hash ledger₁ ⟨.lookup purpose cert, inputs⟩ = some (ledger, call) →
      call ≠ .failed .storeFailure → ∀ previous, Accepts ledger₁.db id previous →
      previous.serialHex ≠ cert.serialHex → ¬ Accepts ledger.db id previous) ∧
    (∀ id inputs ops ledger ledger',
      Operation.perform hash ledger₁ ⟨.revoke id, inputs⟩ = some (ledger, .done) →
      run (operationStep hash) ledger ops = some ledger' →
      (∀ issue ∈ ledger'.issued, issue.id = id → issue.auth = none → issue ∈ ledger.issued) →
      ∀ cert, ¬ Accepts ledger'.db id cert) ∧
    (∀ op ledger id, operationStep hash ledger₁ op = some ledger →
      op.call.subject hash ledger₁.db ≠ some id →
      ∀ cert, Accepts ledger.db id cert ↔ Accepts ledger₁.db id cert) := by
  have hfiled := filed_run hbefore
  refine ⟨fun id => ?_, ?_, ?_, ?_, ?_⟩
  · cases hrec : ledger₁.db.lookup id with
    | error e =>
        refine ⟨[], [], fun cert h => ?_⟩
        obtain ⟨-, rec, hrow, -⟩ := accepts_iff.mp h
        cases hrec.symm.trans hrow
    | ok rec =>
        refine ⟨rec.serialHex, rec.pendingSerialHex, fun cert h => ?_⟩
        obtain ⟨-, row, hrow, hmem⟩ := accepts_iff.mp h
        obtain rfl : rec = row := Except.ok.inj (hrec.symm.trans hrow)
        exact (mem_serials.mp hmem).imp_right And.right
  · intro id₁ cert₁ haccepted id cert hserial hrefused hagain
    obtain ⟨issue, hissue, heq⟩ := hfiled id₁ _ (accepts_iff.mp haccepted).2
    obtain ⟨hid, hfile⟩ := accepts_iff.mp hagain
    rcases on_file_run hlater hfile with hold | hfresh
    · exact hrefused (accepts_iff.mpr ⟨hid, hold⟩)
    · -- The serial had been issued by the first point, so no later operation can draw it.
      have hkept : ledger₁.issued ⊆ ledger₂.issued :=
        operations_invariant (fun ledger => ledger₁.issued ⊆ ledger.issued)
          (fun hold h => List.Subset.trans hold (call_step_effect h).issued_subset)
          (List.Subset.refl _) hmiddle
      exact hfresh issue (hkept hissue) (heq.trans hserial.symm)
  · intro purpose cert inputs id rec ledger call hid hrec hpending hperform hended previous
      haccepted hne hagain
    have hnarrowed := perform_presenting hfiled hid hrec hpending hperform hended
    exact hne (hnarrowed.2 _ (accepts_iff.mp haccepted).2 (accepts_iff.mp hagain).2)
  · intro id inputs ops ledger ledger' hrevoke hrun hnone cert haccepted
    obtain ⟨issue, hissue, hid, hauth, hnew⟩ := on_file_run_enrolled hrun
      (perform_revoke hrevoke) (accepts_iff.mp haccepted).2
    exact hnew (hnone issue hissue hid hauth)
  · intro op ledger id hstep hother cert
    obtain ⟨state, hperform, rfl⟩ := Option.map_eq_some_iff.mp hstep
    rw [accepts_iff, accepts_iff, on_file_congr (perform_other hperform hother)]

section Life

/-- Issue a token for the device and enroll it with the given serial. -/
def enrollAlone (token serial : UInt8) : List Operation :=
  [⟨.issueToken [token] panel, [drawing 0]⟩,
    ⟨.consumeToken [token] panelRequest, [drawing 0, drawing serial]⟩]

/-- Renew the certificate, then connect with the new one. -/
def renewAlone (old new : UInt8) : List Operation :=
  [⟨.lookup (.renew panelRequest) (panelCert old), [drawing 0, drawing new]⟩,
    ⟨.lookup .verify (panelCert new), [drawing 0, drawing 0]⟩]

/-- A device enrolled, renewed and enrolled again: its first certificate stays refused. -/
theorem acceptance_over_panel_life :
    ∃ ledger₁ ledger₂ ledger₃,
      run (operationStep id) Ledger.empty (enrollAlone 10 1) = some ledger₁ ∧
      run (operationStep id) ledger₁ (renewAlone 1 2) = some ledger₂ ∧
      run (operationStep id) ledger₂ (enrollAlone 20 3) = some ledger₃ ∧
      Accepts ledger₁.db panel (panelCert 1) ∧ Accepts ledger₂.db panel (panelCert 2) ∧
      Accepts ledger₃.db panel (panelCert 3) ∧ ¬ Accepts ledger₃.db panel (panelCert 1) := by
  have hlives : ((run (operationStep id) Ledger.empty (enrollAlone 10 1)).bind fun ledger₁ =>
      (run (operationStep id) ledger₁ (renewAlone 1 2)).bind fun ledger₂ =>
      (run (operationStep id) ledger₂ (enrollAlone 20 3)).map fun ledger₃ =>
        decide (Accepts ledger₁.db panel (panelCert 1) ∧
          ¬ Accepts ledger₂.db panel (panelCert 1) ∧ Accepts ledger₂.db panel (panelCert 2) ∧
          Accepts ledger₃.db panel (panelCert 3))) = some true := by
    decide +kernel
  obtain ⟨ledger₁, hbefore, hlives⟩ := Option.bind_eq_some_iff.mp hlives
  obtain ⟨ledger₂, hmiddle, hlives⟩ := Option.bind_eq_some_iff.mp hlives
  obtain ⟨ledger₃, hlater, hlives⟩ := Option.map_eq_some_iff.mp hlives
  obtain ⟨hfirst, hretired, hsecond, hthird⟩ := of_decide_eq_true hlives
  refine ⟨ledger₁, ledger₂, ledger₃, hbefore, hmiddle, hlater, hfirst, hsecond, hthird, ?_⟩
  exact (acceptance_over_life id hbefore hmiddle hlater).2.1 panel (panelCert 1) hfirst
    panel (panelCert 1) rfl hretired

end Life

end AccessRelay.Control
