import AccessRelay.Control.Enrollment

/-!
# Superseded certificates

Once a re-enrollment or a promotion has retired a certificate, nothing that certificate
authenticated should be accepted any more. The service does not ensure this: `Renew` verifies
the old certificate and records the new serial in separate statements, and a commit that falls
between them is overtaken by the second (`stolen_certificate_outlives_enrollment`).

`authUnretired` is the condition that `PutPendingSerial` would have to check. The runs in which
every recorded renewal meets it are exactly the runs in which no superseded certificate is ever
accepted (`superseded_refused_iff`).
-/

namespace AccessRelay.Control

open Encoding Ca Go Storage Machine

/-- No certificate issued by a renewal is accepted if the certificate that authenticated the
renewal was retired by a commit. The certificate which that very commit made current is the one
exception: a promotion retires the certificate that authenticated its own renewal. -/
def SupersededRefused (ledger : Ledger) : Prop :=
  ∀ commit ∈ ledger.commits, ∀ issue ∈ ledger.issued, ∀ auth, issue.auth = some auth →
    auth ∈ commit.retired → issue.cert.serialHex ≠ commit.current →
      ∀ id, (verifyEnrolled ledger.db issue.cert).1 ≠ .ok id

/-- The condition: `PutPendingSerial` takes effect only if no commit has retired the certificate
that authenticated the renewal. -/
def authUnretired (ledger : Ledger) (call : Call) (input : Input) : Bool :=
  match call with
  | .putPending cert id csr =>
      match issueCertificate csr id input.serialHex input.serialHex_ne with
      | .error _ => true
      | .ok _ =>
          input.fault || (ledger.db.lookup id).toOption.isNone ||
            ledger.commits.all fun commit => cert.serialHex ∉ commit.retired
  | _ => true

/-- The history is consistent with the database. -/
structure Ledger.Consistent (ledger : Ledger) : Prop where
  unique : ∀ x ∈ ledger.issued, ∀ y ∈ ledger.issued,
    x.cert.serialHex = y.cert.serialHex → x = y
  named : ∀ x ∈ ledger.issued, identityOf x.cert = .ok x.id
  onFile : ∀ id, ∀ serial ∈ serialsOf ledger.db id,
    ∃ x ∈ ledger.issued, x.id = id ∧ x.cert.serialHex = serial
  authOwner : ∀ x ∈ ledger.issued, ∀ auth, x.auth = some auth →
    ∃ y ∈ ledger.issued, y.id = x.id ∧ y.cert.serialHex = auth
  commitOwner : ∀ commit ∈ ledger.commits, ∀ serial ∈ commit.current :: commit.retired,
    ∃ x ∈ ledger.issued, x.id = commit.id ∧ x.cert.serialHex = serial
  refused : ∀ id, ∀ rec, ledger.db.identities id = some rec →
    ∀ x ∈ ledger.issued, ∀ auth, x.auth = some auth →
    ∀ commit ∈ ledger.commits, auth ∈ commit.retired →
      (x.cert.serialHex = rec.serialHex → x.cert.serialHex = commit.current) ∧
        x.cert.serialHex ≠ rec.pendingSerialHex

/-- The certificate a call presented is one the authority issued, for the identity the call
acts on. -/
def Call.Presented (ledger : Ledger) : Call → Prop
  | .lookup _ cert => ∃ x ∈ ledger.issued, x.cert = cert
  | .promote _ cert id | .putPending cert id _ =>
      ∃ x ∈ ledger.issued, x.cert = cert ∧ x.id = id
  | _ => True

variable {ledger : Ledger}

/-- In a consistent ledger no superseded certificate is accepted. -/
theorem Ledger.Consistent.superseded_refused (h : ledger.Consistent) :
    SupersededRefused ledger := by
  intro commit hcommit issue hissue auth hauth hretired hother id haccepted
  obtain ⟨-, rec, hrec, hserial⟩ := verify_enrolled_ok_iff.mp haccepted
  obtain ⟨hrow, -⟩ := Identities.lookup_eq_ok_iff.mp hrec
  obtain ⟨hcurrent, hpending⟩ :=
    h.refused id rec hrow issue hissue auth hauth commit hcommit hretired
  rcases mem_serials.mp hserial with hserial | ⟨-, hserial⟩
  · exact hother (hcurrent hserial)
  · exact hpending hserial

/-- Two issued certificates with one serial were issued to one identity. -/
theorem Ledger.Consistent.owner_unique (h : ledger.Consistent) {x y : Issued} {serial : Bytes}
    (hx : x ∈ ledger.issued) (hy : y ∈ ledger.issued) (hxs : x.cert.serialHex = serial)
    (hys : y.cert.serialHex = serial) : x = y :=
  h.unique x hx y hy (hxs.trans hys.symm)

/-- Issuing a certificate with a new serial, without recording it. -/
theorem Ledger.Consistent.issue (h : ledger.Consistent) {new : Issued}
    (hid : identityOf new.cert = .ok new.id)
    (hfresh : ∀ old ∈ ledger.issued, old.cert.serialHex ≠ new.cert.serialHex)
    (hauth : ∀ auth, new.auth = some auth →
      ∃ y ∈ ledger.issued, y.id = new.id ∧ y.cert.serialHex = auth) :
    { ledger with issued := new :: ledger.issued }.Consistent where
  unique := by
    intro x hx y hy hserial
    rcases List.mem_cons.mp hx with hxnew | hxold <;>
      rcases List.mem_cons.mp hy with hynew | hyold
    · exact hxnew.trans hynew.symm
    · exact absurd (hxnew ▸ hserial.symm) (hfresh y hyold)
    · exact absurd (hynew ▸ hserial) (hfresh x hxold)
    · exact h.unique x hxold y hyold hserial
  named := by
    intro x hx
    rcases List.mem_cons.mp hx with rfl | hx
    · exact hid
    · exact h.named x hx
  onFile := by
    intro id serial hserial
    obtain ⟨x, hx, hfile⟩ := h.onFile id serial hserial
    exact ⟨x, List.mem_cons_of_mem _ hx, hfile⟩
  authOwner := by
    intro x hx auth hxauth
    have hold : ∃ y ∈ ledger.issued, y.id = x.id ∧ y.cert.serialHex = auth := by
      rcases List.mem_cons.mp hx with rfl | hx
      · exact hauth auth hxauth
      · exact h.authOwner x hx auth hxauth
    obtain ⟨y, hy, howner⟩ := hold
    exact ⟨y, List.mem_cons_of_mem _ hy, howner⟩
  commitOwner := by
    intro commit hcommit serial hserial
    obtain ⟨x, hx, howner⟩ := h.commitOwner commit hcommit serial hserial
    exact ⟨x, List.mem_cons_of_mem _ hx, howner⟩
  refused := by
    intro id rec hrow x hx auth hxauth commit hcommit hretired
    rcases List.mem_cons.mp hx with rfl | hx
    · -- the new serial is on file nowhere yet
      have hnot : ∀ serial ∈ serials rec, x.cert.serialHex ≠ serial := by
        intro serial hserial heq
        obtain ⟨old, hold, -, holds⟩ :=
          h.onFile id serial (mem_serials_of.mpr ⟨rec, hrow, hserial⟩)
        exact hfresh old hold (holds.trans heq.symm)
      refine ⟨fun heq => absurd heq (hnot _ (mem_serials.mpr (.inl rfl))), fun heq => ?_⟩
      refine hnot _ (mem_serials.mpr (.inr ⟨?_, rfl⟩)) heq
      exact heq ▸ x.cert.serialHex_ne
    · exact h.refused id rec hrow x hx auth hxauth commit hcommit hretired

/-- Replacing the row of one identity by a row whose serials belong to that identity, as long as
what the row accepts is not superseded. -/
theorem Ledger.Consistent.set_row (h : ledger.Consistent) {id : Identity} {row : Record}
    (hfile : ∀ serial ∈ serials row,
      ∃ x ∈ ledger.issued, x.id = id ∧ x.cert.serialHex = serial)
    (hrefused : ∀ x ∈ ledger.issued, ∀ auth, x.auth = some auth →
      ∀ commit ∈ ledger.commits, auth ∈ commit.retired →
        (x.cert.serialHex = row.serialHex → x.cert.serialHex = commit.current) ∧
          x.cert.serialHex ≠ row.pendingSerialHex) :
    { ledger with db := ledger.db.setRow id row }.Consistent where
  unique := h.unique
  named := h.named
  onFile := by
    intro other serial hserial
    obtain ⟨rec, hrow, hmem⟩ := mem_serials_of.mp hserial
    by_cases hother : other = id
    · subst hother
      rw [Identities.set_row_same, Option.some.injEq] at hrow
      exact hfile serial (hrow ▸ hmem)
    · rw [Identities.set_row_other _ _ hother] at hrow
      exact h.onFile other serial (mem_serials_of.mpr ⟨rec, hrow, hmem⟩)
  authOwner := h.authOwner
  commitOwner := h.commitOwner
  refused := by
    intro other rec hrow
    by_cases hother : other = id
    · subst hother
      rw [Identities.set_row_same, Option.some.injEq] at hrow
      exact hrow ▸ hrefused
    · rw [Identities.set_row_other _ _ hother] at hrow
      exact h.refused other rec hrow

/-- A commit that makes an unsuperseded certificate current and discards the pending one. What
it retires belongs to its own identity, so no record of another identity accepts a certificate
that a retired serial authenticated. -/
theorem Ledger.Consistent.commit (h : ledger.Consistent) {id : Identity} {row : Record}
    {x : Issued} (hx : x ∈ ledger.issued) (hxid : x.id = id)
    (hserial : x.cert.serialHex = row.serialHex) (hpending : row.pendingSerialHex = [])
    (hauth : ∀ auth, x.auth = some auth → ∀ commit ∈ ledger.commits, auth ∉ commit.retired) :
    (ledger.commit id (ledger.db.setRow id row)).Consistent := by
  have hserials : ∀ serial ∈ serials row,
      ∃ y ∈ ledger.issued, y.id = id ∧ y.cert.serialHex = serial := by
    intro serial hmem
    rcases mem_serials.mp hmem with heq | hne
    · exact ⟨x, hx, hxid, hserial.trans heq.symm⟩
    · exact absurd hpending hne.1
  have hrow : { ledger with db := ledger.db.setRow id row }.Consistent := by
    refine h.set_row hserials ?_
    intro y hy auth hyauth commit hcommit hretired
    refine ⟨fun heq => ?_, fun heq => y.cert.serialHex_ne (heq.trans hpending)⟩
    obtain rfl := h.owner_unique hy hx heq hserial
    exact absurd hretired (hauth auth hyauth commit hcommit)
  have hretiredOwner : ∀ serial, serial ∈ serialsOf ledger.db id →
      ∃ y ∈ ledger.issued, y.id = id ∧ y.cert.serialHex = serial := h.onFile id
  unfold Ledger.commit
  simp only [Identities.set_row_same]
  refine ⟨hrow.unique, hrow.named, hrow.onFile, hrow.authOwner, ?_, ?_⟩
  · intro commit hcommit serial hmem
    rcases List.mem_cons.mp hcommit with rfl | hold
    · rcases List.mem_cons.mp hmem with rfl | hretired
      · exact ⟨x, hx, hxid, hserial⟩
      · exact hretiredOwner serial (List.mem_filter.mp hretired).1
    · exact h.commitOwner commit hold serial hmem
  · intro other rec hother y hy auth hyauth commit hcommit hretired
    rcases List.mem_cons.mp hcommit with rfl | hold
    · obtain ⟨z, hz, hzid, hzserial⟩ := hretiredOwner auth (List.mem_filter.mp hretired).1
      obtain ⟨w, hw, hwid, hwserial⟩ := h.authOwner y hy auth hyauth
      have hyid : y.id = id := by
        rw [← hwid, h.owner_unique hw hz hwserial hzserial, hzid]
      have hnot : ∀ serial ∈ serials rec, y.cert.serialHex = serial → other = id := by
        intro serial hmem heq
        obtain ⟨v, hv, hvid, hvserial⟩ :=
          hrow.onFile other serial (mem_serials_of.mpr ⟨rec, hother, hmem⟩)
        rw [← hvid, h.owner_unique hv hy hvserial heq, hyid]
      by_cases hsame : other = id
      · subst hsame
        rw [Identities.set_row_same, Option.some.injEq] at hother
        subst hother
        exact ⟨id, fun heq => y.cert.serialHex_ne (heq.trans hpending)⟩
      · refine ⟨fun heq => absurd (hnot _ (mem_serials.mpr (.inl rfl)) heq) hsame, ?_⟩
        intro heq
        refine hsame (hnot _ (mem_serials.mpr (.inr ⟨?_, rfl⟩)) heq)
        exact heq ▸ y.cert.serialHex_ne
    · exact hrow.refused other rec hother y hy auth hyauth commit hold hretired

/-- A promotion that updated no row retires nothing. -/
theorem Ledger.Consistent.commit_unchanged (h : ledger.Consistent) (id : Identity) :
    (ledger.commit id ledger.db).Consistent := by
  unfold Ledger.commit
  split
  · exact h
  next rec hrow =>
    have hnone : ((serialsOf ledger.db id).filter fun serial =>
        serial ∉ serialsOf ledger.db id) = [] := by simp
    refine ⟨h.unique, h.named, h.onFile, h.authOwner, ?_, ?_⟩
    · intro commit hcommit serial hmem
      rcases List.mem_cons.mp hcommit with rfl | hold
      · rw [hnone, List.mem_singleton] at hmem
        subst hmem
        exact h.onFile id _ (mem_serials_of.mpr ⟨rec, hrow, mem_serials.mpr (.inl rfl)⟩)
      · exact h.commitOwner commit hold serial hmem
    · intro other row hother y hy auth hyauth commit hcommit hretired
      rcases List.mem_cons.mp hcommit with rfl | hold
      · rw [hnone] at hretired
        cases hretired
      · exact h.refused other row hother y hy auth hyauth commit hold hretired

/-- Promotion keeps the ledger consistent: the certificate it makes current was pending, and so
no commit had retired what authenticated it. -/
theorem Ledger.Consistent.promote (h : ledger.Consistent) (id : Identity) (cert : Certificate) :
    (ledger.commit id (ledger.db.promoteSerial id cert.serialHex)).Consistent := by
  rcases ledger.db.promote_serial_cases id cert.serialHex with
    ⟨rec, hrow, hpending, -, hdb⟩ | ⟨-, hdb⟩
  · rw [hdb]
    have hmem : cert.serialHex ∈ serials rec :=
      mem_serials.mpr (.inr ⟨hpending ▸ cert.serialHex_ne, hpending.symm⟩)
    obtain ⟨x, hx, hxid, hxserial⟩ :=
      h.onFile id _ (mem_serials_of.mpr ⟨rec, hrow, hmem⟩)
    refine h.commit hx hxid hxserial rfl ?_
    intro auth hauth commit hcommit hretired
    exact (h.refused id rec hrow x hx auth hauth commit hcommit hretired).2
      (hxserial.trans hpending.symm)
  · rw [hdb]
    exact h.commit_unchanged id

/-- The history only grows, so what was presented stays presented. -/
theorem Call.Presented.mono {ledger' : Ledger} {call : Call}
    (hissued : ledger.issued ⊆ ledger'.issued) (h : call.Presented ledger) :
    call.Presented ledger' := by
  cases call with
  | lookup purpose cert =>
      obtain ⟨x, hx, hcert⟩ := h
      exact ⟨x, hissued hx, hcert⟩
  | promote purpose cert id =>
      obtain ⟨x, hx, hcert⟩ := h
      exact ⟨x, hissued hx, hcert⟩
  | putPending cert id csr =>
      obtain ⟨x, hx, hcert⟩ := h
      exact ⟨x, hissued hx, hcert⟩
  | _ => trivial

/-- A verified call acts on the identity its certificate was issued for. -/
theorem Call.presented_after_verify {purpose : Purpose} {cert : Certificate} {id : Identity}
    (h : ∃ x ∈ ledger.issued, x.cert = cert ∧ x.id = id) :
    (Call.afterVerify cert id purpose).Presented ledger := by
  cases purpose with
  | verify => trivial
  | renew csr => exact h

/-- No store operation forgets an issued certificate. -/
theorem CallEffect.issued_subset {ledger' : Ledger} {call call' : Call}
    (h : CallEffect ledger call ledger' call') : ledger.issued ⊆ ledger'.issued := by
  cases h with
  | promoted =>
      rw [Ledger.commit_issued]
      exact List.Subset.refl _
  | enrolled =>
      rw [Ledger.commit_issued]
      exact List.subset_cons_self _ _
  | renewed => exact List.subset_cons_self _ _
  | unrecorded => exact List.subset_cons_self _ _
  | _ => exact List.Subset.refl _

/-- A store operation leaves its call acting for the identity it presented. -/
theorem CallEffect.presented {ledger' : Ledger} {call call' : Call} (hledger : ledger.Consistent)
    (hcall : call.Presented ledger) (h : CallEffect ledger call ledger' call') :
    call'.Presented ledger' := by
  have hsubset := h.issued_subset
  cases h with
  | accepted hid =>
      obtain ⟨x, hx, rfl⟩ := hcall
      have hsame := hledger.named x hx
      rw [hid, Except.ok.injEq] at hsame
      exact Call.presented_after_verify ⟨x, hx, rfl, hsame.symm⟩
  | firstUse hid =>
      obtain ⟨x, hx, rfl⟩ := hcall
      have hsame := hledger.named x hx
      rw [hid, Except.ok.injEq] at hsame
      exact ⟨x, hx, rfl, hsame.symm⟩
  | promoted =>
      obtain ⟨x, hx, hcert⟩ := hcall
      exact Call.presented_after_verify ⟨x, hsubset hx, hcert⟩
  | tokens _ hnext =>
      rcases hnext with ⟨_, _, _, -, rfl⟩ | ⟨_, _, -, rfl⟩ | ⟨_, -, rfl⟩ <;> trivial
  | _ => trivial

/-- A store operation keeps the ledger consistent, provided that a renewal it records was
authenticated by a certificate no commit has retired. -/
theorem CallEffect.consistent {ledger' : Ledger} {call call' : Call}
    (hledger : ledger.Consistent) (hcall : call.Presented ledger)
    (hunretired : ∀ cert id csr new, call = .putPending cert id csr → call' = .issued new →
      ∀ commit ∈ ledger.commits, cert.serialHex ∉ commit.retired)
    (h : CallEffect ledger call ledger' call') : ledger'.Consistent := by
  cases h with
  | failed | accepted | firstUse => exact hledger
  | promoted => exact hledger.promote _ _
  | @renewed cert new id csr rec now hrec hid hfresh =>
      obtain ⟨hrow, -⟩ := Identities.lookup_eq_ok_iff.mp hrec
      obtain ⟨y, hy, rfl, hyid⟩ := hcall
      have hissued : { ledger with
          issued := ⟨new, id, some y.cert.serialHex⟩ :: ledger.issued }.Consistent :=
        hledger.issue hid hfresh (by rintro auth ⟨⟩; exact ⟨y, hy, hyid, rfl⟩)
      refine hissued.set_row ?_ ?_
      · intro serial hmem
        rcases mem_serials.mp hmem with rfl | ⟨-, rfl⟩
        · exact hissued.onFile id _
            (mem_serials_of.mpr ⟨rec, hrow, mem_serials.mpr (.inl rfl)⟩)
        · exact ⟨_, List.mem_cons_self, rfl, rfl⟩
      · intro x hx auth hauth commit hcommit hretired
        refine ⟨(hissued.refused id rec hrow x hx auth hauth commit hcommit hretired).1, ?_⟩
        -- only the new certificate has the new serial, and its authority is not retired
        intro hserial
        obtain rfl := hissued.owner_unique hx List.mem_cons_self hserial rfl
        cases hauth
        exact hunretired _ _ _ _ rfl rfl commit hcommit hretired
  | unrecorded hid hfresh =>
      obtain ⟨y, hy, rfl, hyid⟩ := hcall
      exact hledger.issue hid hfresh (by rintro auth ⟨⟩; exact ⟨y, hy, hyid, rfl⟩)
  | @enrolled new id csr now hid hfresh =>
      have hissued : { ledger with issued := ⟨new, id, none⟩ :: ledger.issued }.Consistent :=
        hledger.issue hid hfresh (by rintro auth ⟨⟩)
      exact hissued.commit List.mem_cons_self rfl rfl rfl (by rintro auth ⟨⟩)
  | tokens hsame =>
      refine ⟨hledger.unique, hledger.named, ?_, hledger.authOwner, hledger.commitOwner, ?_⟩
      · intro id serial hserial
        obtain ⟨rec, hrow, hmem⟩ := mem_serials_of.mp hserial
        exact hledger.onFile id serial (mem_serials_of.mpr ⟨rec, hsame ▸ hrow, hmem⟩)
      · intro id rec hrow
        exact hledger.refused id rec (hsame ▸ hrow)
  | @revoked id rec at' hrec =>
      refine hledger.set_row ?_ ?_
      · intro serial hmem
        exact hledger.onFile id serial (mem_serials_of.mpr ⟨rec, hrec, hmem⟩)
      · exact hledger.refused id rec hrec

/-- A renewal that takes effect meets the condition only if no commit has retired the
certificate that authenticated it. -/
theorem unretired_of_guard {hash : Bytes → Bytes} {ledger' : Ledger} {cert new : Certificate}
    {id : Identity} {csr : Option CertificateRequest} {input : Input}
    (hguard : authUnretired ledger (.putPending cert id csr) input = true)
    (h : callStep hash ledger (.putPending cert id csr) input = some (ledger', .issued new)) :
    ∀ commit ∈ ledger.commits, cert.serialHex ∉ commit.retired := by
  simp only [callStep, Call.returned, Bool.false_eq_true, if_false] at h
  simp only [authUnretired] at hguard
  cases hissue : issueCertificate csr id input.serialHex input.serialHex_ne with
  | error e =>
      simp only [hissue] at h
      split at h <;> cases h
  | ok cert' =>
      simp only [hissue] at h hguard
      split at h
      · cases h
      next hfault =>
        split at h
        · cases h
        · rcases ledger.db.put_pending_serial_cases id cert'.serialHex input.now with
            ⟨rec, hrec, -⟩ | ⟨e, -, hput⟩
          · simpa [hfault, hrec, Except.toOption] using hguard
          · rw [hput] at h
            cases h

/-- A renewal that takes effect without meeting the condition is a superseded certificate that
is accepted. -/
theorem not_refused_of_retired {hash : Bytes → Bytes} {ledger' : Ledger} {call call' : Call}
    {input : Input} (hledger : ledger.Consistent)
    (h : callStep hash ledger call input = some (ledger', call'))
    (hguard : authUnretired ledger call input = false) : ¬ SupersededRefused ledger' := by
  cases call with
  | putPending cert id csr =>
      simp only [callStep, Call.returned, Bool.false_eq_true, if_false] at h
      simp only [authUnretired] at hguard
      cases hissue : issueCertificate csr id input.serialHex input.serialHex_ne with
      | error e => simp [hissue] at hguard
      | ok new =>
          simp only [hissue, Bool.or_eq_false_iff, List.all_eq_false] at hguard
          obtain ⟨⟨hfault, hlookup⟩, commit, hcommit, hretired⟩ := hguard
          rcases ledger.db.put_pending_serial_cases id new.serialHex input.now with
            ⟨rec, hrec, hput⟩ | ⟨e, hnone, -⟩
          · simp only [hissue, hfault, hput, Bool.false_eq_true, if_false] at h
            split at h
            · cases h
            next hold =>
              push Not at hold
              cases h
              intro hrefused
              refine hrefused commit hcommit _ List.mem_cons_self _ rfl (by simpa using hretired)
                ?_ id (verify_enrolled_ok_iff.mpr ⟨identity_of_issue hissue, _,
                  Identities.lookup_eq_ok_iff.mpr ⟨Identities.set_row_same _ _ _, ?_⟩, ?_⟩)
              · obtain ⟨x, hx, -, hserial⟩ :=
                  hledger.commitOwner commit hcommit _ List.mem_cons_self
                exact fun heq => hold x hx (hserial.trans heq.symm)
              · exact (Identities.lookup_eq_ok_iff.mp hrec).2
              · exact mem_serials.mpr (.inr ⟨new.serialHex_ne, rfl⟩)
          · simp [hnone, Except.toOption] at hlookup
  | _ => cases hguard

/-- The ledger is consistent, and every call acts for the identity it presented. -/
def ServiceConsistent (pool : Pool Ledger Call) : Prop :=
  pool.Holds Ledger.Consistent fun ledger call => call.Presented ledger

/-- A step that meets the condition keeps the service consistent. -/
theorem service_step_consistent {hash : Bytes → Bytes} {pool next : Pool Ledger Call}
    {action : PoolAction Call Input} (hpool : ServiceConsistent pool)
    (h : restrict (poolGuard authUnretired) (serviceStep hash) pool action = some next) :
    ServiceConsistent next := by
  unfold serviceStep at h
  rw [restrict_pool_guard] at h
  refine pool_step_holds ?_ ?_ ?_ hpool h
  · intro ledger call _ hmay
    cases call with
    | lookup purpose cert => simpa [mayStart, Call.Presented] using hmay
    | promote | putPending => cases hmay
    | _ => trivial
  · intro ledger call input ledger' call' hledger hcall hstep
    obtain ⟨hguard, hstep⟩ := guarded_eq_some.mp hstep
    have heffect := call_step_effect hstep
    refine ⟨heffect.consistent hledger hcall ?_, heffect.presented hledger hcall⟩
    rintro cert id csr new rfl rfl
    exact unretired_of_guard hguard hstep
  · intro ledger call input ledger' call' other _ _ hstep hother
    exact hother.mono (call_step_effect (guarded_eq_some.mp hstep).2).issued_subset

/-- The empty deployment. -/
def newService : Pool Ledger Call := ⟨Ledger.empty, []⟩

theorem new_service_consistent : ServiceConsistent newService := by
  refine ⟨⟨?_, ?_, ?_, ?_, ?_, ?_⟩, ?_⟩ <;>
    simp [newService, Ledger.empty, Identities.empty, serialsOf]

/-- In every interleaving of verifications, renewals, enrollments and revocations, superseded
certificates are refused in every state reached if and only if every renewal that was recorded
had been authenticated by a certificate that no commit had retired by then. -/
theorem superseded_refused_iff (hash : Bytes → Bytes) {actions : List (PoolAction Call Input)}
    {pool : Pool Ledger Call} (hrun : run (serviceStep hash) newService actions = some pool) :
    run (restrict (poolGuard authUnretired) (serviceStep hash)) newService actions = some pool ↔
      ∀ k state, run (serviceStep hash) newService (actions.take k) = some state →
        SupersededRefused state.shared := by
  have hrefused : ∀ {state}, ServiceConsistent state → SupersededRefused state.shared :=
    fun hstate => hstate.shared.superseded_refused
  refine run_restrict_iff_always hrefused service_step_consistent ?_ new_service_consistent hrun
  intro pool action next hpool hstep hguard
  rcases pool_step_cases hstep with ⟨call, rfl, -, -⟩ |
    ⟨index, input, call, ledger', call', rfl, hcall, hcallStep, rfl⟩
  · cases hguard
  · refine not_refused_of_retired hpool.shared hcallStep ?_
    simpa [poolGuard, hcall] using hguard

section Race

/-- The device of the examples below. -/
def panel : Identity := ⟨.device, ascii "panel"⟩

/-- A well-formed certificate request. -/
def panelRequest : Option CertificateRequest := some ⟨true, true⟩

/-- The certificate of the device with a given serial. -/
def panelCert (serial : UInt8) : Certificate := ⟨[panel.uri], [serial], one_byte_ne_nil serial⟩

/-- A step at the epoch that draws the given serial if it signs. -/
def drawing (serial : UInt8) : Input :=
  ⟨Time.ofUnix 0, [serial], one_byte_ne_nil serial, false⟩

/-- Enroll the device with a fresh token: the calls get the two given indices. -/
def enrollPanel (token : UInt8) (index : Nat) (serial : UInt8) :
    List (PoolAction Call Input) :=
  [.start (.issueToken [token] panel), .advance index (drawing 0),
    .start (.consumeToken [token] panelRequest), .advance (index + 1) (drawing 0),
    .advance (index + 1) (drawing serial)]

/-- The holder of certificate 1 starts a renewal, the device is enrolled again with serial 2,
and the renewal is recorded afterwards. -/
def lateRenewal : List (PoolAction Call Input) :=
  enrollPanel 10 0 1 ++ [.start (.lookup (.renew panelRequest) (panelCert 1)),
    .advance 2 (drawing 0)] ++ enrollPanel 20 3 2 ++ [.advance 2 (drawing 3)]

/-- The same renewal, recorded before the device is enrolled again. -/
def timelyRenewal : List (PoolAction Call Input) :=
  enrollPanel 10 0 1 ++ [.start (.lookup (.renew panelRequest) (panelCert 1)),
    .advance 2 (drawing 0), .advance 2 (drawing 3)] ++ enrollPanel 20 3 2

/-- The timely renewal meets the condition throughout. -/
theorem superseded_refused_timely :
    ∃ pool, run (serviceStep id) newService timelyRenewal = some pool ∧
      SupersededRefused pool.shared := by
  have hsome : (run (restrict (poolGuard authUnretired) (serviceStep id)) newService
      timelyRenewal).isSome = true := by
    decide
  obtain ⟨pool, hguarded⟩ := Option.isSome_iff_exists.mp hsome
  have hrun := run_of_restrict hguarded
  refine ⟨pool, hrun, ?_⟩
  refine (superseded_refused_iff id hrun).mp hguarded timelyRenewal.length pool ?_
  rw [List.take_length]
  exact hrun

/-- The race: serial 3, minted by the certificate that the second enrollment retired, is
accepted after that enrollment has committed. -/
theorem stolen_certificate_outlives_enrollment :
    ∃ pool, run (serviceStep id) newService lateRenewal = some pool ∧
      ¬ SupersededRefused pool.shared := by
  refine ⟨_, rfl, ?_⟩
  intro h
  exact h ⟨panel, [[1]], [2]⟩ (by decide) ⟨panelCert 3, panel, some [1]⟩ (by decide) [1] rfl
    (by decide) (by decide) panel rfl

end Race

end AccessRelay.Control
