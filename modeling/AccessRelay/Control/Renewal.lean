import AccessRelay.Control.Enrollment

/-!
# Renewal between an endpoint and the control plane

One honest endpoint stores exactly one certificate. It sends renewal requests and other
connections authenticated by the certificate it then holds, gives up on a request after a
timeout and sends another, and replaces its certificate by the one in the response to the
request it is waiting for. The server runs `Renew` and `VerifyEnrolled` on what arrives.

A request in flight is a call of the enrollment service that has not taken its first step, and a
response in flight is a call that has returned; both may be delayed for ever, and calls move in
any order, so the pool of calls is the network too.

The single pending slot makes the order of `PutPendingSerial` matter: an abandoned request that
is recorded after a later one evicts the serial the endpoint has already stored
(`abandoned_request_bricks_endpoint`). While renewals are recorded in the order in which they
were sent, the stored certificate is always accepted (`stored_certificate_accepted`).
-/

namespace AccessRelay.Control

open Encoding Ca Go Storage Machine

/-- The endpoint: its certificate, and the renewal it is waiting for. -/
structure Endpoint where
  stored : Certificate
  awaiting : Option Nat

/-- The control plane and one endpoint. -/
structure RenewalSystem where
  service : Pool Ledger Call
  endpoint : Endpoint

/-- What can happen next. -/
inductive RenewalAction where
  | sendRenew (csr : Option CertificateRequest)
  | connect
  | giveUp
  | accept
  | server (index : Nat) (input : Input)

/-- One step of the endpoint, or of a call at the server. -/
def renewalStep (hash : Bytes → Bytes) (sys : RenewalSystem) :
    RenewalAction → Option RenewalSystem
  | .sendRenew csr =>
      if sys.endpoint.awaiting.isSome then none
      else (serviceStep hash sys.service (.start (.lookup (.renew csr) sys.endpoint.stored))).map
        fun service =>
          { service
            endpoint := { sys.endpoint with awaiting := some sys.service.calls.length } }
  | .connect =>
      (serviceStep hash sys.service (.start (.lookup .verify sys.endpoint.stored))).map
        fun service => { sys with service }
  | .giveUp => some { sys with endpoint := { sys.endpoint with awaiting := none } }
  | .accept =>
      match sys.endpoint.awaiting.bind fun index => sys.service.calls[index]? with
      | some (.issued cert) => some { sys with endpoint := ⟨cert, none⟩ }
      | _ => none
  | .server index input =>
      (serviceStep hash sys.service (.advance index input)).map fun service =>
        { sys with service }

/-- The call has recorded its renewal. -/
def Call.recorded : Call → Bool
  | .issued _ => true
  | _ => false

/-- No renewal sent after the one at this index has been recorded. -/
def newestFrom (calls : List Call) (index : Nat) : Bool :=
  (calls.drop (index + 1)).all fun call => !call.recorded

/-- The condition: `PutPendingSerial` runs in the order in which the endpoint sent the
requests. -/
def inSendOrder (sys : RenewalSystem) : RenewalAction → Bool
  | .server index _ =>
      match sys.service.calls[index]? with
      | some (.putPending _ _ _) => newestFrom sys.service.calls index
      | _ => true
  | _ => true

/-- An enrolled endpoint before its first renewal. -/
def enrolledEndpoint (id : Identity) (cert : Certificate) (enrolledAt : Int64) : RenewalSystem where
  service := ⟨⟨Identities.empty.setRow id ⟨enrolledAt, cert.serialHex, none, [], none⟩,
    [⟨cert, id, none⟩], []⟩, []⟩
  endpoint := ⟨cert, none⟩

/-- The call belongs to a renewal that has not been recorded. -/
def Call.renewing : Call → Bool
  | .lookup (.renew _) _ | .promote (.renew _) _ _ | .putPending _ _ _ => true
  | _ => false

/-- The certificate a call still presents. -/
def Call.presents : Call → Option Certificate
  | .lookup _ cert | .promote _ cert _ | .putPending cert _ _ => some cert
  | _ => none

/-- The certificate is one the authority issued to this identity, and if it is the pending one
then the endpoint has stored it. -/
structure Held (id : Identity) (ledger : Ledger) (stored : Certificate) (rec : Record)
    (cert : Certificate) : Prop where
  named : identityOf cert = .ok id
  issued : ∃ x ∈ ledger.issued, x.cert = cert
  pending : cert.serialHex = rec.pendingSerialHex → cert.serialHex = stored.serialHex

/-- Every call in progress is the endpoint's own. -/
def Call.Own (id : Identity) (ledger : Ledger) (stored : Certificate) (rec : Record) :
    Call → Prop
  | .lookup _ cert => Held id ledger stored rec cert
  | .promote _ cert owner => owner = id ∧ Held id ledger stored rec cert
  | .putPending cert owner _ => owner = id ∧ Held id ledger stored rec cert
  | .issued new => identityOf new = .ok id ∧ ∃ x ∈ ledger.issued, x.cert = new
  | .verified _ | .failed _ => True
  | _ => False

/-- The invariant. `late` is the heart of it: while the endpoint's certificate is only pending,
a renewal that may still be recorded presents that certificate and has not been verified yet, so
it will promote the certificate before it can evict it. -/
structure RenewalInv (id : Identity) (sys : RenewalSystem) (rec : Record) : Prop where
  row : sys.service.shared.db.lookup id = .ok rec
  named : identityOf sys.endpoint.stored = .ok id
  distinct : rec.pendingSerialHex ≠ rec.serialHex
  onFile : sys.endpoint.stored.serialHex ∈ serials rec
  signed : ∀ serial ∈ serials rec,
    ∃ x ∈ sys.service.shared.issued, x.cert.serialHex = serial
  own : ∀ call ∈ sys.service.calls,
    call.Own id sys.service.shared sys.endpoint.stored rec
  late : ∀ index call, sys.service.calls[index]? = some call → call.renewing = true →
    newestFrom sys.service.calls index = true →
    sys.endpoint.stored.serialHex ≠ rec.serialHex →
      (∀ cert, call.presents = some cert → cert.serialHex = sys.endpoint.stored.serialHex) ∧
        ∀ cert owner csr, call ≠ .putPending cert owner csr
  latest : ∀ index, sys.endpoint.awaiting = some index → ∀ later call, index < later →
    sys.service.calls[later]? = some call → call.renewing = false
  answer : ∀ index new, sys.endpoint.awaiting = some index →
    sys.service.calls[index]? = some (.issued new) →
      new.serialHex = rec.pendingSerialHex ∧ sys.endpoint.stored.serialHex = rec.serialHex

/-- No later call has been recorded, index by index. -/
theorem newest_from_iff {calls : List Call} {index : Nat} :
    newestFrom calls index = true ↔ ∀ later call, index < later →
      calls[later]? = some call → call.recorded = false := by
  simp only [newestFrom, List.all_eq_true, Bool.not_eq_true']
  constructor
  · intro h later call hlt hcall
    refine h call (List.mem_of_getElem? (i := later - (index + 1)) ?_)
    rw [List.getElem?_drop, Nat.add_sub_cancel' hlt]
    exact hcall
  · intro h call hmem
    obtain ⟨offset, hoffset⟩ := List.mem_iff_getElem?.mp hmem
    rw [List.getElem?_drop] at hoffset
    exact h _ call (by omega) hoffset

/-- A moved call that is not recorded does not change which renewals are the newest. -/
theorem newest_from_of_set {calls : List Call} {index other : Nat} {call call' : Call}
    (hcall : calls[index]? = some call) (hrecorded : call.recorded = false)
    (h : newestFrom (calls.set index call') other = true) : newestFrom calls other = true := by
  rw [newest_from_iff] at h ⊢
  intro later found hlt hfound
  by_cases hsame : later = index
  · subst hsame
    rw [hcall, Option.some.injEq] at hfound
    exact hfound ▸ hrecorded
  · refine h later found hlt ?_
    rw [List.getElem?_set_ne (Ne.symm hsame)]
    exact hfound

/-- What is held stays held while the history grows and the pending serial stays. -/
theorem Held.mono {id : Identity} {ledger ledger' : Ledger} {stored : Certificate}
    {rec rec' : Record} {cert : Certificate} (h : Held id ledger stored rec cert)
    (hissued : ledger.issued ⊆ ledger'.issued)
    (hpending : cert.serialHex = rec'.pendingSerialHex → cert.serialHex = stored.serialHex) :
    Held id ledger' stored rec' cert := by
  obtain ⟨x, hx, hcert⟩ := h.issued
  exact ⟨h.named, ⟨x, hissued hx, hcert⟩, hpending⟩

/-- The same for a call, whatever it presents. -/
theorem Call.Own.mono {id : Identity} {ledger ledger' : Ledger} {stored : Certificate}
    {rec rec' : Record} {call : Call} (h : call.Own id ledger stored rec)
    (hissued : ledger.issued ⊆ ledger'.issued)
    (hpending : ∀ cert, Held id ledger stored rec cert →
      cert.serialHex = rec'.pendingSerialHex → cert.serialHex = stored.serialHex) :
    call.Own id ledger' stored rec' := by
  cases call with
  | lookup purpose cert => exact Held.mono h hissued (hpending cert h)
  | promote purpose cert owner => exact ⟨h.1, h.2.mono hissued (hpending cert h.2)⟩
  | putPending cert owner csr => exact ⟨h.1, h.2.mono hissued (hpending cert h.2)⟩
  | issued new =>
      obtain ⟨hnew, x, hx, hcert⟩ := h
      exact ⟨hnew, x, hissued hx, hcert⟩
  | _ => exact h

section Steps

variable {id : Identity} {sys : RenewalSystem} {rec : Record}

/-- A renewal does not start in the middle of a call, so the one awaited stays the latest. -/
theorem RenewalInv.latest_set (h : RenewalInv id sys rec) {index : Nat} {call call' : Call}
    (hcall : sys.service.calls[index]? = some call)
    (hrenewing : call'.renewing = true → call.renewing = true) {waiting : Nat}
    (hwaiting : sys.endpoint.awaiting = some waiting) {later : Nat} {found : Call}
    (hlt : waiting < later) (hfound : (sys.service.calls.set index call')[later]? = some found) :
    found.renewing = false := by
  rcases get_set_cases hfound with ⟨rfl, rfl⟩ | ⟨-, hold⟩
  · have hbefore := h.latest waiting hwaiting later call hlt hcall
    by_contra hcontra
    rw [Bool.not_eq_false] at hcontra
    rw [hrenewing hcontra] at hbefore
    cases hbefore
  · exact h.latest waiting hwaiting later found hlt hold

/-- The stored certificate is accepted whenever the invariant holds. -/
theorem RenewalInv.accepted (h : RenewalInv id sys rec) :
    (verifyEnrolled sys.service.shared.db sys.endpoint.stored).1 = .ok id :=
  verify_enrolled_ok_iff.mpr ⟨h.named, rec, h.row, h.onFile⟩

/-- A call moves on without recording a renewal and without changing the endpoint's record. -/
theorem RenewalInv.advance_quiet (h : RenewalInv id sys rec) {index : Nat} {call call' : Call}
    {ledger' : Ledger} (hcall : sys.service.calls[index]? = some call)
    (hunrecorded : call.recorded = false) (hunrecorded' : call'.recorded = false)
    (hissued : sys.service.shared.issued ⊆ ledger'.issued)
    (hrow : ledger'.db.lookup id = .ok rec)
    (hown : call'.Own id ledger' sys.endpoint.stored rec)
    (hrenewing : call'.renewing = true → call.renewing = true)
    (hlate : call'.renewing = true → newestFrom sys.service.calls index = true →
      sys.endpoint.stored.serialHex ≠ rec.serialHex →
        (∀ cert, call'.presents = some cert → cert.serialHex = sys.endpoint.stored.serialHex) ∧
          ∀ cert owner csr, call' ≠ .putPending cert owner csr) :
    RenewalInv id { sys with service := ⟨ledger', sys.service.calls.set index call'⟩ } rec where
  row := hrow
  named := h.named
  distinct := h.distinct
  onFile := h.onFile
  signed := by
    intro serial hserial
    obtain ⟨x, hx, hxserial⟩ := h.signed serial hserial
    exact ⟨x, hissued hx, hxserial⟩
  own := by
    intro other hother
    rcases List.mem_or_eq_of_mem_set hother with hold | rfl
    · exact (h.own other hold).mono hissued fun cert hheld => hheld.pending
    · exact hown
  late := by
    intro other found hfound hfoundRenewing hnewest hstored
    have hbefore := newest_from_of_set hcall hunrecorded hnewest
    rcases get_set_cases hfound with ⟨rfl, rfl⟩ | ⟨-, hold⟩
    · exact hlate hfoundRenewing hbefore hstored
    · exact h.late other found hold hfoundRenewing hbefore hstored
  latest := by
    intro waiting hwaiting later found hlt hfound
    exact h.latest_set hcall hrenewing hwaiting hlt hfound
  answer := by
    intro waiting new hwaiting hnew
    rcases get_set_cases hnew with ⟨-, rfl⟩ | ⟨-, hold⟩
    · cases hunrecorded'
    · exact h.answer waiting new hwaiting hold

/-- The endpoint's certificate is promoted: it is now the current one, which settles every
clause about a certificate that is only pending. -/
theorem RenewalInv.advance_promoted (h : RenewalInv id sys rec) {index : Nat}
    {call call' : Call} {ledger' : Ledger} {rec' : Record}
    (hcall : sys.service.calls[index]? = some call) (hunrecorded' : call'.recorded = false)
    (hissued : sys.service.shared.issued ⊆ ledger'.issued)
    (hrow : ledger'.db.lookup id = .ok rec')
    (hpending : rec.pendingSerialHex = sys.endpoint.stored.serialHex)
    (hserial' : rec'.serialHex = sys.endpoint.stored.serialHex)
    (hpending' : rec'.pendingSerialHex = [])
    (hown : call'.Own id sys.service.shared sys.endpoint.stored rec)
    (hrenewing : call'.renewing = true → call.renewing = true) :
    RenewalInv id { sys with service := ⟨ledger', sys.service.calls.set index call'⟩ } rec' where
  row := hrow
  named := h.named
  distinct := by
    rw [hpending', hserial']
    exact sys.endpoint.stored.serialHex_ne.symm
  onFile := mem_serials.mpr (.inl hserial'.symm)
  signed := by
    intro serial hserial
    rcases mem_serials.mp hserial with rfl | ⟨hne, -⟩
    · obtain ⟨x, hx, hxserial⟩ := h.signed _ h.onFile
      exact ⟨x, hissued hx, hxserial.trans hserial'.symm⟩
    · exact absurd hpending' hne
  own := by
    have hkeep : ∀ c : Call, c.Own id sys.service.shared sys.endpoint.stored rec →
        c.Own id ledger' sys.endpoint.stored rec' := by
      intro c hc
      refine hc.mono hissued ?_
      intro cert _ hempty
      exact absurd (hempty.trans hpending') cert.serialHex_ne
    intro other hother
    rcases List.mem_or_eq_of_mem_set hother with hold | rfl
    · exact hkeep other (h.own other hold)
    · exact hkeep _ hown
  late := by
    intro other found _ _ _ hstored
    exact absurd hserial'.symm hstored
  latest := by
    intro waiting hwaiting later found hlt hfound
    exact h.latest_set hcall hrenewing hwaiting hlt hfound
  answer := by
    intro waiting new hwaiting hnew
    rcases get_set_cases hnew with ⟨-, rfl⟩ | ⟨-, hold⟩
    · cases hunrecorded'
    · -- an answer still in flight would make the stored certificate the current one already
      obtain ⟨-, hstored⟩ := h.answer waiting new hwaiting hold
      exact absurd (hpending.trans hstored) h.distinct

/-- The newest renewal is recorded: the endpoint's certificate is the current one, and stays
so. -/
theorem RenewalInv.advance_recorded (h : RenewalInv id sys rec) {index : Nat}
    {cert new : Certificate} {csr : Option CertificateRequest} {now : Time}
    (hcall : sys.service.calls[index]? = some (.putPending cert id csr))
    (hnewest : newestFrom sys.service.calls index = true)
    (hid : identityOf new = .ok id)
    (hfresh : ∀ old ∈ sys.service.shared.issued, old.cert.serialHex ≠ new.serialHex) :
    RenewalInv id { sys with
      service := ⟨{ sys.service.shared with
        db := sys.service.shared.db.setRow id { rec with
          pendingSerialHex := new.serialHex, pendingIssuedAt := some (unix now) }
        issued := ⟨new, id, some cert.serialHex⟩ :: sys.service.shared.issued },
        sys.service.calls.set index (.issued new)⟩ }
      { rec with pendingSerialHex := new.serialHex, pendingIssuedAt := some (unix now) } := by
  have hstored : sys.endpoint.stored.serialHex = rec.serialHex := by
    by_contra hne
    exact (h.late index _ hcall rfl hnewest hne).2 cert id csr rfl
  have hrow := Identities.lookup_eq_ok_iff.mp h.row
  have hunused : ∀ serial ∈ serials rec, new.serialHex ≠ serial := by
    intro serial hserial heq
    obtain ⟨x, hx, hxserial⟩ := h.signed serial hserial
    exact hfresh x hx (hxserial.trans heq.symm)
  refine ⟨?_, h.named, ?_, ?_, ?_, ?_, ?_, ?_, ?_⟩
  · exact Identities.lookup_eq_ok_iff.mpr ⟨Identities.set_row_same _ _ _, hrow.2⟩
  · exact hunused _ (mem_serials.mpr (.inl rfl))
  · exact mem_serials.mpr (.inl hstored)
  · intro serial hserial
    rcases mem_serials.mp hserial with rfl | ⟨-, rfl⟩
    · obtain ⟨x, hx, hxserial⟩ := h.signed _ (mem_serials.mpr (.inl rfl))
      exact ⟨x, List.mem_cons_of_mem _ hx, hxserial⟩
    · exact ⟨_, List.mem_cons_self, rfl⟩
  · intro other hother
    rcases List.mem_or_eq_of_mem_set hother with hold | rfl
    · refine (h.own other hold).mono (List.subset_cons_self _ _) ?_
      rintro held hheld heq
      obtain ⟨x, hx, rfl⟩ := hheld.issued
      exact absurd heq (hfresh x hx)
    · exact ⟨hid, _, List.mem_cons_self, rfl⟩
  · intro other found _ _ _ hne
    exact absurd hstored hne
  · intro waiting hwaiting later found hlt hfound
    exact h.latest_set hcall (by intro hfalse; cases hfalse) hwaiting hlt hfound
  · intro waiting answered hwaiting hanswered
    rcases get_set_cases hanswered with ⟨-, hsame⟩ | ⟨hne, hold⟩
    · cases hsame
      exact ⟨rfl, hstored⟩
    · -- an older answer contradicts `latest`, a newer one the order of recording
      rcases Nat.lt_or_gt_of_ne hne with hlt | hgt
      · have hnot := h.latest waiting hwaiting index _ hlt hcall
        cases hnot
      · have hnot := newest_from_iff.mp hnewest waiting _ hgt hold
        cases hnot

/-- A verified call presents the certificate that was verified, for its own identity. -/
theorem Call.own_after_verify {ledger : Ledger} {stored cert : Certificate} (purpose : Purpose)
    (h : Held id ledger stored rec cert) :
    (Call.afterVerify cert id purpose).Own id ledger stored rec := by
  cases purpose with
  | verify => trivial
  | renew csr => exact ⟨rfl, h⟩

/-- What is held stays held when the endpoint stores the pending certificate. -/
theorem Held.accept {ledger : Ledger} {stored new cert : Certificate}
    (h : Held id ledger stored rec cert) (hpending : new.serialHex = rec.pendingSerialHex) :
    Held id ledger new rec cert :=
  ⟨h.named, h.issued, fun heq => heq.trans hpending.symm⟩

/-- A step of the server keeps the invariant if a renewal it records is the newest, and what the
endpoint holds it still holds. -/
theorem RenewalInv.server (h : RenewalInv id sys rec) {index : Nat} {call call' : Call}
    {ledger' : Ledger} (hcall : sys.service.calls[index]? = some call)
    (horder : ∀ cert owner csr, call = .putPending cert owner csr →
      newestFrom sys.service.calls index = true)
    (heffect : CallEffect sys.service.shared call ledger' call') :
    ∃ rec', RenewalInv id
        { sys with service := ⟨ledger', sys.service.calls.set index call'⟩ } rec' ∧
      ∀ cert, Held id sys.service.shared sys.endpoint.stored rec cert →
        Held id ledger' sys.endpoint.stored rec' cert := by
  have hkeep : ∀ {ledger' : Ledger}, sys.service.shared.issued ⊆ ledger'.issued →
      ∀ cert, Held id sys.service.shared sys.endpoint.stored rec cert →
        Held id ledger' sys.endpoint.stored rec cert :=
    fun hissued cert hc => hc.mono hissued hc.pending
  have hown := h.own call (List.mem_of_getElem? hcall)
  cases heffect with
  | failed hlive error =>
      have hunrecorded : call.recorded = false := by
        cases call <;> first | rfl | cases hlive
      exact ⟨rec, h.advance_quiet hcall hunrecorded rfl (List.Subset.refl _) h.row trivial
        (by intro hfalse; cases hfalse) (by intro hfalse; cases hfalse),
        hkeep (List.Subset.refl _)⟩
  | @accepted purpose cert owner row hid hrec hserial =>
      have hheld : Held id sys.service.shared sys.endpoint.stored rec cert := hown
      obtain rfl : id = owner := by simpa [hheld.named] using hid
      obtain rfl : rec = row := by simpa [h.row] using hrec
      refine ⟨rec, h.advance_quiet hcall rfl ?_ (List.Subset.refl _) h.row
        (Call.own_after_verify purpose hheld) ?_ ?_, hkeep (List.Subset.refl _)⟩
      · cases purpose <;> rfl
      · cases purpose
        · intro hfalse; cases hfalse
        · exact fun _ => rfl
      · intro hrenewing hnewest hstored
        cases purpose with
        | verify => cases hrenewing
        | renew csr =>
            obtain ⟨hpresents, -⟩ := h.late index _ hcall rfl hnewest hstored
            exact absurd (hserial.trans (hpresents cert rfl)).symm hstored
  | @firstUse purpose cert owner row hid hrec hserial =>
      have hheld : Held id sys.service.shared sys.endpoint.stored rec cert := hown
      obtain rfl : id = owner := by simpa [hheld.named] using hid
      refine ⟨rec, h.advance_quiet hcall rfl rfl (List.Subset.refl _) h.row ⟨rfl, hheld⟩ ?_ ?_,
        hkeep (List.Subset.refl _)⟩
      · cases purpose
        · intro hfalse; cases hfalse
        · exact fun _ => rfl
      · intro hrenewing hnewest hstored
        cases purpose with
        | verify => cases hrenewing
        | renew csr =>
            obtain ⟨hpresents, -⟩ := h.late index _ hcall rfl hnewest hstored
            exact ⟨fun c hc => hpresents c hc, by rintro _ _ _ ⟨⟩⟩
  | @promoted purpose cert owner =>
      obtain ⟨rfl, hheld⟩ : owner = id ∧
        Held id sys.service.shared sys.endpoint.stored rec cert := hown
      obtain ⟨hrow, hlive⟩ := Identities.lookup_eq_ok_iff.mp h.row
      have hissued : sys.service.shared.issued ⊆ (sys.service.shared.commit owner
          (sys.service.shared.db.promoteSerial owner cert.serialHex)).issued := by
        rw [Ledger.commit_issued]
        exact List.Subset.refl _
      have hunrecorded : (Call.afterVerify cert owner purpose).recorded = false := by
        cases purpose <;> rfl
      have hrenewing : (Call.afterVerify cert owner purpose).renewing = true →
          (Call.promote purpose cert owner).renewing = true := by
        cases purpose
        · intro hfalse
          cases hfalse
        · exact fun _ => rfl
      rcases sys.service.shared.db.promote_serial_cases owner cert.serialHex with
        ⟨row, hrow', hpending, -, hdb⟩ | ⟨hnot, hdb⟩
      · obtain rfl : rec = row := by simpa [hrow] using hrow'
        have hstored := hheld.pending hpending.symm
        have hnext : (sys.service.shared.commit owner
            (sys.service.shared.db.promoteSerial owner cert.serialHex)).db.lookup owner =
            .ok { rec with
              serialHex := cert.serialHex, pendingSerialHex := [], pendingIssuedAt := none } := by
          rw [Ledger.commit_db, hdb]
          exact Identities.lookup_eq_ok_iff.mpr ⟨Identities.set_row_same _ _ _, hlive⟩
        refine ⟨_, h.advance_promoted hcall hunrecorded hissued hnext (hpending.trans hstored)
          hstored rfl (Call.own_after_verify purpose hheld) hrenewing, ?_⟩
        intro other hother
        exact hother.mono hissued fun hempty => absurd hempty other.serialHex_ne
      · refine ⟨rec, h.advance_quiet hcall rfl hunrecorded hissued ?_ ?_ hrenewing ?_,
          hkeep hissued⟩
        · rw [Ledger.commit_db, hdb]
          exact h.row
        · exact (Call.own_after_verify purpose hheld).mono hissued fun _ hc => hc.pending
        · intro hafter hnewest hstored
          -- the newest renewal presents the pending certificate, so the row did change
          obtain ⟨hpresents, -⟩ := h.late index _ hcall (hrenewing hafter) hnewest hstored
          rcases mem_serials.mp h.onFile with hcurrent | ⟨-, hpending⟩
          · exact absurd hcurrent hstored
          · exact absurd (hpending.symm.trans (hpresents cert rfl).symm) (hnot rec hrow hlive)
  | @renewed cert new owner csr row now hrec hid hfresh =>
      obtain ⟨rfl, hheld⟩ : owner = id ∧
        Held id sys.service.shared sys.endpoint.stored rec cert := hown
      obtain rfl : rec = row := by simpa [h.row] using hrec
      refine ⟨_, h.advance_recorded hcall (horder cert owner csr rfl) hid hfresh, ?_⟩
      intro other hother
      obtain ⟨x, hx, rfl⟩ := hother.issued
      exact hother.mono (List.subset_cons_self _ _) fun heq => absurd heq (hfresh x hx)
  | @unrecorded cert new owner csr error hid hfresh =>
      refine ⟨rec, h.advance_quiet hcall rfl rfl (List.subset_cons_self _ _) h.row trivial ?_ ?_,
        hkeep (List.subset_cons_self _ _)⟩
      · intro hfalse; cases hfalse
      · intro hfalse; cases hfalse
  | enrolled => exact hown.elim
  | revoked => exact hown.elim
  | tokens hsame hnext =>
      rcases hnext with ⟨_, _, _, rfl, -⟩ | ⟨_, _, rfl, -⟩ | ⟨_, rfl, -⟩ <;> exact hown.elim

/-- The stored certificate is held, once the authority is known to have issued it. -/
theorem RenewalInv.held_stored (h : RenewalInv id sys rec)
    (hissued : ∃ x ∈ sys.service.shared.issued, x.cert = sys.endpoint.stored) :
    Held id sys.service.shared sys.endpoint.stored rec sys.endpoint.stored :=
  ⟨h.named, hissued, fun _ => rfl⟩

/-- A new call joins the pool: a renewal presents the stored certificate, and any other
connection presents one the endpoint holds. -/
theorem RenewalInv.start (h : RenewalInv id sys rec) {purpose : Purpose} {cert : Certificate}
    {awaiting : Option Nat} (hheld : Held id sys.service.shared sys.endpoint.stored rec cert)
    (hawaiting : (awaiting = some sys.service.calls.length ∧ cert = sys.endpoint.stored) ∨
      (awaiting = sys.endpoint.awaiting ∧ purpose = .verify)) :
    RenewalInv id
      { service := ⟨sys.service.shared, sys.service.calls ++ [.lookup purpose cert]⟩
        endpoint := { sys.endpoint with awaiting } } rec := by
  have hcases : ∀ {index found},
      (sys.service.calls ++ [Call.lookup purpose cert])[index]? = some found →
      sys.service.calls[index]? = some found ∨
        (index = sys.service.calls.length ∧ found = .lookup purpose cert) := by
    intro index found hfound
    rcases Nat.lt_or_ge index sys.service.calls.length with hlt | hge
    · rw [List.getElem?_append_left hlt] at hfound
      exact .inl hfound
    · rw [List.getElem?_append_right hge, List.getElem?_singleton] at hfound
      split at hfound
      · exact .inr ⟨by omega, (Option.some.inj hfound).symm⟩
      · cases hfound
  refine ⟨h.row, h.named, h.distinct, h.onFile, h.signed, ?_, ?_, ?_, ?_⟩
  · intro call hcall
    rcases List.mem_append.mp hcall with hold | hnew
    · exact h.own call hold
    · obtain rfl := List.mem_singleton.mp hnew
      exact hheld
  · intro index call hcall hrenewing hnewest hstored
    rcases hcases hcall with hold | ⟨-, rfl⟩
    · refine h.late index call hold hrenewing (newest_from_iff.mpr ?_) hstored
      intro later found hlt hfound
      refine newest_from_iff.mp hnewest later found hlt ?_
      have hbound := (List.getElem?_eq_some_iff.mp hfound).1
      show (sys.service.calls ++ _)[later]? = some found
      rw [List.getElem?_append_left hbound]
      exact hfound
    · rcases hawaiting with ⟨-, rfl⟩ | ⟨-, rfl⟩
      · refine ⟨?_, by rintro _ _ _ ⟨⟩⟩
        rintro cert ⟨⟩
        rfl
      · cases hrenewing
  · intro waiting hwaiting later call hlt hcall
    rcases hawaiting with ⟨rfl, -⟩ | ⟨rfl, rfl⟩
    · cases hwaiting
      rcases hcases hcall with hold | ⟨rfl, -⟩
      · have hbound := (List.getElem?_eq_some_iff.mp hold).1
        omega
      · omega
    · rcases hcases hcall with hold | ⟨-, rfl⟩
      · exact h.latest waiting hwaiting later call hlt hold
      · rfl
  · intro waiting new hwaiting hnew
    rcases hcases hnew with hold | ⟨-, hnot⟩
    · rcases hawaiting with ⟨rfl, -⟩ | ⟨rfl, -⟩
      · cases hwaiting
        have hbound := (List.getElem?_eq_some_iff.mp hold).1
        omega
      · exact h.answer waiting new hwaiting hold
    · cases hnot

/-- The endpoint stores the certificate it was waiting for. -/
theorem RenewalInv.accept (h : RenewalInv id sys rec) {index : Nat} {new : Certificate}
    (hwaiting : sys.endpoint.awaiting = some index)
    (hnew : sys.service.calls[index]? = some (.issued new)) :
    RenewalInv id { sys with endpoint := ⟨new, none⟩ } rec := by
  obtain ⟨hpending, hstored⟩ := h.answer index new hwaiting hnew
  have hissued := h.own _ (List.mem_of_getElem? hnew)
  refine ⟨h.row, hissued.1, h.distinct, ?_, h.signed, ?_, ?_, ?_, ?_⟩
  · exact mem_serials.mpr (.inr ⟨hpending ▸ new.serialHex_ne, hpending⟩)
  · intro call hcall
    have hown := h.own call hcall
    cases call with
    | lookup purpose cert => exact Held.accept hown hpending
    | promote purpose cert owner => exact ⟨hown.1, hown.2.accept hpending⟩
    | putPending cert owner csr => exact ⟨hown.1, hown.2.accept hpending⟩
    | _ => exact hown
  · intro other call hcall hrenewing hnewest _
    -- a renewal that may still be recorded was sent after the answered one, and there is none
    rcases Nat.lt_trichotomy other index with hlt | rfl | hgt
    · have hnot := newest_from_iff.mp hnewest index _ hlt hnew
      cases hnot
    · rw [hnew, Option.some.injEq] at hcall
      subst hcall
      cases hrenewing
    · have hnot := h.latest index hwaiting other call hgt hcall
      rw [hrenewing] at hnot
      cases hnot
  · intro waiting hnone
    cases hnone
  · intro waiting answered hnone
    cases hnone

/-- The endpoint gives up on the renewal it was waiting for. -/
theorem RenewalInv.give_up (h : RenewalInv id sys rec) :
    RenewalInv id { sys with endpoint := { sys.endpoint with awaiting := none } } rec where
  row := h.row
  named := h.named
  distinct := h.distinct
  onFile := h.onFile
  signed := h.signed
  own := h.own
  late := h.late
  latest := by
    intro waiting hnone
    cases hnone
  answer := by
    intro waiting new hnone
    cases hnone

end Steps

/-- Every step that keeps the order of recording keeps the invariant. -/
theorem renewal_step_inv {hash : Bytes → Bytes} {id : Identity} {sys next : RenewalSystem}
    {action : RenewalAction} (h : ∃ rec, RenewalInv id sys rec)
    (hstep : restrict inSendOrder (renewalStep hash) sys action = some next) :
    ∃ rec, RenewalInv id next rec := by
  obtain ⟨rec, h⟩ := h
  obtain ⟨hguard, hstep⟩ := restrict_eq_some.mp hstep
  have hmay : ∀ {purpose}, mayStart sys.service.shared (.lookup purpose sys.endpoint.stored) =
      true → ∃ x ∈ sys.service.shared.issued, x.cert = sys.endpoint.stored := by
    intro purpose hmay
    simpa [mayStart] using hmay
  cases action with
  | sendRenew csr =>
      simp only [renewalStep, serviceStep, poolStep] at hstep
      split at hstep
      · cases hstep
      · obtain ⟨service, hservice, rfl⟩ := Option.map_eq_some_iff.mp hstep
        obtain ⟨hissued, hservice⟩ := Option.ite_none_right_eq_some.mp hservice
        obtain rfl := Option.some.inj hservice
        exact ⟨rec, h.start (h.held_stored (hmay hissued)) (.inl ⟨rfl, rfl⟩)⟩
  | connect =>
      simp only [renewalStep, serviceStep, poolStep] at hstep
      obtain ⟨service, hservice, rfl⟩ := Option.map_eq_some_iff.mp hstep
      obtain ⟨hissued, hservice⟩ := Option.ite_none_right_eq_some.mp hservice
      obtain rfl := Option.some.inj hservice
      exact ⟨rec, h.start (h.held_stored (hmay hissued)) (.inr ⟨rfl, rfl⟩)⟩
  | giveUp =>
      cases hstep
      exact ⟨rec, h.give_up⟩
  | accept =>
      simp only [renewalStep] at hstep
      split at hstep
      next cert hanswer =>
        cases hstep
        obtain ⟨index, hwaiting, hnew⟩ := Option.bind_eq_some_iff.mp hanswer
        exact ⟨rec, h.accept hwaiting hnew⟩
      · cases hstep
  | server index input =>
      obtain ⟨service, hservice, rfl⟩ := Option.map_eq_some_iff.mp hstep
      rcases pool_step_cases hservice with ⟨call, hnot, -⟩ |
        ⟨index', input', call, ledger', call', hsame, hcall, hcallStep, rfl⟩
      · cases hnot
      · cases hsame
        have horder : ∀ cert owner csr, call = .putPending cert owner csr →
            newestFrom sys.service.calls index = true := by
          rintro cert owner csr rfl
          simpa [inSendOrder, hcall] using hguard
        obtain ⟨rec', hnext, -⟩ := h.server hcall horder (call_step_effect hcallStep)
        exact ⟨rec', hnext⟩

/-- The invariant holds of an endpoint that has just enrolled. -/
theorem enrolled_endpoint_inv {id : Identity} {cert : Certificate} (enrolledAt : Int64)
    (hid : identityOf cert = .ok id) :
    RenewalInv id (enrolledEndpoint id cert enrolledAt)
      ⟨enrolledAt, cert.serialHex, none, [], none⟩ := by
  refine ⟨?_, hid, cert.serialHex_ne.symm, ?_, ?_, ?_, ?_, ?_, ?_⟩
  · exact Identities.lookup_eq_ok_iff.mpr ⟨Identities.set_row_same _ _ _, rfl⟩
  · exact mem_serials.mpr (.inl rfl)
  · intro serial hserial
    rcases mem_serials.mp hserial with rfl | ⟨hne, -⟩
    · exact ⟨_, List.mem_singleton.mpr rfl, rfl⟩
    · exact absurd rfl hne
  · intro call hcall
    cases hcall
  · intro index call hcall
    cases hcall
  · intro index hwaiting
    cases hwaiting
  · intro index new hwaiting
    cases hwaiting

/-- In every run in which renewals are recorded in the order in which the endpoint sent them,
`VerifyEnrolled` accepts the certificate the endpoint has stored, in every state reached. -/
theorem stored_certificate_accepted (hash : Bytes → Bytes) {id : Identity} {cert : Certificate}
    (enrolledAt : Int64) (hid : identityOf cert = .ok id) {actions : List RenewalAction}
    {sys : RenewalSystem}
    (hrun : run (restrict inSendOrder (renewalStep hash)) (enrolledEndpoint id cert enrolledAt)
      actions = some sys) :
    (verifyEnrolled sys.service.shared.db sys.endpoint.stored).1 = .ok id := by
  have hstart : ∃ rec, RenewalInv id (enrolledEndpoint id cert enrolledAt) rec :=
    ⟨_, enrolled_endpoint_inv enrolledAt hid⟩
  obtain ⟨rec, hinv⟩ := run_invariant renewal_step_inv hstart hrun
  exact hinv.accepted

section Abandoned

/-- The device of the runs below. -/
def sensor : Identity := ⟨.device, ascii "sensor"⟩

/-- The certificate of the device with a given serial. -/
def sensorCert (serial : UInt8) : Certificate := ⟨[sensor.uri], [serial], one_byte_ne_nil serial⟩

/-- A step of the server at the epoch; it draws the given serial if it signs. -/
def serves (index : Nat) (serial : UInt8) : RenewalAction :=
  .server index ⟨Time.ofUnix 0, [serial], one_byte_ne_nil serial, false⟩

/-- The endpoint renews twice: the first request times out and is abandoned. -/
def retriedRenewal : List RenewalAction :=
  [.sendRenew (some ⟨true, true⟩), serves 0 0, .giveUp, serves 0 2,
    .sendRenew (some ⟨true, true⟩), serves 1 0, serves 1 3, .accept, .connect, serves 2 0]

/-- A retried renewal whose requests are recorded in order leaves an accepted certificate. -/
theorem stored_certificate_accepted_retried :
    ∃ sys, run (restrict inSendOrder (renewalStep id))
        (enrolledEndpoint sensor (sensorCert 1) 0) retriedRenewal = some sys ∧
      sys.endpoint.stored = sensorCert 3 ∧
      (verifyEnrolled sys.service.shared.db sys.endpoint.stored).1 = .ok sensor := by
  have hstored : (run (restrict inSendOrder (renewalStep id))
      (enrolledEndpoint sensor (sensorCert 1) 0) retriedRenewal).map (·.endpoint.stored) =
      some (sensorCert 3) := by decide
  obtain ⟨sys, hrun, hcert⟩ := Option.map_eq_some_iff.mp hstored
  exact ⟨sys, hrun, hcert, stored_certificate_accepted id 0 (by decide) hrun⟩

/-- The endpoint abandons its first request, renews with the second and stores serial 3; the
first request is then recorded. -/
def abandonedRenewal : List RenewalAction :=
  [.sendRenew (some ⟨true, true⟩), serves 0 0, .giveUp,
    .sendRenew (some ⟨true, true⟩), serves 1 0, serves 1 3, .accept, serves 0 2]

/-- The abandoned request takes the pending slot away from the certificate the endpoint holds,
which is then refused. -/
theorem abandoned_request_bricks_endpoint :
    ∃ sys, run (renewalStep id) (enrolledEndpoint sensor (sensorCert 1) 0) abandonedRenewal =
        some sys ∧
      sys.endpoint.stored = sensorCert 3 ∧
      (verifyEnrolled sys.service.shared.db sys.endpoint.stored).1 = .error .superseded := by
  exact ⟨_, rfl, rfl, rfl⟩

end Abandoned

end AccessRelay.Control
