import AccessRelay.Control.Renewal

/-!
# Renewal on the endpoint

`internal/identity`: an endpoint keeps its key, its certificate and the authority's certificate
in a state directory, and `Load` puts an identity together from these files. `Renew` asks the
control plane for a new certificate and then replaces the files one after another: the key
through the keystore, which is an atomic replace, and the others with plain writes that may be
interrupted at any byte.

Between the key and the certificate the directory holds a pair that does not match, so a call
cut short there leaves an identity that cannot be loaded (`interrupted_renewal_unloadable`). The
control plane's half is the system of `Control.Renewal`; while calls do not overlap and none is
cut short in the middle of its files, every state of the directory is one in which that system
has stored the certificate on disk (`renewal_leaves_loadable_directory`).
-/

namespace AccessRelay.Endpoint

open Encoding Ca Control Machine

/-- The files of a state directory. -/
structure StateDir where
  key : Option Bytes
  cert : Option Bytes
  ca : Option Bytes
  settings : Option Bytes
  grantKey : Option Bytes
  deriving DecidableEq

/-- What the keystore and the Go libraries provide. A key that was sealed is opened again. -/
structure Platform where
  sealKey : Bytes → Option Bytes
  openKey : Bytes → Option Bytes
  open_seal : ∀ {material file}, sealKey material = some file → openKey file = some material
  x509KeyPair : Bytes → Bytes → Bool
  leafOf : Bytes → Option Certificate
  appendCertsFromPEM : Bytes → Bool
  serverName : Bytes → Bytes
  parseGrantKey : Bytes → Option Bytes

/-- A peer's own credentials and the anchor it verifies others with. -/
structure StoredIdentity where
  certificate : Bytes
  key : Bytes
  leaf : Certificate
  caPool : Bytes
  id : Identity
  serverName : Bytes
  grantKey : Option Bytes
  deriving DecidableEq

/-- Errors of `Load`. -/
inductive LoadError where
  | notEnrolled
  | keystore
  | keyPair
  | certificate
  | identity (error : CaError)
  | authority
  deriving DecidableEq

/-- `Load`: restore an identity from a state directory. The settings and the grant key are
optional. -/
def load (p : Platform) (dir : StateDir) : Except LoadError StoredIdentity :=
  match dir.key with
  | none => .error .notEnrolled
  | some file =>
      match p.openKey file, dir.cert, dir.ca with
      | none, _, _ => .error .keystore
      | some _, none, _ => .error .notEnrolled
      | some _, some _, none => .error .notEnrolled
      | some key, some certificate, some ca =>
          if ¬ p.x509KeyPair certificate key then .error .keyPair
          else match p.leafOf certificate with
            | none => .error .certificate
            | some leaf =>
                match identityOf leaf with
                | .error e => .error (.identity e)
                | .ok id =>
                    if ¬ p.appendCertsFromPEM ca then .error .authority
                    else .ok {
                      certificate, key, leaf, id
                      caPool := ca
                      serverName := dir.settings.elim [] p.serverName
                      grantKey := dir.grantKey.bind p.parseGrantKey }

/-- The control plane's answer to a renewal; an empty field was not sent. -/
structure RenewResponse where
  certificate : Bytes
  ca : Bytes
  grantKey : Bytes
  deriving DecidableEq

/-- A call of `Renew`, named after what it does next. -/
inductive RenewCall where
  | post (current : StoredIdentity) (key : Bytes) (csr : Option CertificateRequest)
  | await (key : Bytes) (index : Nat)
  | saveKey (key : Bytes) (resp : RenewResponse)
  | writeCert (resp : RenewResponse)
  | writeCA (resp : RenewResponse)
  | writeGrantKey (resp : RenewResponse)
  | loadBack
  | renewed (identity : StoredIdentity)
  | stopped
  deriving DecidableEq

/-- The call has returned or was cut short. -/
def RenewCall.ended : RenewCall → Bool
  | .renewed _ | .stopped => true
  | _ => false

/-- What happens to a call: it goes on, the answer arrives, a file is written in part, or it is
cut short by an error or a crash. -/
inductive RenewEvent where
  | proceed
  | respond (resp : RenewResponse)
  | writePart (length : Nat)
  | stop
  deriving DecidableEq

/-- The control plane, the state directory, and the identities the endpoint has loaded. -/
structure EndpointState where
  service : Pool Ledger Call
  dir : StateDir
  loaded : List StoredIdentity

/-- The control plane answers with the certificate it issued and its own authority. -/
def RenewResponse.answers (p : Platform) (resp : RenewResponse) (new : Certificate) : Bool :=
  p.leafOf resp.certificate = some new ∧ (resp.ca = [] ∨ p.appendCertsFromPEM resp.ca)

/-- The file to write after the certificate. -/
def RenewResponse.afterCert (resp : RenewResponse) : RenewCall :=
  if resp.ca ≠ [] then .writeCA resp else if resp.grantKey ≠ [] then .writeGrantKey resp
  else .loadBack

/-- The file to write after the authority's certificate. -/
def RenewResponse.afterCA (resp : RenewResponse) : RenewCall :=
  if resp.grantKey ≠ [] then .writeGrantKey resp else .loadBack

/-- One step of `Renew`. -/
def renewStep (p : Platform) (hash : Bytes → Bytes) (s : EndpointState) :
    RenewCall → RenewEvent → Option (EndpointState × RenewCall)
  | .renewed _, _ | .stopped, _ => none
  | _, .stop => some (s, .stopped)
  | .post current key csr, .proceed =>
      (serviceStep hash s.service (.start (.lookup (.renew csr) current.leaf))).map fun service =>
        ({ s with service }, .await key s.service.calls.length)
  | .await key index, .respond resp =>
      match s.service.calls[index]? with
      | some (.issued new) =>
          if resp.answers p new then
            some (s, if p.x509KeyPair resp.certificate key then .saveKey key resp else .stopped)
          else none
      | _ => none
  | .saveKey key resp, .proceed =>
      match p.sealKey key with
      | none => some (s, .stopped)
      | some file => some ({ s with dir := { s.dir with key := some file } }, .writeCert resp)
  | .writeCert resp, .writePart length =>
      some ({ s with dir := { s.dir with cert := some (resp.certificate.take length) } },
        .writeCert resp)
  | .writeCert resp, .proceed =>
      some ({ s with dir := { s.dir with cert := some resp.certificate } }, resp.afterCert)
  | .writeCA resp, .writePart length =>
      some ({ s with dir := { s.dir with ca := some (resp.ca.take length) } }, .writeCA resp)
  | .writeCA resp, .proceed =>
      some ({ s with dir := { s.dir with ca := some resp.ca } }, resp.afterCA)
  | .writeGrantKey resp, .writePart length =>
      some ({ s with dir := { s.dir with grantKey := some (resp.grantKey.take length) } },
        .writeGrantKey resp)
  | .writeGrantKey resp, .proceed =>
      some ({ s with dir := { s.dir with grantKey := some resp.grantKey } }, .loadBack)
  | .loadBack, .proceed =>
      match load p s.dir with
      | .error _ => some (s, .stopped)
      | .ok identity => some ({ s with loaded := identity :: s.loaded }, .renewed identity)
  | _, _ => none

/-- A call of `Renew` is given an identity the endpoint has loaded. -/
def mayRenew (s : EndpointState) : RenewCall → Bool
  | .post current _ _ => current ∈ s.loaded
  | _ => false

/-- What can happen next: a step of a renewal, a new process that loads the directory, a
connection with a loaded identity, or a step of a call at the control plane. -/
inductive EndpointAction where
  | renew (action : PoolAction RenewCall RenewEvent)
  | load
  | connect (current : StoredIdentity)
  | server (index : Nat) (input : Input)

/-- One action of the endpoint and the control plane. -/
def endpointStep (p : Platform) (hash : Bytes → Bytes) (pool : Pool EndpointState RenewCall) :
    EndpointAction → Option (Pool EndpointState RenewCall)
  | .renew action =>
      poolStep mayRenew (fun s call event => renewStep p hash s call event) pool action
  | .load =>
      -- The calls of the process before it are gone.
      if pool.calls.all RenewCall.ended then
        match load p pool.shared.dir with
        | .error _ => none
        | .ok identity =>
            some { pool with
              shared := { pool.shared with loaded := identity :: pool.shared.loaded } }
      else none
  | .connect current =>
      if current ∈ pool.shared.loaded then
        (serviceStep hash pool.shared.service (.start (.lookup .verify current.leaf))).map
          fun service => { pool with shared := { pool.shared with service } }
      else none
  | .server index input =>
      (serviceStep hash pool.shared.service (.advance index input)).map fun service =>
        { pool with shared := { pool.shared with service } }

/-- An endpoint with one loaded identity, and a control plane with some history. -/
def startEndpoint (ledger : Ledger) (dir : StateDir) (identity : StoredIdentity) :
    Pool EndpointState RenewCall :=
  ⟨⟨⟨ledger, []⟩, dir, [identity]⟩, []⟩

/-- Once every call has returned or was cut short, `Load` succeeds with a matching pair whose
serial is the current or pending one of the identity. -/
def DirectoryLoads (p : Platform) (id : Identity) (pool : Pool EndpointState RenewCall) : Prop :=
  (∀ call ∈ pool.calls, call.ended = true) → ∃ identity, load p pool.shared.dir = .ok identity ∧
    p.x509KeyPair identity.certificate identity.key = true ∧ identity.id = id ∧
    identity.leaf.serialHex ∈ serialsOf pool.shared.service.shared.db id

/-- The call has written none of the files that have to agree, or all of them. -/
def RenewCall.filesWhole : RenewCall → Bool
  | .writeCert _ | .writeCA _ => false
  | _ => true

/-- The condition: a call starts when no other is in progress, with the identity on disk; it is
cut short only before it saves its key or after it has written the authority's certificate; and
the control plane records renewals in the order in which they were sent. -/
def renewsSafely (p : Platform) (pool : Pool EndpointState RenewCall) : EndpointAction → Bool
  | .renew (.start (.post current _ _)) =>
      pool.calls.all RenewCall.ended && load p pool.shared.dir = .ok current
  | .renew (.advance index .stop) => (pool.calls[index]?).all RenewCall.filesWhole
  | .server index _ =>
      match pool.shared.service.calls[index]? with
      | some (.putPending _ _ _) => newestFrom pool.shared.service.calls index
      | _ => true
  | _ => true

/-- The files of the directory that have to agree: the key, the certificate and its leaf. -/
def StateDir.Pair (p : Platform) (dir : StateDir) (stored : Certificate) : Prop :=
  ∃ file key certificate, dir.key = some file ∧ p.openKey file = some key ∧
    dir.cert = some certificate ∧ p.x509KeyPair certificate key = true ∧
    p.leafOf certificate = some stored

/-- The authority's certificate on disk is usable. -/
def StateDir.Anchored (p : Platform) (dir : StateDir) : Prop :=
  ∃ ca, dir.ca = some ca ∧ p.appendCertsFromPEM ca = true

/-- What `Load` needs is there. -/
theorem load_ok {p : Platform} {dir : StateDir} {stored : Certificate} {id : Identity}
    (hpair : dir.Pair p stored) (hca : dir.Anchored p) (hid : identityOf stored = .ok id) :
    ∃ identity, load p dir = .ok identity ∧ identity.leaf = stored ∧ identity.id = id ∧
      p.x509KeyPair identity.certificate identity.key = true := by
  obtain ⟨file, key, certificate, hfile, hkey, hcert, hmatch, hleaf⟩ := hpair
  obtain ⟨ca, hca, husable⟩ := hca
  simp [load, hfile, hkey, hcert, hca, hmatch, hleaf, hid, husable]

/-- What `Load` found is what was there. -/
theorem of_load_ok {p : Platform} {dir : StateDir} {identity : StoredIdentity}
    (h : load p dir = .ok identity) :
    dir.Pair p identity.leaf ∧ dir.Anchored p ∧ identityOf identity.leaf = .ok identity.id := by
  unfold load at h
  split at h
  · cases h
  next file hfile =>
    split at h
    · cases h
    · cases h
    · cases h
    next key certificate ca hkey hcert hca =>
      split at h
      · cases h
      next hmatch =>
        split at h
        · cases h
        next leaf hleaf =>
          split at h
          · cases h
          next id hid =>
            split at h
            · cases h
            next husable =>
              cases h
              exact ⟨⟨file, key, certificate, hfile, hkey, hcert, not_not.mp hmatch, hleaf⟩,
                ⟨ca, hca, not_not.mp husable⟩, hid⟩

/-- There is one certificate on disk. -/
theorem StateDir.Pair.unique {p : Platform} {dir : StateDir} {a b : Certificate}
    (ha : dir.Pair p a) (hb : dir.Pair p b) : a = b := by
  obtain ⟨_, _, certificate, _, _, hcert, _, hleaf⟩ := ha
  obtain ⟨_, _, certificate', _, _, hcert', _, hleaf'⟩ := hb
  obtain rfl : certificate = certificate' := Option.some.inj (hcert.symm.trans hcert')
  exact Option.some.inj (hleaf.symm.trans hleaf')

/-- The answer a call is about to store: the control plane issued it to the call that is
awaited, and it matches the key. -/
structure Answer (p : Platform) (s : EndpointState) (awaiting : Option Nat) (key : Bytes)
    (resp : RenewResponse) (new : Certificate) : Prop where
  issued : ∃ index, awaiting = some index ∧ s.service.calls[index]? = some (.issued new)
  leaf : p.leafOf resp.certificate = some new
  usable : resp.ca = [] ∨ p.appendCertsFromPEM resp.ca = true
  matching : p.x509KeyPair resp.certificate key = true

/-- What is on disk while a call is at some point, if `stored` is the certificate the control
plane takes the endpoint to have. -/
def RenewCall.OnDisk (p : Platform) (s : EndpointState) (stored : Certificate)
    (awaiting : Option Nat) : RenewCall → Prop
  | .post current _ _ => (s.dir.Pair p stored ∧ s.dir.Anchored p) ∧ current.leaf = stored
  | .await _ index => (s.dir.Pair p stored ∧ s.dir.Anchored p) ∧ awaiting = some index
  | .saveKey key resp =>
      (s.dir.Pair p stored ∧ s.dir.Anchored p) ∧ ∃ new, Answer p s awaiting key resp new
  | .writeCert resp =>
      s.dir.Anchored p ∧ ∃ file key new, s.dir.key = some file ∧ p.openKey file = some key ∧
        Answer p s awaiting key resp new
  | .writeCA resp => s.dir.Pair p stored ∧ p.appendCertsFromPEM resp.ca = true
  | .writeGrantKey _ | .loadBack | .renewed _ | .stopped =>
      s.dir.Pair p stored ∧ s.dir.Anchored p

/-- The control plane's system holds for the certificate on disk, the endpoint holds what it has
loaded, and the files are as the call in progress leaves them. -/
structure Consistent (p : Platform) (id : Identity) (s : EndpointState) (call : RenewCall)
    (stored : Certificate) (rec : Storage.Record) (awaiting : Option Nat) : Prop where
  renewal : RenewalInv id ⟨s.service, ⟨stored, awaiting⟩⟩ rec
  own : Held id s.service.shared stored rec stored
  loaded : ∀ identity ∈ s.loaded, Held id s.service.shared stored rec identity.leaf
  disk : call.OnDisk p s stored awaiting

/-- Outside the two writes that matter the files agree. -/
theorem RenewCall.OnDisk.whole {p : Platform} {s : EndpointState} {stored : Certificate}
    {awaiting : Option Nat} {call : RenewCall} (h : call.OnDisk p s stored awaiting)
    (hwhole : call.filesWhole = true) : s.dir.Pair p stored ∧ s.dir.Anchored p := by
  cases call with
  | post | await | saveKey => exact h.1
  | writeCert | writeCA => cases hwhole
  | writeGrantKey | loadBack | renewed | stopped => exact h

section Steps

variable {p : Platform} {hash : Bytes → Bytes} {id : Identity} {s s' : EndpointState}
  {call call' : RenewCall} {stored : Certificate} {rec : Storage.Record} {awaiting : Option Nat}

/-- An answer stays what it is while other calls of the service move. -/
theorem Answer.mono {key : Bytes} {resp : RenewResponse} {new : Certificate}
    (h : Answer p s awaiting key resp new)
    (hcalls : ∀ index : Nat, s.service.calls[index]? = some (.issued new) →
      s'.service.calls[index]? = some (.issued new)) : Answer p s' awaiting key resp new := by
  obtain ⟨index, hawaiting, hissued⟩ := h.issued
  exact ⟨⟨index, hawaiting, hcalls index hissued⟩, h.leaf, h.usable, h.matching⟩

/-- What is on disk does not depend on the control plane, except for the answer it gave. -/
theorem RenewCall.OnDisk.mono (h : call.OnDisk p s stored awaiting) (hdir : s'.dir = s.dir)
    (hcalls : ∀ (index : Nat) new, s.service.calls[index]? = some (.issued new) →
      s'.service.calls[index]? = some (.issued new)) : call.OnDisk p s' stored awaiting := by
  cases call with
  | saveKey key resp =>
      obtain ⟨hfiles, new, hanswer⟩ := h
      exact ⟨hdir ▸ hfiles, new, hanswer.mono fun index => hcalls index new⟩
  | writeCert resp =>
      obtain ⟨hca, file, key, new, hfile, hkey, hanswer⟩ := h
      exact ⟨hdir ▸ hca, file, key, new, hdir ▸ hfile, hkey,
        hanswer.mono fun index => hcalls index new⟩
  | _ => simpa only [RenewCall.OnDisk, hdir] using h

/-- The identity on disk is loaded. -/
theorem Consistent.load (h : Consistent p id s call stored rec awaiting)
    (hpair : s.dir.Pair p stored) {identity : StoredIdentity}
    (hload : Endpoint.load p s.dir = .ok identity) :
    Consistent p id { s with loaded := identity :: s.loaded } call stored rec awaiting where
  renewal := h.renewal
  own := h.own
  loaded := by
    intro l hl
    rcases List.mem_cons.mp hl with rfl | hold
    · rw [(of_load_ok hload).1.unique hpair]
      exact h.own
    · exact h.loaded l hold
  disk := h.disk.mono rfl fun _ _ hcall => hcall

/-- A new call of the service does not disturb the answers given. -/
theorem issued_append {calls : List Call} {more : List Call} {index : Nat} {new : Certificate}
    (h : calls[index]? = some (.issued new)) : (calls ++ more)[index]? = some (.issued new) := by
  rw [List.getElem?_append_left (List.getElem?_eq_some_iff.mp h).1]
  exact h

/-- The endpoint connects with an identity it has loaded. -/
theorem Consistent.connect (h : Consistent p id s call stored rec awaiting)
    {current : StoredIdentity} (hcurrent : current ∈ s.loaded) {service : Pool Ledger Call}
    (hstep : serviceStep hash s.service (.start (.lookup .verify current.leaf)) =
      some service) :
    Consistent p id { s with service } call stored rec awaiting := by
  obtain ⟨-, hservice⟩ := Option.ite_none_right_eq_some.mp hstep
  obtain rfl := Option.some.inj hservice
  exact ⟨h.renewal.start (h.loaded current hcurrent) (.inr ⟨rfl, rfl⟩), h.own, h.loaded,
    h.disk.mono rfl fun _ _ => issued_append⟩

/-- A call of the service moves, recording renewals in order. -/
theorem Consistent.server (h : Consistent p id s call stored rec awaiting) {index : Nat}
    {input : Input} {service : Pool Ledger Call}
    (horder : ∀ cert owner csr, s.service.calls[index]? = some (.putPending cert owner csr) →
      newestFrom s.service.calls index = true)
    (hstep : serviceStep hash s.service (.advance index input) = some service) :
    ∃ rec', Consistent p id { s with service } call stored rec' awaiting := by
  rcases pool_step_cases hstep with ⟨request, hnot, -⟩ |
    ⟨index', input', request, ledger', request', hsame, hrequest, hcallStep, rfl⟩
  · cases hnot
  · cases hsame
    have horder' : ∀ cert owner csr, request = .putPending cert owner csr →
        newestFrom s.service.calls index = true := by
      rintro cert owner csr rfl
      exact horder cert owner csr hrequest
    obtain ⟨rec', hinv, hheld⟩ := h.renewal.server hrequest horder' (call_step_effect hcallStep)
    refine ⟨rec', hinv, hheld _ h.own, fun l hl => hheld _ (h.loaded l hl), ?_⟩
    refine h.disk.mono rfl ?_
    intro k new hk
    show (s.service.calls.set index request')[k]? = _
    -- A call that has returned does not move.
    have hne : index ≠ k := by
      rintro rfl
      obtain rfl := Option.some.inj (hrequest.symm.trans hk)
      simp [callStep, Call.returned] at hcallStep
    rw [List.getElem?_set_ne hne]
    exact hk

/-- The call moves on, and so does what is on disk. -/
theorem Consistent.withDisk (h : Consistent p id s call stored rec awaiting) {dir : StateDir}
    (hdisk : call'.OnDisk p { s with dir } stored awaiting) :
    Consistent p id { s with dir } call' stored rec awaiting :=
  ⟨h.renewal, h.own, h.loaded, hdisk⟩

/-- The new certificate has been written: from now on it is the one the endpoint has stored. -/
theorem Consistent.writeCert {resp : RenewResponse}
    (h : Consistent p id s (.writeCert resp) stored rec awaiting) :
    ∃ new, Consistent p id { s with dir := { s.dir with cert := some resp.certificate } }
      resp.afterCert new rec none := by
  obtain ⟨hca, file, key, new, hfile, hkey, hanswer⟩ := h.disk
  obtain ⟨index, hawaiting, hissued⟩ := hanswer.issued
  have hpending := (h.renewal.answer index new hawaiting hissued).1
  have hown := h.renewal.own _ (List.mem_of_getElem? hissued)
  refine ⟨new, h.renewal.accept hawaiting hissued, ⟨hown.1, hown.2, fun _ => rfl⟩, ?_, ?_⟩
  · intro l hl
    exact (h.loaded l hl).accept hpending
  · have hpair : StateDir.Pair p { s.dir with cert := some resp.certificate } new :=
      ⟨file, key, resp.certificate, hfile, hkey, rfl, hanswer.matching, hanswer.leaf⟩
    unfold RenewResponse.afterCert
    split_ifs with hresp
    · exact ⟨hpair, hanswer.usable.resolve_left hresp⟩
    · exact ⟨hpair, hca⟩
    · exact ⟨hpair, hca⟩

/-- Every step of the call in progress keeps the invariant, unless it is cut short between its
files. -/
theorem Consistent.advance (h : Consistent p id s call stored rec awaiting) {event : RenewEvent}
    (hwhole : event = .stop → call.filesWhole = true)
    (hstep : renewStep p hash s call event = some (s', call')) :
    ∃ stored' rec' awaiting', Consistent p id s' call' stored' rec' awaiting' := by
  have hstop : event = .stop → Consistent p id s .stopped stored rec awaiting :=
    fun hevent => ⟨h.renewal, h.own, h.loaded, h.disk.whole (hwhole hevent)⟩
  cases call with
  | post current key csr =>
      obtain ⟨hfiles, hcurrent⟩ := h.disk
      cases event with
      | proceed =>
          obtain ⟨service, hservice, hnext⟩ := Option.map_eq_some_iff.mp hstep
          cases hnext
          obtain ⟨-, hservice⟩ := Option.ite_none_right_eq_some.mp hservice
          obtain rfl := Option.some.inj hservice
          rw [hcurrent]
          exact ⟨stored, rec, _, h.renewal.start h.own (.inl ⟨rfl, rfl⟩), h.own, h.loaded,
            hfiles, rfl⟩
      | stop =>
          cases hstep
          exact ⟨_, _, _, hstop rfl⟩
      | _ => cases hstep
  | await key index =>
      obtain ⟨hfiles, hawaiting⟩ := h.disk
      cases event with
      | respond resp =>
          simp only [renewStep] at hstep
          split at hstep
          next new hissued =>
            split at hstep
            next hanswers =>
              cases hstep
              simp only [RenewResponse.answers, decide_eq_true_eq] at hanswers
              refine ⟨stored, rec, awaiting, h.renewal, h.own, h.loaded, ?_⟩
              split
              next hmatch =>
                exact ⟨hfiles, new, ⟨index, hawaiting, hissued⟩, hanswers.1, hanswers.2, hmatch⟩
              · exact hfiles
            · cases hstep
          · cases hstep
      | stop =>
          cases hstep
          exact ⟨_, _, _, hstop rfl⟩
      | _ => cases hstep
  | saveKey key resp =>
      obtain ⟨hfiles, new, hanswer⟩ := h.disk
      cases event with
      | proceed =>
          simp only [renewStep] at hstep
          split at hstep
          · cases hstep
            exact ⟨stored, rec, awaiting, h.renewal, h.own, h.loaded, hfiles⟩
          next file hseal =>
            cases hstep
            exact ⟨stored, rec, awaiting, h.withDisk ⟨hfiles.2, file, key, new, rfl,
              p.open_seal hseal, hanswer.mono fun _ hcall => hcall⟩⟩
      | stop =>
          cases hstep
          exact ⟨_, _, _, hstop rfl⟩
      | _ => cases hstep
  | writeCert resp =>
      cases event with
      | proceed =>
          cases hstep
          obtain ⟨new, hnew⟩ := h.writeCert
          exact ⟨new, rec, none, hnew⟩
      | writePart length =>
          cases hstep
          obtain ⟨hca, file, key, new, hfile, hkey, hanswer⟩ := h.disk
          exact ⟨stored, rec, awaiting, h.withDisk ⟨hca, file, key, new, hfile, hkey,
            hanswer.mono fun _ hcall => hcall⟩⟩
      | stop => cases hwhole rfl
      | respond => cases hstep
  | writeCA resp =>
      obtain ⟨hpair, husable⟩ := h.disk
      cases event with
      | proceed =>
          cases hstep
          refine ⟨stored, rec, awaiting, h.withDisk ?_⟩
          unfold RenewResponse.afterCA
          split <;> exact ⟨hpair, resp.ca, rfl, husable⟩
      | writePart length =>
          cases hstep
          exact ⟨stored, rec, awaiting, h.withDisk ⟨hpair, husable⟩⟩
      | stop => cases hwhole rfl
      | respond => cases hstep
  | writeGrantKey resp =>
      cases event with
      | proceed | writePart =>
          cases hstep
          exact ⟨stored, rec, awaiting, h.withDisk h.disk⟩
      | stop =>
          cases hstep
          exact ⟨_, _, _, hstop rfl⟩
      | respond => cases hstep
  | loadBack =>
      cases event with
      | proceed =>
          simp only [renewStep] at hstep
          split at hstep
          · cases hstep
            exact ⟨stored, rec, awaiting, h.renewal, h.own, h.loaded, h.disk⟩
          next identity hload =>
            cases hstep
            have hnext := h.load h.disk.1 hload
            exact ⟨stored, rec, awaiting, hnext.renewal, hnext.own, hnext.loaded, hnext.disk⟩
      | stop =>
          cases hstep
          exact ⟨_, _, _, hstop rfl⟩
      | _ => cases hstep
  | renewed | stopped => cases hstep

end Steps

/-- The invariant of the endpoint: at most one call is in progress, and everything is consistent
with it. -/
def EndpointInv (p : Platform) (id : Identity) (pool : Pool EndpointState RenewCall) : Prop :=
  ∃ (active : Nat) (stored : Certificate) (rec : Storage.Record) (awaiting : Option Nat),
    (∀ k call, k ≠ active → pool.calls[k]? = some call → call.ended = true) ∧
      Consistent p id pool.shared ((pool.calls[active]?).getD .stopped) stored rec awaiting

/-- When no call is in progress the files are whole. -/
theorem Consistent.quiet {p : Platform} {id : Identity} {pool : Pool EndpointState RenewCall}
    {active : Nat} {stored : Certificate} {rec : Storage.Record} {awaiting : Option Nat}
    (h : Consistent p id pool.shared ((pool.calls[active]?).getD .stopped) stored rec awaiting)
    (hended : ∀ call ∈ pool.calls, call.ended = true) :
    pool.shared.dir.Pair p stored ∧ pool.shared.dir.Anchored p := by
  refine h.disk.whole ?_
  cases hcall : pool.calls[active]? with
  | none => rfl
  | some call =>
      have hlast := hended call (List.mem_of_getElem? hcall)
      cases call with
      | renewed | stopped => rfl
      | _ => cases hlast

/-- Every step that meets the condition keeps the invariant. -/
theorem endpoint_step_inv {p : Platform} {hash : Bytes → Bytes} {id : Identity}
    {pool next : Pool EndpointState RenewCall} {action : EndpointAction}
    (h : EndpointInv p id pool)
    (hstep : restrict (renewsSafely p) (endpointStep p hash) pool action = some next) :
    EndpointInv p id next := by
  obtain ⟨active, stored, rec, awaiting, hothers, h⟩ := h
  obtain ⟨hguard, hstep⟩ := restrict_eq_some.mp hstep
  cases action with
  | load =>
      simp only [endpointStep] at hstep
      split at hstep
      next hended =>
        split at hstep
        · cases hstep
        next identity hload =>
          cases hstep
          have hpair := (h.quiet (List.all_eq_true.mp hended)).1
          exact ⟨active, stored, rec, awaiting, hothers, h.load hpair hload⟩
      · cases hstep
  | connect current =>
      obtain ⟨hcurrent, hstep⟩ := Option.ite_none_right_eq_some.mp hstep
      obtain ⟨service, hservice, rfl⟩ := Option.map_eq_some_iff.mp hstep
      exact ⟨active, stored, rec, awaiting, hothers, h.connect hcurrent hservice⟩
  | server index input =>
      obtain ⟨service, hservice, rfl⟩ := Option.map_eq_some_iff.mp hstep
      have horder : ∀ cert owner csr, pool.shared.service.calls[index]? =
          some (.putPending cert owner csr) →
          newestFrom pool.shared.service.calls index = true := by
        intro cert owner csr hcall
        simpa [renewsSafely, hcall] using hguard
      obtain ⟨rec', hnext⟩ := h.server horder hservice
      exact ⟨active, stored, rec', awaiting, hothers, hnext⟩
  | renew action =>
      rcases pool_step_cases hstep with ⟨call, rfl, hmay, rfl⟩ |
        ⟨index, event, call, s', call', rfl, hcall, hcallStep, rfl⟩
      · cases call with
        | post current key csr =>
            simp only [renewsSafely, Bool.and_eq_true, decide_eq_true_eq] at hguard
            obtain ⟨hended, hload⟩ := hguard
            have hfiles := h.quiet (List.all_eq_true.mp hended)
            refine ⟨pool.calls.length, stored, rec, awaiting, ?_, h.renewal, h.own, h.loaded, ?_⟩
            · intro k c hk hc
              rw [List.getElem?_append] at hc
              split_ifs at hc with hlt
              · exact List.all_eq_true.mp hended c (List.mem_of_getElem? hc)
              · rw [List.getElem?_singleton] at hc
                split_ifs at hc with hzero
                omega
            · simp only [List.getElem?_concat_length, Option.getD_some]
              exact ⟨hfiles, (of_load_ok hload).1.unique hfiles.1⟩
        | _ => cases hmay
      · -- A call that moves has not ended, so it is the one in progress.
        have hactive : index = active := by
          by_contra hne
          have hended := hothers index call hne hcall
          cases call with
          | renewed | stopped => cases hcallStep
          | _ => cases hended
        subst hactive
        rw [hcall, Option.getD_some] at h
        have hwhole : event = .stop → call.filesWhole = true := by
          rintro rfl
          simpa [renewsSafely, hcall] using hguard
        obtain ⟨stored', rec', awaiting', hnext⟩ := h.advance hwhole hcallStep
        have hlt := (List.getElem?_eq_some_iff.mp hcall).1
        refine ⟨index, stored', rec', awaiting', ?_, ?_⟩
        · intro k c hk hc
          rw [List.getElem?_set_ne (Ne.symm hk)] at hc
          exact hothers k c hk hc
        · rw [List.getElem?_set_self hlt]
          exact hnext

/-- A control plane that accepts the certificate, with a history that accounts for the serials on
file. -/
structure Enrolled (ledger : Ledger) (id : Identity) (cert : Certificate) : Prop where
  accepted : (verifyEnrolled ledger.db cert).1 = .ok id
  issued : ∃ x ∈ ledger.issued, x.cert = cert
  signed : ∀ serial ∈ serialsOf ledger.db id, ∃ x ∈ ledger.issued, x.cert.serialHex = serial
  distinct : ∀ rec, ledger.db.identities id = some rec → rec.pendingSerialHex ≠ rec.serialHex

/-- In every run in which renewals do not overlap, start with the identity on disk and are cut
short only before or after the files that have to agree, the directory loads whenever all calls
have ended, with a pair that matches and a serial that the control plane has on file. -/
theorem renewal_leaves_loadable_directory (p : Platform) (hash : Bytes → Bytes)
    {ledger : Ledger} {dir : StateDir} {identity : StoredIdentity}
    (hload : load p dir = .ok identity) (henrolled : Enrolled ledger identity.id identity.leaf)
    {actions : List EndpointAction} {pool : Pool EndpointState RenewCall}
    (hrun : run (restrict (renewsSafely p) (endpointStep p hash))
      (startEndpoint ledger dir identity) actions = some pool) :
    DirectoryLoads p identity.id pool := by
  have hstart : EndpointInv p identity.id (startEndpoint ledger dir identity) := by
    obtain ⟨hid, rec, hrow, hserial⟩ := verify_enrolled_ok_iff.mp henrolled.accepted
    obtain ⟨hrec, -⟩ := Storage.Identities.lookup_eq_ok_iff.mp hrow
    obtain ⟨hpair, hca, -⟩ := of_load_ok hload
    have hheld : Held identity.id ledger identity.leaf rec identity.leaf :=
      ⟨hid, henrolled.issued, fun _ => rfl⟩
    refine ⟨0, identity.leaf, rec, none, ?_, ⟨?_, hheld, ?_, hpair, hca⟩⟩
    · intro k call _ hcall
      cases hcall
    · refine ⟨hrow, hid, henrolled.distinct rec hrec, hserial, ?_, ?_, ?_, ?_, ?_⟩
      · intro serial hmem
        exact henrolled.signed serial (mem_serials_of.mpr ⟨rec, hrec, hmem⟩)
      · intro call hcall
        cases hcall
      · intro index call hcall
        cases hcall
      · intro index hnone
        cases hnone
      · intro index new hnone
        cases hnone
    · intro l hl
      obtain rfl := List.mem_singleton.mp hl
      exact hheld
  obtain ⟨active, stored, rec, awaiting, -, h⟩ := run_invariant endpoint_step_inv hstart hrun
  intro hended
  obtain ⟨hpair, hca⟩ := h.quiet hended
  obtain ⟨found, hfound, rfl, hid, hmatch⟩ := load_ok hpair hca h.renewal.named
  obtain ⟨hrec, -⟩ := Storage.Identities.lookup_eq_ok_iff.mp h.renewal.row
  exact ⟨found, hfound, hmatch, hid, mem_serials_of.mpr ⟨rec, hrec, h.renewal.onFile⟩⟩

section Interrupted

/-- A platform with toy encodings: a key is one byte, and a certificate is the byte of its key
followed by its serial. -/
def toyPlatform : Platform where
  sealKey := some
  openKey := some
  open_seal := fun h => h.symm
  x509KeyPair := fun certificate key => certificate.take 1 = key
  leafOf := fun certificate => match certificate with
    | [_, serial] => some (sensorCert serial)
    | _ => none
  appendCertsFromPEM := fun ca => ca = ascii "CA"
  serverName := id
  parseGrantKey := some

/-- The directory of the device with key 1 and serial 1. -/
def toyDir : StateDir := ⟨some [1], some [1, 1], some (ascii "CA"), none, none⟩

/-- What `Load` makes of it. -/
def toyIdentity : StoredIdentity := ⟨[1, 1], [1], sensorCert 1, ascii "CA", sensor, [], none⟩

/-- The control plane after the device has enrolled. -/
def toyLedger : Ledger := (enrolledEndpoint sensor (sensorCert 1) 0).service.shared

/-- A step of the server at the epoch; it draws the given serial if it signs. -/
def answersWith (serial : UInt8) : EndpointAction :=
  .server 0 ⟨Go.Time.ofUnix 0, [serial], one_byte_ne_nil serial, false⟩

/-- A renewal up to the point where the new key has been saved. -/
def renewalToKey : List EndpointAction :=
  [.renew (.start (.post toyIdentity [2] (some ⟨true, true⟩))), .renew (.advance 0 .proceed),
    answersWith 0, answersWith 2,
    .renew (.advance 0 (.respond ⟨[2, 2], ascii "CA", ascii "K"⟩)),
    .renew (.advance 0 .proceed)]

/-- The certificate and the authority are written, and the call is cut short in the middle of the
grant key. -/
def cutAfterCA : List EndpointAction :=
  renewalToKey ++ [.renew (.advance 0 (.writePart 1)), .renew (.advance 0 .proceed),
    .renew (.advance 0 .proceed), .renew (.advance 0 (.writePart 0)), .renew (.advance 0 .stop)]

theorem toy_enrolled : Enrolled toyLedger sensor (sensorCert 1) where
  accepted := by decide
  issued := ⟨_, List.mem_singleton.mpr rfl, rfl⟩
  signed := by
    intro serial hserial
    obtain rfl : serial = [1] := by
      simpa [toyLedger, enrolledEndpoint, serialsOf, serials, sensorCert] using hserial
    exact ⟨_, List.mem_singleton.mpr rfl, rfl⟩
  distinct := by
    intro rec hrec
    obtain rfl := Option.some.inj hrec
    decide

/-- A renewal that is cut short while it writes the grant key leaves the new pair. -/
theorem renewal_leaves_loadable_directory_cut :
    ∃ pool, run (restrict (renewsSafely toyPlatform) (endpointStep toyPlatform id))
        (startEndpoint toyLedger toyDir toyIdentity) cutAfterCA = some pool ∧
      DirectoryLoads toyPlatform sensor pool := by
  have hsome : (run (restrict (renewsSafely toyPlatform) (endpointStep toyPlatform id))
      (startEndpoint toyLedger toyDir toyIdentity) cutAfterCA).isSome = true := by decide +kernel
  obtain ⟨pool, hrun⟩ := Option.isSome_iff_exists.mp hsome
  exact ⟨pool, hrun, renewal_leaves_loadable_directory toyPlatform id (by decide) toy_enrolled hrun⟩

/-- A crash between the key and the certificate leaves a pair that does not match, and the
endpoint cannot load its identity. -/
theorem interrupted_renewal_unloadable :
    ∃ pool, run (endpointStep toyPlatform id) (startEndpoint toyLedger toyDir toyIdentity)
        (renewalToKey ++ [.renew (.advance 0 .stop)]) = some pool ∧
      load toyPlatform pool.shared.dir = .error .keyPair ∧
      ¬ DirectoryLoads toyPlatform sensor pool := by
  have hend : (run (endpointStep toyPlatform id) (startEndpoint toyLedger toyDir toyIdentity)
      (renewalToKey ++ [.renew (.advance 0 .stop)])).map (fun pool => (pool.calls, pool.shared.dir))
      = some ([.stopped], ⟨some [2], some [1, 1], some (ascii "CA"), none, none⟩) := by
    decide +kernel
  obtain ⟨pool, hrun, hpool⟩ := Option.map_eq_some_iff.mp hend
  obtain ⟨hcalls, hdir⟩ := Prod.mk.inj hpool
  have hload : load toyPlatform pool.shared.dir = .error .keyPair := by
    rw [hdir]
    decide
  refine ⟨pool, hrun, hload, ?_⟩
  intro hloads
  obtain ⟨identity, hok, -⟩ := hloads (by rw [hcalls]; decide)
  rw [hload] at hok
  cases hok

end Interrupted

end AccessRelay.Endpoint
