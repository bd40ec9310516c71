import AccessRelay.Encoding.BigEndian

/-!
# Identities and certificates

`internal/ca` puts the identity of a peer into a URI of its certificate, `sar://role/id`, and
reads it back with `identityOf`. A certificate with no such URI, or with more than one, has no
identity. `identity_of_sign` says that a certificate the authority signs for an identity is
read back as that identity, and `identity_of_ne_empty` that an identity that was read is never
empty.
-/

namespace AccessRelay.Ca

open Encoding

/-- The two kinds of identity this authority issues. -/
inductive Role where
  | device
  | operator
  deriving DecidableEq, Repr

/-- The role as the host part of the identity URI. -/
def Role.text : Role → Bytes
  | .device => ascii "device"
  | .operator => ascii "operator"

/-- The role a host part names, if any. -/
def Role.ofText (host : Bytes) : Option Role :=
  if host = Role.device.text then some .device
  else if host = Role.operator.text then some .operator
  else none

@[simp] theorem Role.of_text_text (role : Role) : Role.ofText role.text = some role := by
  cases role <;> decide

/-- Who a certificate says its holder is. -/
structure Identity where
  role : Role
  id : Bytes
  deriving DecidableEq, Repr

/-- The parts of a URI that `IdentityOf` reads. -/
structure Uri where
  scheme : Bytes
  host : Bytes
  path : Bytes
  deriving DecidableEq, Repr

/-- The URI scheme of an identity. -/
def identityScheme : Bytes := ascii "sar"

/-- The identity as it appears in a certificate. -/
def Identity.uri (identity : Identity) : Uri :=
  ⟨identityScheme, identity.role.text, ascii "/" ++ identity.id⟩

/-- A parsed certificate. `serialHex` is `SerialNumber.Text(16)`, which is never empty. -/
structure Certificate where
  uris : List Uri
  serialHex : Bytes
  serialHex_ne : serialHex ≠ []
  deriving DecidableEq

/-- Errors of `IdentityOf` and `Sign`. -/
inductive CaError where
  | noIdentity
  | manyIdentities (count : Nat)
  | csrSignature
  | csrKeyType
  | emptyIdentity
  deriving DecidableEq, Repr

/-- `strings.TrimPrefix(path, "/")`. -/
def trimSlash : Bytes → Bytes
  | [] => []
  | c :: rest => if [c] = ascii "/" then rest else c :: rest

/-- The identity one URI asserts: the right scheme, a known role and a name. -/
def identityIn (uri : Uri) : Option Identity :=
  if uri.scheme ≠ identityScheme then none
  else (Role.ofText uri.host).bind fun role =>
    if trimSlash uri.path = [] then none else some ⟨role, trimSlash uri.path⟩

/-- `ca.IdentityOf`: the one identity the certificate asserts. -/
def identityOf (cert : Certificate) : Except CaError Identity :=
  match cert.uris.filterMap identityIn with
  | [] => .error .noIdentity
  | [found] => .ok found
  | found => .error (.manyIdentities found.length)

/-- What `Sign` checks of a parsed certificate request. -/
structure CertificateRequest where
  signatureValid : Bool
  ed25519Key : Bool
  deriving DecidableEq, Repr

/-- `CA.Sign`: the identity is the caller's, never the request's. The serial is the random
number the authority draws. -/
def sign (csr : CertificateRequest) (identity : Identity) (serialHex : Bytes)
    (hserial : serialHex ≠ []) : Except CaError Certificate :=
  if ¬ csr.signatureValid then .error .csrSignature
  else if ¬ csr.ed25519Key then .error .csrKeyType
  else if identity.id = [] then .error .emptyIdentity
  else .ok ⟨[identity.uri], serialHex, hserial⟩

/-- The URI of a named identity asserts that identity. -/
theorem identity_in_uri {identity : Identity} (h : identity.id ≠ []) :
    identityIn identity.uri = some identity := by
  have hpath : trimSlash (ascii "/" ++ identity.id) = identity.id := by
    simp [ascii, trimSlash]
  simp [identityIn, Identity.uri, hpath, h]

/-- A URI never asserts an empty name. -/
theorem identity_in_ne_empty {uri : Uri} {identity : Identity}
    (h : identityIn uri = some identity) : identity.id ≠ [] := by
  simp only [identityIn] at h
  split at h
  · cases h
  · obtain ⟨role, -, hname⟩ := Option.bind_eq_some_iff.mp h
    split at hname
    · cases hname
    next hpath =>
      cases hname
      exact hpath

/-- An identity read from a certificate is never empty. -/
theorem identity_of_ne_empty {cert : Certificate} {identity : Identity}
    (h : identityOf cert = .ok identity) : identity.id ≠ [] := by
  simp only [identityOf] at h
  split at h
  · cases h
  next found hfound =>
    cases h
    have hmem : identity ∈ cert.uris.filterMap identityIn := by simp [hfound]
    obtain ⟨uri, -, huri⟩ := List.mem_filterMap.mp hmem
    exact identity_in_ne_empty huri
  · cases h

/-- A signed certificate carries the serial it was signed with and asserts the identity it was
signed for. -/
theorem identity_of_sign {csr : CertificateRequest} {identity : Identity} {serialHex : Bytes}
    {hserial : serialHex ≠ []} {cert : Certificate}
    (h : sign csr identity serialHex hserial = .ok cert) :
    identityOf cert = .ok identity ∧ cert.serialHex = serialHex := by
  simp only [sign] at h
  split_ifs at h with hsignature hkey hname
  cases h
  exact ⟨by simp [identityOf, identity_in_uri hname], rfl⟩

end AccessRelay.Ca
