import AccessRelay.Go.Time
import AccessRelay.Proto.Frame
import AccessRelay.Proto.Handshake

/-!
# Grants

`internal/proto/grant.go`: a signed, short-lived authorization to reach one resource on one
device. `canonical` is the byte string that is signed; `decodeGrant` parses the wire form and
`verify` checks it. The signature primitive is a parameter of both sides.

`canonical_decode` says that a parsed grant has exactly the canonical bytes it was parsed from,
and `canonical_inj` that a grant which was signed is determined by its canonical bytes as soon
as these are the bytes of a grant that parses: the parser's bound on strings leaves no room for
a length prefix that has wrapped.
-/

namespace AccessRelay.Proto

open Encoding Go

/-- The grant schema version. -/
def grantVersion : UInt8 := 1

/-- The longest life of any grant. -/
def maxGrantTTL : Duration := 30 * minute

/-- How far a verifier stretches for disagreeing clocks. -/
def clockSkewTolerance : Duration := 30 * second

/-- The size of an Ed25519 signature. -/
def signatureSize : Nat := 64

/-- An authorization to reach one resource on one device. -/
structure Grant where
  version : UInt8
  keyID : Bytes
  grantID : Bytes
  orgID : Bytes
  userID : Bytes
  deviceID : Bytes
  resourceID : Bytes
  issuedAt : Time
  expiresAt : Time
  maxBytes : UInt64
  deriving DecidableEq

/-- A grant with the signature over its canonical bytes. -/
structure SignedGrant where
  grant : Grant
  signature : Bytes
  deriving DecidableEq

/-- Errors of grant handling. -/
inductive GrantError where
  | tooShort (length : Nat)
  | field (error : StringError)
  | trailing (length : Nat)
  | missing
  | version (found : UInt8)
  | signatureSize (length : Nat)
  | signature
  | ttlTooLong
  | notYetValid
  | expired
  | deviceMismatch
  deriving DecidableEq, Repr

/-- The reason code to report. Malformed, wrongly versioned and over-long grants are all
reported as a signature failure. -/
def reasonForGrant : GrantError → Reason
  | .expired => reasonGrantExpired
  | .notYetValid => reasonGrantNotYetValid
  | .deviceMismatch => reasonGrantDeviceMismatch
  | _ => reasonGrantInvalidSignature

/-- A 64 bit number, most significant byte first. -/
def putUint64 (value : UInt64) : Bytes := BigEndian.encode 8 value.toNat

/-- The number the first eight bytes denote. -/
def uint64 (bytes : Bytes) : UInt64 := UInt64.ofNat (BigEndian.decode (bytes.take 8))

/-- The string fields, in the order of the encoding. -/
def Grant.strings (g : Grant) : List Bytes :=
  [g.keyID, g.grantID, g.orgID, g.userID, g.deviceID, g.resourceID]

/-- The number fields, in the order of the encoding. -/
def Grant.numbers (g : Grant) : Bytes :=
  putUint64 g.issuedAt.unix.toUInt64 ++ putUint64 g.expiresAt.unix.toUInt64 ++
    putUint64 g.maxBytes

/-- The exact bytes that are signed and verified. -/
def Grant.canonical (g : Grant) : Bytes :=
  g.strings.foldl appendString [g.version] ++ g.numbers

/-- The checks of `Sign`, and the grant it signs: the version filled in and the times truncated
to the second. -/
def Grant.prepare (g : Grant) : Except GrantError Grant :=
  let g := if g.version = 0 then { g with version := grantVersion } else g
  if g.version ≠ grantVersion then .error (.version g.version)
  else if maxGrantTTL < g.expiresAt.sub g.issuedAt then .error .ttlTooLong
  else if g.deviceID = [] ∨ g.resourceID = [] ∨ g.grantID = [] then .error .missing
  else .ok { g with
    issuedAt := g.issuedAt.truncateSecond, expiresAt := g.expiresAt.truncateSecond }

/-- `Grant.Sign`; `signer` is the signing key's `ed25519.Sign`. -/
def Grant.sign (signer : Bytes → Bytes) (g : Grant) : Except GrantError SignedGrant :=
  match g.prepare with
  | .error e => .error e
  | .ok g => .ok ⟨g, signer g.canonical⟩

/-- The wire form: canonical bytes, then the signature. -/
def SignedGrant.encode (s : SignedGrant) : Bytes := s.grant.canonical ++ s.signature

/-- `takeString` for a field of a grant. -/
def takeField (b : Bytes) : Except GrantError (Bytes × Bytes) :=
  match takeString b with
  | .error e => .error (.field e)
  | .ok result => .ok result

/-- The fields after the version. -/
def decodeFields (rest : Bytes) : Except GrantError Grant := do
  let (keyID, rest) ← takeField rest
  let (grantID, rest) ← takeField rest
  let (orgID, rest) ← takeField rest
  let (userID, rest) ← takeField rest
  let (deviceID, rest) ← takeField rest
  let (resourceID, rest) ← takeField rest
  if rest.length ≠ 24 then .error (.trailing rest.length)
  else .ok {
    version := grantVersion
    keyID, grantID, orgID, userID, deviceID, resourceID
    issuedAt := Time.ofUnix (uint64 rest).toInt64
    expiresAt := Time.ofUnix (uint64 (rest.drop 8)).toInt64
    maxBytes := uint64 (rest.drop 16) }

/-- `DecodeGrant`: parse a signed grant without verifying anything. -/
def decodeGrant (b : Bytes) : Except GrantError SignedGrant :=
  if b.length < signatureSize + 1 then .error (.tooShort b.length)
  else
    let body := b.take (b.length - signatureSize)
    let signature := b.drop (b.length - signatureSize)
    match body with
    | [] => .error (.tooShort b.length)
    | version :: rest =>
        if version ≠ grantVersion then .error (.version version)
        else match decodeFields rest with
          | .error e => .error e
          | .ok g => .ok ⟨g, signature⟩

/-- `Verify`: the signature first, then the lifetime, the clock and the device.
`ed25519Verify` is the primitive. -/
def SignedGrant.verify (ed25519Verify : Bytes → Bytes → Bytes → Bool) (s : SignedGrant)
    (pub : Bytes) (now : Time) (deviceID : Bytes) : Except GrantError Unit :=
  if s.grant.version ≠ grantVersion then .error (.version s.grant.version)
  else if s.signature.length ≠ signatureSize then .error (.signatureSize s.signature.length)
  else if ¬ ed25519Verify pub s.grant.canonical s.signature then .error .signature
  else if maxGrantTTL < s.grant.expiresAt.sub s.grant.issuedAt then .error .ttlTooLong
  else if (now.add clockSkewTolerance).before s.grant.issuedAt then .error .notYetValid
  else if (now.add (-clockSkewTolerance)).after s.grant.expiresAt then .error .expired
  else if deviceID ≠ [] ∧ s.grant.deviceID ≠ deviceID then .error .deviceMismatch
  else .ok ()

/-- `Remaining`: how long a grant has left. -/
def SignedGrant.remaining (s : SignedGrant) (now : Time) : Duration :=
  let d := s.grant.expiresAt.sub now
  if d < 0 then 0 else d

@[simp] theorem length_put_uint64 (value : UInt64) : (putUint64 value).length = 8 := by
  simp [putUint64]

theorem put_uint64_inj {a b : UInt64} (h : putUint64 a = putUint64 b) : a = b := by
  have hdecode : ∀ v : UInt64, BigEndian.decode (putUint64 v) = v.toNat :=
    fun v => BigEndian.decode_encode v.toNat_lt
  exact UInt64.toNat_inj.mp ((hdecode a).symm.trans ((congrArg _ h).trans (hdecode b)))

theorem put_uint64_uint64 {bytes : Bytes} (h : 8 ≤ bytes.length) :
    putUint64 (uint64 bytes) = bytes.take 8 := by
  have hwidth : (bytes.take 8).length = 8 := by simp [h]
  have hlt : BigEndian.decode (bytes.take 8) < 2 ^ 64 := by
    have hbound := BigEndian.decode_lt (bytes.take 8)
    rw [hwidth] at hbound
    exact hbound
  rw [uint64, putUint64, UInt64.toNat_ofNat', Nat.mod_eq_of_lt hlt]
  nth_rewrite 1 [← hwidth]
  exact BigEndian.encode_decode _

/-- The canonical bytes: version, string fields, number fields. -/
theorem canonical_eq (g : Grant) :
    g.canonical = g.version :: (g.strings.flatMap (appendString []) ++ g.numbers) := by
  rw [Grant.canonical, foldl_append_string]
  simp

/-- A field that was read. -/
theorem take_field_ok {b s rest : Bytes} (h : takeField b = .ok (s, rest)) :
    b = appendString [] s ++ rest ∧ s.length ≤ maxIdentityLen := by
  unfold takeField at h
  cases htake : takeString b with
  | error e => simp [htake] at h
  | ok result =>
      obtain rfl : result = (s, rest) := by simpa [htake] using h
      exact append_take_string htake

/-- The grant is as a parser leaves it: the current version, short strings, whole seconds. -/
structure Grant.Parsed (g : Grant) : Prop where
  version : g.version = grantVersion
  short : ∀ s ∈ g.strings, s.length ≤ maxIdentityLen
  issuedAt : g.issuedAt.nsec = 0
  expiresAt : g.expiresAt.nsec = 0

/-- Three numbers cut from a string of 24 bytes are that string. -/
theorem numbers_cut {rest : Bytes} (h : rest.length = 24) :
    putUint64 (uint64 rest) ++ putUint64 (uint64 (rest.drop 8)) ++
      putUint64 (uint64 (rest.drop 16)) = rest := by
  rw [put_uint64_uint64 (by omega), put_uint64_uint64 (by simp; omega),
    put_uint64_uint64 (by simp; omega)]
  have hlast : (rest.drop 16).take 8 = rest.drop 16 := List.take_of_length_le (by simp; omega)
  have hmiddle : (rest.drop 8).take 8 ++ rest.drop 16 = rest.drop 8 := by
    have hsplit := List.take_append_drop 8 (rest.drop 8)
    rwa [List.drop_drop] at hsplit
  rw [hlast, List.append_assoc, hmiddle, List.take_append_drop]

/-- The fields that were parsed are the bytes they were parsed from. -/
theorem decode_fields_ok {rest : Bytes} {g : Grant} (h : decodeFields rest = .ok g) :
    rest = g.strings.flatMap (appendString []) ++ g.numbers ∧ g.Parsed := by
  unfold decodeFields at h
  obtain ⟨⟨keyID, rest₁⟩, hkey, h⟩ := except_bind_ok h
  obtain ⟨⟨grantID, rest₂⟩, hgrant, h⟩ := except_bind_ok h
  obtain ⟨⟨orgID, rest₃⟩, horg, h⟩ := except_bind_ok h
  obtain ⟨⟨userID, rest₄⟩, huser, h⟩ := except_bind_ok h
  obtain ⟨⟨deviceID, rest₅⟩, hdevice, h⟩ := except_bind_ok h
  obtain ⟨⟨resourceID, rest₆⟩, hresource, h⟩ := except_bind_ok h
  obtain ⟨hkey, hkeyLen⟩ := take_field_ok hkey
  obtain ⟨hgrant, hgrantLen⟩ := take_field_ok hgrant
  obtain ⟨horg, horgLen⟩ := take_field_ok horg
  obtain ⟨huser, huserLen⟩ := take_field_ok huser
  obtain ⟨hdevice, hdeviceLen⟩ := take_field_ok hdevice
  obtain ⟨hresource, hresourceLen⟩ := take_field_ok hresource
  dsimp only at h
  split_ifs at h with hlength
  cases h
  push Not at hlength
  refine ⟨?_, rfl, ?_, rfl, rfl⟩
  · have hnumbers := numbers_cut hlength
    simp only [Grant.strings, Grant.numbers, Time.unix_of_unix, UInt64.toUInt64_toInt64, hnumbers,
      List.flatMap_cons, List.flatMap_nil, List.append_nil, List.append_assoc]
    rw [← hresource, ← hdevice, ← huser, ← horg, ← hgrant, ← hkey]
  · simp only [Grant.strings, List.forall_mem_cons]
    exact ⟨hkeyLen, hgrantLen, horgLen, huserLen, hdeviceLen, hresourceLen, by simp⟩

/-- A grant that was parsed has exactly the canonical bytes it was parsed from, followed by its
signature. -/
theorem canonical_decode {b : Bytes} {s : SignedGrant} (h : decodeGrant b = .ok s) :
    s.encode = b ∧ s.signature.length = signatureSize ∧ s.grant.Parsed := by
  unfold decodeGrant at h
  split_ifs at h with hshort
  dsimp only at h
  split at h
  · cases h
  next version rest hbody =>
    split_ifs at h with hversion
    push Not at hversion
    cases hfields : decodeFields rest with
    | error e => simp [hfields] at h
    | ok g =>
        simp only [hfields, Except.ok.injEq] at h
        subst h
        obtain ⟨hrest, hparsed⟩ := decode_fields_ok hfields
        refine ⟨?_, ?_, hparsed⟩
        · have hcanonical : g.canonical = b.take (b.length - signatureSize) := by
            rw [canonical_eq, hparsed.version, ← hrest, hbody, hversion]
          rw [SignedGrant.encode, hcanonical, List.take_append_drop]
        · simp only [List.length_drop]
          omega

@[simp] theorem length_numbers (g : Grant) : g.numbers.length = 24 := by
  simp [Grant.numbers]

/-- Grants with whole seconds are equal if their version, strings and number fields are. -/
theorem grant_ext {g g' : Grant} (hversion : g.version = g'.version)
    (hstrings : g.strings = g'.strings) (hnumbers : g.numbers = g'.numbers)
    (hissued : g.issuedAt.nsec = 0) (hexpires : g.expiresAt.nsec = 0)
    (hissued' : g'.issuedAt.nsec = 0) (hexpires' : g'.expiresAt.nsec = 0) : g = g' := by
  simp only [Grant.numbers] at hnumbers
  obtain ⟨htimes, hbytes⟩ := List.append_inj hnumbers (by simp)
  obtain ⟨hissuedCode, hexpiresCode⟩ := List.append_inj htimes (by simp)
  have htime : ∀ {a b : Time}, a.nsec = 0 → b.nsec = 0 →
      putUint64 a.unix.toUInt64 = putUint64 b.unix.toUInt64 → a = b := by
    intro a b ha hb hcode
    have hunix := congrArg UInt64.toInt64 (put_uint64_inj hcode)
    rw [Int64.toInt64_toUInt64, Int64.toInt64_toUInt64] at hunix
    rw [← Time.of_unix_unix ha, ← Time.of_unix_unix hb, hunix]
  have hissuedAt := htime hissued hissued' hissuedCode
  have hexpiresAt := htime hexpires hexpires' hexpiresCode
  have hmax := put_uint64_inj hbytes
  cases g
  cases g'
  simp_all [Grant.strings]

/-- A grant with whole seconds is determined by its canonical bytes if these are the bytes of a
parsed grant. No string of it can be long enough for its prefix to wrap. -/
theorem canonical_inj {g signed : Grant} (hparsed : g.Parsed)
    (hissued : signed.issuedAt.nsec = 0) (hexpires : signed.expiresAt.nsec = 0)
    (h : signed.canonical = g.canonical) : signed = g := by
  rw [canonical_eq, canonical_eq] at h
  obtain ⟨hversion, hbody⟩ := List.cons.inj h
  have hcount : signed.strings.length = g.strings.length := rfl
  obtain ⟨hstrings, hnumbers⟩ := flatMap_append_string_parsed hcount (Nat.le_refl 6)
    hparsed.short (by simp) hbody
  exact grant_ext hversion hstrings hnumbers hissued hexpires hparsed.issuedAt hparsed.expiresAt

/-- What `Sign` signs has whole seconds, and differs from what it was given only in the version
and the fractions of a second. -/
theorem prepare_ok {g signed : Grant} (h : g.prepare = .ok signed) :
    signed = { g with
      version := grantVersion
      issuedAt := g.issuedAt.truncateSecond, expiresAt := g.expiresAt.truncateSecond } := by
  unfold Grant.prepare at h
  split_ifs at h with hzero <;> dsimp only at h <;> split_ifs at h <;> cases h <;> simp_all

/-- What `Sign` signs has a permitted life. -/
theorem prepare_ttl {g signed : Grant} (h : g.prepare = .ok signed) :
    g.expiresAt.sub g.issuedAt ≤ maxGrantTTL := by
  unfold Grant.prepare at h
  split_ifs at h with hzero <;> dsimp only at h <;> split_ifs at h with hversion httl hfields <;>
    exact Int64.not_lt.mp httl

end AccessRelay.Proto
