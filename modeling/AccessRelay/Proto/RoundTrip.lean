import AccessRelay.Proto.Grant

/-!
# Length-prefixed encodings, there and back

What a decoder makes of an encoding. A signed grant that parses re-encodes to the bytes it was
parsed from, so the bytes that are verified are the bytes that were received. In the other
direction, an encoding decodes to the value it was made from or not at all, and it decodes exactly
if every string is within the decoder's bound.

Signing has no such bound. `canonical_collision` is what comes of it: two grants that `Sign`
accepts with the same signed bytes. `signed_bytes_determine_grant` says that `2 ^ 16` is exactly the
length from which that happens.
-/

namespace AccessRelay.Proto

open Encoding Go

/-- The number that was written is read back. -/
theorem uint64_put_uint64 (value : UInt64) (rest : Bytes) :
    uint64 (putUint64 value ++ rest) = value := by
  have hcode : (putUint64 value ++ rest).take 8 = putUint64 value := by
    rw [List.take_append_of_le_length (by simp), List.take_of_length_le (by simp)]
  have hdecode : BigEndian.decode (putUint64 value) = value.toNat :=
    BigEndian.decode_encode value.toNat_lt
  rw [uint64, hcode, hdecode, UInt64.ofNat_toNat]

/-- A short field of a grant is read back. -/
theorem take_field_append {s : Bytes} (h : s.length ≤ maxIdentityLen) (rest : Bytes) :
    takeField (appendString [] s ++ rest) = .ok (s, rest) := by
  rw [takeField, take_append_string h]

/-- The number fields are read back, each at its offset. -/
theorem uint64_numbers (g : Grant) :
    uint64 g.numbers = g.issuedAt.unix.toUInt64 ∧
      uint64 (g.numbers.drop 8) = g.expiresAt.unix.toUInt64 ∧
      uint64 (g.numbers.drop 16) = g.maxBytes := by
  have hsecond : g.numbers.drop 8 =
      putUint64 g.expiresAt.unix.toUInt64 ++ putUint64 g.maxBytes := by
    rw [Grant.numbers, List.append_assoc]
    exact List.drop_left' (length_put_uint64 _)
  have hthird : g.numbers.drop 16 = putUint64 g.maxBytes :=
    List.drop_left' (by simp)
  refine ⟨?_, ?_, ?_⟩
  · rw [Grant.numbers, List.append_assoc, uint64_put_uint64]
  · rw [hsecond, uint64_put_uint64]
  · simpa [hthird] using uint64_put_uint64 g.maxBytes []

/-- The fields of a grant as a parser would leave it are parsed back. -/
theorem decode_fields_encode {g : Grant} (h : g.Parsed) :
    decodeFields (g.strings.flatMap (appendString []) ++ g.numbers) = .ok g := by
  have hshort := h.short
  simp only [Grant.strings, List.forall_mem_cons] at hshort
  obtain ⟨hkey, hgrant, horg, huser, hdevice, hresource, -⟩ := hshort
  obtain ⟨hissued, hexpires, hmax⟩ := uint64_numbers g
  simp only [decodeFields, Grant.strings, List.flatMap_cons, List.flatMap_nil, List.append_nil,
    List.append_assoc, take_field_append hkey, take_field_append hgrant, take_field_append horg,
    take_field_append huser, take_field_append hdevice, take_field_append hresource, bind,
    Except.bind]
  rw [if_neg (by simp), hissued, hexpires, hmax, Int64.toInt64_toUInt64, Int64.toInt64_toUInt64,
    Time.of_unix_unix h.issuedAt, Time.of_unix_unix h.expiresAt, ← h.version]

/-- A signed grant as a parser would leave it is parsed back. -/
theorem decode_encode_grant {s : SignedGrant} (h : s.grant.Parsed)
    (hsignature : s.signature.length = signatureSize) : decodeGrant s.encode = .ok s := by
  have hlength : s.encode.length - signatureSize = s.grant.canonical.length := by
    simp [SignedGrant.encode, hsignature]
  have hpos : ¬ s.encode.length < signatureSize + 1 := by
    simp only [SignedGrant.encode, canonical_eq, List.length_append, List.length_cons, hsignature]
    omega
  have hbody : s.encode.take (s.encode.length - signatureSize) =
      grantVersion :: (s.grant.strings.flatMap (appendString []) ++ s.grant.numbers) := by
    rw [hlength, SignedGrant.encode, List.take_left, canonical_eq, h.version]
  have htail : s.encode.drop (s.encode.length - signatureSize) = s.signature := by
    rw [hlength, SignedGrant.encode, List.drop_left]
  simp only [decodeGrant, if_neg hpos, hbody, htail, decode_fields_encode h, ne_eq,
    not_true_eq_false, if_false]

/-- The bytes that are verified are the bytes that were received: a grant that was parsed
re-encodes to its input, its canonical bytes are the input without the signature, and no other
input is parsed to it. -/
theorem decoded_grant_is_its_bytes {b : Bytes} {s : SignedGrant} (h : decodeGrant b = .ok s) :
    s.encode = b ∧ s.grant.canonical = b.take (b.length - 64) ∧
      ∀ b', decodeGrant b' = .ok s → b' = b := by
  obtain ⟨hencode, hsignature, -⟩ := canonical_decode h
  refine ⟨hencode, ?_, ?_⟩
  · have hlength : b.length - 64 = s.grant.canonical.length := by
      rw [← hencode, SignedGrant.encode, List.length_append, hsignature]
      exact Nat.add_sub_cancel _ _
    rw [hlength, ← hencode, SignedGrant.encode, List.take_left]
  · intro b' h'
    rw [← (canonical_decode h').1, hencode]

/-- A grant that was issued, by its bytes, in the last second of the 64 bit range. Go's conversion
wraps, and the parsed issue time is in the distant past. -/
def wrappedGrant : Bytes :=
  [1] ++ [0, 1, 107] ++ [0, 1, 103] ++ [0, 0] ++ [0, 1, 117] ++ [0, 1, 100] ++ [0, 1, 114] ++
    [127, 255, 255, 255, 255, 255, 255, 255] ++ [128, 0, 0, 0, 0, 0, 0, 0] ++
    [255, 255, 255, 255, 255, 255, 255, 255] ++ List.replicate 64 7

/-- The wrapped grant is parsed, and is its bytes all the same. -/
theorem wrapped_grant_is_its_bytes : ∃ s, decodeGrant wrappedGrant = .ok s ∧
    s.grant.issuedAt.sec < 0 ∧ s.encode = wrappedGrant ∧
    s.grant.canonical = wrappedGrant.take (wrappedGrant.length - 64) := by
  have hok : ∃ s, decodeGrant wrappedGrant = .ok s ∧ s.grant.issuedAt.sec < 0 := by
    refine ⟨⟨⟨1, [107], [103], [], [117], [100], [114], Time.ofUnix 0x7fffffffffffffff,
      Time.ofUnix (-0x8000000000000000), 0xffffffffffffffff⟩, List.replicate 64 7⟩, ?_, ?_⟩
    · decide +kernel
    · decide
  obtain ⟨s, hs, hissued⟩ := hok
  obtain ⟨hencode, hcanonical, -⟩ := decoded_grant_is_its_bytes hs
  exact ⟨s, hs, hissued, hencode, hcanonical⟩

/-- The grant that `Sign` signs for the one it is given. -/
def Grant.signedForm (g : Grant) : Grant :=
  { g with
    version := grantVersion
    issuedAt := g.issuedAt.truncateSecond, expiresAt := g.expiresAt.truncateSecond }

/-- What `Sign` returns: the signed form, with the signature over its canonical bytes. -/
theorem sign_ok {signer : Bytes → Bytes} {g : Grant} {s : SignedGrant}
    (h : g.sign signer = .ok s) : s = ⟨g.signedForm, signer g.signedForm.canonical⟩ := by
  unfold Grant.sign at h
  cases hprepare : g.prepare with
  | error e => simp [hprepare] at h
  | ok signed =>
      simp only [hprepare, Except.ok.injEq] at h
      subst h
      rw [prepare_ok hprepare]
      rfl

/-- What `Sign` accepts has a permitted life. -/
theorem sign_ttl {signer : Bytes → Bytes} {g : Grant} {s : SignedGrant}
    (h : g.sign signer = .ok s) : g.expiresAt.sub g.issuedAt ≤ maxGrantTTL := by
  unfold Grant.sign at h
  cases hprepare : g.prepare with
  | error e => simp [hprepare] at h
  | ok signed => exact prepare_ttl hprepare

/-- `Sign` accepts a grant with a known version, a short life and the three required fields. -/
theorem sign_accepts {g : Grant} (hversion : g.version = 0 ∨ g.version = grantVersion)
    (httl : g.expiresAt.sub g.issuedAt ≤ maxGrantTTL) (hdevice : g.deviceID ≠ [])
    (hresource : g.resourceID ≠ []) (hgrant : g.grantID ≠ []) (signer : Bytes → Bytes) :
    g.sign signer = .ok ⟨g.signedForm, signer g.signedForm.canonical⟩ := by
  have httl' : ¬ maxGrantTTL < g.expiresAt.sub g.issuedAt := Int64.not_lt.mpr httl
  have hfields : ¬ (g.deviceID = [] ∨ g.resourceID = [] ∨ g.grantID = []) := by
    simp [hdevice, hresource, hgrant]
  have hprepare : g.prepare = .ok g.signedForm := by
    unfold Grant.prepare
    rcases hversion with hzero | hone
    · simp only [hzero, if_true, ne_eq, not_true_eq_false, if_false, httl', hfields]
      rfl
    · have hne : ¬ grantVersion = 0 := by decide
      simp only [hone, hne, if_false, ne_eq, not_true_eq_false, httl', hfields, Grant.signedForm]
  rw [Grant.sign, hprepare]

/-- The canonical bytes determine a grant whose strings are within the range of the length
prefix. -/
theorem canonical_inj_of_short {g g' : Grant} (hissued : g.issuedAt.nsec = 0)
    (hexpires : g.expiresAt.nsec = 0) (hissued' : g'.issuedAt.nsec = 0)
    (hexpires' : g'.expiresAt.nsec = 0) (hshort : ∀ s ∈ g.strings, s.length < 2 ^ 16)
    (hshort' : ∀ s ∈ g'.strings, s.length < 2 ^ 16) (h : g.canonical = g'.canonical) :
    g = g' := by
  rw [canonical_eq, canonical_eq] at h
  obtain ⟨hversion, hbody⟩ := List.cons.inj h
  have hcount : g.strings.length = g'.strings.length := rfl
  obtain ⟨hstrings, hnumbers⟩ := flatMap_append_string_inj hcount hshort hshort' hbody
  exact grant_ext hversion hstrings hnumbers hissued hexpires hissued' hexpires'

/-- The grants have the same terms: all fields but the version, with times at whole seconds. -/
def Grant.SameTerms (g g' : Grant) : Prop :=
  g.strings = g'.strings ∧ g.issuedAt.sec = g'.issuedAt.sec ∧
    g.expiresAt.sec = g'.expiresAt.sec ∧ g.maxBytes = g'.maxBytes

/-- If `Sign` signs the same bytes for the two grants, they agree in every field. -/
def Grant.OneToOne (g g' : Grant) : Prop :=
  ∀ signer signer' s s', g.sign signer = .ok s → g'.sign signer' = .ok s' →
    s.grant.canonical = s'.grant.canonical → g.version = g'.version ∧ g.SameTerms g'

theorem same_terms_iff {g g' : Grant} : g.SameTerms g' ↔ g.signedForm = g'.signedForm := by
  cases g
  cases g'
  simp only [Grant.SameTerms, Grant.strings, Grant.signedForm, Time.truncateSecond, Grant.mk.injEq,
    Time.mk.injEq, List.cons.injEq, and_true, true_and]
  tauto

/-- A grant for resource `r` on device `d`, valid for a minute. -/
def plainGrant : Grant where
  version := 0
  keyID := [107]
  grantID := [103]
  orgID := []
  userID := []
  deviceID := [100]
  resourceID := [114]
  issuedAt := Time.ofUnix 0
  expiresAt := Time.ofUnix 60
  maxBytes := 0

/-- `2 ^ 16` zero bytes: a string whose length prefix wraps to zero, and which reads as a row of
empty strings. -/
def zeros : Bytes := List.replicate (2 ^ 16) 0

/-- The grant for an organisation, and for a user, of that name. -/
def zerosOrg : Grant := { plainGrant with orgID := zeros }
def zerosUser : Grant := { plainGrant with userID := zeros }

theorem length_zeros : zeros.length = 2 ^ 16 := List.length_replicate

theorem zeros_ne : zeros ≠ [] := by
  intro h
  have hlength := length_zeros
  rw [h] at hlength
  cases hlength

theorem sign_zeros (signer : Bytes → Bytes) :
    zerosOrg.sign signer = .ok ⟨zerosOrg.signedForm, signer zerosOrg.signedForm.canonical⟩ ∧
      zerosUser.sign signer =
        .ok ⟨zerosUser.signedForm, signer zerosUser.signedForm.canonical⟩ :=
  ⟨sign_accepts (.inl rfl) (by decide) (by decide) (by decide) (by decide) signer,
    sign_accepts (.inl rfl) (by decide) (by decide) (by decide) (by decide) signer⟩

/-- The long string and the empty one are one long row of zeros in either order. -/
theorem zeros_alike : zerosOrg.signedForm.canonical = zerosUser.signedForm.canonical := by
  have hzeros : appendString [] zeros = List.replicate 2 0 ++ zeros := by
    rw [appendString, length_zeros]
    rfl
  have hempty : appendString [] [] = List.replicate 2 0 := rfl
  have hswap : appendString [] zeros ++ appendString [] [] =
      appendString [] [] ++ appendString [] zeros := by
    rw [hzeros, hempty, zeros, List.append_assoc, List.replicate_append_replicate,
      List.replicate_append_replicate, List.replicate_append_replicate,
      List.replicate_append_replicate, Nat.add_comm (2 ^ 16) 2]
  unfold zerosOrg zerosUser
  generalize zeros = z at *
  simp only [canonical_eq, Grant.strings, Grant.numbers, Grant.signedForm, plainGrant,
    List.flatMap_cons, List.flatMap_nil, List.append_nil]
  rw [← List.append_assoc (appendString [] z), hswap]
  simp only [List.append_assoc]

/-- Two grants with strings in the range of the length prefix that are signed alike have the same
terms. -/
theorem same_terms_of_sign {g g' : Grant} {signer signer' : Bytes → Bytes} {s s' : SignedGrant}
    (hshort : ∀ t ∈ g.strings ++ g'.strings, t.length < 2 ^ 16) (h : g.sign signer = .ok s)
    (h' : g'.sign signer' = .ok s') (hbytes : s.grant.canonical = s'.grant.canonical) :
    g.SameTerms g' := by
  obtain rfl := sign_ok h
  obtain rfl := sign_ok h'
  refine same_terms_iff.mpr (canonical_inj_of_short rfl rfl rfl rfl ?_ ?_ hbytes)
  · exact fun t ht => hshort t (List.mem_append_left _ ht)
  · exact fun t ht => hshort t (List.mem_append_right _ ht)

/-- Among grants of one version, the signed bytes determine a grant whose strings are below a bound
exactly if the bound is within the range of the length prefix. Within that range they determine two
grants that `Sign` accepts, of any version, exactly if these have one version or differ in another
field: version 0 is signed as the current one. -/
theorem signed_bytes_determine_grant (bound : Nat) (g g' : Grant) :
    ((∀ k k' : Grant, k.version = k'.version →
        (∀ t ∈ k.strings ++ k'.strings, t.length < bound) → k.OneToOne k') ↔ bound ≤ 2 ^ 16) ∧
    ∀ (signer signer' : Bytes → Bytes) (s s' : SignedGrant),
      g.sign signer = .ok s → g'.sign signer' = .ok s' →
      (∀ t ∈ g.strings ++ g'.strings, t.length < 2 ^ 16) →
      (g.OneToOne g' ↔ g.version = g'.version ∨ ¬ g.SameTerms g') := by
  refine ⟨⟨?_, ?_⟩, ?_⟩
  · intro hall
    by_contra hlarge
    obtain ⟨hsign, hsign'⟩ := sign_zeros id
    have hlong : ∀ t ∈ zerosOrg.strings ++ zerosUser.strings, t.length ≤ 2 ^ 16 := by
      simp [Grant.strings, zerosOrg, zerosUser, plainGrant, length_zeros]
    have hterms := (hall zerosOrg zerosUser rfl
      (fun t ht => (hlong t ht).trans_lt (Nat.lt_of_not_le hlarge)) id id _ _ hsign hsign'
      zeros_alike).2
    exact zeros_ne (List.cons.inj (List.cons.inj (List.cons.inj hterms.1).2).2).1
  · intro hbound k k' hversion hshort signer signer' s s' h h' hbytes
    exact ⟨hversion, same_terms_of_sign (fun t ht => (hshort t ht).trans_le hbound) h h' hbytes⟩
  · intro signer signer' s s' h h' hshort
    constructor
    · intro hone
      by_contra hnot
      obtain ⟨hversion, hterms⟩ := not_or.mp hnot
      refine hversion (hone _ _ s s' h h' ?_).1
      rw [sign_ok h, sign_ok h', same_terms_iff.mp (not_not.mp hterms)]
    · rintro hor signer signer' s s' h h' hbytes
      have hterms := same_terms_of_sign hshort h h' hbytes
      exact ⟨hor.resolve_right (not_not_intro hterms), hterms⟩

/-- The same grant, issued half a second later. -/
def plainGrantLater : Grant :=
  { plainGrant with issuedAt := ⟨62135596800, 500000000, Time.half_second_lt⟩ }

/-- Two grants of one version that are signed alike, within the same second. -/
theorem plain_grant_determined : ∃ s s', plainGrant.sign (fun _ => []) = .ok s ∧
    plainGrantLater.sign (fun _ => []) = .ok s' ∧ plainGrant ≠ plainGrantLater ∧
    s.grant.canonical = s'.grant.canonical ∧ plainGrant.SameTerms plainGrantLater := by
  have hok : ∃ s s', plainGrant.sign (fun _ => []) = .ok s ∧
      plainGrantLater.sign (fun _ => []) = .ok s' ∧
      s.grant.canonical = s'.grant.canonical := ⟨_, _, rfl, rfl, rfl⟩
  obtain ⟨s, s', hs, hs', hbytes⟩ := hok
  have hone := (signed_bytes_determine_grant (2 ^ 16) plainGrant plainGrantLater).1.mpr le_rfl
    plainGrant plainGrantLater rfl (by decide)
  exact ⟨s, s', hs, hs', by decide, hbytes, (hone _ _ s s' hs hs' hbytes).2⟩

/-- Two grants that `Sign` accepts, for different organisations and users, have the same signed
bytes; and so have two that differ in their version. -/
theorem canonical_collision :
    (zerosOrg.orgID ≠ zerosUser.orgID ∧ zerosOrg.userID ≠ zerosUser.userID ∧
      ∀ signer, ∃ s s', zerosOrg.sign signer = .ok s ∧ zerosUser.sign signer = .ok s' ∧
        s.grant.canonical = s'.grant.canonical) ∧
    ∀ signer, ∃ s s', plainGrant.sign signer = .ok s ∧
      { plainGrant with version := grantVersion }.sign signer = .ok s' ∧
      s.grant.canonical = s'.grant.canonical := by
  refine ⟨⟨zeros_ne, zeros_ne.symm, fun signer => ?_⟩, fun signer => ⟨_, _, rfl, rfl, rfl⟩⟩
  exact ⟨_, _, (sign_zeros signer).1, (sign_zeros signer).2, zeros_alike⟩

/-- A signed grant with whole seconds decodes to itself or not at all. -/
theorem grant_decode_unique {s s' : SignedGrant} (hsignature : s.signature.length = signatureSize)
    (hissued : s.grant.issuedAt.nsec = 0) (hexpires : s.grant.expiresAt.nsec = 0)
    (h : decodeGrant s.encode = .ok s') : s' = s := by
  obtain ⟨hencode, hsignature', hparsed⟩ := canonical_decode h
  obtain ⟨hcanonical, hsame⟩ := List.append_inj' hencode (by rw [hsignature, hsignature'])
  have hgrant := canonical_inj hparsed hissued hexpires hcanonical.symm
  cases s
  cases s'
  simp_all

/-- The signed form of a grant is parsed back exactly if its strings are short. -/
theorem decode_signed_form_iff {g : Grant} {signature : Bytes}
    (hlength : signature.length = signatureSize) :
    decodeGrant (SignedGrant.encode ⟨g.signedForm, signature⟩) = .ok ⟨g.signedForm, signature⟩ ↔
      ∀ t ∈ g.strings, t.length ≤ maxIdentityLen := by
  constructor
  · intro hdecode
    exact (canonical_decode hdecode).2.2.short
  · intro hshort
    exact decode_encode_grant ⟨rfl, hshort, rfl, rfl⟩ hlength

/-- An encoding decodes to the value it was made from or not at all, and it decodes exactly if
every string is within the decoder's bound. -/
theorem encodings_never_decode_to_another_value :
    (∀ a : Auth, (∀ a', decodeAuth a.encode = .ok a' → a' = a) ∧
      (decodeAuth a.encode = .ok a ↔ ∀ t ∈ a.strings, t.length ≤ 128)) ∧
    (∀ a : AuthOK, (∀ a', decodeAuthOK a.encode = .ok a' → a' = a) ∧
      (decodeAuthOK a.encode = .ok a ↔ a.sessionID.length ≤ 128)) ∧
    ∀ (signer : Bytes → Bytes) (g : Grant) (s : SignedGrant),
      (∀ message, (signer message).length = signatureSize) → g.sign signer = .ok s →
      (∀ s', decodeGrant s.encode = .ok s' → s' = s) ∧
      (decodeGrant s.encode = .ok s ↔ ∀ t ∈ g.strings, t.length ≤ 128) := by
  refine ⟨?_, ?_, ?_⟩
  · intro a
    exact ⟨fun a' h => auth_decode_unique h, fun h => (encode_decode_auth h).2, decode_encode_auth⟩
  · intro a
    exact ⟨fun a' h => auth_ok_decode_unique h, fun h => (encode_decode_auth_ok h).2,
      decode_encode_auth_ok⟩
  · intro signer g s hsigner h
    obtain rfl := sign_ok h
    have hlength := hsigner g.signedForm.canonical
    exact ⟨fun s' h' => grant_decode_unique hlength rfl rfl h', decode_signed_form_iff hlength⟩

/-- A signed grant that decodes, and one whose resource is a byte too long. -/
theorem plain_grant_decodes :
    (∃ s, plainGrant.sign (fun _ => List.replicate 64 7) = .ok s ∧
      decodeGrant s.encode = .ok s) ∧
    ∃ s, { plainGrant with resourceID := List.replicate 129 114 }.sign
      (fun _ => List.replicate 64 7) = .ok s ∧ decodeGrant s.encode ≠ .ok s := by
  obtain ⟨-, -, hgrants⟩ := encodings_never_decode_to_another_value
  have hsigner : ∀ message : Bytes,
      ((fun _ : Bytes => List.replicate 64 (7 : UInt8)) message).length = signatureSize :=
    fun _ => List.length_replicate
  have hplain := sign_accepts (g := plainGrant) (.inl rfl) (by decide) (by decide) (by decide)
    (by decide) fun _ => List.replicate 64 7
  have hlong := sign_accepts (g := { plainGrant with resourceID := List.replicate 129 114 })
    (.inl rfl) (by decide) (by decide) (by decide) (by decide) fun _ => List.replicate 64 7
  refine ⟨⟨_, hplain, (hgrants _ _ _ hsigner hplain).2.mpr (by decide)⟩, _, hlong, ?_⟩
  intro hdecode
  have hshort := (hgrants _ _ _ hsigner hlong).2.mp hdecode
  exact absurd (hshort (List.replicate 129 114) (by simp [Grant.strings])) (by simp)

end AccessRelay.Proto
