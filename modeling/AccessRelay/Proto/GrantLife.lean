import AccessRelay.Proto.RoundTrip

/-!
# How long a grant lives

`Verify` bounds the life of a grant by itself, whoever signed it and whatever its times are:
`verified_span` follows the checks from the clock at the first verification to the clock at the
last, through sums that stop at the ends of the range and a difference that saturates.

In the other direction, what `Sign` accepts passes every check of `Verify` during its life. The
lifetime is checked before the times are truncated to the second and again after, and truncation
never makes a permitted life too long (`sub_truncate_le`).
-/

namespace AccessRelay.Proto

open Encoding Go

/-- What a successful `Verify` has checked. -/
structure SignedGrant.Verified (s : SignedGrant) (now : Time) : Prop where
  ttl : s.grant.expiresAt.sub s.grant.issuedAt ≤ maxGrantTTL
  issued : s.grant.issuedAt.nanos ≤ (now.add clockSkewTolerance).nanos
  expires : (now.add (-clockSkewTolerance)).nanos ≤ s.grant.expiresAt.nanos

theorem not_before {t u : Time} (h : ¬ t.before u = true) : u.nanos ≤ t.nanos := by
  rw [Time.before_iff] at h
  omega

theorem verified_of_verify_ok {ed25519Verify : Bytes → Bytes → Bytes → Bool} {s : SignedGrant}
    {pub deviceID : Bytes} {now : Time} (h : s.verify ed25519Verify pub now deviceID = .ok ()) :
    s.Verified now := by
  unfold SignedGrant.verify at h
  split_ifs at h with hversion hlength hsignature httl hissued hexpires hdevice
  exact ⟨Int64.not_lt.mp httl, not_before hissued, not_before hexpires⟩

theorem clock_skew_tolerance_nanos : clockSkewTolerance.toInt = 30 * 1000000000 ∧
    (-clockSkewTolerance).toInt = -(30 * 1000000000) := by decide

theorem max_grant_ttl_nanos : maxGrantTTL.toInt = 30 * 60 * 1000000000 := by decide

/-- The clock cannot have moved further between two successful verifications than the longest
life and the tolerance at both ends. -/
theorem verified_span {s : SignedGrant} {t₁ t₂ : Time} (h₁ : s.Verified t₁) (h₂ : s.Verified t₂) :
    t₂.nanos - t₁.nanos ≤ maxGrantTTL.toInt + 2 * clockSkewTolerance.toInt := by
  obtain ⟨hforward, hback⟩ := clock_skew_tolerance_nanos
  have hlife : s.grant.expiresAt.nanos - s.grant.issuedAt.nanos ≤ maxGrantTTL.toInt :=
    Time.sub_le h₁.ttl (by decide) (by decide)
  have hissued : s.grant.issuedAt.nanos ≤ t₁.nanos + clockSkewTolerance.toInt :=
    h₁.issued.trans (Time.nanos_add_le (by omega))
  have hexpires : t₂.nanos + (-clockSkewTolerance).toInt ≤ s.grant.expiresAt.nanos :=
    (Time.le_nanos_add (by omega)).trans h₂.expires
  omega

/-- Truncating both ends of a life to the second does not make it longer than the maximum. -/
theorem sub_truncate_le {issued expires : Time} (hlife : expires.sub issued ≤ maxGrantTTL)
    (hforward : ¬ expires.before issued = true) :
    expires.truncateSecond.sub issued.truncateSecond ≤ maxGrantTTL := by
  have hle : expires.nanos - issued.nanos ≤ maxGrantTTL.toInt :=
    Time.sub_le hlife (by decide) (by decide)
  have hnonneg := not_before hforward
  have hissued := issued.nsec_lt
  have hexpires := expires.nsec_lt
  have httl := max_grant_ttl_nanos
  have hwhole : ∀ t : Time, t.truncateSecond.nanos = t.sec.toInt * 1000000000 := by
    intro t
    show t.sec.toInt * 1000000000 + 0 = _
    omega
  have hspan : 0 ≤ expires.truncateSecond.nanos - issued.truncateSecond.nanos ∧
      expires.truncateSecond.nanos - issued.truncateSecond.nanos ≤ maxGrantTTL.toInt := by
    rw [hwhole, hwhole]
    simp only [Time.nanos] at hle hnonneg
    omega
  rw [Int64.le_iff_toInt_le, Time.to_int_sub (by omega) (by omega)]
  exact hspan.2

/-- A grant that was signed verifies under the matching key and for its own device, from the
tolerance before its issue to the tolerance after its expiry. The first two seconds of the range
are left out: there the clock, less the tolerance, stops after the expiry. -/
theorem signed_grant_verifies {signer : Bytes → Bytes}
    {ed25519Verify : Bytes → Bytes → Bytes → Bool} {pub : Bytes} {g : Grant} {s : SignedGrant}
    {now : Time} (hkey : ∀ message, (signer message).length = signatureSize ∧
      ed25519Verify pub message (signer message) = true)
    (h : g.sign signer = .ok s) (hforward : ¬ g.expiresAt.before g.issuedAt = true)
    (hrange : -2 ^ 63 + 2 ≤ g.expiresAt.sec.toInt)
    (hstart : s.grant.issuedAt.nanos ≤ now.nanos + clockSkewTolerance.toInt)
    (hend : now.nanos - clockSkewTolerance.toInt ≤ s.grant.expiresAt.nanos) :
    s.verify ed25519Verify pub now s.grant.deviceID = .ok () := by
  obtain ⟨htolerance, hback⟩ := clock_skew_tolerance_nanos
  have hlife := sign_ttl h
  obtain rfl := sign_ok h
  obtain ⟨hlength, hverify⟩ := hkey g.signedForm.canonical
  have httl : ¬ maxGrantTTL < g.signedForm.expiresAt.sub g.signedForm.issuedAt :=
    Int64.not_lt.mpr (sub_truncate_le hlife hforward)
  have hissued : ¬ (now.add clockSkewTolerance).before g.signedForm.issuedAt = true := by
    rw [Time.before_iff, not_lt]
    exact Time.whole_le_nanos_add rfl hstart
  have hexpires : ¬ (now.add (-clockSkewTolerance)).after g.signedForm.expiresAt = true := by
    rw [Time.after, Time.before_iff, not_lt]
    have hclock : now.nanos - clockSkewTolerance.toInt ≤ g.signedForm.expiresAt.nanos := hend
    exact Time.nanos_add_le_of_le hrange (by omega)
  simp only [SignedGrant.verify, hlength, hverify, httl, hissued, hexpires]
  simp [Grant.signedForm]

/-- Bounded life, even from an issuer that cannot be trusted: two successful verifications of a
grant are at most 31 minutes apart. Conversely, a grant that `Sign` accepts verifies from 30
seconds before its issue to 30 seconds after its expiry, unless it expires in the first two
seconds that Go's time represents. -/
theorem grant_life_bounded :
    (∀ (b : Bytes) (s : SignedGrant), decodeGrant b = .ok s →
      ∀ ed25519Verify pub deviceID t₁ t₂, s.verify ed25519Verify pub t₁ deviceID = .ok () →
        s.verify ed25519Verify pub t₂ deviceID = .ok () → t₁.nanos ≤ t₂.nanos →
        t₂.nanos - t₁.nanos ≤ maxGrantTTL.toInt + 2 * clockSkewTolerance.toInt ∧
        t₂.nanos - t₁.nanos ≤ 31 * 60 * 1000000000) ∧
    ∀ (signer : Bytes → Bytes) (ed25519Verify : Bytes → Bytes → Bytes → Bool) (pub : Bytes),
      (∀ message, (signer message).length = signatureSize ∧
        ed25519Verify pub message (signer message) = true) →
      ∀ (g : Grant) (s : SignedGrant), g.sign signer = .ok s →
        g.expiresAt.before g.issuedAt = false →
        -2 ^ 63 + 2 ≤ g.expiresAt.sec.toInt →
        ∀ now : Time, s.grant.issuedAt.nanos - 30 * 1000000000 ≤ now.nanos →
          now.nanos ≤ s.grant.expiresAt.nanos + 30 * 1000000000 →
          s.verify ed25519Verify pub now s.grant.deviceID = .ok () := by
  have htolerance := clock_skew_tolerance_nanos.1
  have httl := max_grant_ttl_nanos
  refine ⟨?_, ?_⟩
  · intro b s _ ed25519Verify pub deviceID t₁ t₂ h₁ h₂ _
    have hspan := verified_span (verified_of_verify_ok h₁) (verified_of_verify_ok h₂)
    exact ⟨hspan, by omega⟩
  · intro signer ed25519Verify pub hkey g s hsign hforward hrange now hstart hend
    exact signed_grant_verifies hkey hsign (by simp [hforward]) hrange (by omega) (by omega)

/-- A key pair that signs everything with the same bytes. -/
def constantSigner (_ : Bytes) : Bytes := List.replicate 64 7

/-- The plain grant verifies 30 seconds before its issue and 30 seconds after its expiry, and
those two instants are two minutes apart. -/
theorem plain_grant_life : ∃ s, plainGrant.sign constantSigner = .ok s ∧
    s.verify (fun _ _ _ => true) [] (Time.ofUnix (-30)) [100] = .ok () ∧
    s.verify (fun _ _ _ => true) [] (Time.ofUnix 90) [100] = .ok () ∧
    (Time.ofUnix 90).nanos - (Time.ofUnix (-30)).nanos ≤ 31 * 60 * 1000000000 := by
  obtain ⟨hspan, hlives⟩ := grant_life_bounded
  have hlife := hlives constantSigner (fun _ _ _ => true) []
    fun message => ⟨List.length_replicate, rfl⟩
  have hsign := sign_accepts (g := plainGrant) (.inl rfl) (by decide) (by decide) (by decide)
    (by decide) constantSigner
  have hfirst := hlife _ _ hsign (by decide) (by decide) (Time.ofUnix (-30)) (by decide)
    (by decide)
  have hlast := hlife _ _ hsign (by decide) (by decide) (Time.ofUnix 90) (by decide) (by decide)
  have hdecode : decodeGrant (SignedGrant.encode ⟨plainGrant.signedForm,
      constantSigner plainGrant.signedForm.canonical⟩) =
      .ok ⟨plainGrant.signedForm, constantSigner plainGrant.signedForm.canonical⟩ :=
    decode_encode_grant ⟨rfl, by decide, rfl, rfl⟩ List.length_replicate
  exact ⟨_, hsign, hfirst, hlast, (hspan _ _ hdecode _ _ _ _ _ hfirst hlast (by decide)).2⟩

/-- A grant that is issued and expires in the first second of the range. -/
def firstSecondGrant : Grant :=
  { plainGrant with
    issuedAt := ⟨Int64.minValue, 0, Time.zero_nsec_lt⟩
    expiresAt := ⟨Int64.minValue, 0, Time.zero_nsec_lt⟩ }

/-- At its only second, a grant of the first second has expired: the clock, less the tolerance,
stops a second later. -/
theorem first_second_grant_expired : ∃ s, firstSecondGrant.sign constantSigner = .ok s ∧
    firstSecondGrant.expiresAt.before firstSecondGrant.issuedAt = false ∧
    s.grant.issuedAt.nanos - 30 * 1000000000 ≤ firstSecondGrant.issuedAt.nanos ∧
    firstSecondGrant.issuedAt.nanos ≤ s.grant.expiresAt.nanos + 30 * 1000000000 ∧
    s.verify (fun _ _ _ => true) [] firstSecondGrant.issuedAt s.grant.deviceID =
      .error .expired := by
  have hsign := sign_accepts (g := firstSecondGrant) (.inl rfl) (by decide) (by decide)
    (by decide) (by decide) constantSigner
  exact ⟨_, hsign, by decide, by decide, by decide, by decide⟩

end AccessRelay.Proto
