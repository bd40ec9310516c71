import AccessRelay.Endpoint.Stream
import AccessRelay.Proto.GrantLife

/-!
# The deadline of a stream

`handleStream` decides twice whether a grant is still good. `Verify` stretches the lifetime by the
clock-skew tolerance at both ends; the deadline of the stream is what `Remaining` leaves, which is
not stretched. `deadline_agrees_iff` says that the two agree exactly before the expiry. In the
tolerance after it, a grant that verified leaves a deadline that has passed, the inner handshake
runs under a context that is done, and the stream is refused as a failed authentication.
-/

namespace AccessRelay.Endpoint

open Encoding Ca Go Proto Control

/-- A stream that is handled at one instant: every reading of the clock gives `now`, and so does
the end of the handshake. -/
def StreamInput.atInstant (now : Time) (peer : Option Identity) : StreamInput where
  verifiedAt := now
  remainingAt := now
  deadlineBase := now
  limitCheckedAt := now
  limitBase := now
  peer := peer
  handshake := some now

/-- The deadline that `handleStream` computes at an instant. -/
def deadlineAt (grant : SignedGrant) (resource : Resource) (now : Time) : Time :=
  streamDeadline grant resource (.atInstant now none)

/-- The operator of the grant is at the far end and answers at once. -/
def promptOperator (grant : SignedGrant) (now : Time) : StreamInput :=
  .atInstant now (some ⟨.operator, grant.grant.userID⟩)

section Deadline

variable {grant : SignedGrant} {resource : Resource} {now : Time}

/-- A grant that verified expires at most the longest life and the tolerance later. -/
theorem verified_expiry_le (h : grant.Verified now) : grant.grant.expiresAt.nanos - now.nanos ≤
    maxGrantTTL.toInt + clockSkewTolerance.toInt := by
  have hlife : grant.grant.expiresAt.nanos - grant.grant.issuedAt.nanos ≤ maxGrantTTL.toInt :=
    Time.sub_le h.ttl (by decide) (by decide)
  have hissued : grant.grant.issuedAt.nanos ≤ now.nanos + clockSkewTolerance.toInt :=
    h.issued.trans (Time.nanos_add_le (by decide))
  omega

/-- Before the expiry, what remains is exactly the time up to it. -/
theorem remaining_before_expiry (h : grant.Verified now)
    (hbefore : now.nanos < grant.grant.expiresAt.nanos) :
    (grant.remaining now).toInt = grant.grant.expiresAt.nanos - now.nanos := by
  have hle := verified_expiry_le h
  rw [max_grant_ttl_nanos, clock_skew_tolerance_nanos.1] at hle
  have hexact : (grant.grant.expiresAt.sub now).toInt =
      grant.grant.expiresAt.nanos - now.nanos := Time.to_int_sub (by omega) (by omega)
  have hpositive : ¬ grant.grant.expiresAt.sub now < 0 := by
    rw [Int64.lt_iff_toInt_lt, hexact, Int64.toInt_zero]
    omega
  show (if grant.grant.expiresAt.sub now < 0 then 0 else grant.grant.expiresAt.sub now).toInt = _
  rw [if_neg hpositive, hexact]

/-- Before the expiry, the deadline is the expiry, or the limit of the resource if that is
earlier; in either case it is still to come. -/
theorem deadline_before_expiry (resource : Resource) (h : grant.Verified now)
    (hwhole : grant.grant.expiresAt.nsec = 0)
    (hbefore : now.nanos < grant.grant.expiresAt.nanos) :
    now.nanos < (deadlineAt grant resource now).nanos ∧
      (deadlineAt grant resource now).nanos ≤ grant.grant.expiresAt.nanos ∧
      (0 < resource.maxDuration →
        (deadlineAt grant resource now).nanos ≤ (now.add resource.maxDuration).nanos) := by
  have hremaining := remaining_before_expiry h hbefore
  have hfull : (now.add (grant.remaining now)).nanos = grant.grant.expiresAt.nanos := by
    rw [Time.nanos_add_of_le (u := grant.grant.expiresAt) (by omega) (by omega)]
    omega
  have hdeadline : deadlineAt grant resource now =
      if 0 < resource.maxDuration ∧
          (now.add resource.maxDuration).before (now.add (grant.remaining now)) = true
      then now.add resource.maxDuration else now.add (grant.remaining now) := rfl
  rw [hdeadline]
  split_ifs with hlimit
  · obtain ⟨hpositive, hearlier⟩ := hlimit
    rw [Time.before_iff, hfull] at hearlier
    have hduration : 0 < resource.maxDuration.toInt := Int64.lt_iff_toInt_lt.mp hpositive
    -- A sum that had stopped at the end of the range would not be before a whole second.
    have hshort : now.nanos + resource.maxDuration.toInt < grant.grant.expiresAt.nanos := by
      by_contra hlong
      have hstop := Time.whole_le_nanos_add hwhole (Int.not_lt.mp hlong)
      omega
    have hexact := Time.nanos_add_of_le (t := now) (d := resource.maxDuration) hduration.le
      hshort.le
    exact ⟨by omega, hearlier.le, fun _ => le_rfl⟩
  · refine ⟨by omega, hfull.le, ?_⟩
    intro hpositive
    exact not_before fun hearlier => hlimit ⟨hpositive, hearlier⟩

/-- What becomes of a stream that passed verification and lookup, if the operator is at the far
end: it is refused as a failed authentication exactly if the deadline has passed. -/
theorem prompt_operator_outcome {agent : Agent} {net : Net}
    {ed25519Verify : Bytes → Bytes → Bytes → Bool} {payload : Bytes}
    (hdecode : decodeGrant payload = .ok grant)
    (hverify : grant.verify ed25519Verify agent.grantKey now agent.identity.id = .ok ())
    (hlookup : agent.resources.lookup net grant.grant.resourceID = .ok resource) :
    agent.handleStream net ed25519Verify payload (promptOperator grant now) =
      if now.before (deadlineAt grant resource now) = true
      then .dials ⟨grant, resource.target, deadlineAt grant resource now,
        smallerLimit grant.grant.maxBytes resource.maxBytes⟩
      else .reset reasonAuthFailed := by
  have hpayload : payload ≠ [] := by
    rintro rfl
    simp [decodeGrant] at hdecode
  have hclock : (promptOperator grant now).verifiedAt = now := rfl
  have hdeadline : streamDeadline grant resource (promptOperator grant now) =
      deadlineAt grant resource now := rfl
  have hinner : innerSession (promptOperator grant now) (deadlineAt grant resource now)
      ⟨.operator, grant.grant.userID⟩ = now.before (deadlineAt grant resource now) := by
    simp [innerSession, promptOperator, StreamInput.atInstant]
  unfold Agent.handleStream
  simp only [if_neg hpayload, hdecode, hclock, hverify, hlookup, hdeadline, hinner]

end Deadline

/-- The two notions of validity agree exactly before the expiry. For a grant that verifies at `now`
for this device, and a resource of the allowlist: the deadline of the stream is later than `now`,
not later than the expiry and not later than `now` plus the limit of the resource, and the stream
of the grant's operator is not refused as a failed authentication, if and only if `now` is before
the expiry. -/
theorem deadline_agrees_iff {agent : Agent} {net : Net}
    {ed25519Verify : Bytes → Bytes → Bytes → Bool} {payload : Bytes} {grant : SignedGrant}
    {resource : Resource} {now : Time} (hdecode : decodeGrant payload = .ok grant)
    (hverify : grant.verify ed25519Verify agent.grantKey now agent.identity.id = .ok ())
    (hlookup : agent.resources.lookup net grant.grant.resourceID = .ok resource) :
    (now.nanos < (deadlineAt grant resource now).nanos ∧
      (deadlineAt grant resource now).nanos ≤ grant.grant.expiresAt.nanos ∧
      (0 < resource.maxDuration → (deadlineAt grant resource now).nanos ≤
        now.nanos + resource.maxDuration.toInt) ∧
      agent.handleStream net ed25519Verify payload (promptOperator grant now) ≠
        .reset reasonAuthFailed) ↔
    now.before grant.grant.expiresAt = true := by
  rw [Time.before_iff]
  constructor
  · intro h
    exact h.1.trans_le h.2.1
  · intro hbefore
    have hwhole := (canonical_decode hdecode).2.2.expiresAt
    obtain ⟨hfuture, hexpiry, hlimit⟩ :=
      deadline_before_expiry resource (verified_of_verify_ok hverify) hwhole hbefore
    refine ⟨hfuture, hexpiry, ?_, ?_⟩
    · intro hpositive
      have hduration : 0 ≤ resource.maxDuration.toInt :=
        (Int64.lt_iff_toInt_lt.mp hpositive).le
      exact (hlimit hpositive).trans (Time.nanos_add_le hduration)
    · rw [prompt_operator_outcome hdecode hverify hlookup, if_pos (Time.before_iff.mpr hfuture)]
      exact Outcome.noConfusion

/-- The grant of the sample call, issued at second 1000 for a minute. -/
def sampleGrant : SignedGrant where
  grant :=
    { version := grantVersion
      keyID := ascii "k"
      grantID := newGrantID (List.replicate 16 0)
      orgID := ascii "o"
      userID := ascii "u"
      deviceID := ascii "d"
      resourceID := ascii "r"
      issuedAt := Time.ofUnix 1000
      expiresAt := Time.ofUnix 1060
      maxBytes := 0 }
  signature := List.replicate 64 7

/-- The one resource of the sample agent. -/
def sampleResource : Resource := ⟨ascii "127.0.0.1:80", 0, 0⟩

theorem decode_sample_payload :
    decodeGrant (samplePayload (sampleCall true)) = .ok sampleGrant := by
  decide +kernel

theorem lookup_sample_resource :
    sampleAgent.resources.lookup loopbackNet sampleGrant.grant.resourceID = .ok sampleResource := by
  decide +kernel

/-- Within the life of the grant the stream ends with it. -/
theorem sample_deadline_agrees :
    (Time.ofUnix 1001).nanos < (deadlineAt sampleGrant sampleResource (Time.ofUnix 1001)).nanos ∧
      (deadlineAt sampleGrant sampleResource (Time.ofUnix 1001)).nanos ≤
        (Time.ofUnix 1060).nanos := by
  have hverify : sampleGrant.verify (idealVerify (afterCall (sampleCall true)))
      sampleAgent.grantKey (Time.ofUnix 1001) sampleAgent.identity.id = .ok () := by
    decide +kernel
  have hagrees := (deadline_agrees_iff decode_sample_payload hverify lookup_sample_resource).mpr
    (by decide)
  exact ⟨hagrees.1, hagrees.2.1⟩

/-- Ten seconds after the expiry the grant still verifies. The deadline is `now`, which is past the
expiry, and the operator is told that authentication failed. -/
theorem sample_expired_auth_failed :
    sampleGrant.verify (idealVerify (afterCall (sampleCall true))) sampleAgent.grantKey
        (Time.ofUnix 1070) sampleAgent.identity.id = .ok () ∧
      deadlineAt sampleGrant sampleResource (Time.ofUnix 1070) = Time.ofUnix 1070 ∧
      sampleGrant.grant.expiresAt.before
        (deadlineAt sampleGrant sampleResource (Time.ofUnix 1070)) = true ∧
      sampleAgent.handleStream loopbackNet (idealVerify (afterCall (sampleCall true)))
          (samplePayload (sampleCall true))
          (promptOperator sampleGrant (Time.ofUnix 1070)) =
        .reset reasonAuthFailed := by
  decide +kernel

end AccessRelay.Endpoint
