import AccessRelay.Control.Evaluation
import AccessRelay.Control.Issuance
import AccessRelay.Control.Login
import AccessRelay.Proto.GrantLife

/-!
# The lifetime of an issued grant

`policy.md` has `ttl = min(requested, policy.max_ttl, GLOBAL_MAX_TTL)`. The handler scales the
requested seconds to nanoseconds in 64 bits, `Issue` takes the minimum, and `Sign` truncates to
whole seconds. `issued_lifetime_iff` says for which requests the grant has the lawful lifetime: the
scaling must not wrap around to a positive duration that is shorter than what the policy allows,
and the clock must be far enough from the end of its range.
-/

namespace AccessRelay.Control

open Encoding Go Proto Storage

/-- The life of a grant in whole seconds. -/
def lifetime (g : Grant) : Int := (g.expiresAt.nanos - g.issuedAt.nanos) / 1000000000

/-- What the request asks for, in nanoseconds and without a bound. -/
def GrantRequest.asked (req : GrantRequest) : Int :=
  if req.ttlSeconds ≤ 0 then maxGrantTTL.toInt else req.ttlSeconds.toInt * 1000000000

/-- The decision about the request. -/
def GrantRequest.decision (req : GrantRequest) : Decision :=
  evaluate req.rules req.operatorID req.deviceID req.resourceID

/-- The lifetime the grant should have, in whole seconds. -/
def GrantRequest.lawful (req : GrantRequest) : Int :=
  min req.asked (min req.decision.maxTTL.toInt maxGrantTTL.toInt) / 1000000000

/-- The nanoseconds of a number of seconds as 64 bits hold them. -/
def scaled (seconds : Int64) : Int := (seconds.toInt * 1000000000).bmod (2 ^ 64)

/-- Scaling does not change the number, or it comes out as no request at all, or it comes out as
long as the policy allows. -/
def GrantRequest.ScalesSafely (req : GrantRequest) : Prop :=
  scaled req.ttlSeconds = req.ttlSeconds.toInt * 1000000000 ∨ scaled req.ttlSeconds ≤ 0 ∨
    req.decision.maxTTL.toInt / 1000000000 ≤ scaled req.ttlSeconds / 1000000000

instance (req : GrantRequest) : Decidable req.ScalesSafely :=
  inferInstanceAs (Decidable (_ ∨ _))

section Lifetime

variable {req : GrantRequest}

theorem to_int_scaled (seconds : Int64) : (seconds * second).toInt = scaled seconds := by
  have hsecond : second.toInt = 1000000000 := by decide
  rw [Int64.toInt_mul, hsecond, scaled]

/-- What a decision allows is positive and at most half an hour. -/
theorem decision_max_ttl (h : req.decision.allowed = true) :
    0 < req.decision.maxTTL.toInt ∧ req.decision.maxTTL.toInt ≤ maxGrantTTL.toInt := by
  rcases evaluate_cases req.rules req.operatorID req.deviceID req.resourceID with
    ⟨hnot, -⟩ | ⟨-, rule, -, heq⟩
  · exact absurd (allowed_iff.mp h) hnot
  · rw [GrantRequest.decision, heq]
    obtain ⟨hpositive, hmax⟩ := ttl_range rule
    exact ⟨Int64.lt_iff_toInt_lt.mp hpositive, Int64.le_iff_toInt_le.mp hmax⟩

/-- What was issued was allowed. -/
theorem result_allowed {sessionID : Bytes} {input : LoginInput} {s : SignedGrant}
    (h : (req.call sessionID input).result = .ok s) : req.decision.allowed = true := by
  unfold IssueCall.result at h
  cases hsigns : (req.call sessionID input).signs with
  | error e => simp [hsigns] at h
  | ok g =>
      unfold IssueCall.signs at hsigns
      split_ifs at hsigns with hallowed
      exact hallowed

/-- The lifetime that `Issue` settles on, in nanoseconds. -/
theorem to_int_issued_ttl (h : req.decision.allowed = true) :
    (issuedTTL req.ttl req.decision).toInt =
      if scaled req.ttlSeconds ≤ 0 then req.decision.maxTTL.toInt
      else min (scaled req.ttlSeconds) req.decision.maxTTL.toInt := by
  obtain ⟨hpositive, hmax⟩ := decision_max_ttl h
  have hlife := max_grant_ttl_nanos
  have hscaled := to_int_scaled req.ttlSeconds
  unfold issuedTTL GrantRequest.ttl
  simp only [Int64.le_iff_toInt_le, Int64.lt_iff_toInt_lt, Int64.toInt_zero, hscaled]
  by_cases hnone : scaled req.ttlSeconds ≤ 0
  · rw [if_pos hnone, if_pos hnone]
    split_ifs <;> omega
  · rw [if_neg hnone, if_neg hnone, hscaled]
    split_ifs <;> omega

/-- The second at which the grant expires. The sum of seconds stops at the end of its range. -/
theorem add_truncated_sec {now : Time} {d : Duration} (hd : 0 ≤ d.toInt) :
    ((now.truncateSecond.add d).truncateSecond.nanos - now.truncateSecond.nanos) / 1000000000 =
      min (d.toInt / 1000000000) (2 ^ 63 - 1 - now.sec.toInt) := by
  have hsec : (now.truncateSecond.add d).truncateSecond.sec =
      Time.addSec now.sec (d.toInt / 1000000000) := by
    show Time.addSec now.sec (((0 : Nat) + d.toInt) / 1000000000) = _
    rw [Int.natCast_zero, Int.zero_add]
  have hlow := now.sec.le_toInt
  have hhigh := now.sec.toInt_lt
  have hnanos : (now.truncateSecond.add d).truncateSecond.nanos - now.truncateSecond.nanos =
      ((Time.addSec now.sec (d.toInt / 1000000000)).toInt - now.sec.toInt) * 1000000000 := by
    rw [← hsec]
    simp only [Time.nanos, Time.truncateSecond]
    omega
  have hlast := (Time.addSec now.sec (d.toInt / 1000000000)).toInt_lt
  rw [hnanos]
  rcases Time.add_sec_cases now.sec (d.toInt / 1000000000) with ⟨h, he⟩ | ⟨h, he⟩ | he <;>
    rw [he] at hlast ⊢ <;> omega

/-- The life of what the handler issues, in whole seconds. -/
theorem issued_lifetime {sessionID : Bytes} {input : LoginInput} {s : SignedGrant}
    (h : (req.call sessionID input).result = .ok s) :
    lifetime s.grant = min ((issuedTTL req.ttl req.decision).toInt / 1000000000)
      (2 ^ 63 - 1 - input.now.sec.toInt) := by
  have hallowed := result_allowed h
  obtain ⟨random, -, rfl⟩ := issue_ok h
  have hpositive : 0 ≤ (issuedTTL req.ttl req.decision).toInt := by
    obtain ⟨hpositive, -⟩ := decision_max_ttl hallowed
    rw [to_int_issued_ttl hallowed]
    split_ifs <;> omega
  exact add_truncated_sec hpositive

/-- Where the scaling wraps, the request is for more than any policy allows, or for nothing. -/
theorem lawful_of_wraps (h : req.decision.allowed = true)
    (hwraps : scaled req.ttlSeconds ≠ req.ttlSeconds.toInt * 1000000000) :
    req.lawful = req.decision.maxTTL.toInt / 1000000000 := by
  obtain ⟨-, hmax⟩ := decision_max_ttl h
  have hlife := max_grant_ttl_nanos
  have hasked : maxGrantTTL.toInt ≤ req.asked := by
    unfold GrantRequest.asked
    split_ifs with hnone
    · exact le_rfl
    · have hpositive : ¬ req.ttlSeconds.toInt ≤ 0 := fun h => hnone (Int64.le_iff_toInt_le.mpr h)
      by_contra hshort
      refine hwraps (Int.bmod_eq_of_le ?_ ?_) <;> omega
  rw [GrantRequest.lawful]
  omega

/-- Where it does not, `Issue` settles on the lawful lifetime. -/
theorem issued_of_exact (h : req.decision.allowed = true)
    (hexact : scaled req.ttlSeconds = req.ttlSeconds.toInt * 1000000000) :
    (issuedTTL req.ttl req.decision).toInt / 1000000000 = req.lawful := by
  obtain ⟨-, hmax⟩ := decision_max_ttl h
  have hnone : req.ttlSeconds ≤ 0 ↔ scaled req.ttlSeconds ≤ 0 := by
    rw [Int64.le_iff_toInt_le, hexact, Int64.toInt_zero]
    omega
  rw [to_int_issued_ttl h, GrantRequest.lawful, GrantRequest.asked, ← hexact]
  simp only [hnone]
  split_ifs <;> omega

/-- `Issue` never settles on more than the lawful lifetime, and on that exactly if the scaling is
safe. -/
theorem issued_seconds (h : req.decision.allowed = true) :
    (issuedTTL req.ttl req.decision).toInt / 1000000000 ≤ req.lawful ∧
      ((issuedTTL req.ttl req.decision).toInt / 1000000000 = req.lawful ↔ req.ScalesSafely) := by
  by_cases hexact : scaled req.ttlSeconds = req.ttlSeconds.toInt * 1000000000
  · have hissued := issued_of_exact h hexact
    exact ⟨hissued.le, iff_of_true hissued (.inl hexact)⟩
  · rw [lawful_of_wraps h hexact, to_int_issued_ttl h, GrantRequest.ScalesSafely]
    simp only [hexact, false_or]
    split_ifs <;> omega

end Lifetime

/-- The issued lifetime law, for every number of seconds that a request can hold: the life of the
grant is the least of what was asked for, what the policy allows and the system maximum, in whole
seconds, if and only if the scaling of the request is safe and that life ends within the range of
the clock. -/
theorem issued_lifetime_iff {req : GrantRequest} {sessionID : Bytes} {input : LoginInput}
    {s : SignedGrant} (h : (req.call sessionID input).result = .ok s) :
    lifetime s.grant = req.lawful ↔
      req.ScalesSafely ∧ input.now.sec.toInt + req.lawful ≤ 2 ^ 63 - 1 := by
  obtain ⟨hle, hsafe⟩ := issued_seconds (result_allowed h)
  rw [issued_lifetime h, ← hsafe]
  omega

/-- The sample request for another number of seconds. -/
def requestFor (ttlSeconds : Int64) : GrantRequest := { sampleRequest with ttlSeconds }

/-- Ninety seconds under a policy of a minute. -/
theorem ninety_seconds_lawful :
    ∃ s, ((requestFor 90).call (ascii "ses_1") (atSecond 10)).result = .ok s ∧
      lifetime s.grant = (requestFor 90).lawful ∧ (requestFor 90).lawful = 60 := by
  have hok : ∃ s, ((requestFor 90).call (ascii "ses_1") (atSecond 10)).result = .ok s := ⟨_, rfl⟩
  obtain ⟨s, hs⟩ := hok
  have hlawful : (requestFor 90).lawful = 60 := by decide
  exact ⟨s, hs, (issued_lifetime_iff hs).mpr ⟨by decide, by decide⟩, hlawful⟩

/-- A request for 584 years wraps around to 0.29 seconds, and the grant expires when it is issued.
The policy would have allowed a minute. -/
theorem long_request_expires_at_once :
    ∃ s, ((requestFor 18446744074).call (ascii "ses_1") (atSecond 10)).result = .ok s ∧
      lifetime s.grant = 0 ∧ (requestFor 18446744074).lawful = 60 :=
  ⟨_, rfl, by decide, by decide⟩

end AccessRelay.Control
