import AccessRelay.Ca.Identity
import AccessRelay.Control.Policy
import AccessRelay.Machine.Run

/-!
# What an agent dials

`Agent.handleStream` of `internal/agent`: an OPEN_STREAM payload is untrusted bytes from the
relay, and the agent decides by itself whether to dial a local service for it. It parses the
payload as a grant, verifies it against its own key and identity, looks the resource up in its
own allowlist, and requires the far end to prove that it is the operator the grant names.

`dial_authorized` composes this with the control plane. The signature primitive is idealised:
it accepts only messages that were signed before with the matching key. The inner session is
idealised too: it is established only with a peer that holds the expected identity.
-/

namespace AccessRelay.Endpoint

open Encoding Ca Go Proto Control Machine

/-- The functions of the Go `net` package that `ValidateTarget` uses. -/
structure Net where
  splitHostPort : Bytes → Option (Bytes × Bytes)
  parseIP : Bytes → Option Bytes
  isLoopback : Bytes → Bool

/-- The ways a target fails to be a literal loopback address; all are `ErrTargetNotLoopback`. -/
inductive TargetError where
  | notHostPort
  | noPort
  | name
  | notLoopback
  deriving DecidableEq, Repr

/-- `ValidateTarget`: a literal loopback address with an explicit port. -/
def validateTarget (net : Net) (addr : Bytes) : Except TargetError Unit :=
  match net.splitHostPort addr with
  | none => .error .notHostPort
  | some (host, port) =>
      if port = [] then .error .noPort
      else match net.parseIP host with
        | none => .error .name
        | some ip => if net.isLoopback ip then .ok () else .error .notLoopback

/-- A resource of the allowlist. -/
structure Resource where
  target : Bytes
  maxBytes : UInt64
  maxDuration : Duration
  deriving DecidableEq

/-- Errors of `Allowlist.Lookup`. -/
inductive LookupError where
  | unknown
  | target (error : TargetError)
  deriving DecidableEq

/-- The allowlist, by resource identifier. -/
abbrev Allowlist := Bytes → Option Resource

/-- `Allowlist.Lookup`: the loopback rule is checked at the moment of use. -/
def Allowlist.lookup (net : Net) (resources : Allowlist) (resourceID : Bytes) :
    Except LookupError Resource :=
  match resources resourceID with
  | none => .error .unknown
  | some resource =>
      match validateTarget net resource.target with
      | .error e => .error (.target e)
      | .ok () => .ok resource

/-- The reason code for a failed lookup. -/
def LookupError.reason : LookupError → Reason
  | .unknown => reasonResourceUnknown
  | .target _ => reasonResourceTargetNotLoopback

/-- An agent: its certificate and the identity read from it, the key it verifies grants with,
and its allowlist. -/
structure Agent where
  cert : Certificate
  identity : Identity
  named : identityOf cert = .ok identity
  grantKey : Bytes
  resources : Allowlist

/-- `smallerLimit`: the stricter of two byte caps, where zero means no cap. -/
def smallerLimit (a b : UInt64) : UInt64 :=
  if a = 0 then b else if b = 0 then a else if a < b then a else b

/-- What the environment contributes to one stream: the clock at each reading, the identity the
far end can prove, and the instant at which the exchange of the inner handshake ends, if it does. -/
structure StreamInput where
  verifiedAt : Time
  remainingAt : Time
  deadlineBase : Time
  limitCheckedAt : Time
  limitBase : Time
  peer : Option Identity
  handshake : Option Time

/-- When the stream has to end: with the grant, or earlier if the resource says so. -/
def streamDeadline (grant : SignedGrant) (resource : Resource) (input : StreamInput) : Time :=
  let deadline := input.deadlineBase.add (grant.remaining input.remainingAt)
  if 0 < resource.maxDuration ∧ (input.limitCheckedAt.add resource.maxDuration).before deadline
  then input.limitBase.add resource.maxDuration
  else deadline

/-- `e2ee.Server`, idealised: the handshake completes only with the expected peer, and before the
deadline of its context. -/
def innerSession (input : StreamInput) (deadline : Time) (expect : Identity) : Bool :=
  input.handshake.any (·.before deadline) && input.peer = some expect

/-- The dial an authorized stream leads to. -/
structure Dial where
  grant : SignedGrant
  target : Bytes
  deadline : Time
  budget : UInt64
  deriving DecidableEq

/-- How far a stream gets: it is reset with a reason, or its target is dialled. -/
inductive Outcome where
  | reset (reason : Reason)
  | dials (dial : Dial)
  deriving DecidableEq

/-- `handleStream` up to the dial of the local target. -/
def Agent.handleStream (agent : Agent) (net : Net)
    (ed25519Verify : Bytes → Bytes → Bytes → Bool) (payload : Bytes) (input : StreamInput) :
    Outcome :=
  if payload = [] then .reset reasonPolicyDenied
  else match decodeGrant payload with
  | .error e => .reset (reasonForGrant e)
  | .ok grant =>
      match grant.verify ed25519Verify agent.grantKey input.verifiedAt agent.identity.id with
      | .error e => .reset (reasonForGrant e)
      | .ok () =>
          match agent.resources.lookup net grant.grant.resourceID with
          | .error e => .reset e.reason
          | .ok resource =>
              let deadline := streamDeadline grant resource input
              if innerSession input deadline ⟨.operator, grant.grant.userID⟩ then
                .dials ⟨grant, resource.target, deadline,
                  smallerLimit grant.grant.maxBytes resource.maxBytes⟩
              else .reset reasonAuthFailed

/-- A grant that verified was signed with the key, and names the device. -/
theorem verify_ok {ed25519Verify : Bytes → Bytes → Bytes → Bool} {s : SignedGrant} {pub : Bytes}
    {now : Time} {deviceID : Bytes} (hdevice : deviceID ≠ [])
    (h : s.verify ed25519Verify pub now deviceID = .ok ()) :
    ed25519Verify pub s.grant.canonical s.signature = true ∧ s.grant.deviceID = deviceID := by
  unfold SignedGrant.verify at h
  split_ifs at h with hversion hsize hsignature httl hearly hlate hmismatch
  push Not at hmismatch
  exact ⟨by simpa using hsignature, hmismatch hdevice⟩

/-- A resource that was found is the allowlist's own entry, and its target is valid. -/
theorem lookup_ok {net : Net} {resources : Allowlist} {resourceID : Bytes} {resource : Resource}
    (h : resources.lookup net resourceID = .ok resource) :
    resources resourceID = some resource ∧ validateTarget net resource.target = .ok () := by
  unfold Allowlist.lookup at h
  cases hentry : resources resourceID with
  | none => simp [hentry] at h
  | some entry =>
      cases hvalid : validateTarget net entry.target with
      | error e => simp [hentry, hvalid] at h
      | ok _ =>
          obtain rfl : entry = resource := by simpa [hentry, hvalid] using h
          exact ⟨rfl, hvalid⟩

/-- Everything the agent checked before it dialled. -/
theorem handle_stream_dial {agent : Agent} {net : Net}
    {ed25519Verify : Bytes → Bytes → Bytes → Bool} {payload : Bytes} {input : StreamInput}
    {dial : Dial} (h : agent.handleStream net ed25519Verify payload input = .dials dial) :
    decodeGrant payload = .ok dial.grant ∧
      ed25519Verify agent.grantKey dial.grant.grant.canonical dial.grant.signature = true ∧
      dial.grant.grant.deviceID = agent.identity.id ∧
      (∃ resource, agent.resources dial.grant.grant.resourceID = some resource ∧
        dial.target = resource.target ∧ validateTarget net dial.target = .ok ()) ∧
      input.peer = some ⟨.operator, dial.grant.grant.userID⟩ := by
  unfold Agent.handleStream at h
  split_ifs at h with hempty
  cases hdecode : decodeGrant payload with
  | error e => simp [hdecode] at h
  | ok grant =>
      simp only [hdecode] at h
      split at h
      · cases h
      next hverify =>
        split at h
        · cases h
        next resource hresource =>
          split_ifs at h with hinner
          cases h
          obtain ⟨hsigned, hdevice⟩ := verify_ok (identity_of_ne_empty agent.named) hverify
          obtain ⟨hentry, hvalid⟩ := lookup_ok hresource
          have hpeer : input.peer = some ⟨.operator, grant.grant.userID⟩ := by
            simp only [innerSession, Bool.and_eq_true, decide_eq_true_eq] at hinner
            exact hinner.2
          exact ⟨rfl, hsigned, hdevice, ⟨resource, hentry, rfl, hvalid⟩, hpeer⟩

/-- The dial a stream reached, if it did. -/
def Outcome.dialled : Outcome → Option Dial
  | .reset _ => none
  | .dials dial => some dial

/-- End-to-end authorization. Whatever bytes a relay presents, at whatever time, if the agent
dials a local target then an earlier `Issue` call signed exactly the grant it acts on: every
field is equal. Policy allowed that user, device and resource under the rules of that call, and
the call returned the grant unless it failed to record it. The device is the agent's own
identity, the target is the agent's own allowlist entry for the resource and is valid, and the
far end is the operator the grant names. -/
theorem dial_authorized {calls : List IssueCall} {cp : ControlPlane}
    (hrun : run issueStep ControlPlane.empty calls = some cp)
    {ed25519Verify : Bytes → Bytes → Bytes → Bool}
    (hideal : ∀ pub message signature, ed25519Verify pub message signature = true →
      (pub, message) ∈ cp.signed)
    (agent : Agent) (net : Net) (payload : Bytes) (input : StreamInput) {dial : Dial}
    (hdial : agent.handleStream net ed25519Verify payload input = .dials dial) :
    (∃ call ∈ cp.calls, call.issuer.key = agent.grantKey ∧
      call.signs = .ok dial.grant.grant ∧
      (evaluate call.rules dial.grant.grant.userID dial.grant.grant.deviceID
        dial.grant.grant.resourceID).allowed = true ∧
      (call.result = .ok ⟨dial.grant.grant, call.signature⟩ ∨
        (call.issuer.recording = true ∧ call.recorded = false))) ∧
    dial.grant.grant.deviceID = agent.identity.id ∧
    (∃ resource, agent.resources dial.grant.grant.resourceID = some resource ∧
      dial.target = resource.target ∧ validateTarget net dial.target = .ok ()) ∧
    input.peer = some ⟨.operator, dial.grant.grant.userID⟩ := by
  obtain ⟨hdecode, hverified, hdevice, hresource, hpeer⟩ := handle_stream_dial hdial
  have hstart : ControlPlane.empty.SignedByIssue := by
    intro entry hentry
    cases hentry
  have hsigned := run_invariant issue_step_signed hstart hrun
  obtain ⟨call, hcall, g, hsigns, hentry⟩ := hsigned _ (hideal _ _ _ hverified)
  obtain ⟨hkey, hcanonical⟩ := Prod.mk.inj hentry
  obtain ⟨-, hissued, hexpires⟩ := IssueCall.signs_ok hsigns
  obtain ⟨-, -, hparsed⟩ := canonical_decode hdecode
  obtain rfl : g = dial.grant.grant := canonical_inj hparsed hissued hexpires hcanonical.symm
  refine ⟨⟨call, hcall, hkey.symm, hsigns, (IssueCall.signs_ok hsigns).1, ?_⟩, hdevice,
    hresource, hpeer⟩
  by_cases hlost : call.issuer.recording = true ∧ ¬ call.recorded = true
  · exact .inr ⟨hlost.1, by simpa using hlost.2⟩
  · refine .inl ?_
    simp only [IssueCall.result, hsigns, if_neg hlost]

section Runs

/-- An operator, a device and a resource with one-letter names. -/
def sampleCall (recorded : Bool) : IssueCall where
  issuer := ⟨[1], ascii "k", true⟩
  rules := [⟨ascii "p", [ascii "u"], [ascii "d"], [ascii "r"], 60 * second, .allow⟩]
  request := ⟨ascii "o", ascii "u", ascii "d", ascii "r", 0, 0, ascii "s"⟩
  now := Time.ofUnix 1000
  random := some (List.replicate 16 0)
  signature := List.replicate 64 7
  recorded := recorded

/-- The grant that the call signs, as it would travel. -/
def samplePayload (call : IssueCall) : Bytes :=
  match call.signs with
  | .error _ => []
  | .ok g => SignedGrant.encode ⟨g, call.signature⟩

/-- The control plane after one call. -/
def afterCall (call : IssueCall) : ControlPlane :=
  (issueStep ControlPlane.empty call).getD ControlPlane.empty

/-- The idealised primitive: it accepts the messages signed so far. -/
def idealVerify (cp : ControlPlane) (pub message _signature : Bytes) : Bool :=
  (pub, message) ∈ cp.signed

/-- The agent of the device, with one resource. -/
def sampleAgent : Agent where
  cert := ⟨[Identity.uri ⟨.device, ascii "d"⟩], [1], by simp⟩
  identity := ⟨.device, ascii "d"⟩
  named := by decide
  grantKey := [1]
  resources := fun id => if id = ascii "r" then some ⟨ascii "127.0.0.1:80", 0, 0⟩ else none

/-- A network whose addresses are all loopback. -/
def loopbackNet : Net := ⟨fun addr => some (addr, ascii "80"), some, fun _ => true⟩

/-- A stream opened one second after the grant was issued, by the operator it names. -/
def sampleInput : StreamInput where
  verifiedAt := Time.ofUnix 1001
  remainingAt := Time.ofUnix 1001
  deadlineBase := Time.ofUnix 1001
  limitCheckedAt := Time.ofUnix 1001
  limitBase := Time.ofUnix 1001
  peer := some ⟨.operator, ascii "u"⟩
  handshake := some (Time.ofUnix 1001)

/-- A recorded grant is dialled, and the call that returned it is found. -/
theorem dial_authorized_recorded :
    ∃ dial, sampleAgent.handleStream loopbackNet (idealVerify (afterCall (sampleCall true)))
        (samplePayload (sampleCall true)) sampleInput = .dials dial ∧
      ∃ call ∈ (afterCall (sampleCall true)).calls, call.signs = .ok dial.grant.grant := by
  have hdialled : (sampleAgent.handleStream loopbackNet
      (idealVerify (afterCall (sampleCall true))) (samplePayload (sampleCall true))
      sampleInput).dialled.isSome = true := by decide +kernel
  cases hdial : sampleAgent.handleStream loopbackNet (idealVerify (afterCall (sampleCall true)))
      (samplePayload (sampleCall true)) sampleInput with
  | reset reason => simp [hdial, Outcome.dialled] at hdialled
  | dials dial =>
      have hrun : run issueStep ControlPlane.empty [sampleCall true] =
          some (afterCall (sampleCall true)) := rfl
      obtain ⟨⟨call, hcall, -, hsigns, -⟩, -⟩ := dial_authorized hrun
        (fun pub message signature h => by simpa [idealVerify] using h) sampleAgent loopbackNet
        (samplePayload (sampleCall true)) sampleInput hdial
      exact ⟨dial, rfl, call, hcall, hsigns⟩

/-- A grant that was signed but could not be recorded was returned by no `Issue` call, and is
dialled all the same. -/
theorem unrecorded_grant_dialled :
    (sampleAgent.handleStream loopbackNet (idealVerify (afterCall (sampleCall false)))
        (samplePayload (sampleCall false)) sampleInput).dialled.isSome = true ∧
      run issueStep ControlPlane.empty [sampleCall false] = some (afterCall (sampleCall false)) ∧
      ∀ call ∈ (afterCall (sampleCall false)).calls, call.result = .error .record := by
  have hcalls : (afterCall (sampleCall false)).calls = [sampleCall false] := rfl
  refine ⟨by decide +kernel, rfl, ?_⟩
  rw [hcalls]
  intro call hcall
  obtain rfl := List.mem_singleton.mp hcall
  decide

end Runs

end AccessRelay.Endpoint
