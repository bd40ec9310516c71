import AccessRelay.Proto.Grant

/-!
# Policy and grant issue

`internal/control/policy` and `internal/control/grants`. `evaluate` decides whether a user may
reach a resource on a device, and `Issuer.issue` turns an allowed request into a signed grant.
Evaluation, signing and recording happen in one call, in that order, so that nothing is signed
that was not allowed.

`ControlPlane` is the history of all `Issue` calls of a deployment: what was signed with which
key, and which call signed it. `signed_by_issue` says that nothing else is ever signed.
-/

namespace AccessRelay.Control

open Encoding Go Proto

/-- What a rule does with what it matches. Only `allow` has an effect. -/
inductive Effect where
  | allow
  | other (text : Bytes)
  deriving DecidableEq

/-- A policy rule. -/
structure Rule where
  policyID : Bytes
  principals : List Bytes
  devices : List Bytes
  resources : List Bytes
  maxTTL : Duration
  effect : Effect
  deriving DecidableEq

/-- The outcome of an evaluation. -/
structure Decision where
  allowed : Bool
  maxTTL : Duration
  policyID : Bytes
  reason : Reason
  deriving DecidableEq

/-- The denial every evaluation starts from. -/
def denied : Decision := ⟨false, 0, [], reasonPolicyDenied⟩

/-- The rule lists all three identifiers. -/
def Rule.covers (rule : Rule) (userID deviceID resourceID : Bytes) : Bool :=
  rule.principals.contains userID && rule.devices.contains deviceID &&
    rule.resources.contains resourceID

/-- A rule's lifetime; anything out of range means the system maximum. -/
def Rule.ttl (rule : Rule) : Duration :=
  if rule.maxTTL ≤ 0 ∨ maxGrantTTL < rule.maxTTL then maxGrantTTL else rule.maxTTL

/-- `policy.Evaluate`: the most generous rule that covers the request. -/
def evaluate (rules : List Rule) (userID deviceID resourceID : Bytes) : Decision :=
  if userID = [] ∨ deviceID = [] ∨ resourceID = [] then denied
  else rules.foldl (fun best rule =>
    if rule.effect ≠ .allow then best
    else if ¬ rule.covers userID deviceID resourceID then best
    else if ¬ best.allowed ∨ best.maxTTL < rule.ttl then
      ⟨true, rule.ttl, rule.policyID, reasonOK⟩
    else best) denied

/-- What an operator asks for. -/
structure Request where
  orgID : Bytes
  userID : Bytes
  deviceID : Bytes
  resourceID : Bytes
  requestedTTL : Duration
  maxBytes : UInt64
  sessionID : Bytes
  deriving DecidableEq

/-- An issuer: the public half of its signing key, the key's name, and whether it has a store to
record grants in. -/
structure Issuer where
  key : Bytes
  keyID : Bytes
  recording : Bool
  deriving DecidableEq

/-- Errors of `Issue`. -/
inductive IssueError where
  | denied
  | random
  | sign (error : GrantError)
  | record
  deriving DecidableEq

/-- The lifetime of the grant: what was asked for, within what the policy allows. -/
def issuedTTL (requested : Duration) (decision : Decision) : Duration :=
  let ttl := if requested ≤ 0 ∨ decision.maxTTL < requested then decision.maxTTL else requested
  if maxGrantTTL < ttl then maxGrantTTL else ttl

/-- One hexadecimal digit. -/
def hexDigit (n : Nat) : UInt8 :=
  if n < 10 then UInt8.ofNat (48 + n) else UInt8.ofNat (87 + n)

/-- `hex.EncodeToString`. -/
def hexEncode (bytes : Bytes) : Bytes :=
  bytes.flatMap fun b => [hexDigit (b.toNat / 16), hexDigit (b.toNat % 16)]

/-- `newGrantID`: a fixed tag and the random bytes that were drawn. -/
def newGrantID (random : Bytes) : Bytes := ascii "grn_" ++ hexEncode random

/-- An `Issue` call with everything the environment contributes to it: the clock, the random
bytes (`none` if drawing them failed), the signature `ed25519.Sign` returns and whether
`RecordGrant` succeeds. -/
structure IssueCall where
  issuer : Issuer
  rules : List Rule
  request : Request
  now : Time
  random : Option Bytes
  signature : Bytes
  recorded : Bool

/-- The decision of the call. -/
def IssueCall.decision (call : IssueCall) : Decision :=
  evaluate call.rules call.request.userID call.request.deviceID call.request.resourceID

/-- The grant that the call puts together, before `Sign`. -/
def IssueCall.draft (call : IssueCall) (random : Bytes) : Grant :=
  let now := call.now.truncateSecond
  { version := 0
    keyID := call.issuer.keyID
    grantID := newGrantID random
    orgID := call.request.orgID
    userID := call.request.userID
    deviceID := call.request.deviceID
    resourceID := call.request.resourceID
    issuedAt := now
    expiresAt := now.add (issuedTTL call.request.requestedTTL call.decision)
    maxBytes := call.request.maxBytes }

/-- What the call signs, if it gets that far. -/
def IssueCall.signs (call : IssueCall) : Except IssueError Grant :=
  if ¬ call.decision.allowed then .error .denied
  else match call.random with
    | none => .error .random
    | some random =>
        match (call.draft random).prepare with
        | .error e => .error (.sign e)
        | .ok g => .ok g

/-- `Issuer.Issue`: a grant is returned only if it could be recorded. -/
def IssueCall.result (call : IssueCall) : Except IssueError SignedGrant :=
  match call.signs with
  | .error e => .error e
  | .ok g =>
      if call.issuer.recording ∧ ¬ call.recorded then .error .record
      else .ok ⟨g, call.signature⟩

/-- All `Issue` calls so far, and the messages signed so far, each with the key it was signed
with. -/
structure ControlPlane where
  calls : List IssueCall
  signed : List (Bytes × Bytes)

/-- A deployment that has issued nothing. -/
def ControlPlane.empty : ControlPlane := ⟨[], []⟩

/-- One `Issue` call. -/
def issueStep (cp : ControlPlane) (call : IssueCall) : Option ControlPlane :=
  match call.signs with
  | .error _ => some { cp with calls := call :: cp.calls }
  | .ok g => some ⟨call :: cp.calls, (call.issuer.key, g.canonical) :: cp.signed⟩

/-- Every signed message is the canonical form of a grant that some `Issue` call put together
under its own rules. -/
def ControlPlane.SignedByIssue (cp : ControlPlane) : Prop :=
  ∀ entry ∈ cp.signed, ∃ call ∈ cp.calls, ∃ g, call.signs = .ok g ∧
    entry = (call.issuer.key, g.canonical)

/-- `Issue` is the only way to sign. -/
theorem issue_step_signed {cp next : ControlPlane} {call : IssueCall} (h : cp.SignedByIssue)
    (hstep : issueStep cp call = some next) : next.SignedByIssue := by
  have hkeep : ∀ entry ∈ cp.signed, ∃ c ∈ call :: cp.calls, ∃ g, c.signs = .ok g ∧
      entry = (c.issuer.key, g.canonical) := by
    intro entry hentry
    obtain ⟨c, hc, hsigns⟩ := h entry hentry
    exact ⟨c, List.mem_cons_of_mem _ hc, hsigns⟩
  unfold issueStep at hstep
  cases hsigns : call.signs with
  | error e =>
      simp only [hsigns, Option.some.injEq] at hstep
      subst hstep
      exact hkeep
  | ok g =>
      simp only [hsigns, Option.some.injEq] at hstep
      subst hstep
      intro entry hentry
      rcases List.mem_cons.mp hentry with rfl | hold
      · exact ⟨call, List.mem_cons_self, g, hsigns, rfl⟩
      · exact hkeep entry hold

/-- A call that signed was allowed by its own rules, for the user, device and resource that the
grant names; the grant carries whole seconds. -/
theorem IssueCall.signs_ok {call : IssueCall} {g : Grant} (h : call.signs = .ok g) :
    (evaluate call.rules g.userID g.deviceID g.resourceID).allowed = true ∧
      g.issuedAt.nsec = 0 ∧ g.expiresAt.nsec = 0 := by
  unfold IssueCall.signs at h
  split_ifs at h with hallowed
  cases hrandom : call.random with
  | none => simp [hrandom] at h
  | some random =>
      simp only [hrandom] at h
      cases hprepare : (call.draft random).prepare with
      | error e => simp [hprepare] at h
      | ok signed =>
          obtain rfl : signed = g := by simpa [hprepare] using h
          rw [prepare_ok hprepare]
          exact ⟨by simpa [IssueCall.decision, IssueCall.draft] using hallowed, rfl, rfl⟩

end AccessRelay.Control
