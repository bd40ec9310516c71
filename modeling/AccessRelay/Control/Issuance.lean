import AccessRelay.Control.Policy
import AccessRelay.Proto.RoundTrip

/-!
# What the control plane issues

`Issuer.Issue` signs identifiers of any length, and the decoder that its consumers use has a
bound. A grant that was issued is parsed back exactly if the key's name and the identifiers of the
request are within that bound; the grant's own identifier always is.
-/

namespace AccessRelay.Control

open Encoding Go Proto

/-- The identifiers that `Issue` takes from its caller and its configuration. -/
def IssueCall.identifiers (call : IssueCall) : List Bytes :=
  [call.issuer.keyID, call.request.orgID, call.request.userID, call.request.deviceID,
    call.request.resourceID]

/-- The random bytes are the ones `newGrantID` draws, and the signature is an Ed25519 signature. -/
structure IssueCall.Drawn (call : IssueCall) : Prop where
  random : ∀ bytes, call.random = some bytes → bytes.length = 16
  signature : call.signature.length = signatureSize

/-- What `Issue` returns is the signed form of its draft. -/
theorem issue_ok {call : IssueCall} {s : SignedGrant} (h : call.result = .ok s) :
    ∃ random, call.random = some random ∧
      s = ⟨(call.draft random).signedForm, call.signature⟩ := by
  unfold IssueCall.result at h
  cases hsigns : call.signs with
  | error e => simp [hsigns] at h
  | ok g =>
      simp only [hsigns] at h
      split_ifs at h with hrecord
      cases h
      unfold IssueCall.signs at hsigns
      split_ifs at hsigns with hallowed
      cases hrandom : call.random with
      | none => simp [hrandom] at hsigns
      | some random =>
          simp only [hrandom] at hsigns
          cases hprepare : (call.draft random).prepare with
          | error e => simp [hprepare] at hsigns
          | ok signed =>
              obtain rfl : signed = g := by simpa [hprepare] using hsigns
              exact ⟨random, rfl, by rw [prepare_ok hprepare]; rfl⟩

@[simp] theorem length_hex_encode (bytes : Bytes) :
    (hexEncode bytes).length = 2 * bytes.length := by
  induction bytes with
  | nil => rfl
  | cons b bytes ih =>
      rw [hexEncode] at ih ⊢
      rw [List.flatMap_cons, List.length_append, ih, List.length_cons]
      simp only [List.length_cons, List.length_nil]
      omega

/-- The identifier of a grant is 36 bytes long. -/
theorem length_new_grant_id {random : Bytes} (h : random.length = 16) :
    (newGrantID random).length = 36 := by
  have htag : (ascii "grn_").length = 4 := by decide
  rw [newGrantID, List.length_append, htag, length_hex_encode, h]

/-- A grant that was issued can be used by its consumers exactly if no identifier that went into it
is longer than the decoder's bound. -/
theorem issued_grant_decodes_iff {call : IssueCall} {s : SignedGrant} (hdrawn : call.Drawn)
    (h : call.result = .ok s) :
    decodeGrant s.encode = .ok s ↔ ∀ t ∈ call.identifiers, t.length ≤ maxIdentityLen := by
  obtain ⟨random, hrandom, rfl⟩ := issue_ok h
  rw [decode_signed_form_iff hdrawn.signature]
  have hgrantID : (newGrantID random).length ≤ maxIdentityLen := by
    rw [length_new_grant_id (hdrawn.random random hrandom)]
    decide
  simp only [Grant.strings, IssueCall.identifiers, IssueCall.draft, List.forall_mem_cons]
  constructor
  · intro h
    obtain ⟨hkey, -, hrest⟩ := h
    exact ⟨hkey, hrest⟩
  · intro h
    obtain ⟨hkey, hrest⟩ := h
    exact ⟨hkey, hgrantID, hrest⟩

/-- A call for a resource, under a rule that allows exactly that. -/
def callFor (resourceID : Bytes) : IssueCall where
  issuer := ⟨[112], [107], true⟩
  rules := [⟨ascii "ops", [[117]], [[100]], [resourceID], minute, .allow⟩]
  request := ⟨[111], [117], [100], resourceID, 0, 0, []⟩
  now := Time.ofUnix 0
  random := some (List.replicate 16 5)
  signature := List.replicate 64 7
  recorded := true

theorem call_for_drawn (resourceID : Bytes) : (callFor resourceID).Drawn :=
  ⟨fun bytes h => by cases h; rfl, List.length_replicate⟩

/-- A grant for a resource with a short name is issued and parsed back. -/
theorem short_resource_decodes : ∃ s, (callFor (ascii "ssh")).result = .ok s ∧
    decodeGrant s.encode = .ok s := by
  have hok : ∃ s, (callFor (ascii "ssh")).result = .ok s := ⟨_, rfl⟩
  obtain ⟨s, hs⟩ := hok
  exact ⟨s, hs, (issued_grant_decodes_iff (call_for_drawn _) hs).mpr (by decide)⟩

/-- A grant for a resource whose name has 129 bytes is allowed, signed and recorded, and no
consumer can parse it. -/
theorem long_resource_undecodable : ∃ s, (callFor (List.replicate 129 114)).result = .ok s ∧
    decodeGrant s.encode = .error (.field (.tooLong 129)) :=
  ⟨_, rfl, by decide +kernel⟩

end AccessRelay.Control
