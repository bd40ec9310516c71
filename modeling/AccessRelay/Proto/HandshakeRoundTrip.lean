import AccessRelay.Proto.Handshake

/-!
# Handshake payloads, there and back

For each payload of the handshake, and for the flow-control credit, `Valid` is what the decoder
checks. A decoder returns a value exactly if the value is valid and the bytes are its encoding, so
that accepted bytes and valid values correspond one to one. HELLO is different in its reserved
byte: the decoder takes any value there, so that an older peer can read what a newer one sends.
-/

namespace AccessRelay.Proto

open Encoding

/-- The version range is not inverted, and the role is known. -/
def Hello.Valid (h : Hello) : Prop := h.minVersion ≤ h.maxVersion ∧ knownRole h.role = true

/-- No limit is zero, and the frame size is within this build's. -/
def HelloAck.Valid (a : HelloAck) : Prop :=
  a.maxFramePayload ≠ 0 ∧ a.maxFramePayload ≤ Proto.maxFramePayload ∧ a.initialWindow ≠ 0 ∧
    a.maxStreams ≠ 0

/-- All strings are short enough. -/
def Auth.Valid (a : Auth) : Prop := ∀ s ∈ a.strings, s.length ≤ maxIdentityLen

/-- The name is short enough. -/
def AuthOK.Valid (a : AuthOK) : Prop := a.sessionID.length ≤ maxIdentityLen

section Codecs

variable {b : Bytes}

/-- A HELLO is read from its encoding with any byte in the reserved place. -/
theorem decode_hello_iff {h : Hello} : decodeHello b = .ok h ↔
    h.Valid ∧ ∃ reserved, b = [h.minVersion, h.maxVersion, h.role, reserved] := by
  constructor
  · intro hdecode
    unfold decodeHello at hdecode
    split at hdecode
    next minVersion maxVersion role reserved =>
      split_ifs at hdecode with hrange hrole
      cases hdecode
      exact ⟨⟨UInt8.not_lt.mp hrange, hrole⟩, reserved, rfl⟩
    · cases hdecode
  · intro hvalid
    obtain ⟨⟨hrange, hrole⟩, reserved, rfl⟩ := hvalid
    simp only [decodeHello, if_neg (UInt8.not_lt.mpr hrange), hrole, not_true_eq_false, if_false]

/-- Twelve bytes are three words. -/
theorem put_uint32_three {rest : Bytes} (h : rest.length = 12) :
    putUint32 (uint32 rest) ++ putUint32 (uint32 (rest.drop 4)) ++
      putUint32 (uint32 (rest.drop 8)) = rest := by
  have hword : ∀ n, n + 4 ≤ 12 → putUint32 (uint32 (rest.drop n)) = (rest.drop n).take 4 := by
    intro n hn
    have hlength : ((rest.drop n).take 4).length = 4 := by
      rw [List.length_take, List.length_drop]
      omega
    rw [← put_uint32_uint32 hlength, uint32, uint32, List.take_take, Nat.min_self]
  have hfirst := hword 0 (by omega)
  have hlast : (rest.drop 8).take 4 = rest.drop 8 :=
    List.take_of_length_le (by rw [List.length_drop]; omega)
  rw [List.drop_zero] at hfirst
  rw [hfirst, hword 4 (by omega), hword 8 (by omega), hlast, List.append_assoc,
    show rest.drop 8 = (rest.drop 4).drop 4 by rw [List.drop_drop], List.take_append_drop,
    List.take_append_drop]

theorem decode_hello_ack_iff {a : HelloAck} :
    decodeHelloAck b = .ok a ↔ a.Valid ∧ b = a.encode := by
  constructor
  · intro hdecode
    unfold decodeHelloAck at hdecode
    split at hdecode
    · cases hdecode
    next version rest =>
      dsimp only at hdecode
      split_ifs at hdecode with hlength hframe hwindow hstreams
      cases hdecode
      push Not at hframe
      refine ⟨⟨hframe.1, UInt32.not_lt.mp hframe.2, hwindow, hstreams⟩, ?_⟩
      rw [HelloAck.encode, put_uint32_three (not_not.mp hlength)]
  · intro hvalid
    obtain ⟨⟨hzero, hframe, hwindow, hstreams⟩, rfl⟩ := hvalid
    obtain ⟨hfirst, hsecond, hthird⟩ := uint32_encode_ack a
    simp only [decodeHelloAck, HelloAck.encode, hfirst, hsecond, hthird]
    rw [if_neg (by simp), if_neg (not_or.mpr ⟨hzero, UInt32.not_lt.mpr hframe⟩), if_neg hwindow,
      if_neg hstreams]

theorem decode_auth_iff {a : Auth} : decodeAuth b = .ok a ↔ a.Valid ∧ b = a.encode := by
  constructor
  · intro hdecode
    obtain ⟨hbytes, hshort⟩ := encode_decode_auth hdecode
    refine ⟨hshort, ?_⟩
    rw [hbytes, Auth.encode, foldl_append_string, List.nil_append]
  · intro hvalid
    obtain ⟨hshort, rfl⟩ := hvalid
    exact decode_encode_auth hshort

theorem decode_auth_ok_iff {a : AuthOK} : decodeAuthOK b = .ok a ↔ a.Valid ∧ b = a.encode := by
  constructor
  · intro hdecode
    obtain ⟨hbytes, hshort⟩ := encode_decode_auth_ok hdecode
    exact ⟨hshort, hbytes⟩
  · intro hvalid
    obtain ⟨hshort, rfl⟩ := hvalid
    exact decode_encode_auth_ok hshort

theorem decode_window_iff {credit : UInt32} :
    decodeWindow b = some credit ↔ credit ≠ 0 ∧ b = encodeWindow credit := by
  constructor
  · intro hdecode
    unfold decodeWindow at hdecode
    split_ifs at hdecode with hlength hzero
    cases hdecode
    exact ⟨hzero, (put_uint32_uint32 (not_not.mp hlength)).symm⟩
  · intro hvalid
    obtain ⟨hzero, rfl⟩ := hvalid
    exact decode_encode_window hzero

end Codecs

/-- For every byte string, the decoders of HELLO_ACK, AUTH, AUTH_OK and STREAM_WINDOW return a
value if and only if it is valid and the bytes are its encoding. The decoder of HELLO does so up to
the reserved byte: it accepts the encoding of a valid value with any last byte, and encoding again
gives the same bytes with a zero there. -/
theorem handshake_payloads_exact (b : Bytes) :
    (∀ h : Hello, decodeHello b = .ok h ↔
      h.Valid ∧ ∃ reserved, b = h.encode.set 3 reserved) ∧
    (∀ a : HelloAck, decodeHelloAck b = .ok a ↔ a.Valid ∧ b = a.encode) ∧
    (∀ a : Auth, decodeAuth b = .ok a ↔ a.Valid ∧ b = a.encode) ∧
    (∀ a : AuthOK, decodeAuthOK b = .ok a ↔ a.Valid ∧ b = a.encode) ∧
    (∀ credit, decodeWindow b = some credit ↔ credit ≠ 0 ∧ b = encodeWindow credit) :=
  ⟨fun _ => decode_hello_iff, fun _ => decode_hello_ack_iff, fun _ => decode_auth_iff,
    fun _ => decode_auth_ok_iff, fun _ => decode_window_iff⟩

/-- A HELLO with a flag in the reserved byte is accepted, and is the encoding of nothing. -/
theorem flagged_hello_accepted :
    decodeHello [1, 1, 1, 7] = .ok ⟨1, 1, roleAgent⟩ ∧ ∀ h : Hello, h.encode ≠ [1, 1, 1, 7] := by
  refine ⟨by decide, ?_⟩
  intro h heq
  simp [Hello.encode] at heq

end AccessRelay.Proto
