import AccessRelay.Encoding.BigEndian

/-!
# Frames and frame headers

The wire unit of `internal/proto`: a ten byte header (version, type, stream identifier, payload
length) followed by the payload. `encodeHeader` and `decodeHeader` are the two halves of
`frame.go`; `decode_encode_header` and `encode_decode_header` say that they are inverse on the
headers `decodeHeader` accepts.

A `Reason` is the byte string a CLOSE_STREAM or ERROR frame carries. It stays a byte string,
not an enumeration, because the peer chooses it.
-/

namespace AccessRelay.Proto

open Encoding

/-- A reason code as it travels: the entire payload of a CLOSE_STREAM or ERROR frame. -/
abbrev Reason := Bytes

def reasonOK : Reason := ascii "ok"
def reasonGrantInvalidSignature : Reason := ascii "grant_invalid_signature"
def reasonGrantExpired : Reason := ascii "grant_expired"
def reasonGrantNotYetValid : Reason := ascii "grant_not_yet_valid"
def reasonGrantDeviceMismatch : Reason := ascii "grant_device_mismatch"
def reasonGrantRevoked : Reason := ascii "grant_revoked"
def reasonResourceUnknown : Reason := ascii "resource_unknown"
def reasonResourceTargetNotLoopback : Reason := ascii "resource_target_not_loopback"
def reasonPolicyDenied : Reason := ascii "policy_denied"
def reasonLimitStreamsExceeded : Reason := ascii "limit_streams_exceeded"
def reasonLimitFrameTooLarge : Reason := ascii "limit_frame_too_large"
def reasonProtocolVersionUnsupported : Reason := ascii "protocol_version_unsupported"
def reasonProtocolMalformedFrame : Reason := ascii "protocol_malformed_frame"
def reasonFlowControlViolation : Reason := ascii "flow_control_violation"
def reasonAuthFailed : Reason := ascii "auth_failed"
def reasonSessionReplaced : Reason := ascii "session_replaced"
def reasonShutdown : Reason := ascii "shutdown"
def reasonNoAgent : Reason := ascii "no_agent"

/-- The wire protocol version carried in every frame header. -/
def version : UInt8 := 1

/-- The fixed size of a frame header in bytes. -/
def headerSize : Nat := 10

/-- The largest payload this build reads or writes (`MaxFramePayload`). -/
def maxFramePayload : UInt32 := 64 * 1024

/-- The frame types of this protocol version. A byte outside `Typ.toByte` is not a frame type:
`decodeHeader` refuses it, so no `Frame` carries one. -/
inductive Typ where
  | hello
  | helloAck
  | auth
  | authOK
  | openStream
  | streamOK
  | streamData
  | streamWindow
  | closeStream
  | ping
  | pong
  | error
  deriving DecidableEq, Repr

/-- The wire value of a frame type. -/
def Typ.toByte : Typ → UInt8
  | .hello => 0x01
  | .helloAck => 0x02
  | .auth => 0x03
  | .authOK => 0x04
  | .openStream => 0x10
  | .streamOK => 0x11
  | .streamData => 0x12
  | .streamWindow => 0x13
  | .closeStream => 0x14
  | .ping => 0x20
  | .pong => 0x21
  | .error => 0x7F

/-- The frame type a byte names; `none` is `!t.known()`. -/
def Typ.ofByte (byte : UInt8) : Option Typ :=
  [Typ.hello, .helloAck, .auth, .authOK, .openStream, .streamOK, .streamData, .streamWindow,
    .closeStream, .ping, .pong, .error].find? fun t => t.toByte = byte

@[simp] theorem Typ.of_byte_to_byte (t : Typ) : Typ.ofByte t.toByte = some t := by
  cases t <;> decide

/-- A byte that names a frame type is that type's wire value. -/
theorem Typ.to_byte_of_byte {byte : UInt8} {t : Typ} (h : Typ.ofByte byte = some t) :
    t.toByte = byte := by
  have hfound := List.find?_some h
  simpa using hfound

/-- One decoded protocol frame. -/
structure Frame where
  type : Typ
  streamID : UInt32
  payload : Bytes
  deriving DecidableEq, Repr

/-- The errors of the codec, with the values their messages quote. `frameTooLarge` is
`ErrFrameTooLarge` from the reader and `payloadTooLarge` the same sentinel from the writer;
`unknownType` and `truncatedPayload` wrap `ErrMalformedFrame`. `eof` and `unexpectedEOF` are the
bare `io` errors, and `transport` is any other error of the connection underneath. -/
inductive CodecError where
  | frameTooLarge (declared max : Nat)
  | payloadTooLarge (payload max : Nat)
  | unknownType (byte : UInt8)
  | truncatedPayload (wanted : Nat)
  | unsupportedVersion (got want : UInt8)
  | eof
  | unexpectedEOF
  | transport
  deriving DecidableEq, Repr

/-- `ReasonFor`: the reason code a codec error is reported under. Only the package's own
sentinels are protocol failures; everything else is a shutdown. -/
def reasonFor : CodecError → Reason
  | .frameTooLarge _ _ | .payloadTooLarge _ _ => reasonLimitFrameTooLarge
  | .unsupportedVersion _ _ => reasonProtocolVersionUnsupported
  | .unknownType _ | .truncatedPayload _ => reasonProtocolMalformedFrame
  | .eof | .unexpectedEOF | .transport => reasonShutdown

/-- `binary.BigEndian.PutUint32`. -/
def putUint32 (value : UInt32) : Bytes := BigEndian.encode 4 value.toNat

/-- `binary.BigEndian.Uint32` on a slice of at least four bytes. -/
def uint32 (bytes : Bytes) : UInt32 := UInt32.ofNat (BigEndian.decode (bytes.take 4))

@[simp] theorem length_put_uint32 (value : UInt32) : (putUint32 value).length = 4 := by
  simp [putUint32]

@[simp] theorem uint32_put_uint32 (value : UInt32) (rest : Bytes) :
    uint32 (putUint32 value ++ rest) = value := by
  have hlen : (putUint32 value).length = 4 := length_put_uint32 value
  have hlt : value.toNat < 256 ^ 4 := value.toNat_lt
  rw [uint32, List.take_append_of_le_length (by omega), List.take_of_length_le (by omega),
    putUint32, BigEndian.decode_encode hlt]
  simp

/-- Four bytes are the encoding of the word they denote. -/
theorem put_uint32_uint32 {bytes : Bytes} (h : bytes.length = 4) :
    putUint32 (uint32 bytes) = bytes := by
  have hlt : BigEndian.decode bytes < 2 ^ 32 := by
    have hdecode := BigEndian.decode_lt bytes
    rw [h] at hdecode
    exact hdecode
  rw [uint32, List.take_of_length_le (by omega), putUint32, UInt32.toNat_ofNat',
    Nat.mod_eq_of_lt hlt]
  have hencode := BigEndian.encode_decode bytes
  rwa [h] at hencode

/-- `encodeHeader`: version, type, stream identifier and payload length. -/
def encodeHeader (t : Typ) (streamID length : UInt32) : Bytes :=
  version :: t.toByte :: (putUint32 streamID ++ putUint32 length)

/-- `decodeHeader` on the first ten bytes of `src`: the version, the type and the declared
length are checked in that order, before the caller touches the payload. -/
def decodeHeader (src : Bytes) (max : UInt32) : Except CodecError (Typ × UInt32 × UInt32) :=
  let ver := src.getD 0 0
  if ver ≠ version then .error (.unsupportedVersion ver version)
  else
    match Typ.ofByte (src.getD 1 0) with
    | none => .error (.unknownType (src.getD 1 0))
    | some t =>
        let streamID := uint32 (src.drop 2)
        let length := uint32 (src.drop 6)
        if max < length then .error (.frameTooLarge length.toNat max.toNat)
        else .ok (t, streamID, length)

@[simp] theorem length_encode_header (t : Typ) (streamID length : UInt32) :
    (encodeHeader t streamID length).length = headerSize := by
  simp [encodeHeader, headerSize]

/-- A header whose length is within the limit decodes to what was encoded. -/
theorem decode_encode_header (t : Typ) (streamID length max : UInt32) (h : length ≤ max) :
    decodeHeader (encodeHeader t streamID length) max = .ok (t, streamID, length) := by
  have hlength : uint32 (putUint32 length) = length := by
    simpa using uint32_put_uint32 length []
  have hdrop : (putUint32 streamID ++ putUint32 length).drop 4 = putUint32 length := by
    simp
  simp [decodeHeader, encodeHeader, hlength, hdrop, UInt32.not_lt.mpr h]

/-- An accepted header is the encoding of what it decodes to, and declares a length within the
limit. -/
theorem encode_decode_header {src : Bytes} {max streamID length : UInt32} {t : Typ}
    (hlen : src.length = headerSize)
    (h : decodeHeader src max = .ok (t, streamID, length)) :
    encodeHeader t streamID length = src ∧ length ≤ max := by
  obtain ⟨ver, kind, fields, rfl⟩ : ∃ ver kind fields, src = ver :: kind :: fields := by
    match src, hlen with
    | ver :: kind :: fields, _ => exact ⟨ver, kind, fields, rfl⟩
  have hfields : fields.length = 8 := by simpa [headerSize] using hlen
  simp only [decodeHeader, List.getD_cons_zero, List.getD_cons_succ, ne_eq, ite_not,
    List.drop_succ_cons, List.drop_zero] at h
  split at h
  case isFalse => cases h
  case isTrue hver =>
    split at h
    · cases h
    next kindType hkind =>
      split at h
      · cases h
      next hle =>
        simp only [Except.ok.injEq, Prod.mk.injEq] at h
        obtain ⟨rfl, rfl, rfl⟩ := h
        refine ⟨?_, UInt32.not_lt.mp hle⟩
        have hid : uint32 fields = uint32 (fields.take 4) := by
          simp only [uint32, List.take_take, Nat.min_self]
        rw [encodeHeader, Typ.to_byte_of_byte hkind, hver, hid,
          put_uint32_uint32 (by simp [hfields]), put_uint32_uint32 (by simp [hfields]),
          List.take_append_drop]

/-- A refused header is never reported as the end of the stream. -/
theorem decode_header_ne_eof (src : Bytes) (max : UInt32) :
    decodeHeader src max ≠ .error .eof := by
  unfold decodeHeader
  dsimp only
  split
  · simp
  · split
    · simp
    · split <;> simp

end AccessRelay.Proto
