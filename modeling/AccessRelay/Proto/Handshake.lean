import AccessRelay.Proto.Frame

/-!
# Handshake payloads

`internal/proto/handshake.go`: the versions a peer speaks (`Hello`), the announced limits of a
connection (`HelloAck`), the claimed identity (`Auth`) and its confirmation (`AuthOK`), the
flow-control credit (`encodeWindow`, `decodeWindow`), and the length-prefixed strings which the
handshake messages and the grants share. The prefix of a string is its length modulo `2 ^ 16`,
and a reader accepts at most `maxIdentityLen` bytes, so a string that is read back is always the
string that was written (`append_take_string`), although a longer string may be written.
-/

namespace AccessRelay.Proto

open Encoding

/-- The longest identity string a reader accepts. -/
def maxIdentityLen : Nat := 128

/-- Why `takeString` refused its input. Each is a malformed frame. -/
inductive StringError where
  | truncatedPrefix
  | tooLong (length : Nat)
  | truncated (declared have' : Nat)
  deriving DecidableEq, Repr

/-- Write a two byte length and the bytes. The length wraps as `uint16` does. -/
def appendString (dst s : Bytes) : Bytes := dst ++ BigEndian.encode 2 s.length ++ s

/-- Read one length-prefixed string; returns it and the remainder. -/
def takeString (b : Bytes) : Except StringError (Bytes × Bytes) :=
  if b.length < 2 then .error .truncatedPrefix
  else
    let n := BigEndian.decode (b.take 2)
    if maxIdentityLen < n then .error (.tooLong n)
    else if b.length < 2 + n then .error (.truncated n (b.length - 2))
    else .ok ((b.drop 2).take n, b.drop (2 + n))

@[simp] theorem length_append_string (dst s : Bytes) :
    (appendString dst s).length = dst.length + 2 + s.length := by
  simp [appendString, Nat.add_assoc]

/-- Appending to a prefix is appending the encoding of the string alone. -/
theorem append_string_eq (dst s : Bytes) : appendString dst s = dst ++ appendString [] s := by
  simp [appendString]

/-- What was read is exactly what `appendString` writes, and is short enough. -/
theorem append_take_string {b s rest : Bytes} (h : takeString b = .ok (s, rest)) :
    b = appendString [] s ++ rest ∧ s.length ≤ maxIdentityLen := by
  simp only [takeString] at h
  split_ifs at h with hprefix hlong hshort
  obtain ⟨rfl, rfl⟩ : (b.drop 2).take (BigEndian.decode (b.take 2)) = s ∧
      b.drop (2 + BigEndian.decode (b.take 2)) = rest := by
    simpa using h
  generalize hn : BigEndian.decode (b.take 2) = n at *
  have hlen : ((b.drop 2).take n).length = n := by simp; omega
  have hwidth : (b.take 2).length = 2 := by simp; omega
  refine ⟨?_, by omega⟩
  have hcode : BigEndian.encode 2 n = b.take 2 := by
    rw [← hn]
    nth_rewrite 1 [← hwidth]
    exact BigEndian.encode_decode _
  rw [appendString, hlen, hcode, List.nil_append, List.append_assoc, ← List.drop_drop,
    List.take_append_drop, List.take_append_drop]

/-- A short string is read back. -/
theorem take_append_string {s : Bytes} (h : s.length ≤ maxIdentityLen) (rest : Bytes) :
    takeString (appendString [] s ++ rest) = .ok (s, rest) := by
  have hcode : (appendString [] s ++ rest).take 2 = BigEndian.encode 2 s.length := by
    rw [appendString, List.nil_append, List.append_assoc, List.take_append_of_le_length (by simp),
      List.take_of_length_le (by simp)]
  have hdecode : BigEndian.decode (BigEndian.encode 2 s.length) = s.length :=
    BigEndian.decode_encode (lt_of_le_of_lt h (by decide))
  have hdrop : (appendString [] s ++ rest).drop 2 = s ++ rest := by
    rw [appendString, List.nil_append, List.append_assoc, List.drop_append_of_le_length (by simp),
      List.drop_of_length_le (by simp), List.nil_append]
  have hlen : (appendString [] s ++ rest).length = 2 + s.length + rest.length := by simp
  simp only [takeString, hcode, hdecode]
  rw [if_neg (by omega), if_neg (by omega), if_neg (by omega), hdrop, ← List.drop_drop, hdrop]
  simp

/-- Strings below the range of the prefix are determined by their encoding. -/
theorem append_string_inj {s t rest rest' : Bytes} (hs : s.length < 2 ^ 16)
    (ht : t.length < 2 ^ 16) (h : appendString [] s ++ rest = appendString [] t ++ rest') :
    s = t ∧ rest = rest' := by
  simp only [appendString, List.nil_append, List.append_assoc] at h
  obtain ⟨hcode, hbody⟩ := List.append_inj h (by simp)
  have hlength : ∀ u : Bytes, u.length < 2 ^ 16 →
      BigEndian.decode (BigEndian.encode 2 u.length) = u.length :=
    fun u hu => BigEndian.decode_encode (by omega)
  have hlen : s.length = t.length := by
    rw [← hlength s hs, hcode, hlength t ht]
  exact List.append_inj hbody hlen

/-- Writing strings one after another appends their encodings. -/
theorem foldl_append_string (dst : Bytes) (strings : List Bytes) :
    strings.foldl appendString dst = dst ++ strings.flatMap (appendString []) := by
  induction strings generalizing dst with
  | nil => simp
  | cons s strings ih => rw [List.foldl_cons, ih, append_string_eq dst s]; simp

/-- Lists of strings below the range of the prefix are determined by their encodings. -/
theorem flatMap_append_string_inj {strings strings' : List Bytes} {rest rest' : Bytes}
    (hcount : strings.length = strings'.length) (hs : ∀ s ∈ strings, s.length < 2 ^ 16)
    (hs' : ∀ s ∈ strings', s.length < 2 ^ 16)
    (h : strings.flatMap (appendString []) ++ rest =
      strings'.flatMap (appendString []) ++ rest') :
    strings = strings' ∧ rest = rest' := by
  induction strings generalizing strings' with
  | nil =>
      cases strings' with
      | nil => exact ⟨rfl, by simpa using h⟩
      | cons t strings' => simp at hcount
  | cons s strings ih =>
      cases strings' with
      | nil => simp at hcount
      | cons t strings' =>
          simp only [List.flatMap_cons, List.append_assoc] at h
          obtain ⟨rfl, hrest⟩ := append_string_inj (hs s (by simp)) (hs' t (by simp)) h
          obtain ⟨rfl, hend⟩ := ih (by simpa using hcount) (fun u hu => hs u (by simp [hu]))
            (fun u hu => hs' u (by simp [hu])) hrest
          exact ⟨rfl, hend⟩

/-- The length of the string part, prefixes included. -/
theorem length_flatMap_append_string (strings : List Bytes) :
    (strings.flatMap (appendString [])).length =
      (strings.map fun s => 2 + s.length).sum := by
  induction strings with
  | nil => rfl
  | cons s strings ih => simp [ih]

/-- A field is no longer than all fields together. -/
theorem length_le_sum {strings : List Bytes} {s : Bytes} (h : s ∈ strings) :
    s.length ≤ (strings.map fun s => 2 + s.length).sum := by
  have hmem : 2 + s.length ∈ strings.map fun s => 2 + s.length := List.mem_map.mpr ⟨s, h, rfl⟩
  have hle := List.le_sum_of_mem hmem
  omega

/-- Strings that were written are the strings that were read back, whatever their lengths: the
reader's bound leaves no room in the encoding for a string whose prefix has wrapped. -/
theorem flatMap_append_string_parsed {strings parsed : List Bytes} {rest rest' : Bytes}
    (hcount : strings.length = parsed.length) (hfew : parsed.length ≤ 6)
    (hshort : ∀ s ∈ parsed, s.length ≤ maxIdentityLen) (hrest : rest.length = rest'.length)
    (h : strings.flatMap (appendString []) ++ rest =
      parsed.flatMap (appendString []) ++ rest') : strings = parsed ∧ rest = rest' := by
  have hle : (parsed.map fun s => 2 + s.length).sum ≤ 6 * (2 + maxIdentityLen) := by
    calc (parsed.map fun s => 2 + s.length).sum
        ≤ (parsed.map fun s => 2 + s.length).length • (2 + maxIdentityLen) := by
          refine List.sum_le_card_nsmul _ _ ?_
          intro n hn
          obtain ⟨s, hs, rfl⟩ := List.mem_map.mp hn
          have hbound := hshort s hs
          omega
      _ ≤ 6 * (2 + maxIdentityLen) := by
          rw [List.length_map, smul_eq_mul]
          exact Nat.mul_le_mul_right _ hfew
  have hsame : (strings.map fun s => 2 + s.length).sum =
      (parsed.map fun s => 2 + s.length).sum := by
    have hlen := congrArg List.length h
    rw [List.length_append, List.length_append, length_flatMap_append_string,
      length_flatMap_append_string] at hlen
    omega
  refine flatMap_append_string_inj hcount ?_ ?_ h
  · intro s hs
    have hbound := length_le_sum hs
    exact lt_of_le_of_lt (hbound.trans (hsame.le.trans hle)) (by decide)
  · intro s hs
    exact lt_of_le_of_lt (hshort s hs) (by decide)

/-- A step of the parser succeeds with what its first part returned. -/
theorem except_bind_ok {ε α β : Type} {x : Except ε α} {f : α → Except ε β} {r : β}
    (h : (x >>= f) = .ok r) : ∃ a, x = .ok a ∧ f a = .ok r := by
  cases x with
  | error e => cases h
  | ok a => exact ⟨a, rfl, h⟩

/-- An AUTH: the identity a peer claims. -/
structure Auth where
  deviceID : Bytes
  userID : Bytes
  resource : Bytes
  deriving DecidableEq

/-- The string fields, in the order of the encoding. -/
def Auth.strings (a : Auth) : List Bytes := [a.deviceID, a.userID, a.resource]

/-- `Auth.Encode`: every field is present, even when it is empty. -/
def Auth.encode (a : Auth) : Bytes := a.strings.foldl appendString []

/-- Why `DecodeAuth` or `DecodeAuthOK` refused its input: a field, by the name it is reported
with, or bytes that are left over. -/
inductive AuthError where
  | field (name : String) (error : StringError)
  | trailing (message : String) (length : Nat)
  deriving DecidableEq, Repr

/-- `takeString` for a named field. -/
def takeNamed (name : String) (b : Bytes) : Except AuthError (Bytes × Bytes) :=
  match takeString b with
  | .error e => .error (.field name e)
  | .ok result => .ok result

/-- `DecodeAuth`. -/
def decodeAuth (b : Bytes) : Except AuthError Auth := do
  let (deviceID, b) ← takeNamed "auth device_id" b
  let (userID, b) ← takeNamed "auth user_id" b
  let (resource, b) ← takeNamed "auth resource" b
  if b.length ≠ 0 then .error (.trailing "auth" b.length) else .ok ⟨deviceID, userID, resource⟩

/-- An AUTH_OK: the name of the session. -/
structure AuthOK where
  sessionID : Bytes
  deriving DecidableEq

/-- `AuthOK.Encode`. -/
def AuthOK.encode (a : AuthOK) : Bytes := appendString [] a.sessionID

/-- `DecodeAuthOK`. -/
def decodeAuthOK (b : Bytes) : Except AuthError AuthOK := do
  let (sessionID, rest) ← takeNamed "auth_ok session_id" b
  if rest.length ≠ 0 then .error (.trailing "auth_ok" rest.length) else .ok ⟨sessionID⟩

/-- A named field that was read. -/
theorem take_named_ok {name : String} {b s rest : Bytes} (h : takeNamed name b = .ok (s, rest)) :
    b = appendString [] s ++ rest ∧ s.length ≤ maxIdentityLen := by
  unfold takeNamed at h
  cases htake : takeString b with
  | error e => simp [htake] at h
  | ok result =>
      obtain rfl : result = (s, rest) := by simpa [htake] using h
      exact append_take_string htake

/-- A short named field is read back. -/
theorem take_named_append {s : Bytes} (h : s.length ≤ maxIdentityLen) (name : String)
    (rest : Bytes) : takeNamed name (appendString [] s ++ rest) = .ok (s, rest) := by
  rw [takeNamed, take_append_string h]

/-- An AUTH that was parsed is the bytes it was parsed from. -/
theorem encode_decode_auth {b : Bytes} {a : Auth} (h : decodeAuth b = .ok a) :
    b = a.strings.flatMap (appendString []) ∧ ∀ s ∈ a.strings, s.length ≤ maxIdentityLen := by
  unfold decodeAuth at h
  obtain ⟨⟨deviceID, rest₁⟩, hdevice, h⟩ := except_bind_ok h
  obtain ⟨⟨userID, rest₂⟩, huser, h⟩ := except_bind_ok h
  obtain ⟨⟨resource, rest₃⟩, hresource, h⟩ := except_bind_ok h
  obtain ⟨hdevice, hdeviceLen⟩ := take_named_ok hdevice
  obtain ⟨huser, huserLen⟩ := take_named_ok huser
  obtain ⟨hresource, hresourceLen⟩ := take_named_ok hresource
  dsimp only at h
  split_ifs at h with hrest
  cases h
  have hnil : rest₃ = [] := List.length_eq_zero_iff.mp (not_not.mp hrest)
  subst hnil
  refine ⟨?_, ?_⟩
  · rw [hdevice, huser, hresource]
    simp [Auth.strings]
  · simp only [Auth.strings, List.forall_mem_cons]
    exact ⟨hdeviceLen, huserLen, hresourceLen, by simp⟩

/-- An AUTH with short fields is parsed back. -/
theorem decode_encode_auth {a : Auth} (h : ∀ s ∈ a.strings, s.length ≤ maxIdentityLen) :
    decodeAuth a.encode = .ok a := by
  simp only [Auth.strings, List.forall_mem_cons] at h
  obtain ⟨hdevice, huser, hresource, -⟩ := h
  have hencode : a.encode = appendString [] a.deviceID ++ (appendString [] a.userID ++
      (appendString [] a.resource ++ [])) := by
    rw [Auth.encode, foldl_append_string]
    simp [Auth.strings]
  simp only [hencode, decodeAuth, take_named_append hdevice, take_named_append huser,
    take_named_append hresource, bind, Except.bind]
  rfl

/-- An AUTH decodes to itself or not at all. -/
theorem auth_decode_unique {a a' : Auth} (h : decodeAuth a.encode = .ok a') : a' = a := by
  obtain ⟨hbytes, hshort⟩ := encode_decode_auth h
  rw [Auth.encode, foldl_append_string, List.nil_append] at hbytes
  have hcount : a.strings.length = a'.strings.length := rfl
  have hfew : a'.strings.length ≤ 6 := by simp [Auth.strings]
  have hbytes' : a.strings.flatMap (appendString []) ++ [] =
      a'.strings.flatMap (appendString []) ++ [] := by simpa using hbytes
  obtain ⟨hstrings, -⟩ := flatMap_append_string_parsed hcount hfew hshort (Eq.refl 0) hbytes'
  cases a
  cases a'
  simp_all [Auth.strings]

/-- An AUTH_OK that was parsed is the bytes it was parsed from. -/
theorem encode_decode_auth_ok {b : Bytes} {a : AuthOK} (h : decodeAuthOK b = .ok a) :
    b = a.encode ∧ a.sessionID.length ≤ maxIdentityLen := by
  unfold decodeAuthOK at h
  obtain ⟨⟨sessionID, rest⟩, hsession, h⟩ := except_bind_ok h
  obtain ⟨hsession, hlength⟩ := take_named_ok hsession
  dsimp only at h
  split_ifs at h with hrest
  cases h
  have hnil : rest = [] := List.length_eq_zero_iff.mp (not_not.mp hrest)
  subst hnil
  exact ⟨by rw [hsession, List.append_nil, AuthOK.encode], hlength⟩

/-- A short AUTH_OK is parsed back. -/
theorem decode_encode_auth_ok {a : AuthOK} (h : a.sessionID.length ≤ maxIdentityLen) :
    decodeAuthOK a.encode = .ok a := by
  have hencode : a.encode = appendString [] a.sessionID ++ [] := by
    rw [AuthOK.encode, List.append_nil]
  simp only [hencode, decodeAuthOK, take_named_append h, bind, Except.bind]
  rfl

/-- An AUTH_OK decodes to itself or not at all. -/
theorem auth_ok_decode_unique {a a' : AuthOK} (h : decodeAuthOK a.encode = .ok a') : a' = a := by
  obtain ⟨hbytes, hshort⟩ := encode_decode_auth_ok h
  have hbytes' : [a.sessionID].flatMap (appendString []) ++ [] =
      [a'.sessionID].flatMap (appendString []) ++ [] := by
    simpa [AuthOK.encode] using hbytes
  have hcount : [a.sessionID].length = [a'.sessionID].length := rfl
  have hfew : [a'.sessionID].length ≤ 6 := by simp
  obtain ⟨hstrings, -⟩ := flatMap_append_string_parsed hcount hfew (by simpa using hshort)
    (Eq.refl 0) hbytes'
  cases a
  cases a'
  simp_all

/-- What a peer says it is: `RoleAgent` and `RoleOperator`, out of all bytes. -/
def roleAgent : UInt8 := 1
def roleOperator : UInt8 := 2

/-- `Role.known`. -/
def knownRole (role : UInt8) : Bool := role = roleAgent ∨ role = roleOperator

/-- A HELLO: the versions a peer speaks, and its role. -/
structure Hello where
  minVersion : UInt8
  maxVersion : UInt8
  role : UInt8
  deriving DecidableEq, Repr

/-- `Hello.Encode`. The last byte is reserved. -/
def Hello.encode (h : Hello) : Bytes := [h.minVersion, h.maxVersion, h.role, 0]

/-- Why `DecodeHello` refused its input. -/
inductive HelloError where
  | length (found : Nat)
  | inverted (minVersion maxVersion : UInt8)
  | unknownRole (role : UInt8)
  deriving DecidableEq, Repr

/-- `DecodeHello`. The reserved byte is not looked at. -/
def decodeHello (b : Bytes) : Except HelloError Hello :=
  match b with
  | [minVersion, maxVersion, role, _] =>
      if maxVersion < minVersion then .error (.inverted minVersion maxVersion)
      else if ¬ knownRole role then .error (.unknownRole role)
      else .ok ⟨minVersion, maxVersion, role⟩
  | _ => .error (.length b.length)

/-- A HELLO_ACK: the chosen version and the limits of the connection. -/
structure HelloAck where
  version : UInt8
  maxFramePayload : UInt32
  initialWindow : UInt32
  maxStreams : UInt32
  deriving DecidableEq, Repr

/-- `HelloAck.Encode`. -/
def HelloAck.encode (a : HelloAck) : Bytes :=
  a.version :: (putUint32 a.maxFramePayload ++ putUint32 a.initialWindow ++
    putUint32 a.maxStreams)

/-- Why `DecodeHelloAck` refused its input. -/
inductive HelloAckError where
  | length (found : Nat)
  | frameSize (announced : UInt32)
  | zeroWindow
  | zeroStreams
  deriving DecidableEq, Repr

/-- `DecodeHelloAck`: the announced limits are checked, not trusted. -/
def decodeHelloAck (b : Bytes) : Except HelloAckError HelloAck :=
  match b with
  | [] => .error (.length 0)
  | version :: rest =>
      if rest.length ≠ 12 then .error (.length b.length)
      else
        let a : HelloAck :=
          ⟨version, uint32 rest, uint32 (rest.drop 4), uint32 (rest.drop 8)⟩
        if a.maxFramePayload = 0 ∨ maxFramePayload < a.maxFramePayload then
          .error (.frameSize a.maxFramePayload)
        else if a.initialWindow = 0 then .error .zeroWindow
        else if a.maxStreams = 0 then .error .zeroStreams
        else .ok a

/-- `EncodeWindow`. -/
def encodeWindow (credit : UInt32) : Bytes := putUint32 credit

/-- `DecodeWindow`; zero credit is refused. -/
def decodeWindow (b : Bytes) : Option UInt32 :=
  if b.length ≠ 4 then none
  else if uint32 b = 0 then none
  else some (uint32 b)

/-- Credit arrives as it was sent. -/
theorem decode_encode_window {credit : UInt32} (h : credit ≠ 0) :
    decodeWindow (encodeWindow credit) = some credit := by
  have hread : uint32 (putUint32 credit) = credit := by
    simpa using uint32_put_uint32 credit []
  rw [decodeWindow, encodeWindow, hread, if_neg (by simp), if_neg h]

/-- What the parser reads back from announced limits. -/
theorem uint32_encode_ack (ack : HelloAck) :
    let rest := putUint32 ack.maxFramePayload ++ putUint32 ack.initialWindow ++
      putUint32 ack.maxStreams
    uint32 rest = ack.maxFramePayload ∧ uint32 (rest.drop 4) = ack.initialWindow ∧
      uint32 (rest.drop 8) = ack.maxStreams := by
  have hlast : uint32 (putUint32 ack.maxStreams) = ack.maxStreams := by
    simpa using uint32_put_uint32 ack.maxStreams []
  have hsecond : (putUint32 ack.maxFramePayload ++ putUint32 ack.initialWindow ++
      putUint32 ack.maxStreams).drop 4 =
        putUint32 ack.initialWindow ++ putUint32 ack.maxStreams := by
    rw [List.append_assoc]
    exact List.drop_left' (length_put_uint32 _)
  have hthird : (putUint32 ack.maxFramePayload ++ putUint32 ack.initialWindow ++
      putUint32 ack.maxStreams).drop 8 = putUint32 ack.maxStreams :=
    List.drop_left' (by simp)
  refine ⟨?_, ?_, ?_⟩
  · rw [List.append_assoc, uint32_put_uint32]
  · rw [hsecond, uint32_put_uint32]
  · rw [hthird, hlast]

/-- Limits that are accepted were announced, and are within this build's bounds. -/
theorem decode_hello_ack_ok {ack a : HelloAck} (h : decodeHelloAck ack.encode = .ok a) :
    a = ack ∧ 0 < a.maxFramePayload ∧ a.maxFramePayload ≤ maxFramePayload ∧
      0 < a.initialWindow ∧ 0 < a.maxStreams := by
  obtain ⟨hframe, hwindow, hstreams⟩ := uint32_encode_ack ack
  simp only [decodeHelloAck, HelloAck.encode, hframe, hwindow, hstreams] at h
  split_ifs at h with hlength hsize hzero hnone
  cases h
  push Not at hsize
  exact ⟨rfl, UInt32.pos_iff_ne_zero.mpr hsize.1, UInt32.not_lt.mp hsize.2,
    UInt32.pos_iff_ne_zero.mpr hzero, UInt32.pos_iff_ne_zero.mpr hnone⟩

end AccessRelay.Proto
