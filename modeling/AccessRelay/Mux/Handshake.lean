import AccessRelay.Machine.Duplex
import AccessRelay.Mux.StreamCap
import AccessRelay.Proto.HandshakeRoundTrip

/-!
# The handshake

HELLO, HELLO_ACK, AUTH, AUTH_OK: `Dial` on one end of a connection, `Accept` and then `Admit` or
`Refuse` on the other. Each end is a program that sends and receives frames (`Caller.next`,
`Responder.next`), and the connection delivers what was sent, in order, unless it fails. The
application's decision about a peer is a parameter of the responder.

A session of the dialer is never alone: whatever fails and whenever, it has a counterpart with the
same name, the same claim and the limits that the responder announced, and the two sessions are the
pair that `establish` describes (`sessions_agree`). On a connection that does not fail, every
schedule comes to the same end (`handshake_ends`), which says exactly when both ends have a session
and what the dialer is told otherwise.
-/

namespace AccessRelay.Mux

open Encoding Proto Machine

/-- What a read of the connection returns. The end of the connection is the error `io.EOF`. -/
abbrev Delivery := Except CodecError Frame

/-- A session as `Dial` and `Admit` return it: `ID` and `Peer` are set after `newSession`. -/
structure Established where
  session : Session
  id : Bytes
  peer : Auth

/-- The check of `WriteFrame` on the length of a payload. -/
def fitsFrame (payload : Bytes) : Bool := UInt32.ofNat payload.length ≤ Proto.maxFramePayload

/-- The write of a frame. A payload that is too long fails with nothing written. -/
def writePrompt {State : Type} (f : Frame) (next failed : State) : Prompt Delivery State :=
  if fitsFrame f.payload then .send (.ok f) next failed else .pass failed

/-- Close the connection. -/
def closePrompt {State : Type} (next : State) : Prompt Delivery State :=
  .send (.error .eof) next next

section Dial

/-- The role that a dialer announces and the identity it claims. -/
structure Caller where
  role : UInt8
  auth : Auth

/-- Where `Dial` is. `failing` has an error and is about to close the connection, as every caller
of `Dial` does with one that it returned an error for. -/
inductive Dialing where
  | sendHello
  | awaitAck
  | sendAuth (ack : HelloAck)
  | awaitOK (ack : HelloAck)
  | failing (error : DialError)
  | failed (error : DialError)
  | established (e : Established)

/-- The HELLO of this build. -/
def Caller.hello (c : Caller) : Hello := ⟨version, version, c.role⟩

/-- What `Dial` makes of the answer to HELLO. -/
def Dialing.onAck (got : Delivery) : Dialing :=
  match Awaited.helloAck.take got with
  | .error e => .failing e
  | .ok f =>
      match decodeHelloAck f.payload with
      | .error e => .failing (.helloAck e)
      | .ok ack => if ack.version ≠ version then .failing (.version ack.version) else .sendAuth ack

/-- What `Dial` makes of the answer to AUTH. -/
def Caller.onOK (c : Caller) (ack : HelloAck) (got : Delivery) : Dialing :=
  match Awaited.authOK.take got with
  | .error e => .failing e
  | .ok f =>
      match decodeAuthOK f.payload with
      | .error e => .failing (.authOK e)
      | .ok ok => .established ⟨newSession true ack, ok.sessionID, c.auth⟩

/-- `Dial`. -/
def Caller.next (c : Caller) : Dialing → Prompt Delivery Dialing
  | .sendHello =>
      writePrompt ⟨.hello, 0, c.hello.encode⟩ .awaitAck (.failing (.send .helloAck))
  | .awaitAck => .receive Dialing.onAck
  | .sendAuth ack =>
      writePrompt ⟨.auth, 0, c.auth.encode⟩ (.awaitOK ack) (.failing (.send .authOK))
  | .awaitOK ack => .receive (c.onOK ack)
  | .failing error => closePrompt (.failed error)
  | .failed _ => .ended
  | .established _ => .ended

/-- The session of the program is the one that `dial` returns on the exchange it has seen. -/
theorem dial_of_answers (cfg : Config) {c : Caller} {got got' : Delivery} {ack : HelloAck}
    {e : Established} (hack : Dialing.onAck got = .sendAuth ack)
    (hok : c.onOK ack got' = .established e) :
    dial cfg ⟨true, got, true, got'⟩ = .ok e.session := by
  unfold Dialing.onAck at hack
  split at hack
  · cases hack
  next f hf =>
    split at hack
    · cases hack
    next ack' hdecode =>
      split at hack
      · cases hack
      next hversion =>
        cases hack
        unfold Caller.onOK at hok
        split at hok
        · cases hok
        next f' hf' =>
          split at hok
          · cases hok
          next ok hdecode' =>
            cases hok
            simp only [dial, hf, hdecode, if_neg hversion, hf', hdecode', Bool.true_eq_false,
              if_false]

end Dial

section Accept

/-- The two frames that `Accept` waits for. -/
inductive Expected where
  | hello
  | auth
  deriving DecidableEq, Repr

/-- Why `Accept` failed. -/
inductive AcceptError where
  | read (expected : Expected) (error : CodecError)
  | unexpected (expected : Expected) (found : Typ)
  | hello (error : HelloError)
  | version (minVersion maxVersion : UInt8)
  | sendAck
  | auth (error : AuthError)

/-- `Handshake`: what the peer has said, for the application to decide on. -/
structure Handshake where
  hello : Hello
  auth : Auth
  deriving DecidableEq

/-- The application's decision about a peer. -/
inductive Verdict where
  | admitted (sessionID : Bytes)
  | refuse (reason : Reason)
  deriving DecidableEq

/-- The end that accepts: the limits it announces, and how the application decides. -/
structure Responder where
  cfg : Config
  judge : Handshake → Verdict

/-- Where `Accept`, and then `Admit` or `Refuse`, is. A `rejecting` one writes ERROR before it
closes; `failing` and `refusing` are about to close. `admitFailed` is a failed write of AUTH_OK,
after which the connection is left as it is. -/
inductive Accepting where
  | awaitHello
  | sendAck (hello : Hello)
  | awaitAuth (hello : Hello)
  | rejecting (error : AcceptError) (reason : Reason)
  | failing (error : AcceptError)
  | failed (error : AcceptError)
  | returned (h : Handshake)
  | refusing (reason : Reason)
  | refused (reason : Reason)
  | admitFailed
  | established (e : Established)

/-- What `Accept` makes of the first frame. -/
def Accepting.onHello : Delivery → Accepting
  | .error e => .failing (.read .hello e)
  | .ok f =>
      if f.type ≠ .hello then
        .rejecting (.unexpected .hello f.type) reasonProtocolMalformedFrame
      else match decodeHello f.payload with
      | .error e => .rejecting (.hello e) reasonProtocolMalformedFrame
      | .ok hello =>
          if version < hello.minVersion ∨ hello.maxVersion < version then
            .rejecting (.version hello.minVersion hello.maxVersion) reasonProtocolVersionUnsupported
          else .sendAck hello

/-- What `Accept` makes of the second frame. -/
def Accepting.onAuth (hello : Hello) : Delivery → Accepting
  | .error e => .failing (.read .auth e)
  | .ok f =>
      if f.type ≠ .auth then
        .rejecting (.unexpected .auth f.type) reasonProtocolMalformedFrame
      else match decodeAuth f.payload with
      | .error e => .rejecting (.auth e) reasonProtocolMalformedFrame
      | .ok auth => .returned ⟨hello, auth⟩

/-- `WriteError`, whose own error is ignored. -/
def errorPrompt (reason : Reason) (next : Accepting) : Prompt Delivery Accepting :=
  writePrompt ⟨.error, 0, reason⟩ next next

/-- `Accept`, and then `Admit` or `Refuse` as the application decides. `Refuse` drains the
connection before it closes, which discards what it reads. -/
def Responder.next (r : Responder) : Accepting → Prompt Delivery Accepting
  | .awaitHello => .receive Accepting.onHello
  | .sendAck hello =>
      writePrompt ⟨.helloAck, 0, r.cfg.ack.encode⟩ (.awaitAuth hello) (.failing .sendAck)
  | .awaitAuth hello => .receive (Accepting.onAuth hello)
  | .rejecting error reason => errorPrompt reason (.failing error)
  | .failing error => closePrompt (.failed error)
  | .failed _ => .ended
  | .returned h =>
      match r.judge h with
      | .admitted sessionID =>
          writePrompt ⟨.authOK, 0, (⟨sessionID⟩ : AuthOK).encode⟩
            (.established ⟨newSession false r.cfg.ack, sessionID, h.auth⟩) .admitFailed
      | .refuse reason => errorPrompt reason (.refusing reason)
  | .refusing reason => closePrompt (.refused reason)
  | .refused _ => .ended
  | .admitFailed => .ended
  | .established _ => .ended

end Accept

/-- The two ends of a connection during the handshake, and what is under way between them. -/
abbrev Connection := Duplex Delivery Dialing Accepting

/-- A connection on which nothing has been said. -/
def newConnection : Connection := ⟨.sendHello, .awaitHello, [], []⟩

/-- A fault of the connection is an error of a write or a read. It delivers no frame. -/
def deliversNothing (_ : Connection) : DuplexAction Delivery → Bool
  | .interrupt _ (.ok _) => false
  | _ => true

/-- The handshake on a connection that may fail at any moment, at either end. -/
def handshakeStep (c : Caller) (r : Responder) :
    Connection → DuplexAction Delivery → Option Connection :=
  restrict deliversNothing (faultyStep c.next r.next)

section Frames

variable (c : Caller) (r : Responder)

/-- HELLO, AUTH and HELLO_ACK of these two ends, and an AUTH_OK. -/
def Caller.helloFrame : Frame := ⟨.hello, 0, c.hello.encode⟩
def Caller.authFrame : Frame := ⟨.auth, 0, c.auth.encode⟩
def Responder.ackFrame : Frame := ⟨.helloAck, 0, r.cfg.ack.encode⟩
def okFrame (id : Bytes) : Frame := ⟨.authOK, 0, (⟨id⟩ : AuthOK).encode⟩

/-- A HELLO of this build is decoded as it was sent, if its role is known. -/
theorem decode_hello_encode : decodeHello c.hello.encode =
    if knownRole c.role then .ok c.hello else .error (.unknownRole c.role) := by
  simp only [Caller.hello, Hello.encode, decodeHello, if_neg (UInt8.lt_irrefl version), ite_not]

theorem on_hello_own : Accepting.onHello (.ok c.helloFrame) =
    if knownRole c.role then .sendAck c.hello
    else .rejecting (.hello (.unknownRole c.role)) reasonProtocolMalformedFrame := by
  simp only [Accepting.onHello, Caller.helloFrame, decode_hello_encode, ne_eq, not_true, if_false]
  split_ifs with hrole
  · simp only [Caller.hello, UInt8.lt_irrefl, or_self, if_false]
  · rfl

theorem on_auth_own : Accepting.onAuth c.hello (.ok c.authFrame) =
    match decodeAuth c.auth.encode with
    | .error e => .rejecting (.auth e) reasonProtocolMalformedFrame
    | .ok auth => .returned ⟨c.hello, auth⟩ := by
  simp only [Accepting.onAuth, Caller.authFrame, ne_eq, not_true, if_false]

/-- A frame of the awaited type is taken. -/
theorem take_awaited {awaited : Awaited} {f : Frame} (h : f.type = awaited.type) :
    awaited.take (.ok f) = .ok f := by
  cases awaited <;> simp [Awaited.take, h, Awaited.type]

theorem on_ack_decoded {f : Frame} (h : f.type = .helloAck) : Dialing.onAck (.ok f) =
    match decodeHelloAck f.payload with
    | .error e => .failing (.helloAck e)
    | .ok ack =>
        if ack.version ≠ version then .failing (.version ack.version) else .sendAuth ack := by
  rw [Dialing.onAck, take_awaited h]

/-- The limits of this build's responder are taken as announced, or refused. -/
theorem on_ack_own : Dialing.onAck (.ok r.ackFrame) =
    match decodeHelloAck r.cfg.ack.encode with
    | .error e => .failing (.helloAck e)
    | .ok _ => .sendAuth r.cfg.ack := by
  have hdecoded := on_ack_decoded (f := r.ackFrame) rfl
  have hpayload : r.ackFrame.payload = r.cfg.ack.encode := rfl
  rw [hpayload] at hdecoded
  rw [hdecoded]
  cases hack : decodeHelloAck r.cfg.ack.encode with
  | error e => rfl
  | ok ack =>
      obtain ⟨rfl, -⟩ := decode_hello_ack_ok hack
      exact if_neg (not_not.mpr rfl)

theorem on_ok_own (ack : HelloAck) (id : Bytes) : c.onOK ack (.ok (okFrame id)) =
    match decodeAuthOK (⟨id⟩ : AuthOK).encode with
    | .error e => .failing (.authOK e)
    | .ok _ => .established ⟨newSession true ack, id, c.auth⟩ := by
  have htake : Awaited.authOK.take (.ok (okFrame id)) = .ok (okFrame id) := take_awaited rfl
  rw [Caller.onOK, htake]
  have hpayload : (okFrame id).payload = (⟨id⟩ : AuthOK).encode := rfl
  simp only [hpayload]
  cases hok : decodeAuthOK (⟨id⟩ : AuthOK).encode with
  | error e => rfl
  | ok ok =>
      obtain rfl := auth_ok_decode_unique hok
      rfl

end Frames

/-- The pair of sessions of a configuration whose limits are accepted. -/
theorem establish_own {cfg : Config} (hack : decodeHelloAck cfg.ack.encode = .ok cfg.ack) :
    establish cfg = some fun x => newSession (x = .client) cfg.ack := by
  have hversion : cfg.ack.version = version := rfl
  rw [establish, hack, Except.toOption, Option.bind_some, if_pos hversion]
  simp only [ite_self]

section Agreement

variable {c : Caller} {r : Responder} {d d' : Connection}

/-- The responder has admitted the dialer under a name, and holds the session. -/
def Accepting.Admitted (c : Caller) (r : Responder) (a : Accepting) (id : Bytes) : Prop :=
  a = .established ⟨newSession false r.cfg.ack, id, c.auth⟩ ∧
    r.judge ⟨c.hello, c.auth⟩ = .admitted id

/-- What the dialer knows of the responder. -/
def Dialing.Knows (c : Caller) (r : Responder) (a : Accepting) : Dialing → Prop
  | .sendAuth ack | .awaitOK ack =>
      ack = r.cfg.ack ∧ decodeHelloAck r.cfg.ack.encode = .ok r.cfg.ack
  | .established e =>
      decodeHelloAck r.cfg.ack.encode = .ok r.cfg.ack ∧
        ∃ id, e = ⟨newSession true r.cfg.ack, id, c.auth⟩ ∧ a.Admitted c r id ∧
          id.length ≤ maxIdentityLen
  | _ => True

/-- What the responder knows of the dialer. -/
def Accepting.Knows (c : Caller) : Accepting → Prop
  | .sendAck hello | .awaitAuth hello => hello = c.hello
  | .returned h => h = ⟨c.hello, c.auth⟩
  | _ => True

/-- A message of the dialer. -/
def FromDialer (c : Caller) (m : Delivery) : Prop :=
  m = .ok c.helloFrame ∨ m = .ok c.authFrame ∨ ∃ e, m = .error e

/-- A message of the responder. An AUTH_OK is under way only if there is a session. -/
def FromResponder (c : Caller) (r : Responder) (a : Accepting) (m : Delivery) : Prop :=
  m = .ok r.ackFrame ∨ (∃ reason, m = .ok ⟨.error, 0, reason⟩) ∨ (∃ e, m = .error e) ∨
    ∃ id, m = .ok (okFrame id) ∧ a.Admitted c r id

/-- The invariant of the handshake: what each end has understood is what the other has said. -/
structure HandshakeInv (c : Caller) (r : Responder) (d : Connection) : Prop where
  left : d.left.Knows c r d.right
  right : d.right.Knows c
  toLeft : ∀ m ∈ d.toLeft, FromResponder c r d.right m
  toRight : ∀ m ∈ d.toRight, FromDialer c m

theorem on_hello_knows {m : Delivery} (h : FromDialer c m) : (Accepting.onHello m).Knows c := by
  rcases h with rfl | rfl | ⟨e, rfl⟩
  · rw [on_hello_own]
    split_ifs
    · rfl
    · trivial
  · simp [Accepting.onHello, Caller.authFrame, Accepting.Knows]
  · trivial

theorem on_auth_knows {m : Delivery} (h : FromDialer c m) :
    (Accepting.onAuth c.hello m).Knows c := by
  rcases h with rfl | rfl | ⟨e, rfl⟩
  · simp [Accepting.onAuth, Caller.helloFrame, Accepting.Knows]
  · rw [on_auth_own]
    cases hauth : decodeAuth c.auth.encode with
    | error e => trivial
    | ok auth =>
        obtain rfl := auth_decode_unique hauth
        rfl
  · trivial

theorem on_ack_knows {a : Accepting} {m : Delivery} (h : FromResponder c r a m) :
    (Dialing.onAck m).Knows c r a := by
  rcases h with rfl | ⟨reason, rfl⟩ | ⟨e, rfl⟩ | ⟨id, rfl, -⟩
  · rw [on_ack_own]
    cases hack : decodeHelloAck r.cfg.ack.encode with
    | error e => trivial
    | ok ack =>
        obtain ⟨rfl, -⟩ := decode_hello_ack_ok hack
        exact ⟨rfl, hack⟩
  · trivial
  · trivial
  · simp [Dialing.onAck, Awaited.take, Awaited.type, okFrame, Dialing.Knows]

theorem on_ok_knows {a : Accepting} {m : Delivery} (h : FromResponder c r a m)
    (hack : decodeHelloAck r.cfg.ack.encode = .ok r.cfg.ack) :
    (c.onOK r.cfg.ack m).Knows c r a := by
  rcases h with rfl | ⟨reason, rfl⟩ | ⟨e, rfl⟩ | ⟨id, rfl, hadmitted⟩
  · simp [Caller.onOK, Awaited.take, Awaited.type, Responder.ackFrame, Dialing.Knows]
  · trivial
  · trivial
  · rw [on_ok_own]
    cases hok : decodeAuthOK (⟨id⟩ : AuthOK).encode with
    | error e => trivial
    | ok ok =>
        obtain ⟨-, hlength⟩ := encode_decode_auth_ok hok
        obtain rfl := auth_ok_decode_unique hok
        exact ⟨hack, id, rfl, hadmitted, hlength⟩

/-- A responder that has admitted the dialer does nothing more. -/
theorem Accepting.Admitted.ended {a : Accepting} {id : Bytes} (h : a.Admitted c r id) :
    r.next a = .ended := by
  rw [h.1]
  rfl

/-- While the responder still has something to do, nobody has been admitted, so what the others know
does not depend on where it is. -/
theorem HandshakeInv.moved (h : HandshakeInv c r d) (hmoves : r.next d.right ≠ .ended)
    (a : Accepting) :
    d.left.Knows c r a ∧ ∀ m ∈ d.toLeft, FromResponder c r a m := by
  constructor
  · have hleft := h.left
    cases hstate : d.left with
    | established e =>
        rw [hstate] at hleft
        obtain ⟨-, id, -, hadmitted, -⟩ := hleft
        exact absurd hadmitted.ended hmoves
    | sendAuth ack | awaitOK ack =>
        rw [hstate] at hleft
        exact hleft
    | sendHello | awaitAck | failing | failed => trivial
  · intro m hm
    rcases h.toLeft m hm with hack | herror | hend | ⟨id, -, hadmitted⟩
    · exact .inl hack
    · exact .inr (.inl herror)
    · exact .inr (.inr (.inl hend))
    · exact absurd hadmitted.ended hmoves

/-- A write is a send of the frame, if it fits, and an error otherwise. -/
theorem write_prompt_send {State : Type} {f : Frame} {next failed next' failed' : State}
    {m : Delivery} (h : writePrompt f next failed = .send m next' failed') :
    m = .ok f ∧ next' = next ∧ failed' = failed := by
  unfold writePrompt at h
  split_ifs at h
  cases h
  exact ⟨rfl, rfl, rfl⟩

theorem write_prompt_pass {State : Type} {f : Frame} {next failed next' : State}
    (h : writePrompt f next failed = .pass next') : next' = failed := by
  unfold writePrompt at h
  split_ifs at h
  cases h
  rfl

/-- What the dialer sends, and what it knows afterwards. -/
theorem caller_send {s next failed : Dialing} {m : Delivery} {a : Accepting}
    (hnext : c.next s = .send m next failed) (hknows : s.Knows c r a) :
    FromDialer c m ∧ next.Knows c r a ∧ failed.Knows c r a := by
  cases s with
  | sendHello =>
      obtain ⟨rfl, rfl, rfl⟩ := write_prompt_send hnext
      exact ⟨.inl rfl, trivial, trivial⟩
  | sendAuth ack =>
      obtain ⟨rfl, rfl, rfl⟩ := write_prompt_send hnext
      exact ⟨.inr (.inl rfl), hknows, trivial⟩
  | failing error =>
      cases hnext
      exact ⟨.inr (.inr ⟨_, rfl⟩), trivial, trivial⟩
  | awaitAck | awaitOK | failed | established => cases hnext

theorem caller_pass {s next : Dialing} {a : Accepting} (hnext : c.next s = .pass next) :
    next.Knows c r a := by
  cases s with
  | sendHello | sendAuth =>
      obtain rfl := write_prompt_pass hnext
      trivial
  | awaitAck | awaitOK | failing | failed | established => cases hnext

theorem caller_receive {s : Dialing} {next : Delivery → Dialing} {a : Accepting} {m : Delivery}
    (hnext : c.next s = .receive next) (hknows : s.Knows c r a) (hm : FromResponder c r a m) :
    (next m).Knows c r a := by
  cases s with
  | awaitAck =>
      cases hnext
      exact on_ack_knows hm
  | awaitOK ack =>
      cases hnext
      obtain ⟨rfl, hack⟩ := hknows
      exact on_ok_knows hm hack
  | sendHello | sendAuth =>
      simp only [Caller.next, writePrompt] at hnext
      split_ifs at hnext
  | failing | failed | established => cases hnext

/-- What the responder sends, and what it knows afterwards. -/
theorem responder_send {s next failed : Accepting} {m : Delivery}
    (hnext : r.next s = .send m next failed) (hknows : s.Knows c) :
    FromResponder c r next m ∧ next.Knows c ∧ failed.Knows c := by
  cases s with
  | sendAck hello =>
      obtain ⟨rfl, rfl, rfl⟩ := write_prompt_send hnext
      exact ⟨.inl rfl, hknows, trivial⟩
  | rejecting error reason =>
      obtain ⟨rfl, rfl, rfl⟩ := write_prompt_send hnext
      exact ⟨.inr (.inl ⟨_, rfl⟩), trivial, trivial⟩
  | failing error =>
      cases hnext
      exact ⟨.inr (.inr (.inl ⟨_, rfl⟩)), trivial, trivial⟩
  | refusing reason =>
      cases hnext
      exact ⟨.inr (.inr (.inl ⟨_, rfl⟩)), trivial, trivial⟩
  | returned h =>
      obtain rfl : h = ⟨c.hello, c.auth⟩ := hknows
      cases hjudge : r.judge ⟨c.hello, c.auth⟩ with
      | admitted id =>
          simp only [Responder.next, hjudge] at hnext
          obtain ⟨rfl, rfl, rfl⟩ := write_prompt_send hnext
          exact ⟨.inr (.inr (.inr ⟨id, rfl, rfl, hjudge⟩)), trivial, trivial⟩
      | refuse reason =>
          simp only [Responder.next, hjudge] at hnext
          obtain ⟨rfl, rfl, rfl⟩ := write_prompt_send hnext
          exact ⟨.inr (.inl ⟨_, rfl⟩), trivial, trivial⟩
  | awaitHello | awaitAuth | failed | refused | admitFailed | established => cases hnext

theorem responder_pass {s next : Accepting} (hnext : r.next s = .pass next) : next.Knows c := by
  cases s with
  | sendAck | rejecting =>
      obtain rfl := write_prompt_pass hnext
      trivial
  | returned h =>
      simp only [Responder.next] at hnext
      split at hnext
      · obtain rfl := write_prompt_pass hnext
        trivial
      · obtain rfl := write_prompt_pass hnext
        trivial
  | awaitHello | awaitAuth | failing | failed | refusing | refused | admitFailed | established =>
      cases hnext

theorem responder_receive {s : Accepting} {next : Delivery → Accepting} {m : Delivery}
    (hnext : r.next s = .receive next) (hknows : s.Knows c) (hm : FromDialer c m) :
    (next m).Knows c := by
  cases s with
  | awaitHello =>
      cases hnext
      exact on_hello_knows hm
  | awaitAuth hello =>
      cases hnext
      obtain rfl : hello = c.hello := hknows
      exact on_auth_knows hm
  | sendAck | rejecting =>
      simp only [Responder.next, errorPrompt, writePrompt] at hnext
      split_ifs at hnext
  | returned h =>
      simp only [Responder.next, errorPrompt, writePrompt] at hnext
      split at hnext <;> split_ifs at hnext
  | failing | failed | refusing | refused | admitFailed | established => cases hnext

/-- A turn of either end keeps the agreement. -/
theorem handshake_inv_turn {party : Party} (h : HandshakeInv c r d)
    (hturn : Turned c.next r.next d party d') : HandshakeInv c r d' := by
  cases hturn with
  | leftSent hnext =>
      obtain ⟨hm, hleft, -⟩ := caller_send hnext h.left
      refine ⟨hleft, h.right, h.toLeft, ?_⟩
      intro m hin
      rcases List.mem_append.mp hin with hold | hnew
      · exact h.toRight m hold
      · exact List.mem_singleton.mp hnew ▸ hm
  | leftReceived hnext hqueue =>
      have hm := h.toLeft _ (hqueue ▸ List.mem_cons_self)
      refine ⟨caller_receive hnext h.left hm, h.right, ?_, h.toRight⟩
      intro m hin
      exact h.toLeft m (hqueue ▸ List.mem_cons_of_mem _ hin)
  | leftPassed hnext => exact ⟨caller_pass hnext, h.right, h.toLeft, h.toRight⟩
  | @rightSent message next failed hnext =>
      obtain ⟨hm, hright, -⟩ := responder_send hnext h.right
      obtain ⟨hleft, htoLeft⟩ := h.moved (by rw [hnext]; nofun) next
      refine ⟨hleft, hright, ?_, h.toRight⟩
      intro m hin
      rcases List.mem_append.mp hin with hold | hnew
      · exact htoLeft m hold
      · exact List.mem_singleton.mp hnew ▸ hm
  | @rightReceived next message rest hnext hqueue =>
      have hm := h.toRight _ (hqueue ▸ List.mem_cons_self)
      obtain ⟨hleft, htoLeft⟩ := h.moved (by rw [hnext]; nofun) (next message)
      refine ⟨hleft, responder_receive hnext h.right hm, htoLeft, ?_⟩
      intro m hin
      exact h.toRight m (hqueue ▸ List.mem_cons_of_mem _ hin)
  | @rightPassed next hnext =>
      obtain ⟨hleft, htoLeft⟩ := h.moved (by rw [hnext]; nofun) next
      exact ⟨hleft, responder_pass hnext, htoLeft, h.toRight⟩

/-- A fault in what the dialer is doing. -/
theorem handshake_inv_interrupt_left {state : Dialing} {e : CodecError} (h : HandshakeInv c r d)
    (hfault : (c.next d.left).interrupted (.error e) = some state) :
    HandshakeInv c r { d with left := state } := by
  refine ⟨?_, h.right, h.toLeft, h.toRight⟩
  rcases interrupted_eq_some hfault with ⟨m, next, hnext⟩ | ⟨next, hnext, rfl⟩
  · exact (caller_send hnext h.left).2.2
  · exact caller_receive hnext h.left (.inr (.inr (.inl ⟨e, rfl⟩)))

/-- A fault in what the responder is doing. -/
theorem handshake_inv_interrupt_right {state : Accepting} {e : CodecError} (h : HandshakeInv c r d)
    (hfault : (r.next d.right).interrupted (.error e) = some state) :
    HandshakeInv c r { d with right := state } := by
  have hmoves : r.next d.right ≠ .ended := by
    intro hended
    rw [hended] at hfault
    cases hfault
  obtain ⟨hleft, htoLeft⟩ := h.moved hmoves state
  refine ⟨hleft, ?_, htoLeft, h.toRight⟩
  rcases interrupted_eq_some hfault with ⟨m, next, hnext⟩ | ⟨next, hnext, rfl⟩
  · exact (responder_send hnext h.right).2.2
  · exact responder_receive hnext h.right (.inr (.inr ⟨e, rfl⟩))

/-- The agreement is kept by everything that can happen on the connection. -/
theorem handshake_inv_step {a : DuplexAction Delivery} (h : HandshakeInv c r d)
    (hstep : handshakeStep c r d a = some d') : HandshakeInv c r d' := by
  obtain ⟨hguard, hstep⟩ := restrict_eq_some.mp hstep
  cases a with
  | turn party => exact handshake_inv_turn h (duplex_step_iff.mp hstep)
  | interrupt party m =>
      cases m with
      | ok f => cases hguard
      | error e =>
          cases party with
          | left =>
              obtain ⟨state, hfault, rfl⟩ := Option.map_eq_some_iff.mp hstep
              exact handshake_inv_interrupt_left h hfault
          | right =>
              obtain ⟨state, hfault, rfl⟩ := Option.map_eq_some_iff.mp hstep
              exact handshake_inv_interrupt_right h hfault

theorem handshake_inv_new : HandshakeInv c r newConnection :=
  ⟨trivial, trivial, by simp [newConnection], by simp [newConnection]⟩

/-- A session of the dialer is never alone. Whatever fails, and whenever, the responder holds a
session of the same name for the same claim, because it decided to admit what the dialer said, and
the two sessions are the pair that the responder's configuration establishes. -/
theorem sessions_agree {actions : List (DuplexAction Delivery)} {e : Established}
    (hrun : run (handshakeStep c r) newConnection actions = some d)
    (hdialer : d.left = .established e) :
    ∃ e', d.right = .established e' ∧ e'.id = e.id ∧ e'.peer = e.peer ∧ e.peer = c.auth ∧
      r.judge ⟨c.hello, c.auth⟩ = .admitted e.id ∧ e.id.length ≤ maxIdentityLen ∧
      establish r.cfg = some fun x => if x = .client then e.session else e'.session := by
  have hagrees := run_invariant (fun h hstep => handshake_inv_step h hstep) handshake_inv_new hrun
  have hleft := hagrees.left
  rw [hdialer] at hleft
  obtain ⟨hack, id, rfl, ⟨hright, hjudge⟩, hlength⟩ := hleft
  refine ⟨_, hright, rfl, rfl, rfl, hjudge, hlength, ?_⟩
  rw [establish_own hack]
  congr 1
  funext x
  cases x <;> rfl

end Agreement

/-- What the two ends are left with when the connection does not fail. -/
def outcome (c : Caller) (r : Responder) : Dialing × Accepting :=
  if knownRole c.role = false then
    (.failed (.refused .helloAck reasonProtocolMalformedFrame),
      .failed (.hello (.unknownRole c.role)))
  else match decodeHelloAck r.cfg.ack.encode with
  | .error e => (.failed (.helloAck e), .failed (.read .auth .eof))
  | .ok _ =>
      if fitsFrame c.auth.encode = false then
        (.failed (.send .authOK), .failed (.read .auth .eof))
      else match decodeAuth c.auth.encode with
      | .error e =>
          (.failed (.refused .authOK reasonProtocolMalformedFrame), .failed (.auth e))
      | .ok _ =>
          match r.judge ⟨c.hello, c.auth⟩ with
          | .refuse reason =>
              (.failed (if fitsFrame reason then .refused .authOK reason else .read .authOK .eof),
                .refused reason)
          | .admitted id =>
              if fitsFrame (⟨id⟩ : AuthOK).encode = false then (.awaitOK r.cfg.ack, .admitFailed)
              else match decodeAuthOK (⟨id⟩ : AuthOK).encode with
              | .error e =>
                  (.failed (.authOK e), .established ⟨newSession false r.cfg.ack, id, c.auth⟩)
              | .ok _ =>
                  (.established ⟨newSession true r.cfg.ack, id, c.auth⟩,
                    .established ⟨newSession false r.cfg.ack, id, c.auth⟩)

section Completion

variable {c : Caller} {r : Responder} {d d' : Connection} {n : Nat}

/-- Some schedule of this many turns leads to this state of the connection. -/
def Reached (c : Caller) (r : Responder) (d : Connection) (n : Nat) : Prop :=
  ∃ actions, run (duplexStep c.next r.next) newConnection actions = some d ∧ actions.length = n

theorem reached_new : Reached c r newConnection 0 := ⟨[], rfl, rfl⟩

theorem Reached.turn {party : Party} (h : Reached c r d n)
    (hturn : Turned c.next r.next d party d') : Reached c r d' (n + 1) := by
  obtain ⟨actions, hrun, hlength⟩ := h
  refine ⟨actions ++ [party], ?_, by simp [hlength]⟩
  rw [run_append, hrun, Option.bind_some]
  exact run_turned hturn rfl

theorem fits_frame_of_le {payload : Bytes} (h : payload.length ≤ 65536) :
    fitsFrame payload = true := by
  have hmax : Proto.maxFramePayload.toNat = 65536 := rfl
  rw [fitsFrame, decide_eq_true_eq, UInt32.le_iff_toNat_le,
    UInt32.toNat_ofNat_of_lt' (lt_of_le_of_lt h (by decide)), hmax]
  exact h

theorem write_prompt_fits {State : Type} {f : Frame} (h : fitsFrame f.payload = true)
    (next failed : State) : writePrompt f next failed = .send (.ok f) next failed := if_pos h

theorem write_prompt_long {State : Type} {f : Frame} (h : fitsFrame f.payload = false)
    (next failed : State) : writePrompt f next failed = .pass failed :=
  if_neg (by rw [h]; exact Bool.false_ne_true)

/-- The responder closes after an ERROR that the dialer is waiting for; the dialer returns the
reason and closes as well. -/
theorem Reached.told {s : Dialing} {a last : Accepting} {awaited : Awaited} {reason : Reason}
    {answered : Delivery → Dialing} (h : Reached c r ⟨s, a, [.ok ⟨.error, 0, reason⟩], []⟩ n)
    (hclose : r.next a = closePrompt last) (hlast : r.next last = .ended)
    (hwaits : c.next s = .receive answered)
    (hanswered : answered (.ok ⟨.error, 0, reason⟩) = .failing (.refused awaited reason)) :
    ∃ finish, Reached c r finish (n + 3) ∧ Stuck (duplexStep c.next r.next) finish ∧
      finish.left = .failed (.refused awaited reason) ∧ finish.right = last := by
  have hclosed := h.turn (.rightSent hclose)
  have hread := hclosed.turn (.leftReceived hwaits rfl)
  have hfailing : c.next (answered (.ok ⟨.error, 0, reason⟩)) =
      closePrompt (.failed (.refused awaited reason)) := by
    rw [hanswered]
    rfl
  exact ⟨_, hread.turn (.leftSent hfailing), duplex_stuck rfl hlast, rfl, rfl⟩

/-- The dialer closes before it has sent AUTH; the responder reads the end of the connection. -/
theorem Reached.hung {e : DialError} {hello : Hello}
    (h : Reached c r ⟨.failing e, .awaitAuth hello, [], []⟩ n) :
    ∃ finish, Reached c r finish (n + 3) ∧ Stuck (duplexStep c.next r.next) finish ∧
      finish.left = .failed e ∧ finish.right = .failed (.read .auth .eof) := by
  have hclosed := h.turn (.leftSent rfl)
  have hread := hclosed.turn (.rightReceived rfl rfl)
  exact ⟨_, hread.turn (.rightSent rfl), duplex_stuck rfl rfl, rfl, rfl⟩

/-- The connection after HELLO. -/
theorem reached_hello :
    Reached c r ⟨.awaitAck, Accepting.onHello (.ok c.helloFrame), [], []⟩ 2 := by
  have hfits : fitsFrame c.helloFrame.payload = true :=
    fits_frame_of_le (by simp [Caller.helloFrame, Hello.encode])
  have hsent := (reached_new (c := c) (r := r)).turn (.leftSent (write_prompt_fits hfits _ _))
  exact hsent.turn (.rightReceived rfl rfl)

/-- The connection after HELLO_ACK. -/
theorem reached_ack (hrole : knownRole c.role = true) :
    Reached c r ⟨Dialing.onAck (.ok r.ackFrame), .awaitAuth c.hello, [], []⟩ 4 := by
  have hhello := reached_hello (c := c) (r := r)
  rw [on_hello_own, if_pos hrole] at hhello
  have hfits : fitsFrame r.ackFrame.payload = true := by
    refine fits_frame_of_le ?_
    simp [Responder.ackFrame, HelloAck.encode]
  have hsent := hhello.turn (.rightSent (write_prompt_fits hfits _ _))
  exact hsent.turn (.leftReceived rfl rfl)

/-- The connection after AUTH. -/
theorem reached_auth (hrole : knownRole c.role = true) {ack : HelloAck}
    (hack : decodeHelloAck r.cfg.ack.encode = .ok ack) (hauth : fitsFrame c.auth.encode = true) :
    Reached c r
      ⟨.awaitOK r.cfg.ack, Accepting.onAuth c.hello (.ok c.authFrame), [], []⟩ 6 := by
  have hanswered := reached_ack (r := r) hrole
  rw [on_ack_own, hack] at hanswered
  have hfits : fitsFrame c.authFrame.payload = true := hauth
  have hsent := hanswered.turn (.leftSent (write_prompt_fits hfits _ _))
  exact hsent.turn (.rightReceived rfl rfl)

/-- The reason of a malformed frame can be written. -/
theorem fits_malformed : fitsFrame reasonProtocolMalformedFrame = true := by decide

/-- An application that refuses: the reason reaches the dialer, if it can be written at all. -/
theorem reached_refused {reason : Reason}
    (h : Reached c r ⟨.awaitOK r.cfg.ack, .returned ⟨c.hello, c.auth⟩, [], []⟩ n)
    (hjudge : r.judge ⟨c.hello, c.auth⟩ = .refuse reason) :
    ∃ finish, Reached c r finish (n + 4) ∧ Stuck (duplexStep c.next r.next) finish ∧
      finish.left = .failed
        (if fitsFrame reason then .refused .authOK reason else .read .authOK .eof) ∧
      finish.right = .refused reason := by
  have hnext : r.next (.returned ⟨c.hello, c.auth⟩) = errorPrompt reason (.refusing reason) := by
    simp only [Responder.next, hjudge]
  cases hfits : fitsFrame reason with
  | true =>
      have hsent := h.turn (.rightSent (hnext.trans (write_prompt_fits (f := ⟨.error, 0, reason⟩)
        hfits _ _)))
      exact hsent.told rfl rfl rfl rfl
  | false =>
      have hpassed := h.turn (.rightPassed (hnext.trans (write_prompt_long
        (f := ⟨.error, 0, reason⟩) hfits _ _)))
      have hclosed := hpassed.turn (.rightSent rfl)
      have hread := hclosed.turn (.leftReceived rfl rfl)
      exact ⟨_, hread.turn (.leftSent rfl), duplex_stuck rfl rfl, rfl, rfl⟩

/-- An application that admits: AUTH_OK is written, and read, if the name is not too long. -/
theorem reached_admitted {id : Bytes}
    (h : Reached c r ⟨.awaitOK r.cfg.ack, .returned ⟨c.hello, c.auth⟩, [], []⟩ n)
    (hjudge : r.judge ⟨c.hello, c.auth⟩ = .admitted id) :
    ∃ finish more, more ≤ 3 ∧ Reached c r finish (n + more) ∧
      Stuck (duplexStep c.next r.next) finish ∧
      (finish.left, finish.right) =
        if fitsFrame (⟨id⟩ : AuthOK).encode = false then (.awaitOK r.cfg.ack, .admitFailed)
        else match decodeAuthOK (⟨id⟩ : AuthOK).encode with
        | .error e => (.failed (.authOK e), .established ⟨newSession false r.cfg.ack, id, c.auth⟩)
        | .ok _ =>
            (.established ⟨newSession true r.cfg.ack, id, c.auth⟩,
              .established ⟨newSession false r.cfg.ack, id, c.auth⟩) := by
  have hnext : r.next (.returned ⟨c.hello, c.auth⟩) = writePrompt (okFrame id)
      (.established ⟨newSession false r.cfg.ack, id, c.auth⟩) .admitFailed := by
    simp only [Responder.next, hjudge]
    rfl
  cases hfits : fitsFrame (⟨id⟩ : AuthOK).encode with
  | false =>
      have hpassed := h.turn (.rightPassed (hnext.trans (write_prompt_long (f := okFrame id)
        hfits _ _)))
      refine ⟨_, 1, by decide, hpassed, ?_, rfl⟩
      -- The dialer waits for an answer that does not come.
      intro party
      cases party <;> rfl
  | true =>
      have hsent := h.turn (.rightSent (hnext.trans (write_prompt_fits (f := okFrame id)
        hfits _ _)))
      have hread := hsent.turn (.leftReceived rfl rfl)
      rw [on_ok_own] at hread
      cases hok : decodeAuthOK (⟨id⟩ : AuthOK).encode with
      | error e =>
          rw [hok] at hread
          exact ⟨_, 3, le_rfl, hread.turn (.leftSent rfl), duplex_stuck rfl rfl, rfl⟩
      | ok ok =>
          rw [hok] at hread
          exact ⟨_, 2, by decide, hread, duplex_stuck rfl rfl, rfl⟩

/-- Some schedule comes to an end, and what it ends in is the outcome. -/
theorem outcome_reached (c : Caller) (r : Responder) :
    ∃ finish n, n ≤ 10 ∧ Reached c r finish n ∧ Stuck (duplexStep c.next r.next) finish ∧
      (finish.left, finish.right) = outcome c r := by
  unfold outcome
  cases hrole : knownRole c.role with
  | false =>
      have hhello := reached_hello (c := c) (r := r)
      rw [on_hello_own, hrole] at hhello
      have hsent := hhello.turn (.rightSent (write_prompt_fits
        (f := ⟨.error, 0, reasonProtocolMalformedFrame⟩) fits_malformed _ _))
      obtain ⟨finish, hreached, hstuck, hleft, hright⟩ :=
        hsent.told rfl rfl rfl rfl
      exact ⟨finish, _, by decide, hreached, hstuck, Prod.ext hleft hright⟩
  | true =>
      have hanswered := reached_ack (r := r) hrole
      rw [on_ack_own] at hanswered
      cases hack : decodeHelloAck r.cfg.ack.encode with
      | error e =>
          rw [hack] at hanswered
          obtain ⟨finish, hreached, hstuck, hleft, hright⟩ := hanswered.hung
          exact ⟨finish, _, by decide, hreached, hstuck, Prod.ext hleft hright⟩
      | ok ack =>
          rw [hack] at hanswered
          cases hfits : fitsFrame c.auth.encode with
          | false =>
              have hpassed := hanswered.turn (.leftPassed (write_prompt_long
                (f := c.authFrame) hfits _ _))
              obtain ⟨finish, hreached, hstuck, hleft, hright⟩ := hpassed.hung
              exact ⟨finish, _, by decide, hreached, hstuck, Prod.ext hleft hright⟩
          | true =>
              have hclaimed := reached_auth hrole hack hfits
              rw [on_auth_own] at hclaimed
              cases hauth : decodeAuth c.auth.encode with
              | error e =>
                  rw [hauth] at hclaimed
                  have hsent := hclaimed.turn (.rightSent (write_prompt_fits
                    (f := ⟨.error, 0, reasonProtocolMalformedFrame⟩) fits_malformed _ _))
                  obtain ⟨finish, hreached, hstuck, hleft, hright⟩ :=
                    hsent.told rfl rfl rfl rfl
                  exact ⟨finish, _, le_rfl, hreached, hstuck, Prod.ext hleft hright⟩
              | ok auth =>
                  rw [hauth] at hclaimed
                  obtain rfl := auth_decode_unique hauth
                  cases hjudge : r.judge ⟨c.hello, c.auth⟩ with
                  | refuse reason =>
                      obtain ⟨finish, hreached, hstuck, hleft, hright⟩ :=
                        reached_refused hclaimed hjudge
                      exact ⟨finish, _, le_rfl, hreached, hstuck, Prod.ext hleft hright⟩
                  | admitted id =>
                      obtain ⟨finish, more, hmore, hreached, hstuck, hends⟩ :=
                        reached_admitted hclaimed hjudge
                      exact ⟨finish, _, by omega, hreached, hstuck, hends⟩

/-- The peers that get a session: a known role, limits and claims that are within what the decoders
accept, and an application that admits them under a name that is. -/
def Acceptable (c : Caller) (r : Responder) : Prop :=
  knownRole c.role = true ∧ r.cfg.ack.Valid ∧ c.auth.Valid ∧
    ∃ id, r.judge ⟨c.hello, c.auth⟩ = .admitted id ∧ (⟨id⟩ : AuthOK).Valid

/-- A claim of valid strings can be written. -/
theorem fits_auth (h : c.auth.Valid) : fitsFrame c.auth.encode = true := by
  refine fits_frame_of_le ?_
  have hdevice := h c.auth.deviceID (by simp [Auth.strings])
  have huser := h c.auth.userID (by simp [Auth.strings])
  have hresource := h c.auth.resource (by simp [Auth.strings])
  simp only [maxIdentityLen] at hdevice huser hresource
  simp only [Auth.encode, Auth.strings, List.foldl_cons, List.foldl_nil, length_append_string,
    List.length_nil]
  omega

theorem fits_auth_ok {id : Bytes} (h : (⟨id⟩ : AuthOK).Valid) :
    fitsFrame (⟨id⟩ : AuthOK).encode = true := by
  refine fits_frame_of_le ?_
  have hid : id.length ≤ maxIdentityLen := h
  simp only [maxIdentityLen] at hid
  simp only [AuthOK.encode, length_append_string, List.length_nil]
  omega

/-- The dialer gets a session exactly if it is acceptable. -/
theorem outcome_established_iff (c : Caller) (r : Responder) :
    (∃ e, (outcome c r).1 = .established e) ↔ Acceptable c r := by
  constructor
  · rintro ⟨e, he⟩
    unfold outcome at he
    split at he
    · cases he
    next hrole =>
      split at he
      · cases he
      next ack hack =>
        split at he
        · cases he
        split at he
        · cases he
        next auth hauth =>
          split at he
          · cases he
          next id hjudge =>
            split at he
            · cases he
            split at he
            · cases he
            next ok hok =>
              obtain ⟨rfl, -⟩ := decode_hello_ack_ok hack
              obtain rfl := auth_decode_unique hauth
              obtain rfl := auth_ok_decode_unique hok
              exact ⟨Bool.eq_true_of_not_eq_false hrole, (decode_hello_ack_iff.mp hack).1,
                (decode_auth_iff.mp hauth).1, id, hjudge, (decode_auth_ok_iff.mp hok).1⟩
  · rintro ⟨hrole, hvalid, hclaim, id, hjudge, hid⟩
    have hack := decode_hello_ack_iff.mpr ⟨hvalid, rfl⟩
    have hauth := decode_auth_iff.mpr ⟨hclaim, rfl⟩
    have hok := decode_auth_ok_iff.mpr ⟨hid, rfl⟩
    refine ⟨⟨newSession true r.cfg.ack, id, c.auth⟩, ?_⟩
    simp only [outcome, hrole, hack, fits_auth hclaim, hauth, hjudge, fits_auth_ok hid, hok,
      Bool.true_eq_false, if_false]

/-- On a connection that does not fail, the schedule does not matter: whatever turns have been
taken, at most ten in all lead to the one end, and there the dialer has a session exactly if the
responder's application and the decoders of both ends accept what they are told. -/
theorem handshake_ends {sofar : List Party}
    (hrun : run (duplexStep c.next r.next) newConnection sofar = some d) :
    ∃ rest finish, run (duplexStep c.next r.next) d rest = some finish ∧
      Stuck (duplexStep c.next r.next) finish ∧ sofar.length + rest.length ≤ 10 ∧
      (finish.left, finish.right) = outcome c r ∧
      ((∃ e, finish.left = .established e) ↔ Acceptable c r) := by
  obtain ⟨finish, n, hn, ⟨actions, hactions, rfl⟩, hstuck, hends⟩ := outcome_reached c r
  obtain ⟨rest, hrest, hlength⟩ := run_completes duplex_diamond hactions hstuck hrun
  refine ⟨rest, finish, hrest, hstuck, hlength.trans_le hn, hends, ?_⟩
  have hleft : finish.left = (outcome c r).1 := congrArg Prod.fst hends
  rw [hleft]
  exact outcome_established_iff c r

end Completion

section Samples

/-- An agent that claims the device `d`, and a relay that admits it as `s` and no other. -/
def sampleCaller : Caller := ⟨roleAgent, ⟨ascii "d", [], []⟩⟩

def sampleResponder : Responder :=
  ⟨⟨0, 0, 0⟩, fun h => if h.auth.deviceID = ascii "d" then .admitted (ascii "s")
    else .refuse reasonAuthFailed⟩

/-- The turns of a handshake, one party after the other. -/
def inTurn : List Party := [.left, .right, .right, .left, .left, .right, .right, .left]

/-- The name of the dialer's session. -/
def Dialing.name : Dialing → Option Bytes
  | .established e => some e.id
  | _ => none

/-- Both ends of the sample have a session, under the same name. -/
theorem sessions_agree_sample : ∃ d e e',
    run (handshakeStep sampleCaller sampleResponder) newConnection (inTurn.map .turn) = some d ∧
      d.left = .established e ∧ d.right = .established e' ∧ e'.id = e.id := by
  have hview : (run (handshakeStep sampleCaller sampleResponder) newConnection
      (inTurn.map .turn)).bind (·.left.name) = some (ascii "s") := by
    decide +kernel
  obtain ⟨d, hrun, hname⟩ := Option.bind_eq_some_iff.mp hview
  cases hleft : d.left with
  | established e =>
      obtain ⟨e', hright, hid, -⟩ := sessions_agree hrun hleft
      exact ⟨d, e, e', hrun, hleft, hright, hid⟩
  | _ =>
      rw [hleft] at hname
      cases hname

/-- From the start of the sample every schedule comes to the same end. -/
theorem handshake_ends_sample : ∃ rest finish,
    run (duplexStep sampleCaller.next sampleResponder.next) newConnection rest = some finish ∧
      (finish.left, finish.right) = outcome sampleCaller sampleResponder ∧ rest.length ≤ 10 := by
  obtain ⟨rest, finish, hrest, -, hlength, hends, -⟩ :=
    @handshake_ends sampleCaller sampleResponder newConnection [] rfl
  exact ⟨rest, finish, hrest, hends, by simpa using hlength⟩

end Samples

end AccessRelay.Mux
