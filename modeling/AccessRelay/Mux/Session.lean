import AccessRelay.Mux.Operation

/-!
# Sessions

`internal/mux/session.go`: one end of a multiplexed connection. The state holds the session's
maps and channels, every stream object it has created, the calls of the application, the read
loop, and the body of `closeOnce`. A step is one critical section, one channel operation or one
`WriteFrame`; which thread moves next is in the action, so a run is one interleaving of all of
them.

A session is a machine of its own. The frames it reads are inputs, from a peer that may send
anything; the frames it writes are appended to `out`.
-/

namespace AccessRelay.Mux

open Encoding Proto

/-- A stream object: its identifier, and its place among the objects of the session that have
this identifier. -/
structure Handle where
  id : UInt32
  nth : Nat
  deriving DecidableEq, Repr

/-- A call of the application. `Open` becomes an operation on the stream it creates, and
`AcceptStream` one on the stream it returns. -/
inductive Call where
  | openStream (payload : Bytes)
  | openFailed (error : OpenError)
  | acceptStream
  | acceptFailed
  | stream (h : Handle) (op : Op)
  deriving DecidableEq, Repr

/-- What the read loop does next with the stream a frame is for. -/
inductive Task where
  | acking
  | queueing
  | dropping
  | delivering (payload : Bytes)
  | granting (credit : UInt32)
  | closing (reason : Reason)
  | retiring
  deriving DecidableEq, Repr

/-- The read loop. `failing` ends it with a call of `shutdown`; `stopping` is the same call on an
ERROR frame, after which the loop reads on. -/
inductive Reader where
  | idle
  | serving (h : Handle) (task : Task)
  | refusing (id : UInt32)
  | lookingUp (id : UInt32) (reason : Reason)
  | ponging (payload : Bytes)
  | failing (reason : Reason)
  | stopping (reason : Reason)
  | waiting
  | ended
  deriving DecidableEq, Repr

/-- The body of `closeOnce`, which `Close` and `shutdown` share. -/
inductive Ending where
  | live
  | announcing (reason : Reason)
  | collecting (reason : Reason)
  | killing (reason : Reason) (streams pending : List Handle)
  | notifying (reason : Reason) (pending : List Handle)
  | ended (reason : Reason)
  deriving DecidableEq, Repr

/-- One end of a connection. `streams` and `pending` are the two maps by identifier; `acks` holds
the answers sent to the channels of `Open`, each of which is received at most once. -/
structure Session where
  isClient : Bool
  limits : Limits
  cells : UInt32 → List Cell
  streams : List Handle
  pending : List Handle
  acks : List (Handle × Reason)
  nextID : UInt32
  acceptCh : List Handle
  calls : List Call
  reader : Reader
  ending : Ending
  done : Bool
  out : List Frame

/-- `newSession`. -/
def newSession (isClient : Bool) (ack : HelloAck) : Session where
  isClient := isClient
  limits :=
    { maxFrame := ack.maxFramePayload
      window := ack.initialWindow
      maxStreams := ack.maxStreams
      creditThreshold := if ack.initialWindow / 2 = 0 then 1 else ack.initialWindow / 2 }
  cells := fun _ => []
  streams := []
  pending := []
  acks := []
  nextID := if isClient then 1 else 2
  acceptCh := []
  calls := []
  reader := .idle
  ending := .live
  done := false
  out := []

namespace Session

/-- A stream object. -/
def cell (s : Session) (h : Handle) : Option Cell := (s.cells h.id)[h.nth]?

/-- The session with one stream object changed. -/
def setCell (s : Session) (h : Handle) (c : Cell) : Session :=
  { s with cells := Function.update s.cells h.id ((s.cells h.id).set h.nth c) }

/-- The handle that the next object with this identifier gets. -/
def nextHandle (s : Session) (id : UInt32) : Handle := ⟨id, (s.cells id).length⟩

/-- Create a stream object and enter it into the stream map. -/
def register (s : Session) (st : Stream) : Session :=
  { s with
    cells := Function.update s.cells st.id (s.cells st.id ++ [newCell st])
    streams := s.nextHandle st.id :: s.streams.filter fun h => h.id ≠ st.id }

/-- `lookup`. -/
def lookup (s : Session) (id : UInt32) : Option Handle := s.streams.find? fun h => h.id = id

/-- `retire`. -/
def retire (s : Session) (id : UInt32) : Session :=
  { s with
    streams := s.streams.filter fun h => h.id ≠ id
    pending := s.pending.filter fun h => h.id ≠ id }

/-- Send an answer to the channel of an `Open`, which has room for one. -/
def answer (s : Session) (h : Handle) (reason : Reason) : Session :=
  { s with acks := if s.acks.any fun a => a.1 = h then s.acks else (h, reason) :: s.acks }

/-- What the channel of an `Open` holds. -/
def ackFor (s : Session) (h : Handle) : Option Reason :=
  (s.acks.find? fun a => a.1 = h).map Prod.snd

/-- `completeOpen`: answer the `Open` that waits for this identifier, if there is one. -/
def completeOpen (s : Session) (id : UInt32) (reason : Reason) : Session :=
  match s.pending.find? fun h => h.id = id with
  | none => s
  | some h => { s with pending := s.pending.filter fun h => h.id ≠ id }.answer h reason

/-- Put a frame on the connection. -/
def emit (s : Session) (type : Typ) (id : UInt32) (payload : Bytes) : Session :=
  { s with out := s.out ++ [⟨type, id, payload⟩] }

/-- What a step of an operation asks of the session. -/
def perform (s : Session) (id : UInt32) : Effect → Session
  | .silent => s
  | .send type payload => s.emit type id payload
  | .retire => s.retire id

/-- The critical section of `Open`: register a stream under the next identifier. -/
def openStream (s : Session) (payload : Bytes) : Session × Call :=
  if s.done then (s, .openFailed .sessionClosed)
  else if s.limits.maxStreams ≤ UInt32.ofNat s.streams.length then
    (s, .openFailed (.tooManyStreams s.limits.maxStreams))
  else
    let h := s.nextHandle s.nextID
    ({ s.register (newStream s.nextID s.limits.window) with
        pending := h :: s.pending.filter fun h => h.id ≠ s.nextID
        nextID := s.nextID + 2 },
      .stream h (.sendOpen payload))

/-- The application holds the stream: `Open` or `AcceptStream` has returned it. -/
def holds (s : Session) (h : Handle) : Bool :=
  s.calls.any fun c => c = .stream h .opened ∨ c = .stream h .accepted

/-- The application makes a call. -/
def start (s : Session) (call : Call) : Option Session :=
  match call with
  | .openStream _ | .acceptStream => some { s with calls := s.calls ++ [call] }
  | .stream h op =>
      if s.holds h then
        (s.cell h).bind fun c => (op.start c).map fun c' =>
          { s.setCell h c' with calls := s.calls ++ [call] }
      else none
  | .openFailed _ | .acceptFailed => none

/-- The next step of a call: the session after it, and the call that is left. -/
def callStep (s : Session) (choice : Choice) : Call → Option (Session × Call)
  | .openStream payload => some (s.openStream payload)
  | .acceptStream =>
      match choice with
      | .value =>
          match s.acceptCh with
          | [] => none
          | h :: rest => some ({ s with acceptCh := rest }, .stream h .accepted)
      | .cancelled => some (s, .acceptFailed)
      | .sessionDone => if s.done then some (s, .acceptFailed) else none
  | .stream h op =>
      (s.cell h).bind fun c =>
        (op.step s.limits s.done (s.ackFor h) c choice).map fun turn =>
          ((s.setCell h turn.cell).perform h.id turn.effect, .stream h turn.op)
  | .openFailed _ | .acceptFailed => none

/-- The critical section of `handleOpen`. -/
def handleOpen (s : Session) (id : UInt32) (payload : Bytes) : Session :=
  if s.streams.any fun h => h.id = id then
    { s with reader := .failing reasonProtocolMalformedFrame }
  else if decide (id % 2 = 1) = s.isClient then
    { s with reader := .failing reasonProtocolMalformedFrame }
  else if s.limits.maxStreams ≤ UInt32.ofNat s.streams.length then
    { s with reader := .refusing id }
  else
    { s.register { newStream id s.limits.window with openPayload := payload } with
      reader := .serving (s.nextHandle id) .acking }

/-- Find the stream a frame is for; a frame for a stream that is gone is dropped. -/
def serve (s : Session) (id : UInt32) (task : Task) : Session :=
  match s.lookup id with
  | none => { s with reader := .idle }
  | some h => { s with reader := .serving h task }

/-- The read loop has read a frame: the size check, and `dispatch` up to and including its first
critical section. -/
def receive (s : Session) (f : Frame) : Session :=
  if s.limits.maxFrame < UInt32.ofNat f.payload.length then
    { s with reader := .failing reasonLimitFrameTooLarge }
  else match f.type with
    | .openStream => s.handleOpen f.streamID f.payload
    | .streamOK => s.completeOpen f.streamID reasonOK
    | .streamData => s.serve f.streamID (.delivering f.payload)
    | .streamWindow =>
        match decodeWindow f.payload with
        | none => { s with reader := .failing reasonProtocolMalformedFrame }
        | some credit => s.serve f.streamID (.granting credit)
    | .closeStream =>
        let reason := if f.payload = [] then reasonOK else f.payload
        { s.completeOpen f.streamID reason with reader := .lookingUp f.streamID reason }
    | .ping => { s with reader := .ponging f.payload }
    | .pong => s
    | .error => { s with reader := .stopping f.payload }
    | .hello | .helloAck | .auth | .authOK =>
        { s with reader := .failing reasonProtocolMalformedFrame }

/-- Write a frame from the read loop; an error is fatal to the session. -/
def reply (s : Session) (type : Typ) (id : UInt32) (payload : Bytes) (next : Reader) : Session :=
  if writable s.done payload then { s.emit type id payload with reader := next }
  else { s with reader := .failing reasonProtocolMalformedFrame }

/-- The next step of the read loop with the stream a frame is for. -/
def serveStep (s : Session) (h : Handle) (c : Cell) : Task → Session
  | .acking => s.reply .streamOK h.id [] (.serving h .queueing)
  | .queueing =>
      -- The queue has room for as many streams as may be open.
      if s.acceptCh.length < s.limits.maxStreams.toNat then
        { s with acceptCh := s.acceptCh ++ [h], reader := .idle }
      else { s with reader := .serving h .dropping }
  | .dropping => { s.retire h.id with reader := .refusing h.id }
  | .delivering payload =>
      match c.stream.deliver payload with
      | none => { s with reader := .failing reasonFlowControlViolation }
      | some st => { s.setCell h { c with stream := st } with reader := .idle }
  | .granting credit =>
      { s.setCell h { c with stream := c.stream.grantCredit credit } with reader := .idle }
  | .closing reason =>
      { s.setCell h { c with stream := c.stream.remoteClose reason } with
        reader := .serving h .retiring }
  | .retiring =>
      if c.stream.finished then { s.retire h.id with reader := .idle }
      else { s with reader := .idle }

/-- `shutdown` has been called: the first caller of `closeOnce` runs its body. -/
def shutdown (s : Session) (reason : Reason) (next : Reader) : Session :=
  { s with
    reader := next
    ending := if s.ending = .live then .collecting reason else s.ending }

/-- The next step of the read loop with the frame it has read. -/
def dispatch (s : Session) : Option Session :=
  match s.reader with
  | .idle | .ended => none
  | .serving h task => (s.cell h).map fun c => s.serveStep h c task
  | .refusing id => some (s.reply .closeStream id reasonLimitStreamsExceeded .idle)
  | .lookingUp id reason => some (s.serve id (.closing reason))
  | .ponging payload => some (s.reply .pong 0 payload .idle)
  | .failing reason => some (s.shutdown reason .ended)
  | .stopping reason => some (s.shutdown reason .waiting)
  | .waiting => if s.done then some { s with reader := .idle } else none

/-- The next step of the body of `closeOnce`. `choice` is the stream that is visited next. -/
def endStep (s : Session) (choice : Nat) : Option Session :=
  match s.ending with
  | .live | .ended _ => none
  | .announcing reason =>
      some { if writable s.done reason then s.emit .error 0 reason else s with
        ending := .collecting reason }
  | .collecting reason =>
      some { s with
        streams := [], pending := [], ending := .killing reason s.streams s.pending }
  | .killing reason [] pending => some { s with ending := .notifying reason pending }
  | .killing reason streams pending =>
      (streams[choice]?).bind fun h => (s.cell h).map fun c =>
        { s.setCell h { c with stream := c.stream.kill reason } with
          ending := .killing reason (streams.eraseIdx choice) pending }
  | .notifying reason [] => some { s with done := true, ending := .ended reason }
  | .notifying reason (h :: rest) =>
      some { s.answer h reason with ending := .notifying reason rest }

end Session

/-- What a session does by itself. -/
inductive Action where
  | start (call : Call)
  | advance (index : Nat) (choice : Choice)
  | dispatch
  | readFailed (err : CodecError)
  | close (reason : Reason)
  | endStep (choice : Nat)
  | ping
  deriving DecidableEq

namespace Session

/-- One step of a session. -/
def step (s : Session) : Action → Option Session
  | .start call => s.start call
  | .advance index choice =>
      (s.calls[index]?).bind fun call =>
        (s.callStep choice call).map fun result =>
          { result.1 with calls := s.calls.set index result.2 }
  | .dispatch => s.dispatch
  | .readFailed err =>
      if s.reader = .idle then some { s with reader := .failing (reasonFor err) } else none
  | .close reason =>
      some (if s.ending = .live then { s with ending := .announcing reason } else s)
  | .endStep choice => s.endStep choice
  | .ping => some (if writable s.done [] then s.emit .ping 0 [] else s)

/-- The read loop takes a frame off the connection. -/
def read (s : Session) (f : Frame) : Option Session :=
  if s.reader = .idle then some (s.receive f) else none

end Session

end AccessRelay.Mux
