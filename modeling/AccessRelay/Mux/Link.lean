import AccessRelay.Mux.System

/-!
# One stream, seen from one end

What a session knows and does about a single stream identifier, with the rest of the session
left out: `End`. `EndStep` lists what can happen to it by itself, and `Receive` what a message of
the stream does to it. `session_step_view` and `session_read_view` show that a session is no more
than this for each of its identifiers: every step of the session is a step of every end.

An end has room for one stream object. That is enough as long as identifiers are not used twice,
which is the part of `Tidy` that a step of the session alone cannot keep.
-/

namespace AccessRelay.Mux

open Encoding Proto

/-- A frame of the stream. -/
inductive Msg where
  | openStream
  | streamOK
  | data (b : Bytes)
  | window (credit : UInt32)
  | close (reason : Reason)
  deriving DecidableEq

/-- The frame as a message of stream `id`; a CLOSE_STREAM without a reason means ok. -/
def msgOf (id : UInt32) (f : Frame) : Option Msg :=
  if f.streamID = id then
    match f.type with
    | .openStream => some .openStream
    | .streamOK => some .streamOK
    | .streamData => some (.data f.payload)
    | .streamWindow => (decodeWindow f.payload).map .window
    | .closeStream => some (.close (if f.payload = [] then reasonOK else f.payload))
    | _ => none
  else none

/-- What the read loop holds of the stream. `stopped` means that it reads no more. -/
inductive Hand where
  | free
  | serving (task : Task)
  | refusing
  | lookingUp (reason : Reason)
  | stopped
  deriving DecidableEq

/-- The read loop, as far as it is about stream `id`. -/
def handOf (id : UInt32) : Reader → Hand
  | .serving h task => if h = ⟨id, 0⟩ then .serving task else .free
  | .refusing i => if i = id then .refusing else .free
  | .lookingUp i reason => if i = id then .lookingUp reason else .free
  | .failing _ | .ended => .stopped
  | .idle | .ponging _ | .stopping _ | .waiting => .free

/-- The operation of a call on the stream. -/
def opOf (id : UInt32) : Call → Option Op
  | .stream h op => if h = ⟨id, 0⟩ then some op else none
  | _ => none

/-- The streams that `closeOnce` has collected and not yet killed. -/
def Ending.toKill : Ending → List Handle
  | .killing _ streams _ => streams
  | _ => []

/-- The channels that `closeOnce` has collected and not yet sent to. -/
def Ending.toAnswer : Ending → List Handle
  | .killing _ _ pending | .notifying _ pending => pending
  | _ => []

/-- One end of one stream. -/
structure End where
  cell : Option Cell
  registered : Bool
  awaiting : Bool
  acked : Option Reason
  queued : Nat
  ops : Multiset Op
  hand : Hand
  doomed : Bool
  unanswered : Bool
  done : Bool
  live : Bool
  out : List Msg

/-- A session, as far as it is about stream `id`. -/
def view (id : UInt32) (s : Session) : End where
  cell := s.cell ⟨id, 0⟩
  registered := (⟨id, 0⟩ : Handle) ∈ s.streams
  awaiting := (⟨id, 0⟩ : Handle) ∈ s.pending
  acked := s.ackFor ⟨id, 0⟩
  queued := s.acceptCh.count ⟨id, 0⟩
  ops := (s.calls.filterMap (opOf id) : List Op)
  hand := handOf id s.reader
  doomed := (⟨id, 0⟩ : Handle) ∈ s.ending.toKill
  unanswered := (⟨id, 0⟩ : Handle) ∈ s.ending.toAnswer
  done := s.done
  live := s.ending = .live
  out := s.out.filterMap (msgOf id)

namespace End

/-- `retire`. -/
def retire (e : End) : End := { e with registered := false, awaiting := false }

/-- An effect of an operation on the stream. -/
def perform (e : End) (id : UInt32) : Effect → End
  | .silent => e
  | .send type payload => { e with out := e.out ++ (msgOf id ⟨type, id, payload⟩).toList }
  | .retire => e.retire

/-- Send an answer to the channel of `Open`, which has room for one. -/
def answer (e : End) (reason : Reason) : End := { e with acked := e.acked.or (some reason) }

/-- `completeOpen`. -/
def complete (e : End) (reason : Reason) : End :=
  { e with
    awaiting := false
    acked := if e.awaiting then e.acked.or (some reason) else e.acked }

/-- The application holds the stream. -/
def Held (e : End) : Prop := .opened ∈ e.ops ∨ .accepted ∈ e.ops

end End

/-- Which operation of the application a step belongs to. -/
inductive Label where
  | quiet
  | start (op : Op)
  | advance (op : Op)

/-- A step of one end by itself. `opens` says that the stream has an identifier of this end. -/
inductive EndStep (lim : Limits) (opens : Bool) (id : UInt32) : End → Label → End → Prop where
  | idle {e : End} {done live : Bool} (hdone : e.done = true → done = true)
      (hended : done = true → e.done = true ∨ e.live = false)
      (hlive : live = true → e.live = true) :
      EndStep lim opens id e .quiet { e with done := done, live := live }
  | halt {e : End} (hhand : e.hand = .free ∨ e.hand = .serving .acking ∨ e.hand = .refusing ∨
      ∃ b, e.hand = .serving (.delivering b)) :
      EndStep lim opens id e .quiet { e with hand := .stopped }
  | create {e : End} (payload : Bytes) (hopens : opens = true) (hcell : e.cell = none)
      (hdone : e.done = false) :
      EndStep lim opens id e .quiet { e with
        cell := some (newCell (newStream id lim.window)), registered := true, awaiting := true
        ops := .sendOpen payload ::ₘ e.ops }
  | start {e : End} {op : Op} {c c' : Cell} (hheld : e.Held) (hcell : e.cell = some c)
      (hop : op.start c = some c') :
      EndStep lim opens id e (.start op) { e with cell := some c', ops := op ::ₘ e.ops }
  | advance {e : End} {op : Op} {rest : Multiset Op} {c : Cell} {turn : Turn}
      (hcell : e.cell = some c) (hops : e.ops = op ::ₘ rest)
      (hturn : OpStep lim e.done e.acked c op turn) :
      EndStep lim opens id e (.advance op)
        ({ e with cell := some turn.cell, ops := turn.op ::ₘ rest }.perform id turn.effect)
  | accept {e : End} {q : Nat} (hqueued : e.queued = q + 1) :
      EndStep lim opens id e .quiet { e with queued := q, ops := .accepted ::ₘ e.ops }
  | ack {e : End} {c : Cell} (hhand : e.hand = .serving .acking) (hcell : e.cell = some c)
      (hdone : e.done = false) :
      EndStep lim opens id e .quiet { e with
        out := e.out ++ [.streamOK], hand := .serving .queueing }
  | queue {e : End} {c : Cell} (hhand : e.hand = .serving .queueing) (hcell : e.cell = some c) :
      EndStep lim opens id e .quiet { e with queued := e.queued + 1, hand := .free }
  | full {e : End} {c : Cell} (hhand : e.hand = .serving .queueing) (hcell : e.cell = some c) :
      EndStep lim opens id e .quiet { e with hand := .serving .dropping }
  | drop {e : End} {c : Cell} (hhand : e.hand = .serving .dropping) (hcell : e.cell = some c) :
      EndStep lim opens id e .quiet { e with
        registered := false, awaiting := false, hand := .refusing }
  | refuse {e : End} (hhand : e.hand = .refusing) (hdone : e.done = false) :
      EndStep lim opens id e .quiet { e with
        out := e.out ++ [.close reasonLimitStreamsExceeded], hand := .free }
  | deliver {e : End} {c : Cell} {b : Bytes} {st : Stream}
      (hhand : e.hand = .serving (.delivering b)) (hcell : e.cell = some c)
      (hdeliver : c.stream.deliver b = some st) :
      EndStep lim opens id e .quiet { e with
        cell := some { c with stream := st }, hand := .free }
  | grant {e : End} {c : Cell} {credit : UInt32}
      (hhand : e.hand = .serving (.granting credit)) (hcell : e.cell = some c) :
      EndStep lim opens id e .quiet { e with
        cell := some { c with stream := c.stream.grantCredit credit }, hand := .free }
  | found {e : End} {reason : Reason} (hhand : e.hand = .lookingUp reason)
      (hregistered : e.registered = true) :
      EndStep lim opens id e .quiet { e with hand := .serving (.closing reason) }
  | missing {e : End} {reason : Reason} (hhand : e.hand = .lookingUp reason)
      (hregistered : e.registered = false) :
      EndStep lim opens id e .quiet { e with hand := .free }
  | close {e : End} {c : Cell} {reason : Reason}
      (hhand : e.hand = .serving (.closing reason)) (hcell : e.cell = some c) :
      EndStep lim opens id e .quiet { e with
        cell := some { c with stream := c.stream.remoteClose reason }
        hand := .serving .retiring }
  | retired {e : End} {c : Cell} (hhand : e.hand = .serving .retiring) (hcell : e.cell = some c)
      (hfinished : c.stream.finished = true) :
      EndStep lim opens id e .quiet { e with
        registered := false, awaiting := false, hand := .free }
  | kept {e : End} {c : Cell} (hhand : e.hand = .serving .retiring) (hcell : e.cell = some c)
      (hfinished : c.stream.finished = false) :
      EndStep lim opens id e .quiet { e with hand := .free }
  | collect {e : End} (hlive : e.live = false) (hdoomed : e.doomed = false)
      (hunanswered : e.unanswered = false) :
      EndStep lim opens id e .quiet { e with
        registered := false, awaiting := false, doomed := e.registered
        unanswered := e.awaiting }
  | kill {e : End} {c : Cell} {reason : Reason} {doomed : Bool} (hlive : e.live = false)
      (hdoomed : e.doomed = true) (hcell : e.cell = some c) :
      EndStep lim opens id e .quiet { e with
        cell := some { c with stream := c.stream.kill reason }, doomed := doomed }
  | notify {e : End} {reason : Reason} {unanswered : Bool} (hlive : e.live = false)
      (hdoomed : e.doomed = false) (hunanswered : e.unanswered = true) :
      EndStep lim opens id e .quiet { e.answer reason with unanswered := unanswered }

/-- The message is above the limit of the connection. Only the size of what it carries for the
application is recorded here. -/
def Msg.TooLarge (lim : Limits) : Msg → Prop
  | .data b => lim.maxFrame < UInt32.ofNat b.length
  | .close reason => lim.maxFrame < UInt32.ofNat reason.length
  | _ => True

/-- What the arrival of a message does to an end whose read loop is free. -/
inductive Receive (lim : Limits) (id : UInt32) : End → Msg → End → Prop where
  | tooLarge {e : End} {m : Msg} (hsize : m.TooLarge lim) :
      Receive lim id e m { e with hand := .stopped }
  | openFailed {e : End} : Receive lim id e .openStream { e with hand := .stopped }
  | openRefused {e : End} : Receive lim id e .openStream { e with hand := .refusing }
  | opened {e : End} (payload : Bytes) (hcell : e.cell = none) :
      Receive lim id e .openStream { e with
        cell := some (newCell { newStream id lim.window with openPayload := payload })
        registered := true, hand := .serving .acking }
  | streamOK {e : End} : Receive lim id e .streamOK (e.complete reasonOK)
  | data {e : End} {b : Bytes} (hregistered : e.registered = true) :
      Receive lim id e (.data b) { e with hand := .serving (.delivering b) }
  | window {e : End} {credit : UInt32} (hregistered : e.registered = true) :
      Receive lim id e (.window credit) { e with hand := .serving (.granting credit) }
  | dropped {e : End} {m : Msg} (hregistered : e.registered = false)
      (hm : (∃ b, m = .data b) ∨ ∃ credit, m = .window credit) : Receive lim id e m e
  | close {e : End} {reason : Reason} :
      Receive lim id e (.close reason) { e.complete reason with hand := .lookingUp reason }

end AccessRelay.Mux
