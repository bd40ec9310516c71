import AccessRelay.Mux.Stream
import AccessRelay.Proto.Handshake

/-!
# Operations on a stream

The methods of `internal/mux/stream.go` and the second half of `Open`, as small programs. An
operation is named after what it does next. A step of an operation is one critical section, one
channel receive or one `WriteFrame`; it returns the stream after the step, the operation that is
left, and what the session has to do: write a frame, or drop the stream from its maps.

`History` is not in the source. It records what the application handed to a stream and got back
from it.
-/

namespace AccessRelay.Mux

open Encoding Proto

/-- The limits of a connection. -/
structure Limits where
  maxFrame : UInt32
  window : UInt32
  maxStreams : UInt32
  creditThreshold : UInt32
  deriving DecidableEq, Repr

/-- What the application has seen of a stream: the bytes it handed to `Write`, those of them that
were put on the connection, the bytes `Read` took out of the buffer, whether a `Read` reported
the end, whether it called `Close`, whether it aborted the stream (`Reset`, or a close with a
reason other than ok), and whether it called `Reset` with a reason that the peer takes for an
orderly close. -/
structure History where
  handed : Bytes
  sent : Bytes
  returned : Bytes
  eof : Bool
  closing : Bool
  aborted : Bool
  quietReset : Bool
  deriving DecidableEq, Repr

/-- A stream object and its history. -/
structure Cell where
  stream : Stream
  history : History
  deriving DecidableEq, Repr

/-- A new stream object. -/
def newCell (st : Stream) : Cell := ⟨st, ⟨[], [], [], false, false, false, false⟩⟩

/-- Why `Open` failed. -/
inductive OpenError where
  | sessionClosed
  | tooManyStreams (limit : UInt32)
  | send
  | refused (reason : Reason)
  | cancelled
  deriving DecidableEq, Repr

/-- Why `Write` failed. -/
inductive WriteError where
  | reset (reason : Reason)
  | closed
  | send
  deriving DecidableEq, Repr

/-- An operation on a stream. `opened`, `accepted`, `openFailed` and those that end in `Done`,
`EOF` or `Failed` are over. -/
inductive Op where
  | sendOpen (payload : Bytes)
  | awaitAck
  | retireOpen (error : OpenError)
  | opened
  | openFailed (error : OpenError)
  | accepted
  | read (length : Nat)
  | sendWindowUpdate (credit : UInt32) (data : Bytes)
  | readDone (data : Bytes)
  | readEOF
  | readFailed (reason : Reason)
  | write (p : Bytes) (written : Nat)
  | sendData (p : Bytes) (written n : Nat)
  | writeDone (written : Nat) (error : Option WriteError)
  | closeWith (r : Reason)
  | sendClose (r : Reason)
  | retireIfDone (failed : Bool)
  | reset (r : Reason)
  | sendReset (r : Reason)
  | retire (failed : Bool)
  | closeDone (failed : Bool)
  deriving DecidableEq, Repr

/-- What a step asks of the session. -/
inductive Effect where
  | silent
  | send (type : Typ) (payload : Bytes)
  | retire
  deriving DecidableEq, Repr

/-- What a step comes to. -/
structure Turn where
  cell : Cell
  op : Op
  effect : Effect
  deriving DecidableEq, Repr

/-- Which case of a `select` is taken: the value that has arrived, the end of the caller's
context, or the end of the session. -/
inductive Choice where
  | value
  | cancelled
  | sessionDone
  deriving DecidableEq, Repr

/-- Whether `WriteFrame` accepts a payload: it fails on a closed connection and above the codec's
limit. The code cuts the length to 32 bits first; `withinBounds` is about payloads that this does
not change. -/
def writable (done : Bool) (payload : Bytes) : Bool :=
  !done && payload.length ≤ maxFramePayload.toNat

namespace Op

/-- The application calls a method: the history records it. -/
def start (c : Cell) : Op → Option Cell
  | .read _ | .reset _ => some c
  | .write p 0 => some { c with history := { c.history with handed := c.history.handed ++ p } }
  | .closeWith _ => some { c with history := { c.history with closing := true } }
  | _ => none

/-- The critical section of `Read`. -/
def stepRead (lim : Limits) (c : Cell) (length : Nat) : Option Turn :=
  if length = 0 then some ⟨c, .readDone [], .silent⟩
  else match c.stream.read lim.creditThreshold length with
    | .wait => none
    | .closed reason => some ⟨c, .readFailed reason, .silent⟩
    | .eof => some ⟨{ c with history := { c.history with eof := true } }, .readEOF, .silent⟩
    | .bytes data credit after =>
        some ⟨⟨after, { c.history with returned := c.history.returned ++ data }⟩,
          if credit = 0 then .readDone data else .sendWindowUpdate credit data, .silent⟩

/-- One round of the loop of `Write`. -/
def stepWrite (lim : Limits) (c : Cell) (p : Bytes) (written : Nat) : Option Turn :=
  if p.length ≤ written then some ⟨c, .writeDone written none, .silent⟩
  else match c.stream.write lim.maxFrame (p.length - written) with
    | .wait => none
    | .reset reason => some ⟨c, .writeDone written (some (.reset reason)), .silent⟩
    | .closed => some ⟨c, .writeDone written (some .closed), .silent⟩
    | .take n after => some ⟨{ c with stream := after }, .sendData p written n, .silent⟩

/-- `sendData`, and the way back to the loop of `Write`. -/
def stepSendData (done : Bool) (c : Cell) (p : Bytes) (written n : Nat) : Turn :=
  let chunk := (p.drop written).take n
  if writable done chunk then
    ⟨{ c with history := { c.history with sent := c.history.sent ++ chunk } },
      .write p (written + n), .send .streamData chunk⟩
  else ⟨c, .writeDone written (some .send), .silent⟩

/-- The critical section of `closeWith`. -/
def stepClose (c : Cell) (r : Reason) : Turn :=
  let history := { c.history with aborted := c.history.aborted || r ≠ reasonOK }
  match c.stream.closeLocal with
  | none => ⟨{ c with history := history }, .closeDone false, .silent⟩
  | some st => ⟨⟨st, history⟩, .sendClose r, .silent⟩

/-- The critical section of `Reset`. -/
def stepReset (c : Cell) (r : Reason) : Turn :=
  match c.stream.abort r with
  | none => ⟨{ c with history := { c.history with aborted := true } }, .closeDone false, .silent⟩
  | some st =>
      ⟨⟨st, { c.history with
          aborted := true, quietReset := c.history.quietReset || Stream.graceful r }⟩,
        .sendReset r, .silent⟩

/-- `sendClose`: nothing is sent, and nothing reported, on a session that is done. -/
def stepSendClose (done : Bool) (c : Cell) (r : Reason) (next : Bool → Op) : Turn :=
  if writable done r then ⟨c, next false, .send .closeStream r⟩ else ⟨c, next !done, .silent⟩

/-- The next step of an operation. `ack` is what the channel of an `Open` holds; `choice` is the
case of a `select` that is taken. -/
def step (lim : Limits) (done : Bool) (ack : Option Reason) (c : Cell) (choice : Choice) :
    Op → Option Turn
  | .sendOpen payload =>
      some (if writable done payload then ⟨c, .awaitAck, .send .openStream payload⟩
        else ⟨c, .retireOpen .send, .silent⟩)
  | .awaitAck =>
      match choice with
      | .value => ack.map fun reason =>
          ⟨c, if reason = reasonOK then .opened else .retireOpen (.refused reason), .silent⟩
      | .cancelled => some ⟨c, .retireOpen .cancelled, .silent⟩
      | .sessionDone => if done then some ⟨c, .openFailed .sessionClosed, .silent⟩ else none
  | .retireOpen error => some ⟨c, .openFailed error, .retire⟩
  | .read length => stepRead lim c length
  | .sendWindowUpdate credit data =>
      -- `Read` reports its bytes even if the credit cannot be sent.
      some ⟨c, .readDone data, if writable done (encodeWindow credit)
        then .send .streamWindow (encodeWindow credit) else .silent⟩
  | .write p written => stepWrite lim c p written
  | .sendData p written n => some (stepSendData done c p written n)
  | .closeWith r => some (stepClose c r)
  | .sendClose r => some (stepSendClose done c r .retireIfDone)
  | .retireIfDone failed =>
      some ⟨c, .closeDone failed, if c.stream.finished then .retire else .silent⟩
  | .reset r => some (stepReset c r)
  | .sendReset r => some (stepSendClose done c r .retire)
  | .retire failed => some ⟨c, .closeDone failed, .retire⟩
  | .opened | .openFailed _ | .accepted | .readDone _ | .readEOF | .readFailed _
  | .writeDone _ _ | .closeDone _ => none

end Op

/-- What a step of an operation can do, case by case. -/
inductive OpStep (lim : Limits) (done : Bool) (ack : Option Reason) (c : Cell) :
    Op → Turn → Prop where
  | openSent (payload : Bytes) (hdone : done = false) :
      OpStep lim done ack c (.sendOpen payload) ⟨c, .awaitAck, .send .openStream payload⟩
  | openUnsent (payload : Bytes) :
      OpStep lim done ack c (.sendOpen payload) ⟨c, .retireOpen .send, .silent⟩
  | acked (hack : ack = some reasonOK) : OpStep lim done ack c .awaitAck ⟨c, .opened, .silent⟩
  | refused (reason : Reason) (hack : ack = some reason) (hreason : reason ≠ reasonOK) :
      OpStep lim done ack c .awaitAck ⟨c, .retireOpen (.refused reason), .silent⟩
  | cancelled : OpStep lim done ack c .awaitAck ⟨c, .retireOpen .cancelled, .silent⟩
  | openEnded (hdone : done = true) :
      OpStep lim done ack c .awaitAck ⟨c, .openFailed .sessionClosed, .silent⟩
  | openRetired (error : OpenError) :
      OpStep lim done ack c (.retireOpen error) ⟨c, .openFailed error, .retire⟩
  | readNone : OpStep lim done ack c (.read 0) ⟨c, .readDone [], .silent⟩
  | readFailed (length : Nat) (hreset : c.stream.reset = true) :
      OpStep lim done ack c (.read length) ⟨c, .readFailed c.stream.resetReason, .silent⟩
  | readEOF (length : Nat) (hbuf : c.stream.buf = []) (hreset : c.stream.reset = false)
      (hclosed : c.stream.remoteClosed = true) :
      OpStep lim done ack c (.read length)
        ⟨{ c with history := { c.history with eof := true } }, .readEOF, .silent⟩
  | readBytes (length : Nat) {data : Bytes} {credit : UInt32} {after : Stream}
      (hread : c.stream.read lim.creditThreshold length = .bytes data credit after) :
      OpStep lim done ack c (.read length)
        ⟨⟨after, { c.history with returned := c.history.returned ++ data }⟩,
          if credit = 0 then .readDone data else .sendWindowUpdate credit data, .silent⟩
  | creditSent (credit : UInt32) (data : Bytes) (hdone : done = false) :
      OpStep lim done ack c (.sendWindowUpdate credit data)
        ⟨c, .readDone data, .send .streamWindow (encodeWindow credit)⟩
  | creditLost (credit : UInt32) (data : Bytes) (hdone : done = true) :
      OpStep lim done ack c (.sendWindowUpdate credit data) ⟨c, .readDone data, .silent⟩
  | written (p : Bytes) (written : Nat) (hlength : p.length ≤ written) :
      OpStep lim done ack c (.write p written) ⟨c, .writeDone written none, .silent⟩
  | writeReset (p : Bytes) (written : Nat) (hreset : c.stream.reset = true) :
      OpStep lim done ack c (.write p written)
        ⟨c, .writeDone written (some (.reset c.stream.resetReason)), .silent⟩
  | writeClosed (p : Bytes) (written : Nat) (hclosed : c.stream.localClosed = true)
      (hreset : c.stream.reset = false) :
      OpStep lim done ack c (.write p written)
        ⟨c, .writeDone written (some .closed), .silent⟩
  | took (p : Bytes) (written : Nat) {n : Nat} {after : Stream} (hlength : written < p.length)
      (hwrite : c.stream.write lim.maxFrame (p.length - written) = .take n after) :
      OpStep lim done ack c (.write p written)
        ⟨{ c with stream := after }, .sendData p written n, .silent⟩
  | dataSent (p : Bytes) (written n : Nat) (hdone : done = false) :
      OpStep lim done ack c (.sendData p written n)
        ⟨{ c with
            history := { c.history with sent := c.history.sent ++ (p.drop written).take n } },
          .write p (written + n), .send .streamData ((p.drop written).take n)⟩
  | dataLost (p : Bytes) (written n : Nat)
      (hlost : done = true ∨ maxFramePayload.toNat < ((p.drop written).take n).length) :
      OpStep lim done ack c (.sendData p written n)
        ⟨c, .writeDone written (some .send), .silent⟩
  | closeIdle (r : Reason) (hclosed : c.stream.localClosed = true ∨ c.stream.reset = true) :
      OpStep lim done ack c (.closeWith r)
        ⟨{ c with history := { c.history with aborted := c.history.aborted || r ≠ reasonOK } },
          .closeDone false, .silent⟩
  | closeLocal (r : Reason) (hclosed : c.stream.localClosed = false)
      (hreset : c.stream.reset = false) :
      OpStep lim done ack c (.closeWith r)
        ⟨⟨{ c.stream with localClosed := true },
            { c.history with aborted := c.history.aborted || r ≠ reasonOK }⟩,
          .sendClose r, .silent⟩
  | closeSent (r : Reason) (hdone : done = false) :
      OpStep lim done ack c (.sendClose r) ⟨c, .retireIfDone false, .send .closeStream r⟩
  | closeLost (r : Reason) (hlost : done = true ∨ maxFramePayload.toNat < r.length) :
      OpStep lim done ack c (.sendClose r) ⟨c, .retireIfDone !done, .silent⟩
  | closeRetired (failed : Bool) (hfinished : c.stream.finished = true) :
      OpStep lim done ack c (.retireIfDone failed) ⟨c, .closeDone failed, .retire⟩
  | closeKept (failed : Bool) (hfinished : c.stream.finished = false) :
      OpStep lim done ack c (.retireIfDone failed) ⟨c, .closeDone failed, .silent⟩
  | resetIdle (r : Reason) (hreset : c.stream.reset = true) :
      OpStep lim done ack c (.reset r)
        ⟨{ c with history := { c.history with aborted := true } }, .closeDone false, .silent⟩
  | resetAbort (r : Reason) (hreset : c.stream.reset = false) :
      OpStep lim done ack c (.reset r)
        ⟨⟨{ c.stream with
              reset := true, resetReason := r, localClosed := true, remoteClosed := true
              buf := [] },
            { c.history with
              aborted := true, quietReset := c.history.quietReset || Stream.graceful r }⟩,
          .sendReset r, .silent⟩
  | resetSent (r : Reason) (hdone : done = false) :
      OpStep lim done ack c (.sendReset r) ⟨c, .retire false, .send .closeStream r⟩
  | resetLost (r : Reason) (hlost : done = true ∨ maxFramePayload.toNat < r.length) :
      OpStep lim done ack c (.sendReset r) ⟨c, .retire !done, .silent⟩
  | resetRetired (failed : Bool) :
      OpStep lim done ack c (.retire failed) ⟨c, .closeDone failed, .retire⟩

section Inversion

variable {lim : Limits} {done : Bool} {ack : Option Reason} {c : Cell} {choice : Choice}
  {turn : Turn}

theorem writable_eq_true {payload : Bytes} :
    writable done payload = true ↔ done = false ∧ payload.length ≤ maxFramePayload.toNat := by
  simp [writable]

theorem writable_eq_false {payload : Bytes} :
    ¬ writable done payload = true ↔ done = true ∨ maxFramePayload.toNat < payload.length := by
  rw [writable_eq_true, not_and_or, Nat.not_le, Bool.not_eq_false]

theorem read_cases {length : Nat} (h : Op.stepRead lim c length = some turn) :
    OpStep lim done ack c (.read length) turn := by
  unfold Op.stepRead at h
  split_ifs at h with hlength
  · subst hlength
    cases h
    exact .readNone
  · cases hread : c.stream.read lim.creditThreshold length with
    | wait => simp [hread] at h
    | closed reason =>
        have hclosed : c.stream.reset = true ∧ reason = c.stream.resetReason := by
          unfold Stream.read at hread
          dsimp only at hread
          split_ifs at hread with hbuf hreset hremote hcredit
          exact ⟨hreset, (ReadResult.closed.inj hread).symm⟩
        simp only [hread, Option.some.injEq] at h
        rw [← h, hclosed.2]
        exact .readFailed length hclosed.1
    | eof =>
        obtain ⟨hbuf, hreset, hremote⟩ := Stream.read_eof hread
        simp only [hread, Option.some.injEq] at h
        rw [← h]
        exact .readEOF length hbuf hreset hremote
    | bytes data credit after =>
        simp only [hread, Option.some.injEq] at h
        rw [← h]
        exact .readBytes length hread

theorem write_cases {p : Bytes} {written : Nat} (h : Op.stepWrite lim c p written = some turn) :
    OpStep lim done ack c (.write p written) turn := by
  unfold Op.stepWrite at h
  split_ifs at h with hlength
  · cases h
    exact .written p written hlength
  · cases hwrite : c.stream.write lim.maxFrame (p.length - written) with
    | wait => simp [hwrite] at h
    | reset reason =>
        have hreset : c.stream.reset = true ∧ reason = c.stream.resetReason := by
          unfold Stream.write at hwrite
          dsimp only at hwrite
          split_ifs at hwrite with hreset hclosed hwindow
          exact ⟨hreset, (WriteResult.reset.inj hwrite).symm⟩
        simp only [hwrite, Option.some.injEq] at h
        rw [← h, hreset.2]
        exact .writeReset p written hreset.1
    | closed =>
        have hclosed : c.stream.localClosed = true ∧ c.stream.reset = false := by
          unfold Stream.write at hwrite
          dsimp only at hwrite
          split_ifs at hwrite with hreset hclosed hwindow
          exact ⟨hclosed, by simpa using hreset⟩
        simp only [hwrite, Option.some.injEq] at h
        rw [← h]
        exact .writeClosed p written hclosed.1 hclosed.2
    | take n after =>
        simp only [hwrite, Option.some.injEq] at h
        rw [← h]
        exact .took p written (Nat.not_le.mp hlength) hwrite

/-- Every step of an operation is one of these cases. -/
theorem op_step_cases {op : Op} (h : op.step lim done ack c choice = some turn) :
    OpStep lim done ack c op turn := by
  cases op with
  | sendOpen payload =>
      simp only [Op.step, Option.some.injEq] at h
      subst h
      split_ifs with hwritable
      · exact .openSent payload (writable_eq_true.mp hwritable).1
      · exact .openUnsent payload
  | awaitAck =>
      cases choice with
      | value =>
          obtain ⟨reason, hack, rfl⟩ := Option.map_eq_some_iff.mp h
          split_ifs with hreason
          · subst hreason
            exact .acked hack
          · exact .refused reason hack hreason
      | cancelled =>
          cases h
          exact .cancelled
      | sessionDone =>
          simp only [Op.step, Option.ite_none_right_eq_some, Option.some.injEq] at h
          obtain ⟨hdone, rfl⟩ := h
          exact .openEnded hdone
  | retireOpen error =>
      cases h
      exact .openRetired error
  | read length => exact read_cases h
  | sendWindowUpdate credit data =>
      simp only [Op.step, Option.some.injEq] at h
      subst h
      split_ifs with hwritable
      · exact .creditSent credit data (writable_eq_true.mp hwritable).1
      · refine .creditLost credit data ?_
        rcases writable_eq_false.mp hwritable with hdone | hsize
        · exact hdone
        · rw [encodeWindow, length_put_uint32] at hsize
          exact absurd hsize (by decide)
  | write p written => exact write_cases h
  | sendData p written n =>
      simp only [Op.step, Op.stepSendData, Option.some.injEq] at h
      subst h
      split_ifs with hwritable
      · exact .dataSent p written n (writable_eq_true.mp hwritable).1
      · exact .dataLost p written n (writable_eq_false.mp hwritable)
  | closeWith r =>
      simp only [Op.step, Op.stepClose, Stream.closeLocal, Option.some.injEq] at h
      subst h
      split_ifs with hclosed
      · exact .closeIdle r hclosed
      · push Not at hclosed
        exact .closeLocal r (by simpa using hclosed.1) (by simpa using hclosed.2)
  | sendClose r =>
      simp only [Op.step, Op.stepSendClose, Option.some.injEq] at h
      subst h
      split_ifs with hwritable
      · exact .closeSent r (writable_eq_true.mp hwritable).1
      · exact .closeLost r (writable_eq_false.mp hwritable)
  | retireIfDone failed =>
      simp only [Op.step, Option.some.injEq] at h
      subst h
      split_ifs with hfinished
      · exact .closeRetired failed hfinished
      · exact .closeKept failed (by simpa using hfinished)
  | reset r =>
      simp only [Op.step, Op.stepReset, Stream.abort, Option.some.injEq] at h
      subst h
      split_ifs with hreset
      · exact .resetIdle r hreset
      · exact .resetAbort r (by simpa using hreset)
  | sendReset r =>
      simp only [Op.step, Op.stepSendClose, Option.some.injEq] at h
      subst h
      split_ifs with hwritable
      · exact .resetSent r (writable_eq_true.mp hwritable).1
      · exact .resetLost r (writable_eq_false.mp hwritable)
  | retire failed =>
      cases h
      exact .resetRetired failed
  | _ => cases h

end Inversion

end AccessRelay.Mux
