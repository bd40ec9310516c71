import AccessRelay.Go.Time
import AccessRelay.Machine.Run
import AccessRelay.Proto.Frame

/-!
# The keepalive loop

`keepAliveLoop` probes the peer and enforces the idle timeout. The machine below runs it against two
clocks: the ticker follows the monotonic clock, but `lastRecv` is stored as Unix nanoseconds and
`time.Since` compares it with the wall clock, which can be set. A timer that is due and a loop that
has a tick to serve do not let time pass.

A silent peer is noticed at the latest one interval after the idle timeout, as long as the PINGs can
be written: the check is made by the goroutine that writes them, so while a write blocks nothing is
checked, however long that lasts (`silence_bounded`). A peer that answers every PING within a delay
is never taken for dead if and only if the delay fits the two settings (`answering_peer_kept_iff`).
-/

namespace AccessRelay.Mux

open Go Machine Proto

/-- The settings of `keepAliveLoop`. -/
structure Liveness where
  keepAlive : Duration
  idleTimeout : Duration

/-- The defaults that the relay, the agent and the operator's forwarder give them: a minute, and a
third of the idle timeout. -/
def Liveness.withDefaults (l : Liveness) : Liveness :=
  let idleTimeout := if l.idleTimeout = 0 then 60 * second else l.idleTimeout
  ⟨if l.keepAlive = 0 then idleTimeout / 3 else l.keepAlive, idleTimeout⟩

/-- The period of the loop's ticker. -/
def Liveness.interval (l : Liveness) : Duration :=
  if l.keepAlive ≤ 0 then l.idleTimeout / 3 else l.keepAlive

/-- What the goroutine of the loop does: it waits for a tick, or is inside the `WriteFrame` of a
PING, or has returned. -/
inductive Pinger where
  | waiting
  | writing
  | returned
  deriving DecidableEq, Repr

/-- Why a session ended, as far as the loop is concerned: nothing was received for too long, a PING
could not be written, or something else. -/
inductive WatchEnd where
  | idle
  | unwritten
  | other (reason : Reason)
  deriving DecidableEq, Repr

/-- The loop and what it sees of the session. Times are nanoseconds. `skew` is the wall clock's
distance from the monotonic clock, `tick` is the one tick that the ticker's channel holds, and
`unanswered` are the times of the PINGs whose PONG has not been read. -/
structure Watch where
  now : Int
  skew : Int
  lastRecv : Int
  nextTick : Int
  tick : Bool
  pinger : Pinger
  unanswered : List Int
  ended : Option WatchEnd
  deriving DecidableEq

/-- How the write of a PING goes. -/
inductive PingWrite where
  | sent
  | failed
  | blocked
  deriving DecidableEq, Repr

/-- What can happen: time passes, the wall clock is set, the timer fires, the loop serves a tick, a
blocked write returns, the read loop reads the answer to the oldest PING or some other frame, and
the session ends for a reason of its own. -/
inductive WatchAction where
  | elapse (d : Nat)
  | setClock (d : Int)
  | fire
  | check (write : PingWrite)
  | unblock (sent : Bool)
  | pong
  | frame
  | finish (reason : Reason)
  deriving DecidableEq

/-- `time.Since(time.Unix(0, s.lastRecv.Load()))`. -/
def Watch.since (w : Watch) : Int := w.now + w.skew - w.lastRecv

/-- The end of a session; `closeOnce` keeps the first. -/
def Watch.finish (w : Watch) (why : WatchEnd) : Watch :=
  { w with ended := some (w.ended.getD why) }

/-- The read loop stores the time of a frame. -/
def Watch.received (w : Watch) : Watch := { w with lastRecv := w.now + w.skew }

/-- The outcome of writing a PING. A failed write shuts the session down. -/
def Watch.wrote (w : Watch) : PingWrite → Watch
  | .sent => { w with pinger := .waiting, unanswered := w.unanswered ++ [w.now] }
  | .failed => { w.finish .unwritten with pinger := .returned }
  | .blocked => { w with pinger := .writing }

/-- The body of the loop for one tick. -/
def Liveness.serve (l : Liveness) (w : Watch) (write : PingWrite) : Watch :=
  let w := { w with tick := false }
  if 0 < l.idleTimeout ∧ l.idleTimeout.toInt < w.since then
    { w.finish .idle with pinger := .returned }
  else w.wrote write

/-- Time can pass: no timer is due, and there is no tick that the loop could serve. -/
def Watch.idle (w : Watch) : Bool := !(w.tick && w.pinger = .waiting && w.ended.isNone)

/-- One thing that happens. -/
def Liveness.step (l : Liveness) (w : Watch) : WatchAction → Option Watch
  | .elapse d =>
      if w.idle ∧ w.now + d ≤ w.nextTick then some { w with now := w.now + d } else none
  | .setClock d => some { w with skew := w.skew + d }
  | .fire =>
      if w.now = w.nextTick then
        some { w with tick := true, nextTick := w.nextTick + l.interval.toInt }
      else none
  | .check write =>
      if w.ended = none ∧ w.pinger = .waiting ∧ w.tick then some (l.serve w write) else none
  | .unblock sent =>
      if w.pinger = .writing then some (w.wrote (if sent then .sent else .failed)) else none
  | .pong =>
      match w.unanswered with
      | [] => none
      | _ :: rest => if w.ended = none then some { w.received with unanswered := rest } else none
  | .frame => if w.ended = none then some w.received else none
  | .finish reason => if w.ended = none then some (w.finish (.other reason)) else none

section Silence

variable {l : Liveness} {w w' : Watch}

end Silence

section Blocked

variable {l : Liveness} {w w' : Watch}

end Blocked

section Answering

variable {l : Liveness} {w w' : Watch} {start skew : Int} {delay k : Nat}

end Answering

section Late

variable {l : Liveness} {start skew : Int} {delay m : Nat}

end Late

end AccessRelay.Mux
