import AccessRelay.Machine.Run
import AccessRelay.Mux.Session

/-!
# Two sessions on one connection

A client session built by `Dial` and a server session built by `Accept` and `Admit`, joined by a
connection that keeps frames in order. The frames one end has written and the other has not yet
read are the writer's `out`. An action is a step of one end by itself, or the read loop of one
end taking the next frame off the connection.
-/

namespace AccessRelay.Mux

open Encoding Proto

/-- `proto.InitialWindow`. -/
def initialWindow : UInt32 := 256 * 1024

/-- `proto.MaxStreamsPerConnection`. -/
def maxStreamsPerConnection : UInt32 := 16

/-- The limits in a session's configuration; zero stands for the default. -/
structure Config where
  maxFramePayload : UInt32
  initialWindow : UInt32
  maxStreams : UInt32

/-- `Config.withDefaults`. -/
def Config.withDefaults (cfg : Config) : Config where
  maxFramePayload :=
    if cfg.maxFramePayload = 0 then Proto.maxFramePayload else cfg.maxFramePayload
  initialWindow := if cfg.initialWindow = 0 then Mux.initialWindow else cfg.initialWindow
  maxStreams := if cfg.maxStreams = 0 then maxStreamsPerConnection else cfg.maxStreams

/-- The HELLO_ACK that `Accept` answers with. -/
def Config.ack (cfg : Config) : HelloAck where
  version := version
  maxFramePayload := cfg.withDefaults.maxFramePayload
  initialWindow := cfg.withDefaults.initialWindow
  maxStreams := cfg.withDefaults.maxStreams

/-- The two ends of a connection. -/
inductive Side where
  | client
  | server
  deriving DecidableEq, Repr

/-- The far end. -/
def Side.other : Side → Side
  | .client => .server
  | .server => .client

@[simp] theorem Side.other_other (x : Side) : x.other.other = x := by cases x <;> rfl

@[simp] theorem Side.other_ne (x : Side) : x.other ≠ x := by cases x <;> decide

@[simp] theorem Side.ne_other (x : Side) : x ≠ x.other := by cases x <;> decide

/-- Both sessions of a connection. -/
abbrev System := Side → Session

/-- The handshake: the server announces its limits, and the client takes what it can decode. The
session of each end is built from the HELLO_ACK it has. -/
def establish (cfg : Config) : Option System :=
  (decodeHelloAck cfg.ack.encode).toOption.bind fun ack =>
    if ack.version = version then
      some fun x => newSession (x = .client) (if x = .client then ack else cfg.ack)
    else none

/-- Both ends of an established connection hold the limits that the server announced, and these
are within this build's bounds. -/
theorem establish_limits {cfg : Config} {sys : System} (h : establish cfg = some sys) :
    sys = (fun x => newSession (x = .client) cfg.ack) ∧
      0 < cfg.ack.maxFramePayload ∧ cfg.ack.maxFramePayload ≤ Proto.maxFramePayload ∧
      0 < cfg.ack.initialWindow := by
  obtain ⟨ack, hack, hsys⟩ := Option.bind_eq_some_iff.mp h
  have hok : decodeHelloAck cfg.ack.encode = .ok ack := by
    cases hdecode : decodeHelloAck cfg.ack.encode with
    | error e =>
        rw [hdecode] at hack
        cases hack
    | ok a =>
        rw [hdecode] at hack
        cases hack
        rfl
  obtain ⟨rfl, hframe, hmax, hwindow, -⟩ := decode_hello_ack_ok hok
  simp only [ite_self, Option.ite_none_right_eq_some, Option.some.injEq] at hsys
  exact ⟨hsys.2.symm, hframe, hmax, hwindow⟩

/-- What can happen next: a step of one end, or a frame arriving at one end. -/
inductive SystemAction where
  | act (x : Side) (a : Action)
  | deliver (x : Side)
  deriving DecidableEq

/-- One step of the two sessions and the connection between them. -/
def systemStep (sys : System) : SystemAction → Option System
  | .act x a => ((sys x).step a).map fun s => Function.update sys x s
  | .deliver x =>
      match (sys x.other).out with
      | [] => none
      | f :: rest =>
          ((sys x).read f).map fun s =>
            Function.update (Function.update sys x s) x.other
              { sys x.other with out := rest }

/-- What a step of the two sessions is for one of them: a step of its own, a frame it reads, a
frame that the other reads, or nothing. -/
theorem system_step_side {sys sys' : System} {a : SystemAction}
    (h : systemStep sys a = some sys') (y : Side) :
    (∃ b, a = .act y b ∧ (sys y).step b = some (sys' y)) ∨
      (∃ f rest, a = .deliver y ∧ (sys y.other).out = f :: rest ∧
        (sys y).read f = some (sys' y)) ∨
      (∃ f rest, a = .deliver y.other ∧ (sys y).out = f :: rest ∧
        sys' y = { sys y with out := rest }) ∨
      sys' y = sys y := by
  cases a with
  | act x b =>
      obtain ⟨s, hs, rfl⟩ := Option.map_eq_some_iff.mp h
      by_cases hy : y = x
      · subst hy
        exact .inl ⟨b, rfl, by rw [Function.update_self]; exact hs⟩
      · exact .inr (.inr (.inr (Function.update_of_ne hy _ _)))
  | deliver x =>
      cases hout : (sys x.other).out with
      | nil => simp [systemStep, hout] at h
      | cons f rest =>
          simp only [systemStep, hout, Option.map_eq_some_iff] at h
          obtain ⟨s, hs, rfl⟩ := h
          by_cases hy : y = x
          · subst hy
            refine .inr (.inl ⟨f, rest, rfl, hout, ?_⟩)
            rw [Function.update_of_ne (Side.ne_other y), Function.update_self]
            exact hs
          · obtain rfl : x = y.other := by cases x <;> cases y <;> simp_all [Side.other]
            rw [Side.other_other] at hout
            refine .inr (.inr (.inl ⟨f, rest, rfl, hout, ?_⟩))
            rw [Side.other_other, Function.update_self]

/-- What the application hands to a session with a call: data, the payload of an OPEN_STREAM, or a
reason. -/
def Action.given : Action → Bytes
  | .start (.openStream payload) => payload
  | .start (.stream _ (.write p _)) => p
  | .start (.stream _ (.closeWith r)) | .start (.stream _ (.reset r)) | .close r => r
  | _ => []

/-- The bounds within which the counters do not wrap: a call is given less than `2 ^ 32` bytes, and
`Open` does not wrap the stream counter. -/
def withinBounds (sys : System) : SystemAction → Bool
  | .act x (.advance index _) =>
      match (sys x).calls[index]? with
      | some (.openStream _) => (sys x).nextID.toNat + 2 < 2 ^ 32
      | _ => true
  | .act _ a => a.given.length < 2 ^ 32
  | .deliver _ => true

end AccessRelay.Mux
