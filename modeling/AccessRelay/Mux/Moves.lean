import AccessRelay.Mux.Session

/-!
# What a session can do

`Session.step` and `Session.read`, inverted: `Moves` has one case for each way a session takes a
step by itself, and `Reads` one for each thing that reading a frame can come to. An invariant of
a session is proved by cases on these two, without unfolding the machine again.

`react` is one session with a peer that may send anything.
-/

namespace AccessRelay.Mux

open Encoding Proto

/-- The stream is numbered by this end. -/
def Session.owns (s : Session) (id : UInt32) : Bool := decide (id % 2 = 1) = s.isClient

/-- Why a session is ending. -/
def Ending.reason : Ending → Option Reason
  | .live => none
  | .announcing r | .collecting r | .killing r _ _ | .notifying r _ | .ended r => some r

/-- Why the read loop ends the session. -/
def Reader.reason : Reader → Option Reason
  | .failing r | .stopping r => some r
  | _ => none

/-- The read loop reads frames, now or later. -/
def Reader.running : Reader → Bool
  | .failing _ | .ended => false
  | _ => true

/-- What a step of a session by itself can do. -/
inductive Session.Moves (s : Session) : Action → Session → Prop where
  | called (call : Call) (hcall : ∀ h op, call ≠ .stream h op) :
      Moves s (.start call) { s with calls := s.calls ++ [call] }
  | started {h : Handle} {op : Op} {c c' : Cell} (hholds : s.holds h = true)
      (hcell : s.cell h = some c) (hop : op.start c = some c') :
      Moves s (.start (.stream h op)) { s.setCell h c' with calls := s.calls ++ [.stream h op] }
  | failed (index : Nat) (choice : Choice) (call : Call) (hcall : ∀ h op, call ≠ .stream h op)
      (hopen : ∀ payload, call ≠ .openStream payload) :
      Moves s (.advance index choice) { s with calls := s.calls.set index call }
  | opened (index : Nat) (choice : Choice) (payload : Bytes)
      (hcall : s.calls[index]? = some (.openStream payload)) (hdone : s.done = false) :
      Moves s (.advance index choice)
        { s.register (newStream s.nextID s.limits.window) with
          pending := s.nextHandle s.nextID :: s.pending.filter fun h => h.id ≠ s.nextID
          nextID := s.nextID + 2
          calls := s.calls.set index (.stream (s.nextHandle s.nextID) (.sendOpen payload)) }
  | accepted (index : Nat) (choice : Choice) {h : Handle} {rest : List Handle}
      (hqueue : s.acceptCh = h :: rest) :
      Moves s (.advance index choice)
        { s with acceptCh := rest, calls := s.calls.set index (.stream h .accepted) }
  | turned (index : Nat) (choice : Choice) {h : Handle} {op : Op} {c : Cell} {turn : Turn}
      (hcall : s.calls[index]? = some (.stream h op)) (hcell : s.cell h = some c)
      (hturn : OpStep s.limits s.done (s.ackFor h) c op turn) :
      Moves s (.advance index choice)
        { (s.setCell h turn.cell).perform h.id turn.effect with
          calls := s.calls.set index (.stream h turn.op) }
  | served {h : Handle} {task : Task} {c : Cell} (hreader : s.reader = .serving h task)
      (hcell : s.cell h = some c) : Moves s .dispatch (s.serveStep h c task)
  | refused {id : UInt32} (hreader : s.reader = .refusing id) :
      Moves s .dispatch (s.reply .closeStream id reasonLimitStreamsExceeded .idle)
  | lookedUp {id : UInt32} {reason : Reason} (hreader : s.reader = .lookingUp id reason) :
      Moves s .dispatch (s.serve id (.closing reason))
  | ponged {payload : Bytes} (hreader : s.reader = .ponging payload) :
      Moves s .dispatch (s.reply .pong 0 payload .idle)
  | quit {reason : Reason} (hreader : s.reader = .failing reason) :
      Moves s .dispatch (s.shutdown reason .ended)
  | told {reason : Reason} (hreader : s.reader = .stopping reason) :
      Moves s .dispatch (s.shutdown reason .waiting)
  | woken (hreader : s.reader = .waiting) (hdone : s.done = true) :
      Moves s .dispatch { s with reader := .idle }
  | broken (err : CodecError) (hreader : s.reader = .idle) :
      Moves s (.readFailed err) { s with reader := .failing (reasonFor err) }
  | closed (reason : Reason) (hending : s.ending = .live) :
      Moves s (.close reason) { s with ending := .announcing reason }
  | closedBefore (reason : Reason) (hending : s.ending ≠ .live) : Moves s (.close reason) s
  | announced (choice : Nat) {reason : Reason} (hending : s.ending = .announcing reason)
      (out : List Frame)
      (hout : out = if writable s.done reason then s.out ++ [⟨.error, 0, reason⟩] else s.out) :
      Moves s (.endStep choice) { s with out := out, ending := .collecting reason }
  | collected (choice : Nat) {reason : Reason} (hending : s.ending = .collecting reason) :
      Moves s (.endStep choice)
        { s with streams := [], pending := [], ending := .killing reason s.streams s.pending }
  | killed (choice : Nat) {reason : Reason} {streams pending : List Handle} {h : Handle} {c : Cell}
      (hending : s.ending = .killing reason streams pending) (hh : streams[choice]? = some h)
      (hcell : s.cell h = some c) :
      Moves s (.endStep choice)
        { s.setCell h { c with stream := c.stream.kill reason } with
          ending := .killing reason (streams.eraseIdx choice) pending }
  | killedAll (choice : Nat) {reason : Reason} {pending : List Handle}
      (hending : s.ending = .killing reason [] pending) :
      Moves s (.endStep choice) { s with ending := .notifying reason pending }
  | notified (choice : Nat) {reason : Reason} {h : Handle} {rest : List Handle}
      (hending : s.ending = .notifying reason (h :: rest)) :
      Moves s (.endStep choice) { s.answer h reason with ending := .notifying reason rest }
  | ended (choice : Nat) {reason : Reason} (hending : s.ending = .notifying reason []) :
      Moves s (.endStep choice) { s with done := true, ending := .ended reason }
  | pinged (out : List Frame)
      (hout : out = if writable s.done [] then s.out ++ [⟨.ping, 0, []⟩] else s.out) :
      Moves s .ping { s with out := out }

/-- What reading a frame can come to. -/
inductive Session.Reads (s : Session) (f : Frame) : Session → Prop where
  | tooLarge (hsize : s.limits.maxFrame < UInt32.ofNat f.payload.length) :
      Reads s f { s with reader := .failing reasonLimitFrameTooLarge }
  | malformed : Reads s f { s with reader := .failing reasonProtocolMalformedFrame }
  | refused (htype : f.type = .openStream) : Reads s f { s with reader := .refusing f.streamID }
  | registered (htype : f.type = .openStream) (hparity : s.owns f.streamID = false) :
      Reads s f
        { s.register { newStream f.streamID s.limits.window with openPayload := f.payload } with
          reader := .serving (s.nextHandle f.streamID) .acking }
  | answered (htype : f.type = .streamOK) : Reads s f (s.completeOpen f.streamID reasonOK)
  | dropped (htype : f.type = .streamData ∨ f.type = .streamWindow)
      (hlookup : s.lookup f.streamID = none) : Reads s f { s with reader := .idle }
  | data {h : Handle} (htype : f.type = .streamData) (hlookup : s.lookup f.streamID = some h) :
      Reads s f { s with reader := .serving h (.delivering f.payload) }
  | window {h : Handle} {credit : UInt32} (htype : f.type = .streamWindow)
      (hlookup : s.lookup f.streamID = some h) :
      Reads s f { s with reader := .serving h (.granting credit) }
  | close (htype : f.type = .closeStream) {reason : Reason}
      (hreason : reason = if f.payload = [] then reasonOK else f.payload) :
      Reads s f
        { s.completeOpen f.streamID reason with reader := .lookingUp f.streamID reason }
  | ping (htype : f.type = .ping) : Reads s f { s with reader := .ponging f.payload }
  | pong (htype : f.type = .pong) : Reads s f s
  | error (htype : f.type = .error) : Reads s f { s with reader := .stopping f.payload }

section Inversion

variable {s s' : Session}

theorem start_moves {call : Call} (h : s.start call = some s') : s.Moves (.start call) s' := by
  cases call with
  | openStream payload =>
      cases h
      exact .called _ (by simp)
  | acceptStream =>
      cases h
      exact .called _ (by simp)
  | openFailed error => cases h
  | acceptFailed => cases h
  | stream i op =>
      simp only [Session.start, Option.ite_none_right_eq_some, Option.bind_eq_some_iff,
        Option.map_eq_some_iff] at h
      obtain ⟨hholds, c, hcell, c', hop, rfl⟩ := h
      exact .started hholds hcell hop

theorem advance_moves {index : Nat} {choice : Choice}
    (h : s.step (.advance index choice) = some s') : s.Moves (.advance index choice) s' := by
  simp only [Session.step, Option.bind_eq_some_iff, Option.map_eq_some_iff] at h
  obtain ⟨call, hcall, ⟨s₁, call'⟩, hnext, rfl⟩ := h
  cases call with
  | openStream payload =>
      simp only [Session.callStep, Session.openStream, Option.some.injEq] at hnext
      split_ifs at hnext with hdone hlimit
      · obtain ⟨rfl, rfl⟩ := Prod.mk.inj hnext
        exact .failed index choice _ (by simp) (by simp)
      · obtain ⟨rfl, rfl⟩ := Prod.mk.inj hnext
        exact .failed index choice _ (by simp) (by simp)
      · obtain ⟨rfl, rfl⟩ := Prod.mk.inj hnext
        exact .opened index choice payload hcall (by simpa using hdone)
  | acceptStream =>
      cases choice with
      | value =>
          simp only [Session.callStep] at hnext
          split at hnext
          · cases hnext
          next i rest hqueue =>
            cases hnext
            exact .accepted index _ hqueue
      | cancelled =>
          cases hnext
          exact .failed index _ _ (by simp) (by simp)
      | sessionDone =>
          simp only [Session.callStep, Option.ite_none_right_eq_some, Option.some.injEq,
            Prod.mk.injEq] at hnext
          obtain ⟨-, rfl, rfl⟩ := hnext
          exact .failed index _ _ (by simp) (by simp)
  | openFailed error => cases hnext
  | acceptFailed => cases hnext
  | stream i op =>
      simp only [Session.callStep, Option.bind_eq_some_iff, Option.map_eq_some_iff,
        Prod.mk.injEq] at hnext
      obtain ⟨c, hcell, turn, hturn, rfl, rfl⟩ := hnext
      exact .turned index choice hcall hcell (op_step_cases hturn)

theorem dispatch_moves (h : s.dispatch = some s') : s.Moves .dispatch s' := by
  unfold Session.dispatch at h
  cases hreader : s.reader with
  | idle => simp [hreader] at h
  | ended => simp [hreader] at h
  | serving i task =>
      simp only [hreader, Option.map_eq_some_iff] at h
      obtain ⟨c, hcell, rfl⟩ := h
      exact .served hreader hcell
  | refusing id =>
      simp only [hreader, Option.some.injEq] at h
      exact h ▸ .refused hreader
  | lookingUp id reason =>
      simp only [hreader, Option.some.injEq] at h
      exact h ▸ .lookedUp hreader
  | ponging payload =>
      simp only [hreader, Option.some.injEq] at h
      exact h ▸ .ponged hreader
  | failing reason =>
      simp only [hreader, Option.some.injEq] at h
      exact h ▸ .quit hreader
  | stopping reason =>
      simp only [hreader, Option.some.injEq] at h
      exact h ▸ .told hreader
  | waiting =>
      simp only [hreader, Option.ite_none_right_eq_some, Option.some.injEq] at h
      obtain ⟨hdone, rfl⟩ := h
      exact .woken hreader hdone

theorem end_step_moves {choice : Nat} (h : s.endStep choice = some s') :
    s.Moves (.endStep choice) s' := by
  unfold Session.endStep at h
  split at h
  · cases h
  · cases h
  next reason hending =>
    cases h
    split_ifs with hwritable
    · exact .announced choice hending _ (if_pos hwritable).symm
    · exact .announced choice hending _ (if_neg hwritable).symm
  next reason hending =>
    cases h
    exact .collected choice hending
  next reason pending hending =>
    cases h
    exact .killedAll choice hending
  next reason streams pending hne hending =>
    simp only [Option.bind_eq_some_iff, Option.map_eq_some_iff] at h
    obtain ⟨i, hi, c, hcell, rfl⟩ := h
    exact .killed choice hending hi hcell
  next reason hending =>
    cases h
    exact .ended choice hending
  next reason i rest hending =>
    cases h
    exact .notified choice hending

/-- Every step of a session is one of these cases. -/
theorem step_moves {a : Action} (h : s.step a = some s') : s.Moves a s' := by
  cases a with
  | start call => exact start_moves h
  | advance index choice => exact advance_moves h
  | dispatch => exact dispatch_moves h
  | readFailed err =>
      simp only [Session.step, Option.ite_none_right_eq_some, Option.some.injEq] at h
      obtain ⟨hreader, rfl⟩ := h
      exact .broken err hreader
  | close reason =>
      cases h
      split_ifs with hending
      · exact .closed reason hending
      · exact .closedBefore reason hending
  | endStep choice => exact end_step_moves h
  | ping =>
      cases h
      split_ifs with hwritable
      · exact .pinged _ (if_pos hwritable).symm
      · exact .pinged _ (if_neg hwritable).symm

/-- The step of a call on a stream. -/
theorem advance_stream {index : Nat} {choice : Choice} {h : Handle} {op : Op}
    (hstep : s.step (.advance index choice) = some s')
    (hcall : s.calls[index]? = some (.stream h op)) :
    ∃ c turn, op.step s.limits s.done (s.ackFor h) c choice = some turn ∧
      s' = { (s.setCell h turn.cell).perform h.id turn.effect with
        calls := s.calls.set index (.stream h turn.op) } := by
  simp only [Session.step, hcall, Option.bind_some, Session.callStep, Option.map_eq_some_iff,
    Option.bind_eq_some_iff] at hstep
  obtain ⟨result, ⟨c, -, turn, hturn, rfl⟩, rfl⟩ := hstep
  exact ⟨c, turn, hturn, rfl⟩

/-- A frame is read only when the read loop is idle, and comes to one of these cases. -/
theorem read_reads {f : Frame} (h : s.read f = some s') : s.reader = .idle ∧ s.Reads f s' := by
  simp only [Session.read, Option.ite_none_right_eq_some, Option.some.injEq] at h
  obtain ⟨hreader, rfl⟩ := h
  refine ⟨hreader, ?_⟩
  unfold Session.receive
  by_cases hsize : s.limits.maxFrame < UInt32.ofNat f.payload.length
  · rw [if_pos hsize]
    exact .tooLarge hsize
  rw [if_neg hsize]
  cases htype : f.type with
  | openStream =>
      simp only [Session.handleOpen]
      split_ifs with hlive hparity hlimit
      · exact .malformed
      · exact .malformed
      · exact .refused htype
      · exact .registered htype (by simpa [Session.owns] using hparity)
  | streamOK => exact .answered htype
  | streamData =>
      simp only [Session.serve]
      split
      next hlookup => exact .dropped (.inl htype) hlookup
      next i hlookup => exact .data htype hlookup
  | streamWindow =>
      dsimp only
      split
      · exact .malformed
      · simp only [Session.serve]
        split
        next hlookup => exact .dropped (.inr htype) hlookup
        next i hlookup => exact .window htype hlookup
  | closeStream => exact .close htype rfl
  | ping => exact .ping htype
  | pong => exact .pong htype
  | error => exact .error htype
  | hello => exact .malformed
  | helloAck => exact .malformed
  | auth => exact .malformed
  | authOK => exact .malformed

end Inversion

/-- What can happen to a session: a step of its own, or a frame from its peer. -/
inductive Event where
  | act (a : Action)
  | frame (f : Frame)
  deriving DecidableEq

/-- A session and a peer that may send any frame that `ReadFrame` can return. -/
def Session.react (s : Session) : Event → Option Session
  | .act a => s.step a
  | .frame f => if f.payload.length ≤ maxFramePayload.toNat then s.read f else none

/-- An event is a step of the session, or a frame that its idle read loop takes. -/
theorem react_cases {s s' : Session} {e : Event} (h : s.react e = some s') :
    (∃ a, e = .act a ∧ s.Moves a s') ∨
      ∃ f, e = .frame f ∧ f.payload.length ≤ maxFramePayload.toNat ∧ s.reader = .idle ∧
        s.Reads f s' := by
  cases e with
  | act a => exact .inl ⟨a, rfl, step_moves h⟩
  | frame f =>
      simp only [Session.react, Option.ite_none_right_eq_some] at h
      obtain ⟨hsize, hread⟩ := h
      exact .inr ⟨f, rfl, hsize, read_reads hread⟩

theorem react_kind {s s' : Session} {e : Event} (h : s.react e = some s') :
    (∃ a, s.Moves a s') ∨ ∃ f, s.Reads f s' := by
  rcases react_cases h with ⟨a, -, hmoves⟩ | ⟨f, -, -, -, hreads⟩
  · exact .inl ⟨a, hmoves⟩
  · exact .inr ⟨f, hreads⟩

end AccessRelay.Mux
