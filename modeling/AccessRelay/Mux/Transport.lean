import AccessRelay.Mux.Inbound

/-!
# A connection that holds a bounded number of bytes

`WriteFrame` holds the lock of the writer and returns when the transport has taken the whole
frame; the transport holds at most `C` bytes in each direction, and the far read loop takes bytes
out of it while it waits for a frame, up to what its buffered reader asks for. `Wired` is the two
sessions with this connection between them: a step that writes a frame needs the lock, and the
thread that took it does nothing else until its bytes are gone. With `C = 0` bytes go from the
writer to the reader directly.

The read loop of a session answers some frames itself. `Replying` says that it is inside the
`WriteFrame` of such an answer.
-/

namespace AccessRelay.Mux

open Encoding Proto Machine

/-- The threads of a session that write frames. -/
inductive Thread where
  | reader
  | call (index : Nat)
  | closer
  | keepAlive
  deriving DecidableEq, Repr

/-- Whose step it is. Making a call is the application's. -/
def Action.thread : Action → Option Thread
  | .start _ | .close _ => none
  | .advance index _ => some (.call index)
  | .dispatch | .readFailed _ => some .reader
  | .endStep _ => some .closer
  | .ping => some .keepAlive

/-- One direction of the connection: the thread inside `WriteFrame`, which holds the lock; the
bytes of its frame that the transport has not taken; and the bytes that the far end has taken of
frames that its `ReadFrame` has not returned. -/
structure Line where
  writer : Option Thread
  left : Nat
  got : Nat
  deriving DecidableEq, Repr

/-- The two sessions, and the line on which each of them writes. -/
structure Wired where
  sys : System
  line : Side → Line

/-- The bytes of a frame. -/
def frameSize (f : Frame) : Nat := headerSize + f.payload.length

/-- The bytes of all frames that are written and not read. -/
def Session.outSize (s : Session) : Nat := (s.out.map frameSize).sum

/-- The size of the buffered reader that `NewReader` puts under `ReadFrame`. -/
def readAhead : Nat := maxFramePayload.toNat / 8

namespace Wired

/-- The bytes that the transport holds of what `x` has written. -/
def inTransit (w : Wired) (x : Side) : Nat :=
  (w.sys x).outSize - (w.line x).left - (w.line x).got

/-- The read loop of `x` is inside `ReadFrame`. -/
def reading (w : Wired) (x : Side) : Bool :=
  (w.sys x).reader = .idle ∧ (w.line x).writer ≠ some .reader

/-- How many bytes the far end of the line of `x` asks the transport for: none unless it waits in
`ReadFrame` and has not got the whole frame. -/
def asked (w : Wired) (x : Side) : Nat :=
  if w.reading x.other then
    match (w.sys x).out with
    | [] => readAhead
    | f :: _ =>
        if (w.line x).got < frameSize f then max readAhead (frameSize f - (w.line x).got) else 0
  else 0

/-- A session takes a step by itself. If it writes a frame, its thread takes the lock. Closing the
connection releases a thread that is still inside `WriteFrame`; the rest of its frame is never
handed over. -/
def act (w : Wired) (x : Side) (a : Action) : Option Wired :=
  if a.thread.isSome ∧ (w.line x).writer = a.thread then none
  else ((w.sys x).step a).bind fun s =>
    if s.out = (w.sys x).out then
      some ⟨Function.update w.sys x s, Function.update w.line x
        { w.line x with writer := if s.done then none else (w.line x).writer }⟩
    else if (w.line x).writer = none then
      some ⟨Function.update w.sys x s, Function.update w.line x
        { w.line x with writer := a.thread, left := s.outSize - (w.sys x).outSize }⟩
    else none

/-- The writer of `x` has handed over `n` bytes; with the last one `WriteFrame` returns. -/
def handOver (w : Wired) (x : Side) (n got : Nat) : Wired :=
  ⟨w.sys, Function.update w.line x
    ⟨if (w.line x).left = n then none else (w.line x).writer, (w.line x).left - n, got⟩⟩

end Wired

/-- What can happen: a step of a session, bytes that go into the transport, out of it, or past it
to a reader that waits, and a frame that the read loop has got as a whole. -/
inductive WireAction where
  | act (x : Side) (a : Action)
  | push (x : Side) (n : Nat)
  | pull (x : Side) (n : Nat)
  | pass (x : Side) (n : Nat)
  | deliver (x : Side)
  deriving DecidableEq

/-- One step of two sessions on a connection that holds `C` bytes in each direction. -/
def wireStep (C : Nat) (w : Wired) : WireAction → Option Wired
  | .act x a => w.act x a
  | .push x n =>
      if (w.line x).writer ≠ none ∧ 0 < n ∧ n ≤ (w.line x).left ∧ w.inTransit x + n ≤ C then
        some (w.handOver x n (w.line x).got)
      else none
  | .pull x n =>
      if 0 < n ∧ n ≤ w.inTransit x ∧ n ≤ w.asked x then
        some ⟨w.sys, Function.update w.line x { w.line x with got := (w.line x).got + n }⟩
      else none
  | .pass x n =>
      if (w.line x).writer ≠ none ∧ 0 < n ∧ n ≤ (w.line x).left ∧ w.inTransit x = 0 ∧
          n ≤ w.asked x then
        some (w.handOver x n ((w.line x).got + n))
      else none
  | .deliver x =>
      match (w.sys x.other).out with
      | [] => none
      | f :: _ =>
          if w.reading x ∧ frameSize f ≤ (w.line x.other).got then
            (systemStep w.sys (.deliver x)).map fun sys =>
              ⟨sys, Function.update w.line x.other
                { w.line x.other with got := (w.line x.other).got - frameSize f }⟩
          else none

/-- Two sessions on an empty connection. -/
def wire (sys : System) : Wired := ⟨sys, fun _ => ⟨none, 0, 0⟩⟩

/-- The read loop is about to answer a frame by itself. -/
def Reader.answers : Reader → Bool
  | .serving _ .acking | .refusing _ | .ponging _ => true
  | _ => false

/-- The read loop is busy with a request: it has one to answer, or to queue and maybe refuse. -/
def Reader.busy : Reader → Bool
  | .serving _ .acking | .serving _ .queueing | .serving _ .dropping | .refusing _
  | .ponging _ => true
  | _ => false

/-- The read loop of `x` is inside a `WriteFrame` of its own: it holds the lock and has bytes left
to hand over, or it has yet to get the lock. -/
def Wired.Replying (w : Wired) (x : Side) : Prop :=
  (w.line x).writer = some .reader ∨ (w.sys x).reader.answers = true

/-- The session is ended for reasons that fit into a frame only. -/
def shortReasons (_ : Wired) : WireAction → Bool
  | .act _ (.close r) => r.length ≤ maxFramePayload.toNat
  | _ => true

/-- Both read loops are inside a `WriteFrame` of their own, now and whatever happens next. -/
def Wired.Deadlocked (C : Nat) (w : Wired) : Prop :=
  ∀ actions w', run (restrict shortReasons (wireStep C)) w actions = some w' →
    ∀ x, w'.Replying x

section Requests

variable {s s' : Session}

/-- The session has no request on the way: no OPEN_STREAM and no PING is written or about to
be. -/
structure Session.Undemanding (s : Session) : Prop where
  out : ∀ f ∈ s.out, f.type ≠ .openStream ∧ f.type ≠ .ping
  calls : ∀ call ∈ s.calls, (∀ payload, call ≠ .openStream payload) ∧
    ∀ h payload, call ≠ .stream h (.sendOpen payload)

theorem reply_out (type : Typ) (id : UInt32) (payload : Bytes) (next : Reader) :
    (s.reply type id payload next).out = s.out ∨
      (s.reply type id payload next).out = s.out ++ [⟨type, id, payload⟩] := by
  unfold Session.reply
  split_ifs
  · exact .inr rfl
  · exact .inl rfl

/-- Serving a stream writes nothing but the acknowledgement of a new one. -/
theorem serve_step_out (h : Handle) (c : Cell) (task : Task) :
    (s.serveStep h c task).out = s.out ∨
      (task = .acking ∧ (s.serveStep h c task).out = s.out ++ [⟨.streamOK, h.id, []⟩]) := by
  cases task with
  | acking => exact (reply_out ..).imp_right fun h => ⟨rfl, h⟩
  | queueing =>
      simp only [Session.serveStep]
      split_ifs <;> exact .inl rfl
  | delivering payload =>
      simp only [Session.serveStep]
      cases c.stream.deliver payload <;> exact .inl rfl
  | retiring =>
      simp only [Session.serveStep]
      split_ifs <;> exact .inl rfl
  | _ => exact .inl rfl

/-- A session that does not open streams and sends no keepalive stays undemanding. -/
theorem undemanding_moves {a : Action} (h : s.Undemanding) (hmoves : s.Moves a s')
    (hopen : ∀ payload, a ≠ .start (.openStream payload)) (hping : a ≠ .ping) :
    s'.Undemanding := by
  have hsent : ∀ {out : List Frame} {f : Frame}, (out = s.out ∨ out = s.out ++ [f]) →
      f.type ≠ .openStream ∧ f.type ≠ .ping →
      ∀ g ∈ out, g.type ≠ .openStream ∧ g.type ≠ .ping := by
    rintro out f (rfl | rfl) hf
    · exact h.out
    · exact forall_mem_concat h.out hf
  have hset : ∀ {index : Nat} {call : Call}, (∀ payload, call ≠ .openStream payload) →
      (∀ i payload, call ≠ .stream i (.sendOpen payload)) →
      ∀ call' ∈ s.calls.set index call, (∀ payload, call' ≠ .openStream payload) ∧
        ∀ i payload, call' ≠ .stream i (.sendOpen payload) := by
    intro index call hc hs
    exact forall_mem_set h.calls ⟨hc, hs⟩
  have happend : ∀ {call : Call}, (∀ payload, call ≠ .openStream payload) →
      (∀ i payload, call ≠ .stream i (.sendOpen payload)) →
      ∀ call' ∈ s.calls ++ [call], (∀ payload, call' ≠ .openStream payload) ∧
        ∀ i payload, call' ≠ .stream i (.sendOpen payload) := by
    intro call hc hs
    exact forall_mem_concat h.calls ⟨hc, hs⟩
  cases hmoves with
  | called call hcall =>
      refine ⟨h.out, happend ?_ fun i payload => hcall i _⟩
      rintro payload rfl
      exact hopen payload rfl
  | started hholds hcell hop =>
      refine ⟨h.out, happend (by simp) ?_⟩
      rintro i payload heq
      cases heq
      cases hop
  | failed index choice call hcall hopen' => exact ⟨h.out, hset hopen' fun i payload => hcall i _⟩
  | opened index choice payload hcall hdone =>
      exact absurd rfl ((h.calls _ (List.mem_of_getElem? hcall)).1 payload)
  | accepted index choice hqueue => exact ⟨h.out, hset (by simp) (by simp)⟩
  | @turned index choice i op c turn hcall hcell hturn =>
      have hop : ∀ payload, op ≠ .sendOpen payload := by
        rintro payload rfl
        exact (h.calls _ (List.mem_of_getElem? hcall)).2 i payload rfl
      refine ⟨?_, hset (by simp) ?_⟩
      · cases heffect : turn.effect with
        | silent => exact h.out
        | retire => exact h.out
        | send type payload =>
            refine hsent (.inr rfl) ?_
            cases hturn with
            | openSent payload hdone => exact absurd rfl (hop payload)
            | _ => cases heffect <;> exact ⟨by simp, by simp⟩
      · rintro i' payload heq
        have hnext : turn.op = .sendOpen payload := (Call.stream.inj heq).2
        cases hturn with
        | readBytes length hread =>
            dsimp only at hnext
            split_ifs at hnext
        | _ => cases hnext
  | @served i task c hreader hcell =>
      refine ⟨hsent (f := ⟨.streamOK, i.id, []⟩) ?_ (by simp), ?_⟩
      · exact (serve_step_out i c task).imp_right fun h => h.2
      · rw [(serve_step_calls i c task).1]
        exact h.calls
  | refused hreader =>
      refine ⟨hsent (reply_out ..) (by simp), ?_⟩
      rw [(reply_calls ..).1]
      exact h.calls
  | ponged hreader =>
      refine ⟨hsent (reply_out ..) (by simp), ?_⟩
      rw [(reply_calls ..).1]
      exact h.calls
  | lookedUp hreader =>
      refine ⟨?_, ?_⟩
      · unfold Session.serve
        split <;> exact h.out
      · rw [(serve_calls _ _).1]
        exact h.calls
  | @announced choice reason hending out hout =>
      refine ⟨hsent (f := ⟨.error, 0, reason⟩) ?_ (by simp), h.calls⟩
      rw [hout]
      split_ifs
      · exact .inr rfl
      · exact .inl rfl
  | pinged out hout => exact absurd rfl hping
  | _ => exact ⟨h.out, h.calls⟩

theorem Reader.busy_of_answers {r : Reader} (h : r.answers = true) : r.busy = true := by
  unfold Reader.answers at h
  split at h <;> first | rfl | cases h

theorem reply_free {type : Typ} {id : UInt32} {payload : Bytes} :
    (s.reply type id payload .idle).reader.busy = false := by
  rcases (reply_control (s := s) type id payload .idle).1 with hreader | hreader <;>
    rw [hreader] <;> rfl

/-- A read loop that is not busy gets no request by a step of its own session. -/
theorem free_moves {a : Action} (h : s.reader.busy = false) (hmoves : s.Moves a s') :
    s'.reader.busy = false := by
  cases hmoves with
  | @turned index choice i op c turn =>
      show ((s.setCell i turn.cell).perform i.id turn.effect).reader.busy = false
      rw [(perform_control i.id turn.effect).1]
      exact h
  | @served i task c hreader =>
      rw [hreader] at h
      cases task with
      | acking | queueing | dropping => cases h
      | delivering payload =>
          simp only [Session.serveStep]
          cases c.stream.deliver payload <;> rfl
      | retiring =>
          simp only [Session.serveStep]
          split_ifs <;> rfl
      | _ => rfl
  | refused | ponged => exact reply_free
  | lookedUp =>
      unfold Session.serve
      split <;> rfl
  | quit | told | woken | broken => rfl
  | _ => exact h

/-- Reading a frame writes none and makes no call. -/
theorem reads_calls {f : Frame} (hreads : s.Reads f s') :
    s'.out = s.out ∧ s'.calls = s.calls := by
  have hcomplete : ∀ reason, (s.completeOpen f.streamID reason).out = s.out ∧
      (s.completeOpen f.streamID reason).calls = s.calls := by
    intro reason
    refine ⟨?_, (complete_open_calls f.streamID reason).1⟩
    unfold Session.completeOpen
    split <;> rfl
  cases hreads with
  | answered htype => exact hcomplete reasonOK
  | close htype hreason => exact hcomplete _
  | _ => exact ⟨rfl, rfl⟩

/-- Nor by a frame that asks for nothing. -/
theorem free_reads {f : Frame} (hidle : s.reader = .idle) (hreads : s.Reads f s')
    (hopen : f.type ≠ .openStream) (hping : f.type ≠ .ping) : s'.reader.busy = false := by
  cases hreads with
  | refused htype => exact absurd htype hopen
  | registered htype hparity => exact absurd htype hopen
  | ping htype => exact absurd htype hping
  | answered htype =>
      rw [(complete_open_control (s := s) f.streamID reasonOK).1, hidle]
      rfl
  | pong htype =>
      rw [hidle]
      rfl
  | _ => rfl

/-- A read loop that is not busy writes nothing. -/
theorem free_silent {a : Action} (h : s.reader.busy = false) (hmoves : s.Moves a s')
    (hthread : a.thread = some .reader) : s'.out = s.out := by
  cases hmoves with
  | @served i task c hreader =>
      rcases serve_step_out (s := s) i c task with hout | ⟨rfl, -⟩
      · exact hout
      · rw [hreader] at h
        cases h
  | refused hreader | ponged hreader =>
      rw [hreader] at h
      cases h
  | lookedUp =>
      unfold Session.serve
      split <;> rfl
  | quit | told | woken | broken => rfl
  | _ => cases hthread

end Requests

section Steps

variable {C : Nat} {w w' : Wired}

/-- What a step of the sessions needs of the connection: the thread is not inside `WriteFrame`,
and it gets the lock if it writes. -/
theorem act_cases {x : Side} {a : Action} (h : w.act x a = some w') :
    ∃ s, (w.sys x).step a = some s ∧ w'.sys = Function.update w.sys x s ∧
      (a.thread = none ∨ (w.line x).writer ≠ a.thread) ∧
      ((s.out = (w.sys x).out ∧ w'.line = Function.update w.line x
          { w.line x with writer := if s.done then none else (w.line x).writer }) ∨
        (s.out ≠ (w.sys x).out ∧ (w.line x).writer = none ∧
          w'.line = Function.update w.line x
            { w.line x with writer := a.thread, left := s.outSize - (w.sys x).outSize })) := by
  rw [Wired.act, Option.ite_none_left_eq_some] at h
  obtain ⟨hbusy, h⟩ := h
  obtain ⟨s, hs, hwire⟩ := Option.bind_eq_some_iff.mp h
  have hfree : a.thread = none ∨ (w.line x).writer ≠ a.thread := by
    cases hthread : a.thread with
    | none => exact .inl rfl
    | some t => exact .inr fun heq => hbusy ⟨by simp [hthread], heq.trans hthread.symm⟩
  by_cases hout : s.out = (w.sys x).out
  · rw [if_pos hout] at hwire
    cases hwire
    exact ⟨s, hs, rfl, hfree, .inl ⟨hout, rfl⟩⟩
  · rw [if_neg hout, Option.ite_none_right_eq_some] at hwire
    obtain ⟨hlock, hwire⟩ := hwire
    cases hwire
    exact ⟨s, hs, rfl, hfree, .inr ⟨hout, hlock, rfl⟩⟩

/-- The connection moves bytes between the sessions without changing them. The one thing it does
to the lock is to release it. -/
theorem bytes_cases {a : WireAction} (h : wireStep C w a = some w') :
    (∃ x b, a = .act x b ∧ w.act x b = some w') ∨
      (∃ x f rest, a = .deliver x ∧ w.reading x ∧ (w.sys x.other).out = f :: rest ∧
        systemStep w.sys (.deliver x) = some w'.sys ∧ ∀ y, (w'.line y).writer = (w.line y).writer) ∨
      (w'.sys = w.sys ∧
        ∀ y, (w'.line y).writer = none ∨ (w'.line y).writer = (w.line y).writer) := by
  have hhand : ∀ x n got y, ((w.handOver x n got).line y).writer = none ∨
      ((w.handOver x n got).line y).writer = (w.line y).writer := by
    intro x n got y
    rcases eq_or_ne y x with rfl | hne
    · simp only [Wired.handOver, Function.update_self]
      split_ifs
      · exact .inl rfl
      · exact .inr rfl
    · exact .inr (by simp [Wired.handOver, hne])
  cases a with
  | act x b => exact .inl ⟨x, b, rfl, h⟩
  | push x n =>
      simp only [wireStep, Option.ite_none_right_eq_some, Option.some.injEq] at h
      obtain ⟨-, rfl⟩ := h
      exact .inr (.inr ⟨rfl, hhand x n _⟩)
  | pull x n =>
      simp only [wireStep, Option.ite_none_right_eq_some, Option.some.injEq] at h
      obtain ⟨-, rfl⟩ := h
      refine .inr (.inr ⟨rfl, fun y => .inr ?_⟩)
      rcases eq_or_ne y x with rfl | hne
      · simp
      · simp [hne]
  | pass x n =>
      simp only [wireStep, Option.ite_none_right_eq_some, Option.some.injEq] at h
      obtain ⟨-, rfl⟩ := h
      exact .inr (.inr ⟨rfl, hhand x n _⟩)
  | deliver x =>
      simp only [wireStep] at h
      split at h
      · cases h
      next f rest hout =>
        simp only [Option.ite_none_right_eq_some, Option.map_eq_some_iff] at h
        obtain ⟨⟨hreading, -⟩, sys, hsys, rfl⟩ := h
        refine .inr (.inl ⟨x, f, rest, rfl, hreading, hout, hsys, fun y => ?_⟩)
        rcases eq_or_ne y x.other with rfl | hne
        · simp
        · simp [hne]

/-- Every run on a bounded connection is a run of the two sessions: a bound takes interleavings
away and adds none. -/
theorem wire_run_system {sys : System} {actions : List WireAction}
    (hrun : run (wireStep C) (wire sys) actions = some w) :
    ∃ labels, run systemStep sys labels = some w.sys := by
  have hsim : ∀ {w a w' sys}, w.sys = sys → wireStep C w a = some w' →
      ∃ labels sys', run systemStep sys labels = some sys' ∧ w'.sys = sys' := by
    rintro w a w' _ rfl hstep
    rcases bytes_cases hstep with
      ⟨x, b, rfl, hact⟩ | ⟨x, f, rest, rfl, -, -, hsys, -⟩ | ⟨hsys, -⟩
    · obtain ⟨s, hs, hsys, -⟩ := act_cases hact
      exact ⟨[.act x b], w'.sys, by simp [run_cons, systemStep, hs, hsys], rfl⟩
    · exact ⟨[.deliver x], w'.sys, by simp [run_cons, hsys], rfl⟩
    · exact ⟨[], w.sys, rfl, hsys⟩
  obtain ⟨labels, sys', hlabels, hsame⟩ :=
    @run_simulation _ _ _ _ _ _ (fun (w : Wired) sys => w.sys = sys) hsim _ _ _ _ rfl hrun
  exact ⟨labels, hsame ▸ hlabels⟩

end Steps

/-- `y` opens no stream and sends no keepalive. -/
def asksNothing (y : Side) (_ : Wired) : WireAction → Bool
  | .act x (.start (.openStream _)) => x ≠ y
  | .act x .ping => x ≠ y
  | _ => true

/-- The read loop of `x` is busy with a request, or inside `WriteFrame`. -/
def Wired.busy (w : Wired) (x : Side) : Bool :=
  (w.line x).writer = some .reader || (w.sys x).reader.busy

/-- No read loop takes up a request while that of the other end is busy with one. -/
def repliesInTurn (w : Wired) : WireAction → Bool
  | .deliver x =>
      !w.busy x.other || ((w.sys x.other).out.head?).all fun f =>
        f.type ≠ .openStream ∧ f.type ≠ .ping
  | _ => true

/-- `y` has no request on the way, and the read loop of its peer none to answer. -/
structure Wired.OneSided (w : Wired) (y : Side) : Prop where
  asks : (w.sys y).Undemanding
  free : w.busy y.other = false

section InTurn

variable {C : Nat} {w w' : Wired} {x y : Side} {a : WireAction}

theorem busy_eq_false :
    w.busy x = false ↔ (w.line x).writer ≠ some .reader ∧ (w.sys x).reader.busy = false := by
  simp [Wired.busy]

theorem not_replying (h : w.busy x = false) : ¬ w.Replying x := by
  obtain ⟨hwriter, hreader⟩ := busy_eq_false.mp h
  rintro (heq | hanswers)
  · exact hwriter heq
  · rw [Reader.busy_of_answers hanswers] at hreader
    cases hreader

/-- A read loop that is not busy becomes so by a request that it takes up, and in no other way. -/
theorem free_step (h : w.busy x = false) (hstep : wireStep C w a = some w')
    (hread : ∀ f rest, a = .deliver x → (w.sys x.other).out = f :: rest →
      f.type ≠ .openStream ∧ f.type ≠ .ping) : w'.busy x = false := by
  obtain ⟨hlock, hfree⟩ := busy_eq_false.mp h
  refine busy_eq_false.mpr ?_
  rcases bytes_cases hstep with
    ⟨z, b, rfl, hact⟩ | ⟨z, f, rest, rfl, -, hout, hsys, hwriter⟩ | ⟨hsys, hwriter⟩
  · obtain ⟨s, hs, hsys, -, hline⟩ := act_cases hact
    have hmoves := step_moves hs
    rcases eq_or_ne x z with rfl | hne
    · refine ⟨?_, ?_⟩
      · rcases hline with ⟨-, hline⟩ | ⟨hwrote, -, hline⟩
        · rw [hline, Function.update_self]
          dsimp only
          split_ifs
          · simp
          · exact hlock
        · rw [hline, Function.update_self]
          exact fun hthread => hwrote (free_silent hfree hmoves hthread)
      · rw [hsys, Function.update_self]
        exact free_moves hfree hmoves
    · refine ⟨?_, ?_⟩
      · rcases hline with ⟨-, hline⟩ | ⟨-, -, hline⟩ <;> simpa [hline, hne] using hlock
      · rw [hsys, Function.update_of_ne hne]
        exact hfree
  · refine ⟨hwriter x ▸ hlock, ?_⟩
    rcases system_step_side hsys x with ⟨b, hb, -⟩ | ⟨g, tail, heq, hg, hreads⟩ |
      ⟨g, tail, -, -, hsame⟩ | hsame
    · cases hb
    · cases heq
      obtain ⟨hidle, hreads⟩ := read_reads hreads
      obtain ⟨hopen, hping⟩ := hread g tail rfl hg
      exact free_reads hidle hreads hopen hping
    · rw [hsame]
      exact hfree
    · exact hsame ▸ hfree
  · refine ⟨?_, hsys ▸ hfree⟩
    rcases hwriter x with hnone | hsame
    · simp [hnone]
    · rw [hsame]
      exact hlock

/-- While one end asks for nothing, the read loop of the other never writes. -/
theorem one_sided_step (h : w.OneSided y)
    (hstep : restrict (asksNothing y) (wireStep C) w a = some w') : w'.OneSided y := by
  obtain ⟨hguard, hstep⟩ := restrict_eq_some.mp hstep
  refine ⟨?_, free_step h.free hstep ?_⟩
  · rcases bytes_cases hstep with
      ⟨x, b, rfl, hact⟩ | ⟨x, f, rest, rfl, -, hout, hsys, -⟩ | ⟨hsys, -⟩
    · obtain ⟨s, hs, hsys, -, -⟩ := act_cases hact
      rw [hsys]
      rcases eq_or_ne y x with rfl | hne
      · rw [Function.update_self]
        refine undemanding_moves h.asks (step_moves hs) ?_ ?_
        · rintro payload rfl
          simp [asksNothing] at hguard
        · rintro rfl
          simp [asksNothing] at hguard
      · rw [Function.update_of_ne hne]
        exact h.asks
    · rcases system_step_side hsys y with ⟨b, hb, -⟩ | ⟨g, tail, -, -, hread⟩ |
        ⟨g, tail, -, hg, hsame⟩ | hsame
      · cases hb
      · obtain ⟨hsent, hcalls⟩ := reads_calls (read_reads hread).2
        exact ⟨hsent ▸ h.asks.out, hcalls ▸ h.asks.calls⟩
      · rw [hsame]
        exact ⟨fun k hk => h.asks.out k (hg ▸ List.mem_cons_of_mem _ hk), h.asks.calls⟩
      · exact hsame ▸ h.asks
    · exact hsys ▸ h.asks
  · intro f rest _ hout
    rw [Side.other_other] at hout
    exact h.asks.out f (hout ▸ List.mem_cons_self)

/-- If requests are taken up in turn, one of the read loops is not busy. -/
theorem in_turn_step (h : ∃ x, w.busy x = false)
    (hstep : restrict repliesInTurn (wireStep C) w a = some w') :
    ∃ x, w'.busy x = false := by
  obtain ⟨hguard, hstep⟩ := restrict_eq_some.mp hstep
  obtain ⟨x, hx⟩ := h
  by_cases hread : ∀ f rest, a = .deliver x → (w.sys x.other).out = f :: rest →
      f.type ≠ .openStream ∧ f.type ≠ .ping
  · exact ⟨x, free_step hx hstep hread⟩
  · -- `x` takes up a request, so the other end is not busy, and it reads nothing now.
    push Not at hread
    obtain ⟨f, rest, rfl, hout, hrequest⟩ := hread
    have hother : w.busy x.other = false := by
      simp only [repliesInTurn, hout, List.head?_cons, Option.all_some, Bool.or_eq_true,
        Bool.not_eq_true', decide_eq_true_eq] at hguard
      exact hguard.resolve_right fun hplain => hplain.2 (hrequest hplain.1)
    refine ⟨x.other, free_step hother hstep ?_⟩
    intro g tail heq
    exact absurd (WireAction.deliver.inj heq).symm (Side.other_ne x)

end InTurn

/-- The two read loops are never inside a `WriteFrame` of their own at once, whatever the
connection holds, if requests are taken up in turn. If one end opens no stream and sends no
keepalive, then the read loop of the other never is. -/
theorem read_loops_never_both_block {cfg : Config} {sys : System}
    (hsys : establish cfg = some sys) (C : Nat) (actions : List WireAction) (w : Wired) :
    (run (restrict repliesInTurn (wireStep C)) (wire sys) actions = some w →
      ∃ x, ¬ w.Replying x) ∧
    ∀ y, run (restrict (asksNothing y) (wireStep C)) (wire sys) actions = some w →
      ¬ w.Replying y.other := by
  have hfree : ∀ x, (wire sys).busy x = false := by
    obtain ⟨rfl, -⟩ := establish_limits hsys
    exact fun x => rfl
  refine ⟨fun hrun => ?_, fun y hrun => ?_⟩
  · obtain ⟨x, hx⟩ := @run_invariant _ _ _ (fun w => ∃ x, w.busy x = false) in_turn_step _ _ _
      ⟨.client, hfree .client⟩ hrun
    exact ⟨x, not_replying hx⟩
  · have hstart : (wire sys).OneSided y := by
      refine ⟨?_, hfree y.other⟩
      obtain ⟨rfl, -⟩ := establish_limits hsys
      refine ⟨?_, ?_⟩ <;> simp [wire, newSession]
    have hinv := @run_invariant _ _ _ (fun w => w.OneSided y) one_sided_step _ _ _ hstart hrun
    exact not_replying hinv.free

/-- The client opens a stream on a connection that holds one byte. -/
def openOverByte : List WireAction :=
  [.act .client (.start (.openStream [7])), .act .client (.advance 0 .value),
    .act .client (.advance 0 .value), .push .client 1, .pull .client 1, .pass .client 10,
    .deliver .server, .act .server .dispatch]

/-- Both ends send a keepalive over a pipe, one after the other. -/
def pingInTurn : List WireAction :=
  [.act .client .ping, .pass .client 10, .deliver .server, .act .server .dispatch,
    .pass .server 10, .deliver .client, .act .server .ping, .pass .server 10, .deliver .client,
    .act .client .dispatch]

/-- The read loop of the server acknowledges a stream while the client's is never busy, and the
two answer keepalives one at a time. -/
theorem read_loops_answer :
    (∃ sys w, establish ⟨0, 0, 0⟩ = some sys ∧
      run (restrict (asksNothing .server) (wireStep 1)) (wire sys) openOverByte = some w ∧
      w.Replying .server ∧ ¬ w.Replying .client) ∧
    ∃ sys w, establish ⟨0, 0, 0⟩ = some sys ∧
      run (restrict repliesInTurn (wireStep 0)) (wire sys) pingInTurn = some w ∧
      w.Replying .client ∧ ∃ x, ¬ w.Replying x := by
  have hopen : ((establish ⟨0, 0, 0⟩).bind fun sys =>
      (run (restrict (asksNothing .server) (wireStep 1)) (wire sys) openOverByte).map fun w =>
        (w.line .server).writer) = some (some .reader) := by
    decide +kernel
  have hping : ((establish ⟨0, 0, 0⟩).bind fun sys =>
      (run (restrict repliesInTurn (wireStep 0)) (wire sys) pingInTurn).map fun w =>
        (w.line .client).writer) = some (some .reader) := by
    decide +kernel
  obtain ⟨sys, hsys, hopen⟩ := Option.bind_eq_some_iff.mp hopen
  obtain ⟨w, hw, hwriter⟩ := Option.map_eq_some_iff.mp hopen
  obtain ⟨sys', hsys', hping⟩ := Option.bind_eq_some_iff.mp hping
  obtain ⟨w', hw', hwriter'⟩ := Option.map_eq_some_iff.mp hping
  exact ⟨⟨sys, w, hsys, hw, .inl hwriter,
      (read_loops_never_both_block hsys 1 _ w).2 .server hw⟩,
    sys', w', hsys', hw', .inl hwriter', (read_loops_never_both_block hsys' 0 _ w').1 hw'⟩

/-- Nothing that can happen to a connection in this state changes it: both read loops hold the
lock with bytes left, there is no room for them, and neither read loop takes bytes out. -/
structure Wired.Stuck (C : Nat) (w : Wired) (x : Side) : Prop where
  writer : (w.line x).writer = some .reader
  left : 0 < (w.line x).left
  full : C ≤ w.inTransit x
  done : (w.sys x).done = false
  ending : (w.sys x).ending = .live ∨
    ∃ reason : Reason, (w.sys x).ending = .announcing reason ∧
      reason.length ≤ maxFramePayload.toNat

/-- A step that the reader does not take and that writes nothing keeps the connection open, and
the session from ending for a reason that does not fit into a frame. -/
theorem stuck_moves {s s' : Session} {a : Action} (hmoves : s.Moves a s')
    (hthread : a.thread ≠ some .reader) (hout : s'.out = s.out) (hdone : s.done = false)
    (hending : s.ending = .live ∨ ∃ reason : Reason, s.ending = .announcing reason ∧
      reason.length ≤ maxFramePayload.toNat)
    (hreason : ∀ reason : Reason, a = .close reason → reason.length ≤ maxFramePayload.toNat) :
    s'.done = false ∧ (s'.ending = .live ∨ ∃ reason : Reason, s'.ending = .announcing reason ∧
      reason.length ≤ maxFramePayload.toNat) := by
  have hlater : ∀ ending, s.ending = ending → ending ≠ .live →
      (∀ reason, ending ≠ .announcing reason) → False := by
    rintro ending rfl hlive hannounce
    rcases hending with hending | ⟨reason, hending, -⟩
    · exact hlive hending
    · exact hannounce reason hending
  cases hmoves with
  | turned index choice hcall hcell hturn =>
      obtain ⟨-, hsame, hopen⟩ := perform_control (s := s.setCell _ _) _ _
      exact ⟨hopen.trans hdone, hsame ▸ hending⟩
  | closed reason hlive => exact ⟨hdone, .inr ⟨reason, rfl, hreason reason rfl⟩⟩
  | @announced choice reason hannounce out hsent =>
      -- The ERROR frame would be written: nothing prevents it but the lock.
      have hfits : reason.length ≤ maxFramePayload.toNat := by
        rcases hending with hending | ⟨reason', hending, hlength⟩
        · rw [hannounce] at hending
          cases hending
        · rw [hannounce] at hending
          cases hending
          exact hlength
      have hwritable : writable s.done reason = true := by simp [writable, hdone, hfits]
      rw [if_pos hwritable] at hsent
      have hlength := congrArg List.length (hsent.symm.trans hout)
      simp at hlength
  | collected choice hlater' => exact (hlater _ hlater' (by simp) (by simp)).elim
  | killed choice hlater' => exact (hlater _ hlater' (by simp) (by simp)).elim
  | killedAll choice hlater' => exact (hlater _ hlater' (by simp) (by simp)).elim
  | notified choice hlater' => exact (hlater _ hlater' (by simp) (by simp)).elim
  | ended choice hlater' => exact (hlater _ hlater' (by simp) (by simp)).elim
  | served hreader hcell => exact absurd rfl hthread
  | refused hreader => exact absurd rfl hthread
  | lookedUp hreader => exact absurd rfl hthread
  | ponged hreader => exact absurd rfl hthread
  | quit hreader => exact absurd rfl hthread
  | told hreader => exact absurd rfl hthread
  | woken hreader hdone => exact absurd rfl hthread
  | broken err hreader => exact absurd rfl hthread
  | _ => exact ⟨hdone, hending⟩

/-- Two stuck read loops stay stuck, whatever the applications and the keepalives do. -/
theorem stuck_step {C : Nat} {w w' : Wired} {a : WireAction} (h : ∀ x, w.Stuck C x)
    (hstep : restrict shortReasons (wireStep C) w a = some w') (x : Side) : w'.Stuck C x := by
  obtain ⟨hguard, hstep⟩ := restrict_eq_some.mp hstep
  have hreading : ∀ y, w.reading y = false := by
    intro y
    simp [Wired.reading, (h y).writer]
  have hasked : ∀ y, w.asked y = 0 := by
    intro y
    simp [Wired.asked, hreading]
  cases a with
  | act y b =>
      obtain ⟨s, hs, hsys, hfree, ⟨hout, hline⟩ | ⟨-, hlock, -⟩⟩ := act_cases hstep
      · have hthread : b.thread ≠ some .reader := by
          intro hthread
          rcases hfree with hnone | hne
          · rw [hthread] at hnone
            cases hnone
          · exact hne ((h y).writer.trans hthread.symm)
        have hreason : ∀ reason : Reason, b = .close reason →
            reason.length ≤ maxFramePayload.toNat := by
          rintro reason rfl
          simpa [shortReasons] using hguard
        obtain ⟨hdone, hending⟩ :=
          stuck_moves (step_moves hs) hthread hout (h y).done (h y).ending hreason
        rcases eq_or_ne x y with rfl | hne
        · have hself : w'.line x = w.line x := by simp [hline, hdone]
          have hnew : w'.sys x = s := by simp [hsys]
          refine ⟨hself ▸ (h x).writer, hself ▸ (h x).left, ?_, hnew ▸ hdone, hnew ▸ hending⟩
          have hfull := (h x).full
          rwa [Wired.inTransit, Session.outSize, hnew, hself, hout]
        · have hself : w'.line x = w.line x := by simp [hline, hne]
          have hsame : w'.sys x = w.sys x := by simp [hsys, hne]
          refine ⟨hself ▸ (h x).writer, hself ▸ (h x).left, ?_, hsame ▸ (h x).done,
            hsame ▸ (h x).ending⟩
          rw [Wired.inTransit, hsame, hself]
          exact (h x).full
      · rw [(h y).writer] at hlock
        cases hlock
  | push y n =>
      simp only [wireStep, Option.ite_none_right_eq_some] at hstep
      obtain ⟨⟨-, hpos, -, hroom⟩, -⟩ := hstep
      have hfull := (h y).full
      omega
  | pull y n =>
      simp only [wireStep, Option.ite_none_right_eq_some] at hstep
      obtain ⟨⟨hpos, -, hn⟩, -⟩ := hstep
      rw [hasked] at hn
      omega
  | pass y n =>
      simp only [wireStep, Option.ite_none_right_eq_some] at hstep
      obtain ⟨⟨-, hpos, -, -, hn⟩, -⟩ := hstep
      rw [hasked] at hn
      omega
  | deliver y =>
      simp only [wireStep] at hstep
      split at hstep
      · cases hstep
      · simp [hreading] at hstep

/-- Two read loops that are stuck are deadlocked. -/
theorem stuck_deadlocked {C : Nat} {w : Wired} (h : ∀ x, w.Stuck C x) : w.Deadlocked C := by
  intro actions w' hrun x
  have hinv := @run_invariant _ _ _ (fun w => ∀ x, w.Stuck C x) stuck_step _ _ _ h hrun
  exact .inl (hinv x).writer

/-- Both keepalives send a PING, both read loops take it and answer it. -/
def bothPing : List WireAction :=
  [.act .client .ping, .pass .client 10, .deliver .server,
    .act .server .ping, .pass .server 10, .deliver .client,
    .act .client .dispatch, .act .server .dispatch]

/-- On a connection that holds nothing, two keepalives at the same time block both read loops for
good: each of them writes a PONG, and neither reads what the other writes. -/
theorem both_ping_deadlock :
    ∃ sys w, establish ⟨0, 0, 0⟩ = some sys ∧
      run (wireStep 0) (wire sys) bothPing = some w ∧ w.Deadlocked 0 := by
  have hfinal : ((establish ⟨0, 0, 0⟩).bind fun sys => (run (wireStep 0) (wire sys) bothPing).map
      fun w => [Side.client, Side.server].map fun x =>
        decide ((w.line x).writer = some .reader ∧ 0 < (w.line x).left ∧
          (w.sys x).done = false ∧ (w.sys x).ending = .live)) = some [true, true] := by
    decide +kernel
  obtain ⟨sys, hsys, hfinal⟩ := Option.bind_eq_some_iff.mp hfinal
  obtain ⟨w, hw, hstuck⟩ := Option.map_eq_some_iff.mp hfinal
  simp only [List.map_cons, List.map_nil, List.cons.injEq, decide_eq_true_eq, and_true] at hstuck
  have hboth : ∀ x, (w.line x).writer = some .reader ∧ 0 < (w.line x).left ∧
      (w.sys x).done = false ∧ (w.sys x).ending = .live := by
    intro x
    cases x with
    | client => exact hstuck.1
    | server => exact hstuck.2
  refine ⟨sys, w, hsys, hw, stuck_deadlocked fun x => ?_⟩
  obtain ⟨hwriter, hleft, hdone, hending⟩ := hboth x
  exact ⟨hwriter, hleft, Nat.zero_le _, hdone, .inl hending⟩

end AccessRelay.Mux
