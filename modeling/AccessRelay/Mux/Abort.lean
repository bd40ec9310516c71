import AccessRelay.Mux.Objects

/-!
# The peer aborts a stream

The dispatch of a CLOSE_STREAM frame takes three steps of the read loop after the frame has been
read: it looks the stream up, closes it (`remoteClose`), and drops it from the table if it is
finished. Other threads may move between any two of them.

`remoteClose` does nothing to a stream that the peer has closed before or that has been reset. A
stream the peer has half-closed is therefore not aborted by a later CLOSE_STREAM with a reason
(`abort_after_half_close`); every other stream is (`abort_takes_effect`).
-/

namespace AccessRelay.Mux

open Encoding Proto Machine

/-- Other threads than the read loop have moved. -/
def Session.Others (s s' : Session) : Prop :=
  ∃ actions : List Action, .dispatch ∉ actions ∧ run Session.step s actions = some s'

/-- The dispatch of a CLOSE_STREAM frame that the session reads in state `s`: the states in which
the read loop looks the stream up, closes it and drops it from the table, and the state after
that. -/
structure Session.Dispatches (s : Session) (f : Frame)
    (atLookup atClose atRetire after : Session) : Prop where
  read : ∃ t, s.react (.frame f) = some t ∧ t.Others atLookup
  lookedUp : ∃ t, atLookup.step .dispatch = some t ∧ t.Others atClose
  closed : ∃ t, atClose.step .dispatch = some t ∧ t.Others atRetire
  retired : atRetire.step .dispatch = some after

/-- The stream has been aborted with this reason, and what was buffered has been dropped. -/
structure Stream.AbortedWith (st : Stream) (reason : Reason) : Prop where
  reset : st.reset = true
  reason : st.resetReason = reason
  buf : st.buf = []

/-- What an abort by the peer is for the session: the stream is reset, its identifier is not in the
table, and a writer gets the reason, however little credit it has. -/
structure Session.Aborted (s : Session) (h : Handle) (reason : Reason) : Prop where
  stream : ∃ c, s.cell h = some c ∧ c.stream.AbortedWith reason
  table : ∀ i ∈ s.streams, i.id ≠ h.id
  writer : ∀ index p written choice, s.calls[index]? = some (.stream h (.write p written)) →
    written < p.length →
    ∃ t, s.step (.advance index choice) = some t ∧
      t.calls[index]? = some (.stream h (.writeDone written (some (.reset reason))))

section Streams

variable {s : Session} {h : Handle} {c c' : Cell} {reason r : Reason}

/-- An aborted stream stays as it is, apart from its send window. -/
theorem turn_aborted {lim : Limits} {done : Bool} {ack : Option Reason} {op : Op} {turn : Turn}
    (hturn : OpStep lim done ack c op turn) (hc : c.stream.AbortedWith reason) :
    turn.cell.stream.AbortedWith reason := by
  have hreset := hc.reset
  cases hturn with
  | readBytes length hread =>
      obtain ⟨-, -, hbuf, -⟩ := Stream.read_bytes hread
      exact absurd hc.buf hbuf
  | took p written hlength hwrite =>
      simp [Stream.write, hreset] at hwrite
  | closeLocal r hclosed hopen =>
      rw [hreset] at hopen
      cases hopen
  | resetAbort r hopen =>
      rw [hreset] at hopen
      cases hopen
  | _ => exact hc

theorem touches_aborted {e : Event} (htouches : s.Touches h c e c')
    (hc : c.stream.AbortedWith reason) : c'.stream.AbortedWith reason := by
  cases htouches with
  | unchanged => exact hc
  | started hop =>
      unfold Op.start at hop
      split at hop <;> cases hop <;> exact hc
  | turned index choice hcall hturn => exact turn_aborted hturn hc
  | delivered hreader hdeliver =>
      simp only [Stream.deliver, hc.reset, true_or, if_true, Option.some.injEq] at hdeliver
      exact hdeliver ▸ hc
  | granted hreader =>
      unfold Stream.grantCredit
      split <;> exact ⟨hc.reset, hc.reason, hc.buf⟩
  | closed hreader =>
      simpa only [Stream.remoteClose, hc.reset, or_true, if_true] using hc
  | killed choice hending hh =>
      simpa only [Stream.kill, hc.reset, if_true] using hc

/-- The peer has not closed the stream and nobody has reset it; or it has been reset for this very
reason. -/
def Stream.abortable (st : Stream) (reason : Reason) : Bool :=
  (!st.remoteClosed && !st.reset) || (st.reset && st.resetReason = reason && st.buf = [])

/-- `remoteClose` with a reason aborts exactly these streams. -/
theorem remote_close_aborts {st : Stream} (hreason : Stream.graceful reason = false) :
    (st.remoteClose reason).AbortedWith reason ↔ st.abortable reason = true := by
  unfold Stream.remoteClose
  simp only [hreason, Bool.false_eq_true, if_false]
  split_ifs with hdone
  · -- Nothing is done: the stream is aborted afterwards if it was before.
    have hopen : (!st.remoteClosed && !st.reset) = false := by
      rcases hdone with hclosed | hreset
      · simp [hclosed]
      · simp [hreset]
    rw [Stream.abortable, hopen, Bool.false_or]
    simp only [Bool.and_eq_true, decide_eq_true_eq]
    exact ⟨fun h => ⟨⟨h.reset, h.reason⟩, h.buf⟩, fun h => ⟨h.1.1, h.1.2, h.2⟩⟩
  · push Not at hdone
    refine ⟨fun _ => ?_, fun _ => ⟨rfl, rfl, rfl⟩⟩
    simp [Stream.abortable, hdone.1, hdone.2]

end Streams

section Reader

variable {s s' : Session}

/-- What every step of the other threads keeps holds after all of them, while the read loop stays
where it is. -/
theorem Session.Others.keeps (inv : Session → Prop) (hothers : s.Others s')
    (hbusy : s.reader ≠ .idle)
    (hstep : ∀ {t t' : Session} {a : Action}, inv t → t.step a = some t' → inv t')
    (hs : inv s) : s'.reader = s.reader ∧ inv s' := by
  obtain ⟨actions, hnone, hrun⟩ := hothers
  induction actions generalizing s with
  | nil =>
      cases hrun
      exact ⟨rfl, hs⟩
  | cons a rest ih =>
      obtain ⟨t, ht, hrest⟩ := Option.bind_eq_some_iff.mp hrun
      simp only [List.mem_cons, not_or] at hnone
      obtain ⟨ha, hnone⟩ := hnone
      have hreader := moves_reader (step_moves ht) (Ne.symm ha) hbusy
      obtain ⟨hlast, hinv⟩ := ih (hreader ▸ hbusy) (hstep hs ht) hnone hrest
      exact ⟨hlast.trans hreader, hinv⟩

end Reader

section Dispatch

variable {s s' : Session} {h : Handle} {c : Cell} {f : Frame} {reason : Reason}

/-- An object stays in place, and whatever its steps keep is kept, while other threads move. -/
theorem Session.Others.cell {P : Cell → Prop} (hothers : s.Others s') (hbusy : s.reader ≠ .idle)
    (htouch : ∀ {t : Session} {e : Event} {d d' : Cell}, P d → t.Touches h d e d' → P d')
    (hcell : s.cell h = some c) (hc : P c) :
    s'.reader = s.reader ∧ ∃ c', s'.cell h = some c' ∧ P c' := by
  refine hothers.keeps (fun t => ∃ d, t.cell h = some d ∧ P d) hbusy ?_ ⟨c, hcell, hc⟩
  intro t t' a hinv hstep
  obtain ⟨d, hd, hP⟩ := hinv
  obtain ⟨d', hd', htouches⟩ := react_touches (e := .act a) hstep hd
  exact ⟨d', hd', htouch hP htouches⟩

/-- An abort that has been read waits to be looked up. -/
theorem read_abort (htype : f.type = .closeStream) (hreason : Stream.graceful f.payload = false)
    (hsize : f.payload.length ≤ s.limits.maxFrame.toNat) (hread : s.react (.frame f) = some s') :
    s'.reader = .lookingUp f.streamID f.payload ∧ s'.cells = s.cells := by
  have hnonempty : f.payload ≠ [] := by
    intro heq
    rw [heq] at hreason
    cases hreason
  have hfits : ¬ s.limits.maxFrame < UInt32.ofNat f.payload.length := by
    rw [UInt32.lt_iff_toNat_lt, UInt32.toNat_ofNat_of_lt' (hsize.trans_lt (UInt32.toNat_lt _))]
    exact Nat.not_lt.mpr hsize
  simp only [Session.react, Session.read, Session.receive, htype, if_neg hfits, if_neg hnonempty,
    Option.ite_none_right_eq_some, Option.some.injEq] at hread
  obtain ⟨-, -, rfl⟩ := hread
  exact ⟨rfl, complete_open_cells _ _⟩

/-- The read loop finds the stream. -/
theorem look_up_step {id : UInt32} (hreader : s.reader = .lookingUp id reason)
    (hlookup : s.lookup id = some h) (hstep : s.step .dispatch = some s') :
    s' = { s with reader := .serving h (.closing reason) } := by
  simp only [Session.step, Session.dispatch, hreader, Session.serve, hlookup,
    Option.some.injEq] at hstep
  exact hstep.symm

/-- The read loop closes the stream. -/
theorem close_step (hreader : s.reader = .serving h (.closing reason)) (hcell : s.cell h = some c)
    (hstep : s.step .dispatch = some s') :
    s'.reader = .serving h .retiring ∧
      s'.cell h = some { c with stream := c.stream.remoteClose reason } := by
  simp only [Session.step, Session.dispatch, hreader, hcell, Session.serveStep, Option.map_some,
    Option.some.injEq] at hstep
  subst hstep
  exact ⟨rfl, cell_set_cell_self _ hcell⟩

/-- The read loop drops a stream that is finished. -/
theorem retire_step (hreader : s.reader = .serving h .retiring) (hcell : s.cell h = some c)
    (hfinished : c.stream.finished = true) (hstep : s.step .dispatch = some s') :
    s'.cell h = some c ∧ ∀ i ∈ s'.streams, i.id ≠ h.id := by
  simp only [Session.step, Session.dispatch, hreader, hcell, Session.serveStep, hfinished,
    Option.map_some, if_true, Option.some.injEq] at hstep
  subst hstep
  refine ⟨hcell, ?_⟩
  intro i hi
  exact of_decide_eq_true (List.mem_filter.mp hi).2

/-- A writer on an aborted stream gets the reason. -/
theorem aborted_writer {index written : Nat} {p : Bytes} (choice : Choice)
    (hcell : s.cell h = some c) (hc : c.stream.AbortedWith reason)
    (hcall : s.calls[index]? = some (.stream h (.write p written))) (hleft : written < p.length) :
    ∃ t, s.step (.advance index choice) = some t ∧
      t.calls[index]? = some (.stream h (.writeDone written (some (.reset reason)))) := by
  obtain ⟨hlt, -⟩ := List.getElem?_eq_some_iff.mp hcall
  have hwrite : (Op.write p written).step s.limits s.done (s.ackFor h) c choice =
      some ⟨c, .writeDone written (some (.reset reason)), .silent⟩ := by
    simp [Op.step, Op.stepWrite, Stream.write, Nat.not_le.mpr hleft, hc.reset, hc.reason]
  have hstep : s.step (.advance index choice) = some { s.setCell h c with
      calls := s.calls.set index (.stream h (.writeDone written (some (.reset reason)))) } := by
    simp [Session.step, Session.callStep, hcall, hcell, hwrite, Session.perform]
  exact ⟨_, hstep, List.getElem?_set_self hlt⟩

end Dispatch

/-- Dispatching a CLOSE_STREAM frame with a reason, for a stream that is registered in any state a
session can reach, with any steps of other threads in between, if the stream is still registered
when the read loop looks it up. The close aborts the stream if and only if the peer has not closed
it before and nobody has reset it, or it has been reset for this very reason; and then, when the
dispatch is over, the stream is aborted for the session. -/
theorem abort_takes_effect {isClient : Bool} {ack : HelloAck} {events : List Event}
    {s atLookup atClose atRetire after : Session} {f : Frame} {h : Handle}
    (hrun : run Session.react (newSession isClient ack) events = some s)
    (htype : f.type = .closeStream) (hreason : Stream.graceful f.payload = false)
    (hsize : f.payload.length ≤ s.limits.maxFrame.toNat)
    (hregistered : s.lookup f.streamID = some h)
    (hdispatch : s.Dispatches f atLookup atClose atRetire after)
    (hfound : atLookup.lookup f.streamID = some h) :
    ∃ c, atClose.cell h = some c ∧
      (∀ t, atClose.step .dispatch = some t →
        ∃ c', t.cell h = some c' ∧
          (c'.stream.AbortedWith f.payload ↔ c.stream.abortable f.payload = true)) ∧
      (c.stream.abortable f.payload = true → after.Aborted h f.payload) := by
  obtain ⟨⟨t₁, hread, hothers₁⟩, ⟨t₂, hlook, hothers₂⟩, ⟨t₃, hclose, hothers₃⟩, hretire⟩ :=
    hdispatch
  obtain ⟨c₀, hc₀⟩ := cell_of_has ((session_run hrun).1.streams h (mem_of_lookup hregistered))
  obtain ⟨hreader₁, hcells₁⟩ := read_abort htype hreason hsize hread
  obtain ⟨hreader, c₁, hc₁, -⟩ := hothers₁.cell (P := fun _ => True) (by rw [hreader₁]; simp)
    (fun _ _ => trivial) ((cell_congr hcells₁ h).trans hc₀) trivial
  have hfound₂ := look_up_step (hreader.trans hreader₁) hfound hlook
  have hreader₂ : t₂.reader = .serving h (.closing f.payload) := by rw [hfound₂]
  have hc₂ : t₂.cell h = some c₁ := by
    rw [hfound₂]
    exact hc₁
  obtain ⟨hreader', c, hc, -⟩ := hothers₂.cell (P := fun _ => True) (by rw [hreader₂]; simp)
    (fun _ _ => trivial) hc₂ trivial
  refine ⟨c, hc, ?_, ?_⟩
  · intro t ht
    obtain ⟨-, hct⟩ := close_step (hreader'.trans hreader₂) hc ht
    exact ⟨_, hct, remote_close_aborts hreason⟩
  · intro habortable
    obtain ⟨hreader₃, hc₃⟩ := close_step (hreader'.trans hreader₂) hc hclose
    obtain ⟨hreader₄, c₄, hc₄, haborted⟩ :=
      hothers₃.cell (P := fun d => d.stream.AbortedWith f.payload) (by rw [hreader₃]; simp)
        (fun hd htouches => touches_aborted htouches hd) hc₃
        ((remote_close_aborts hreason).mpr habortable)
    have hfinished : c₄.stream.finished = true := by simp [Stream.finished, haborted.reset]
    obtain ⟨hcell, htable⟩ := retire_step (hreader₄.trans hreader₃) hc₄ hfinished hretire
    exact ⟨⟨c₄, hcell, haborted⟩, htable,
      fun index p written choice hcall hleft => aborted_writer choice hcell haborted hcall hleft⟩

/-- A server with a window of two bytes. -/
def narrowAck : HelloAck := ⟨version, 64, 2, 16⟩

/-- The server accepts a stream, a `Write` of three bytes on it waits for credit after the second,
and one byte has arrived. -/
def blockedWriter : List Event :=
  [.frame ⟨.openStream, 1, []⟩, .act .dispatch, .act .dispatch, .act (.start .acceptStream),
    .act (.advance 0 .value), .act (.start (.stream ⟨1, 0⟩ (.write [1, 2, 3] 0))),
    .act (.advance 1 .value), .act (.advance 1 .value), .frame ⟨.streamData, 1, [9]⟩,
    .act .dispatch]

/-- The peer has half-closed the stream as well. -/
def halfClosed : List Event :=
  blockedWriter ++ [.frame ⟨.closeStream, 1, reasonOK⟩, .act .dispatch, .act .dispatch,
    .act .dispatch]

theorem blocked_writer_aborted : ∃ s atLookup atClose atRetire after c,
    run Session.react (newSession false narrowAck) blockedWriter = some s ∧
    s.Dispatches ⟨.closeStream, 1, reasonGrantRevoked⟩ atLookup atClose atRetire after ∧
    atClose.cell ⟨1, 0⟩ = some c ∧ c.stream.buf = [9] ∧ c.stream.sendWindow = 0 ∧
    after.Aborted ⟨1, 0⟩ reasonGrantRevoked := by
  have hview : ((run Session.react (newSession false narrowAck) blockedWriter).bind fun s =>
      (s.react (.frame ⟨.closeStream, 1, reasonGrantRevoked⟩)).bind fun t₁ =>
      (t₁.step .dispatch).bind fun t₂ => (t₂.step .dispatch).bind fun t₃ =>
      (t₃.step .dispatch).map fun _ =>
        (s.limits.maxFrame, s.lookup 1, t₁.lookup 1, (t₂.cell ⟨1, 0⟩).map (·.stream))) =
      some (64, some ⟨1, 0⟩, some ⟨1, 0⟩, some { newStream 1 2 with
        buf := [9], recvWindow := 1, sendWindow := 0 }) := by
    decide +kernel
  obtain ⟨s, hrun, hview⟩ := Option.bind_eq_some_iff.mp hview
  obtain ⟨t₁, hread, hview⟩ := Option.bind_eq_some_iff.mp hview
  obtain ⟨t₂, hlook, hview⟩ := Option.bind_eq_some_iff.mp hview
  obtain ⟨t₃, hclose, hview⟩ := Option.bind_eq_some_iff.mp hview
  obtain ⟨after, hretire, hview⟩ := Option.map_eq_some_iff.mp hview
  simp only [Prod.mk.injEq] at hview
  obtain ⟨hframe, hregistered, hfound, hcell⟩ := hview
  have hdispatch : s.Dispatches ⟨.closeStream, 1, reasonGrantRevoked⟩ t₁ t₂ t₃ after :=
    ⟨⟨t₁, hread, [], List.not_mem_nil, rfl⟩, ⟨t₂, hlook, [], List.not_mem_nil, rfl⟩,
      ⟨t₃, hclose, [], List.not_mem_nil, rfl⟩, hretire⟩
  obtain ⟨c, hc, -, habort⟩ := abort_takes_effect hrun rfl (by decide) (by rw [hframe]; decide)
    hregistered hdispatch hfound
  rw [hc, Option.map_some, Option.some.injEq] at hcell
  exact ⟨s, t₁, t₂, t₃, after, c, hrun, hdispatch, hc, by rw [hcell], by rw [hcell],
    habort (by rw [hcell]; rfl)⟩

/-- The peer half-closes the stream and then aborts it. The stream is not reset, the byte that has
arrived is still in its buffer, the `Write` still waits, and the stream is still in the table. -/
theorem abort_after_half_close : ∃ s after c,
    run Session.react (newSession false narrowAck) halfClosed = some s ∧
    s.lookup 1 = some ⟨1, 0⟩ ∧
    run Session.react s (.frame ⟨.closeStream, 1, reasonGrantRevoked⟩ ::
      List.replicate 3 (.act .dispatch)) = some after ∧
    after.reader = .idle ∧ after.cell ⟨1, 0⟩ = some c ∧ c.stream.reset = false ∧
    c.stream.buf = [9] ∧ after.lookup 1 = some ⟨1, 0⟩ ∧
    after.calls[1]? = some (.stream ⟨1, 0⟩ (.write [1, 2, 3] 2)) ∧
    ∀ choice, after.step (.advance 1 choice) = none := by
  have hview : ((run Session.react (newSession false narrowAck) halfClosed).bind fun s =>
      (run Session.react s (.frame ⟨.closeStream, 1, reasonGrantRevoked⟩ ::
        List.replicate 3 (.act .dispatch))).map fun after =>
          ((s.lookup 1, after.reader, (after.cell ⟨1, 0⟩).map (·.stream)),
            after.lookup 1, after.calls[1]?,
            [Choice.value, .cancelled, .sessionDone].all fun choice =>
              (after.step (.advance 1 choice)).isNone)) =
      some ((some ⟨1, 0⟩, .idle, some { newStream 1 2 with
        buf := [9], recvWindow := 1, sendWindow := 0, remoteClosed := true }),
        some ⟨1, 0⟩, some (.stream ⟨1, 0⟩ (.write [1, 2, 3] 2)), true) := by
    decide +kernel
  obtain ⟨s, hrun, hview⟩ := Option.bind_eq_some_iff.mp hview
  obtain ⟨after, hrun', hview⟩ := Option.map_eq_some_iff.mp hview
  simp only [Prod.mk.injEq] at hview
  obtain ⟨⟨hregistered, hreader, hcell⟩, hlookup, hcall, hwaits⟩ := hview
  obtain ⟨c, hc, hstream⟩ := Option.map_eq_some_iff.mp hcell
  refine ⟨s, after, c, hrun, hregistered, hrun', hreader, hc, by rw [hstream]; rfl,
    by rw [hstream], hlookup, hcall, ?_⟩
  intro choice
  have hall := List.all_eq_true.mp hwaits choice (by cases choice <;> simp)
  simpa using hall

end AccessRelay.Mux
