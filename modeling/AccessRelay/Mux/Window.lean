import AccessRelay.Mux.FlowControl
import AccessRelay.Mux.Moves

/-!
# Whole runs within the window

The two sessions of a connection, from the handshake on. `Windowed` is what every run keeps: the
bond between the ends of every stream, the window of every stream in both directions, and that
neither session speaks of a flow-control violation (`Calm`). The last follows from the first two,
since a read loop reports a violation only when it delivers more than the window has room for.
-/

namespace AccessRelay.Mux

open Encoding Proto Machine

/-- The session is not ended for a flow-control violation, and tells its peer no such thing. -/
structure Session.Calm (s : Session) : Prop where
  reader : s.reader.reason ≠ some reasonFlowControlViolation
  ending : s.ending.reason ≠ some reasonFlowControlViolation
  out : ∀ f ∈ s.out, f.type = .error → f.payload ≠ reasonFlowControlViolation

section Calm

variable {s s' : Session}

/-- The reasons that a session itself gives, apart from the violation. -/
theorem own_reasons : reasonProtocolMalformedFrame ≠ reasonFlowControlViolation ∧
    reasonLimitFrameTooLarge ≠ reasonFlowControlViolation ∧
    ∀ err, reasonFor err ≠ reasonFlowControlViolation := by
  refine ⟨by decide, by decide, ?_⟩
  intro err
  cases err <;> simp only [reasonFor] <;> decide

/-- Only the read loop moves, and gives no reason of the violation. -/
theorem Session.Calm.with_reader (h : s.Calm) {reader : Reader}
    (hreader : reader.reason ≠ some reasonFlowControlViolation) :
    { s with reader := reader }.Calm := ⟨hreader, h.ending, h.out⟩

theorem Session.Calm.emit (h : s.Calm) {type : Typ} (id : UInt32) (payload : Bytes)
    (htype : type ≠ .error) : (s.emit type id payload).Calm := by
  refine ⟨h.reader, h.ending, ?_⟩
  intro f hf herror
  rcases List.mem_append.mp hf with hf | hf
  · exact h.out f hf herror
  · obtain rfl := List.mem_singleton.mp hf
    exact absurd herror htype

theorem Session.Calm.reply (h : s.Calm) {type : Typ} (id : UInt32) (payload : Bytes)
    {next : Reader} (htype : type ≠ .error)
    (hnext : next.reason ≠ some reasonFlowControlViolation) :
    (s.reply type id payload next).Calm := by
  unfold Session.reply
  split_ifs
  · exact (h.emit id payload htype).with_reader hnext
  · exact h.with_reader (by simpa [Reader.reason] using own_reasons.1)

/-- An operation on a stream writes no ERROR. -/
theorem turn_sends {lim : Limits} {done : Bool} {ack : Option Reason} {c : Cell} {op : Op}
    {turn : Turn} (hturn : OpStep lim done ack c op turn) {type : Typ} {payload : Bytes}
    (heffect : turn.effect = .send type payload) : type ≠ .error := by
  cases hturn <;> cases heffect <;> simp

/-- The read loop serves a stream, and delivers no more than the window has room for. -/
theorem calm_serve_step {i : Handle} {c : Cell} {task : Task} (h : s.Calm)
    (hdeliver : ∀ payload, task = .delivering payload → c.stream.deliver payload ≠ none) :
    (s.serveStep i c task).Calm := by
  have hidle : Reader.idle.reason ≠ some reasonFlowControlViolation := by simp [Reader.reason]
  cases task with
  | acking => exact h.reply _ _ (by simp) (by simp [Reader.reason])
  | queueing =>
      simp only [Session.serveStep]
      split_ifs
      · exact ⟨hidle, h.ending, h.out⟩
      · exact h.with_reader (by simp [Reader.reason])
  | dropping => exact ⟨by simp [Session.serveStep, Reader.reason], h.ending, h.out⟩
  | delivering payload =>
      simp only [Session.serveStep]
      cases hst : c.stream.deliver payload with
      | none => exact absurd hst (hdeliver payload rfl)
      | some st => exact ⟨hidle, h.ending, h.out⟩
  | granting credit => exact ⟨hidle, h.ending, h.out⟩
  | closing reason => exact ⟨by simp [Session.serveStep, Reader.reason], h.ending, h.out⟩
  | retiring =>
      simp only [Session.serveStep]
      split_ifs
      · exact ⟨hidle, h.ending, h.out⟩
      · exact h.with_reader hidle

theorem calm_shutdown {reason : Reason} {next : Reader} (h : s.Calm)
    (hreader : s.reader.reason = some reason) (hnext : next.reason = none) :
    (s.shutdown reason next).Calm := by
  refine ⟨by simp [Session.shutdown, hnext], ?_, h.out⟩
  show (if s.ending = .live then Ending.collecting reason else s.ending).reason ≠ _
  split_ifs
  · exact fun hreason => h.reader (hreader.trans hreason)
  · exact h.ending

/-- A session stays calm as long as the application does not end it for a violation and the peer
keeps to the window. -/
theorem calm_step {a : Action} (h : s.Calm) (hmoves : s.Moves a s')
    (hclose : a ≠ .close reasonFlowControlViolation)
    (hdeliver : ∀ i payload c, s.reader = .serving i (.delivering payload) →
      s.cell i = some c → c.stream.deliver payload ≠ none) : s'.Calm := by
  have hending := h.ending
  have hsent : ∀ {out : List Frame} {f : Frame} {sent : Bool},
      (out = if sent then s.out ++ [f] else s.out) →
      (f.type = .error → f.payload ≠ reasonFlowControlViolation) →
      ∀ g ∈ out, g.type = .error → g.payload ≠ reasonFlowControlViolation := by
    intro out f sent hout hf g hg
    rw [hout] at hg
    split_ifs at hg
    · rcases List.mem_append.mp hg with hg | hg
      · exact h.out g hg
      · obtain rfl := List.mem_singleton.mp hg
        exact hf
    · exact h.out g hg
  cases hmoves with
  | turned index choice hcall hcell hturn =>
      rename_i i op c turn
      have hset : (s.setCell i turn.cell).Calm := ⟨h.reader, h.ending, h.out⟩
      cases heffect : turn.effect with
      | silent => exact ⟨h.reader, h.ending, h.out⟩
      | retire => exact ⟨h.reader, h.ending, h.out⟩
      | send type payload =>
          have hemit := hset.emit i.id payload (turn_sends hturn heffect)
          exact ⟨hemit.reader, hemit.ending, hemit.out⟩
  | served hreader hcell =>
      refine calm_serve_step h ?_
      rintro payload rfl
      exact hdeliver _ payload _ hreader hcell
  | refused hreader => exact h.reply _ _ (by simp) (by simp [Reader.reason])
  | lookedUp hreader =>
      unfold Session.serve
      split <;> exact h.with_reader (by simp [Reader.reason])
  | ponged hreader => exact h.reply _ _ (by simp) (by simp [Reader.reason])
  | quit hreader => exact calm_shutdown h (by rw [hreader]; rfl) rfl
  | told hreader => exact calm_shutdown h (by rw [hreader]; rfl) rfl
  | woken hreader hdone => exact h.with_reader (by simp [Reader.reason])
  | broken err hreader =>
      exact h.with_reader (by simpa [Reader.reason] using own_reasons.2.2 err)
  | closed reason hlive => exact ⟨h.reader, by simpa [Ending.reason] using hclose, h.out⟩
  | announced choice heq out hout =>
      rw [heq] at hending
      exact ⟨h.reader, hending, hsent hout fun _ hreason => hending (congrArg some hreason)⟩
  | collected choice heq =>
      rw [heq] at hending
      exact ⟨h.reader, hending, h.out⟩
  | killed choice heq hi hcell =>
      rw [heq] at hending
      exact ⟨h.reader, hending, h.out⟩
  | killedAll choice heq =>
      rw [heq] at hending
      exact ⟨h.reader, hending, h.out⟩
  | notified choice heq =>
      rw [heq] at hending
      exact ⟨h.reader, hending, h.out⟩
  | ended choice heq =>
      rw [heq] at hending
      exact ⟨h.reader, hending, h.out⟩
  | pinged out hout => exact ⟨h.reader, h.ending, hsent hout (by simp)⟩
  | _ => exact ⟨h.reader, h.ending, h.out⟩

/-- A session stays calm when it reads a frame of a calm peer. -/
theorem calm_read {f : Frame} (h : s.Calm) (hreads : s.Reads f s')
    (hf : f.type = .error → f.payload ≠ reasonFlowControlViolation) : s'.Calm := by
  obtain ⟨hmalformed, hlarge, -⟩ := own_reasons
  have hcomplete : ∀ id reason, (s.completeOpen id reason).Calm := by
    intro id reason
    unfold Session.completeOpen
    cases s.pending.find? fun h => h.id = id with
    | none => exact h
    | some i => exact ⟨h.reader, h.ending, h.out⟩
  cases hreads with
  | tooLarge hsize => exact h.with_reader (by simpa [Reader.reason] using hlarge)
  | malformed => exact h.with_reader (by simpa [Reader.reason] using hmalformed)
  | registered htype hparity => exact ⟨by simp [Reader.reason], h.ending, h.out⟩
  | answered htype => exact hcomplete _ _
  | close htype hreason => exact (hcomplete _ _).with_reader (by simp [Reader.reason])
  | pong htype => exact h
  | error htype => exact h.with_reader (by simpa [Reader.reason] using hf htype)
  | _ => exact h.with_reader (by simp [Reader.reason])

end Calm

/-- What every run of the two sessions keeps. -/
structure Windowed (lim : Limits) (sys : System) : Prop where
  joint : Joint lim sys
  flow : ∀ id, Directed.Both (fun _ => Flow lim) (openerOf id) (link id sys)
  calm : ∀ x, (sys x).Calm

/-- The steps of two honest sessions: within the bounds of the counters, and the application does
not itself end a session for a flow-control violation. -/
def honest (sys : System) : SystemAction → Bool
  | .act x (.close reason) =>
      withinBounds sys (.act x (.close reason)) && reason ≠ reasonFlowControlViolation
  | a => withinBounds sys a

section Windowed

variable {lim : Limits} {sys sys' : System} {a : SystemAction}

/-- An honest read loop never meets the flow-control error: what it is about to deliver is within
the window, together with what the buffer holds. -/
theorem Windowed.deliver (h : Windowed lim sys) {x : Side} {i : Handle} {payload : Bytes}
    {c : Cell} (hreader : (sys x).reader = .serving i (.delivering payload))
    (hcell : (sys x).cell i = some c) : c.stream.deliver payload ≠ none := by
  have hi : i = ⟨i.id, 0⟩ := by
    have hlt : i.nth < ((sys x).cells i.id).length := (List.getElem?_eq_some_iff.mp hcell).1
    have hone := (h.joint.tidy x).single i.id
    have hzero : i.nth = 0 := by omega
    cases i
    simp_all
  have hview : (link i.id sys x).cell = some c := by
    show (sys x).cell ⟨i.id, 0⟩ = some c
    rw [← hi]
    exact hcell
  have hhand : (link i.id sys x).hand = .serving (.delivering payload) := by
    show handOf i.id (sys x).reader = _
    rw [hreader, handOf, if_pos hi]
  have hback := (h.flow i.id x.other).total
  rw [Side.other_other] at hback
  simp only [End.incoming, hview, hhand, Option.elim_some, Hand.bytes] at hback
  have hwindow := lim.window.toNat_lt
  intro hnone
  unfold Stream.deliver at hnone
  split_ifs at hnone with hclosed hless
  push Not at hclosed
  have hexact := (((h.flow i.id x).metered).cell c hview).exact (by simpa using hclosed.1)
  rw [UInt32.lt_iff_toNat_lt, UInt32.toNat_ofNat',
    Nat.mod_eq_of_lt (show payload.length < 2 ^ 32 by omega)] at hless
  omega

/-- No `Write` is given more bytes than its counter can hold. -/
theorem small_start (hbounds : withinBounds sys a = true) (id : UInt32) :
    SmallStart (labelAt id sys a) := by
  intro p written hlabel
  cases a with
  | deliver x => cases hlabel
  | act x a =>
      cases a with
      | start call =>
          cases call with
          | stream i op =>
              simp only [labelAt, labelOf] at hlabel
              split_ifs at hlabel
              cases hlabel
              exact of_decide_eq_true hbounds
          | _ => cases hlabel
      | advance index choice =>
          simp only [labelAt, labelOf] at hlabel
          split at hlabel
          · split_ifs at hlabel
          · cases hlabel
      | _ => cases hlabel

theorem within_bounds_of_honest (hhonest : honest sys a = true) : withinBounds sys a = true := by
  unfold honest at hhonest
  split at hhonest
  · exact (Bool.and_eq_true_iff.mp hhonest).1
  · exact hhonest

/-- A step of two honest sessions. -/
theorem windowed_step (hlim : lim.Proper) (h : Windowed lim sys)
    (hstep : restrict honest systemStep sys a = some sys') : Windowed lim sys' := by
  obtain ⟨hhonest, hstep⟩ := restrict_eq_some.mp hstep
  refine ⟨joint_step h.joint hstep (within_bounds_of_honest hhonest), ?_, ?_⟩
  · intro id
    exact flow_step hlim (h.joint.bond id) (h.flow id)
      (small_start (within_bounds_of_honest hhonest) id) (system_step_link h.joint hstep id)
  · intro x
    rcases system_step_side hstep x with ⟨b, rfl, hs⟩ | ⟨f, rest, rfl, hout, hs⟩ |
      ⟨f, rest, rfl, hout, hs⟩ | hs
    · refine calm_step (h.calm x) (step_moves hs) ?_ fun i payload c => h.deliver
      rintro rfl
      simp [honest] at hhonest
    · exact calm_read (h.calm x) (read_reads hs).2 ((h.calm x.other).out f (by simp [hout]))
    · rw [hs]
      have hcalm := h.calm x
      exact ⟨hcalm.reader, hcalm.ending, fun g hg => hcalm.out g (by simp [hout, hg])⟩
    · rw [hs]
      exact h.calm x

/-- The negotiated limits are proper. -/
theorem proper_of_establish {cfg : Config} (h : establish cfg = some sys) :
    (limitsOf cfg.ack).Proper := by
  obtain ⟨-, -, hframe, hwindow⟩ := establish_limits h
  refine ⟨hframe, hwindow, ?_⟩
  show 0 < (if cfg.ack.initialWindow / 2 = 0 then (1 : UInt32) else cfg.ack.initialWindow / 2) ∧
    (if cfg.ack.initialWindow / 2 = 0 then (1 : UInt32) else cfg.ack.initialWindow / 2) ≤
      cfg.ack.initialWindow
  generalize cfg.ack.initialWindow = w at *
  have hpos := UInt32.lt_iff_toNat_lt.mp hwindow
  split_ifs with hhalf
  · refine ⟨by decide, UInt32.le_iff_toNat_le.mpr ?_⟩
    exact hpos
  · refine ⟨UInt32.pos_iff_ne_zero.mpr hhalf, UInt32.le_iff_toNat_le.mpr ?_⟩
    rw [UInt32.toNat_div]
    exact Nat.div_le_self _ _

theorem flow_new_end (lim : Limits) : Flow lim newEnd newEnd := by
  have htotal : newEnd.outgoing lim + newEnd.incoming = lim.window.toNat := by
    simp [End.outgoing, End.incoming, End.bytesOut, End.creditOut, newEnd, Hand.credit, Hand.bytes]
  exact ⟨⟨by simp [newEnd], by simp [newEnd]⟩, htotal.le, fun _ _ => htotal⟩

/-- A connection starts with every window untouched. -/
theorem windowed_establish {cfg : Config} (h : establish cfg = some sys) :
    Windowed (limitsOf cfg.ack) sys := by
  have hjoint := joint_establish h
  obtain ⟨rfl, -⟩ := establish_limits h
  refine ⟨hjoint, fun id x => flow_new_end _, ?_⟩
  intro x
  exact ⟨by simp [newSession, Reader.reason], by simp [newSession, Ending.reason],
    by simp [newSession]⟩

end Windowed

/-- Data bytes on their way from `x` to the other end of stream `id`: taken by `Write`, on the
connection, or in the hands of the other read loop. -/
def dataInFlight (id : UInt32) (sys : System) (x : Side) : Nat :=
  (link id sys x).bytesOut + (link id sys x.other).hand.bytes

/-- Credit on its way back to `x`: taken by `Read`, on the connection, or in the hands of the read
loop of `x`. -/
def creditInFlight (id : UInt32) (sys : System) (x : Side) : Nat :=
  (link id sys x.other).creditOut + (link id sys x).hand.credit

/-- Stream `id` is live at both ends, in the direction from `x`: it is in both stream maps, both
sessions are up and read frames, and the receiving end has been neither reset nor closed. -/
structure LiveStream (id : UInt32) (sys : System) (x : Side) (sender receiver : Stream) :
    Prop where
  sends : ∃ history, (sys x).cell ⟨id, 0⟩ = some ⟨sender, history⟩
  receives : ∃ history, (sys x.other).cell ⟨id, 0⟩ = some ⟨receiver, history⟩
  registered : ∀ y, (⟨id, 0⟩ : Handle) ∈ (sys y).streams
  up : ∀ y, (sys y).done = false ∧ (sys y).reader.running = true
  receptive : receiver.reset = false ∧ receiver.remoteClosed = false

section Conservation

variable {lim : Limits} {sys : System}

theorem hand_not_stopped {id : UInt32} {reader : Reader} (h : reader.running = true) :
    handOf id reader ≠ .stopped := by
  cases reader with
  | serving i task =>
      rw [handOf]
      split_ifs <;> simp
  | refusing i =>
      rw [handOf]
      split_ifs <;> simp
  | lookingUp i reason =>
      rw [handOf]
      split_ifs <;> simp
  | failing reason => cases h
  | ended => cases h
  | _ => simp [handOf]

/-- The window of a live stream is all there. -/
theorem Windowed.conserved (h : Windowed lim sys) {id : UInt32} {x : Side}
    {sender receiver : Stream} (hlive : LiveStream id sys x sender receiver) :
    sender.sendWindow.toNat + dataInFlight id sys x + receiver.buf.length +
      receiver.pendingCredit.toNat + creditInFlight id sys x = lim.window.toNat := by
  obtain ⟨senderHistory, hsender⟩ := hlive.sends
  obtain ⟨receiverHistory, hreceiver⟩ := hlive.receives
  have hable : ∀ y, (link id sys y).Able := by
    intro y
    refine ⟨(hlive.up y).1, hand_not_stopped (hlive.up y).2, ?_⟩
    intro c _
    simpa [link, view] using hlive.registered y
  have hreceptive : (link id sys x.other).Receptive := by
    refine ⟨hable x.other, ?_⟩
    intro c hc
    obtain rfl : (⟨receiver, receiverHistory⟩ : Cell) = c :=
      Option.some.inj (hreceiver.symm.trans hc)
    exact hlive.receptive
  have hsum := (h.flow id x).exact (hable x) hreceptive
  have hout : (link id sys x).outgoing lim =
      sender.sendWindow.toNat + (link id sys x).hand.credit + (link id sys x).bytesOut := by
    have hcell : (link id sys x).cell = some ⟨sender, senderHistory⟩ := hsender
    rw [End.outgoing, hcell]
    rfl
  have hin : (link id sys x.other).incoming = receiver.buf.length + receiver.pendingCredit.toNat +
      (link id sys x.other).hand.bytes + (link id sys x.other).creditOut := by
    have hcell : (link id sys x.other).cell = some ⟨receiver, receiverHistory⟩ := hreceiver
    rw [End.incoming, hcell]
    rfl
  rw [hout, hin] at hsum
  rw [dataInFlight, creditInFlight]
  omega

/-- The receiver keeps back less credit than is worth a frame. -/
theorem Windowed.pending_lt (h : Windowed lim sys) (hlim : lim.Proper) {id : UInt32} {x : Side}
    {c : Cell} (hcell : (sys x).cell ⟨id, 0⟩ = some c) :
    c.stream.pendingCredit.toNat < lim.window.toNat := by
  have hlt := UInt32.lt_iff_toNat_lt.mp (((h.flow id x).metered).cell c hcell).pending
  have hle := UInt32.le_iff_toNat_le.mp hlim.threshold.2
  omega

end Conservation

/-- Flow control between two honest sessions, in every state of every run: the window of a live
stream is conserved and its sender is not starved, the read loops never meet the flow-control
error, and no session ends with it. -/
theorem window_conserved {cfg : Config} {sys sys' : System} {actions : List SystemAction}
    (hestablish : establish cfg = some sys)
    (hrun : run (restrict honest systemStep) sys actions = some sys') :
    (∀ id x sender receiver, LiveStream id sys' x sender receiver →
      sender.sendWindow.toNat + dataInFlight id sys' x + receiver.buf.length +
        receiver.pendingCredit.toNat + creditInFlight id sys' x =
          cfg.withDefaults.initialWindow.toNat ∧
      (receiver.buf = [] → dataInFlight id sys' x = 0 → creditInFlight id sys' x = 0 →
        0 < sender.sendWindow)) ∧
    (∀ x i payload c, (sys' x).reader = .serving i (.delivering payload) →
      (sys' x).cell i = some c → c.stream.deliver payload ≠ none) ∧
    ∀ x, (sys' x).reader.reason ≠ some reasonFlowControlViolation ∧
      (sys' x).ending.reason ≠ some reasonFlowControlViolation := by
  have hlim := proper_of_establish hestablish
  have hinv : Windowed (limitsOf cfg.ack) sys' :=
    run_invariant (fun h hstep => windowed_step hlim h hstep) (windowed_establish hestablish) hrun
  refine ⟨?_, fun x i payload c => hinv.deliver,
    fun x => ⟨(hinv.calm x).reader, (hinv.calm x).ending⟩⟩
  intro id x sender receiver hlive
  have hsum := hinv.conserved hlive
  refine ⟨hsum, ?_⟩
  intro hbuf hdata hcredit
  obtain ⟨history, hreceiver⟩ := hlive.receives
  have hpending := hinv.pending_lt hlim hreceiver
  rw [hbuf, hdata, hcredit, List.length_nil] at hsum
  rw [UInt32.lt_iff_toNat_lt, UInt32.toNat_zero]
  dsimp only at hpending
  omega

/-- A client opens a stream with a window of four bytes and writes three, of which the server has
read one; then it writes a fourth. -/
def fourByteRun : List SystemAction :=
  [.act .client (.start (.openStream [])), .act .client (.advance 0 .value),
    .act .client (.advance 0 .value), .deliver .server, .act .server .dispatch,
    .act .server .dispatch, .act .server (.start .acceptStream), .act .server (.advance 0 .value),
    .deliver .client, .act .client (.advance 0 .value),
    .act .client (.start (.stream ⟨1, 0⟩ (.write [1, 2, 3] 0))), .act .client (.advance 1 .value),
    .act .client (.advance 1 .value), .deliver .server, .act .server .dispatch,
    .act .server (.start (.stream ⟨1, 0⟩ (.read 1))), .act .server (.advance 1 .value),
    .act .client (.start (.stream ⟨1, 0⟩ (.write [4] 0))), .act .client (.advance 2 .value),
    .act .client (.advance 2 .value)]

/-- In that run the window is spread over the connection, the buffer and the pending credit. -/
theorem four_byte_window : ∃ sys sys' sender receiver, establish ⟨0, 4, 0⟩ = some sys ∧
    run (restrict honest systemStep) sys fourByteRun = some sys' ∧
    LiveStream 1 sys' .client sender receiver ∧
    sender.sendWindow.toNat + dataInFlight 1 sys' .client + receiver.buf.length +
      receiver.pendingCredit.toNat + creditInFlight 1 sys' .client = 4 ∧
    receiver.buf = [2, 3] ∧ receiver.pendingCredit = 1 := by
  have hrun : ((establish ⟨0, 4, 0⟩).bind fun sys =>
      (run (restrict honest systemStep) sys fourByteRun).map fun sys' =>
        [Side.client, Side.server].map fun y => (((sys' y).cell ⟨1, 0⟩).map Cell.stream,
          (sys' y).streams, !(sys' y).done && (sys' y).reader.running)) =
      some [(some { newStream 1 4 with sendWindow := 0 }, [⟨1, 0⟩], true),
        (some { newStream 1 4 with recvWindow := 2, pendingCredit := 1, buf := [2, 3] },
          [⟨1, 0⟩], true)] := by
    decide +kernel
  obtain ⟨sys, hestablish, hfinal⟩ := Option.bind_eq_some_iff.mp hrun
  obtain ⟨sys', hrun', hview⟩ := Option.map_eq_some_iff.mp hfinal
  simp only [List.map_cons, List.map_nil, List.cons.injEq, Prod.mk.injEq, and_true,
    Bool.and_eq_true, Bool.not_eq_true'] at hview
  obtain ⟨⟨hclient, hstreams, hup⟩, hserver, hstreams', hup'⟩ := hview
  obtain ⟨⟨sender, senderHistory⟩, hsender, rfl⟩ := Option.map_eq_some_iff.mp hclient
  obtain ⟨⟨receiver, receiverHistory⟩, hreceiver, rfl⟩ := Option.map_eq_some_iff.mp hserver
  have hlive : LiveStream 1 sys' .client { newStream 1 4 with sendWindow := 0 }
      { newStream 1 4 with recvWindow := 2, pendingCredit := 1, buf := [2, 3] } := by
    refine ⟨⟨senderHistory, hsender⟩, ⟨receiverHistory, hreceiver⟩, ?_, ?_, rfl, rfl⟩
    · intro y
      cases y <;> simp [hstreams, hstreams']
    · intro y
      cases y
      · exact hup
      · exact hup'
  obtain ⟨hsum, -⟩ := (window_conserved hestablish hrun').1 1 .client _ _ hlive
  exact ⟨sys, sys', _, _, hestablish, hrun', hlive, hsum, rfl, rfl⟩

end AccessRelay.Mux
