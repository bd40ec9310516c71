import AccessRelay.Mux.Agreement
import AccessRelay.Mux.Answers

/-!
# The negotiated frame size

The read loop of either end checks the size of every frame against the negotiated limit; the
codec checks what it writes against its own ceiling, which may be far above. `Write` cuts its
data to the negotiated size, and a PONG echoes a payload that was checked when it arrived. The
other frames with a payload are written as they are: the payload of OPEN_STREAM, the four bytes
of STREAM_WINDOW, and the reasons of CLOSE_STREAM and ERROR.

Two honest ends stay within the limit exactly if it leaves room for what they write by themselves
(`frames_within_limit_iff`), as long as the applications hand in nothing between the limit and the
ceiling. What is above the ceiling fails at the caller.
-/

namespace AccessRelay.Mux

open Encoding Proto Machine

/-- The payload is within the negotiated size, or the codec does not take it. -/
def fitting (limit : UInt32) (payload : Bytes) : Bool :=
  payload.length ≤ limit.toNat || maxFramePayload.toNat < payload.length

/-- The applications hand in payloads and reasons that fit. A session is ended for a reason within
the limit. -/
def givenFits (limit : UInt32) (_ : System) : SystemAction → Bool
  | .act _ (.start (.stream _ (.write _ _))) => true
  | .act _ (.close reason) => reason.length ≤ limit.toNat
  | .act _ a => fitting limit a.given
  | .deliver _ => true

/-- The connection carries frames as they were written. `2 ^ 32` bytes or more in one call would
put more bytes on it than their header says, and an oversized header is not written by the codec. -/
def soundWire (_ : System) : SystemAction → Bool
  | .act _ (.readFailed err) => reasonFor err ≠ reasonLimitFrameTooLarge
  | .act _ a => a.given.length < 2 ^ 32
  | .deliver _ => true

/-- No frame on the connection is above the limit, and no read loop is about to end the session
for one. -/
def WithinLimit (limit : UInt32) (sys : System) : Prop :=
  ∀ x, (∀ f ∈ (sys x).out, f.payload.length ≤ limit.toNat) ∧
    (sys x).reader ≠ .failing reasonLimitFrameTooLarge

/-- The payload that `Open`, `Close` or `Reset` is about to write. -/
def Op.sends : Op → Option Bytes
  | .sendOpen payload | .sendClose payload | .sendReset payload => some payload
  | _ => none

/-- What is left of the call if its frame could not be written: it returns an error. `Close` and
`Reset` report none on a session that is done. -/
def Op.afterError (done : Bool) : Op → Op
  | .sendOpen _ => .retireOpen .send
  | .sendClose _ => .retireIfDone !done
  | .sendReset _ => .retire !done
  | op => op

/-- A call that is about to write more than the limit fails locally, without writing. -/
def Session.FailsLocally (limit : UInt32) (s : Session) : Prop :=
  ∀ index choice h op payload s', s.calls[index]? = some (.stream h op) →
    op.sends = some payload → limit.toNat < payload.length →
    s.step (.advance index choice) = some s' →
    s'.out = s.out ∧ s'.calls[index]? = some (.stream h (op.afterError s.done))

/-- An operation holds nothing that would be written above the limit. -/
def Op.Cut (limit : UInt32) : Op → Prop
  | .write p _ => p.length < 2 ^ 32
  | .sendData p _ n => p.length < 2 ^ 32 ∧ n ≤ limit.toNat
  | .sendOpen payload | .closeWith payload | .sendClose payload | .reset payload
  | .sendReset payload => fitting limit payload = true
  | _ => True

/-- Nor does a call. -/
def Call.Cut (limit : UInt32) : Call → Prop
  | .openStream payload => fitting limit payload = true
  | .stream _ op => op.Cut limit
  | _ => True

/-- The read loop echoes a PING or has failed. -/
def Reader.holds : Reader → Bool
  | .ponging _ | .failing _ => true
  | _ => false

/-- What the read loop holds is within the limit. -/
structure Reader.Cut (limit : UInt32) (r : Reader) : Prop where
  pong : ∀ payload, r = .ponging payload → payload.length ≤ limit.toNat
  quiet : r ≠ .failing reasonLimitFrameTooLarge

/-- Everything that a session has written, or will write from what it holds, is within the
limit. -/
structure Session.Fits (limit : UInt32) (s : Session) : Prop where
  limits : s.limits.maxFrame = limit
  out : ∀ f ∈ s.out, f.payload.length ≤ limit.toNat
  reader : s.reader.Cut limit
  calls : ∀ call ∈ s.calls, call.Cut limit
  ending : ∀ reason, s.ending = .announcing reason → reason.length ≤ limit.toNat

section Steps

variable {limit : UInt32} {s s' : Session} {a : Action}

/-- What fits and is written is within the limit. -/
theorem fitting_le {done : Bool} {payload : Bytes} (h : fitting limit payload = true)
    (hwritable : writable done payload = true) : payload.length ≤ limit.toNat := by
  have hcodec := (writable_eq_true.mp hwritable).2
  simp only [fitting, Bool.or_eq_true, decide_eq_true_eq] at h
  omega

/-- What an operation writes is within the limit, if the credit of a STREAM_WINDOW is. -/
theorem op_step_sends {lim : Limits} {done : Bool} {ack : Option Reason} {c : Cell}
    {choice : Choice} {op : Op} {turn : Turn} (h : op.step lim done ack c choice = some turn)
    (hop : op.Cut limit) (hsize : 4 ≤ limit.toNat) {type : Typ} {payload : Bytes}
    (heffect : turn.effect = .send type payload) : payload.length ≤ limit.toNat := by
  cases op with
  | sendOpen body =>
      simp only [Op.step, Option.some.injEq] at h
      subst h
      split_ifs at heffect with hwritable
      · cases heffect
        exact fitting_le hop hwritable
  | sendWindowUpdate credit data =>
      simp only [Op.step, Option.some.injEq] at h
      subst h
      dsimp only at heffect
      split_ifs at heffect
      cases heffect
      exact hsize
  | sendData p written n =>
      simp only [Op.step, Op.stepSendData, Option.some.injEq] at h
      subst h
      split_ifs at heffect
      · cases heffect
        exact (List.length_take_le _ _).trans hop.2
  | sendClose r | sendReset r =>
      simp only [Op.step, Op.stepSendClose, Option.some.injEq] at h
      subst h
      split_ifs at heffect with hwritable
      · cases heffect
        exact fitting_le hop hwritable
  | _ =>
      cases op_step_cases h <;> cases heffect

/-- A payload that the codec does not take is not written, and the call fails. -/
theorem op_step_fails {lim : Limits} {done : Bool} {ack : Option Reason} {c : Cell}
    {choice : Choice} {op : Op} {turn : Turn} (h : op.step lim done ack c choice = some turn)
    {payload : Bytes} (hsends : op.sends = some payload)
    (hlarge : ¬ writable done payload = true) :
    turn.effect = .silent ∧ turn.op = op.afterError done := by
  cases op with
  | sendOpen body | sendClose body | sendReset body =>
      cases hsends
      simp only [Op.step, Op.stepSendClose, if_neg hlarge, Option.some.injEq] at h
      subst h
      exact ⟨rfl, rfl⟩
  | _ => cases hsends

/-- A session that holds nothing above the limit fails at the caller what it cannot send. -/
theorem fails_locally (h : s.Fits limit) : s.FailsLocally limit := by
  intro index choice i op payload s' hcall hsends hlarge hstep
  obtain ⟨c, turn, hturn, rfl⟩ := advance_stream hstep hcall
  have hop : fitting limit payload = true := by
    have hcut := h.calls _ (List.mem_of_getElem? hcall)
    cases op <;> cases hsends <;> exact hcut
  obtain ⟨heffect, hnext⟩ := op_step_fails hturn hsends fun hwritable =>
    absurd (fitting_le hop hwritable) (Nat.not_le.mpr hlarge)
  obtain ⟨hlt, -⟩ := List.getElem?_eq_some_iff.mp hcall
  rw [heffect, hnext]
  exact ⟨rfl, List.getElem?_set_self hlt⟩

/-- A step writes at most one frame, within the limit. -/
theorem step_out (hstep : s.step a = some s') (h : s.Fits limit)
    (hsize : reasonLimitStreamsExceeded.length ≤ limit.toNat) :
    s'.out = s.out ∨ ∃ f, s'.out = s.out ++ [f] ∧ f.payload.length ≤ limit.toNat := by
  -- `Moves` does not say that the codec took the frame, so calls on a stream are inverted here.
  by_cases hstream : ∃ index choice i op, a = .advance index choice ∧
      s.calls[index]? = some (.stream i op)
  · obtain ⟨index, choice, i, op, rfl, hcall⟩ := hstream
    obtain ⟨c, turn, hturn, rfl⟩ := advance_stream hstep hcall
    have hop := h.calls _ (List.mem_of_getElem? hcall)
    cases heffect : turn.effect with
    | silent => exact .inl rfl
    | retire => exact .inl rfl
    | send type payload =>
        have hfour : 4 ≤ limit.toNat := le_trans (by decide) hsize
        exact .inr ⟨⟨type, i.id, payload⟩, rfl, op_step_sends hturn hop hfour heffect⟩
  cases step_moves hstep with
  | turned index choice hcall => exact absurd ⟨index, choice, _, _, rfl, hcall⟩ hstream
  | @served i task c =>
      refine (serve_step_out i c task).imp_right fun hacked => ?_
      exact ⟨_, hacked.2, Nat.zero_le _⟩
  | refused => exact (reply_out ..).imp_right fun hsent => ⟨_, hsent, hsize⟩
  | ponged hreader =>
      exact (reply_out ..).imp_right fun hsent => ⟨_, hsent, h.reader.pong _ hreader⟩
  | @lookedUp id reason =>
      refine .inl ?_
      unfold Session.serve
      split <;> rfl
  | @announced choice reason hending out hout =>
      subst hout
      split_ifs
      · exact .inr ⟨_, rfl, h.ending reason hending⟩
      · exact .inl rfl
  | pinged out hout =>
      subst hout
      split_ifs
      · exact .inr ⟨_, rfl, Nat.zero_le _⟩
      · exact .inl rfl
  | _ => exact .inl rfl

end Steps

section Kept

variable {limit : UInt32} {sys : System} {x : Side} {s s' : Session} {a : Action}

/-- `Write` cuts its data to the negotiated size. -/
theorem op_step_cut {lim : Limits} {done : Bool} {ack : Option Reason} {c : Cell} {op : Op}
    {turn : Turn} (h : OpStep lim done ack c op turn) (hop : op.Cut lim.maxFrame) :
    turn.op.Cut lim.maxFrame := by
  cases h with
  | @took p written n after hlength hwrite =>
      have hremaining : p.length - written < 2 ^ 32 := by
        have hp : p.length < 2 ^ 32 := hop
        omega
      exact ⟨hop, (Stream.write_take hwrite hremaining).2.2.1⟩
  | dataSent => exact hop.1
  | closeLocal | resetAbort => exact hop
  | readBytes =>
      dsimp only
      split_ifs <;> trivial
  | _ => trivial

/-- A read loop that echoes nothing and does not fail holds nothing. -/
theorem Reader.cut_of_holds {r : Reader} (h : r.holds = false) : r.Cut limit := by
  constructor
  · rintro _ rfl
    cases h
  · rintro rfl
    cases h

/-- A read loop may fail for any other reason. -/
theorem Reader.cut_failing {reason : Reason} (h : reason ≠ reasonLimitFrameTooLarge) :
    (Reader.failing reason).Cut limit :=
  ⟨by rintro _ ⟨⟩, fun heq => h (Reader.failing.inj heq)⟩

theorem reply_cut {type : Typ} {id : UInt32} {payload : Bytes} {next : Reader}
    (hnext : next.Cut limit) : (s.reply type id payload next).reader.Cut limit := by
  unfold Session.reply
  split_ifs
  · exact hnext
  · exact Reader.cut_failing (by decide)

/-- A step of a session by itself gives its read loop nothing new to echo, and no oversized frame
to fail on. -/
theorem moves_reader_cut (hmoves : s.Moves a s') (h : s.reader.Cut limit)
    (hwire : ∀ err, a = .readFailed err → reasonFor err ≠ reasonLimitFrameTooLarge) :
    s'.reader.Cut limit := by
  cases hmoves with
  | @turned index choice i op c turn =>
      show ((s.setCell i turn.cell).perform i.id turn.effect).reader.Cut limit
      rw [(perform_control i.id turn.effect).1]
      exact h
  | @served i task c =>
      cases task with
      | acking => exact reply_cut (Reader.cut_of_holds rfl)
      | queueing =>
          simp only [Session.serveStep]
          split_ifs <;> exact Reader.cut_of_holds rfl
      | delivering payload =>
          simp only [Session.serveStep]
          cases c.stream.deliver payload with
          | none => exact Reader.cut_failing (by decide)
          | some st => exact Reader.cut_of_holds rfl
      | retiring =>
          simp only [Session.serveStep]
          split_ifs <;> exact Reader.cut_of_holds rfl
      | dropping | granting | closing => exact Reader.cut_of_holds rfl
  | refused | ponged => exact reply_cut (Reader.cut_of_holds rfl)
  | lookedUp =>
      unfold Session.serve
      split <;> exact Reader.cut_of_holds rfl
  | quit | told | woken => exact Reader.cut_of_holds rfl
  | broken err => exact Reader.cut_failing (hwire err rfl)
  | _ => exact h

/-- A step changes one call, or adds one. -/
theorem moves_calls_cut (hmoves : s.Moves a s') (h : s.Fits limit)
    (hwrite : ∀ i p written, a = .start (.stream i (.write p written)) → p.length < 2 ^ 32)
    (hgiven : (∀ i p written, a ≠ .start (.stream i (.write p written))) →
      fitting limit a.given = true) :
    ∀ call ∈ s'.calls, call.Cut limit := by
  have hset : ∀ {index : Nat} {call : Call}, call.Cut limit →
      ∀ call' ∈ s.calls.set index call, call'.Cut limit := forall_mem_set h.calls
  have happend : ∀ {call : Call}, call.Cut limit →
      ∀ call' ∈ s.calls ++ [call], call'.Cut limit := forall_mem_concat h.calls
  cases hmoves with
  | called call hcall =>
      refine happend ?_
      cases call with
      | openStream payload => exact hgiven nofun
      | stream i op => exact absurd rfl (hcall i op)
      | _ => trivial
  | @started i op c c' hholds hcell hop =>
      refine happend ?_
      cases op with
      | write p written => exact hwrite i p written rfl
      | closeWith r | reset r => exact hgiven nofun
      | sendData | sendOpen | sendClose | sendReset => cases hop
      | _ => trivial
  | failed index choice call hcall hopen =>
      refine hset ?_
      cases call with
      | openStream payload => exact absurd rfl (hopen payload)
      | stream i op => exact absurd rfl (hcall i op)
      | _ => trivial
  | opened index choice payload hcall => exact hset (h.calls _ (List.mem_of_getElem? hcall) :)
  | accepted => exact hset trivial
  | @turned index choice i op c turn hcall hcell hturn =>
      refine hset ?_
      have hop := h.calls _ (List.mem_of_getElem? hcall)
      rw [← h.limits] at hop ⊢
      exact op_step_cut hturn hop
  | @served i task c =>
      rw [(serve_step_calls i c task).1]
      exact h.calls
  | refused | ponged =>
      rw [(reply_calls ..).1]
      exact h.calls
  | lookedUp =>
      rw [(serve_calls ..).1]
      exact h.calls
  | _ => exact h.calls

/-- A session announces its end only to a caller of `Close`. -/
theorem moves_ending_cut (hmoves : s.Moves a s') (h : s.Fits limit)
    (hclose : ∀ reason : Reason, a = .close reason → reason.length ≤ limit.toNat) :
    ∀ reason : Reason, s'.ending = .announcing reason → reason.length ≤ limit.toNat := by
  have hshutdown : ∀ {cause : Reason} {next : Reader} (reason : Reason),
      (s.shutdown cause next).ending = .announcing reason → reason.length ≤ limit.toNat := by
    intro cause next reason heq
    simp only [Session.shutdown] at heq
    split_ifs at heq
    exact h.ending reason heq
  cases hmoves with
  | turned =>
      rw [(perform_control ..).2.1]
      exact h.ending
  | @served i task c =>
      rw [(serve_step_reader i c task).1.1]
      exact h.ending
  | refused | ponged =>
      rw [(reply_control ..).2.1]
      exact h.ending
  | lookedUp =>
      rw [(serve_control ..).1]
      exact h.ending
  | quit | told => exact hshutdown
  | closed reason =>
      rintro _ ⟨⟩
      exact hclose reason rfl
  | announced | collected | killed | killedAll | notified | ended => rintro _ ⟨⟩
  | _ => exact h.ending

/-- What a call other than `Write` is handed fits. -/
theorem given_fits (h : givenFits limit sys (.act x a) = true)
    (hwrite : ∀ i p written, a ≠ .start (.stream i (.write p written))) :
    fitting limit a.given = true := by
  unfold givenFits at h
  split at h
  next heq =>
    cases heq
    exact (hwrite _ _ _ rfl).elim
  next heq =>
    cases heq
    exact Bool.or_eq_true_iff.mpr (.inl h)
  next heq =>
    cases heq
    exact h
  next heq => cases heq

/-- A step of a session keeps it within the limit, if what it is handed fits. -/
theorem fits_step (h : s.Fits limit) (hstep : s.step a = some s')
    (hsize : reasonLimitStreamsExceeded.length ≤ limit.toNat)
    (hwire : soundWire sys (.act x a) = true) (hgiven : givenFits limit sys (.act x a) = true) :
    s'.Fits limit := by
  have hmoves := step_moves hstep
  have hlimits : s'.limits = s.limits := react_limits (e := .act a) hstep
  have hreader : s'.reader.Cut limit := by
    refine moves_reader_cut hmoves h.reader ?_
    rintro err rfl
    simpa [soundWire] using hwire
  have hcalls : ∀ call ∈ s'.calls, call.Cut limit := by
    refine moves_calls_cut hmoves h ?_ ?_
    · rintro i p written rfl
      exact of_decide_eq_true hwire
    · exact given_fits hgiven
  have hending := moves_ending_cut hmoves h fun reason heq => by
    subst heq
    simpa [givenFits] using hgiven
  refine ⟨hlimits ▸ h.limits, ?_, hreader, hcalls, hending⟩
  rcases step_out hstep h hsize with hout | ⟨f, hout, hf⟩
  · rw [hout]
    exact h.out
  · rw [hout]
    exact forall_mem_concat h.out hf

/-- A frame within the limit is not refused for its size, and is all that the read loop can
echo. -/
theorem fits_read {f : Frame} (h : s.Fits limit) (hread : s.read f = some s')
    (hsize : f.payload.length ≤ limit.toNat) : s'.Fits limit := by
  obtain ⟨hidle, hreads⟩ := read_reads hread
  obtain ⟨hout, hcalls⟩ := reads_calls hreads
  have hlimits : s'.limits = s.limits := by
    rcases read_books hread with hkeeps | ⟨-, -, hreg, -⟩
    · exact hkeeps.limits
    · exact hreg.limits
  refine ⟨hlimits ▸ h.limits, hout ▸ h.out, ?_, hcalls ▸ h.calls,
    (reads_ending hreads).1 ▸ h.ending⟩
  cases hreads with
  | tooLarge hlarge =>
      have hfits : f.payload.length < 2 ^ 32 := hsize.trans_lt limit.toNat_lt
      rw [h.limits, UInt32.lt_iff_toNat_lt, UInt32.toNat_ofNat_of_lt' hfits] at hlarge
      omega
  | malformed => exact Reader.cut_failing (by decide)
  | ping =>
      refine ⟨?_, by rintro ⟨⟩⟩
      rintro _ ⟨⟩
      exact hsize
  | answered =>
      rw [(complete_open_control ..).1]
      exact h.reader
  | pong => exact h.reader
  | _ => exact Reader.cut_of_holds rfl

end Kept

/-- Both ends are within the limit. -/
theorem fits_system_step {limit : UInt32} {sys sys' : System} {a : SystemAction}
    (hsize : reasonLimitStreamsExceeded.length ≤ limit.toNat) (h : ∀ x, (sys x).Fits limit)
    (hstep : restrict (givenFits limit) (restrict soundWire systemStep) sys a = some sys') :
    ∀ x, (sys' x).Fits limit := by
  obtain ⟨hgiven, hstep⟩ := restrict_eq_some.mp hstep
  obtain ⟨hwire, hstep⟩ := restrict_eq_some.mp hstep
  intro y
  rcases system_step_side hstep y with ⟨b, rfl, hb⟩ | ⟨f, rest, -, hout, hread⟩ |
    ⟨f, rest, -, hout, hsame⟩ | hsame
  · exact fits_step (h y) hb hsize hwire hgiven
  · exact fits_read (h y) hread ((h y.other).out f (hout ▸ List.mem_cons_self))
  · rw [hsame]
    have hfits := h y
    exact ⟨hfits.limits, fun g hg => hfits.out g (hout ▸ List.mem_cons_of_mem f hg),
      hfits.reader, hfits.calls, hfits.ending⟩
  · rw [hsame]
    exact h y

/-- Two sessions start with nothing to write. -/
theorem fits_establish {cfg : Config} {sys : System} (h : establish cfg = some sys) (x : Side) :
    (sys x).Fits cfg.ack.maxFramePayload := by
  obtain ⟨rfl, -⟩ := establish_limits h
  exact ⟨rfl, nofun, Reader.cut_of_holds rfl, nofun, nofun⟩

section Oversized

/-- An end opens a stream with a payload. -/
def openWith (x : Side) (payload : Bytes) : List SystemAction :=
  [.act x (.start (.openStream payload)), .act x (.advance 0 .value), .act x (.advance 0 .value)]

/-- The server writes a byte, and the client reads it and returns the credit. -/
def readByte : List SystemAction :=
  [.act .server (.start (.stream ⟨1, 0⟩ (.write [7] 0))), .act .server (.advance 1 .value),
    .act .server (.advance 1 .value), .deliver .client, .act .client .dispatch,
    .act .client (.start (.stream ⟨1, 0⟩ (.read 1))), .act .client (.advance 1 .value),
    .act .client (.advance 1 .value), .deliver .server]

/-- The client closes the stream. -/
def closeStream : List SystemAction :=
  [.act .client (.start (.stream ⟨1, 0⟩ (.closeWith reasonOK))), .act .client (.advance 1 .value),
    .act .client (.advance 1 .value), .deliver .server]

/-- Both ends open a stream at once, and refuse that of the other. -/
def refuseBoth : List SystemAction :=
  openWith .client [] ++ openWith .server [] ++
    [.deliver .server, .act .server .dispatch, .deliver .client, .act .client .dispatch,
      .deliver .client]

/-- The client ends the session. -/
def shutDown : List SystemAction :=
  [.act .client (.close reasonShutdown), .act .client (.endStep 0), .deliver .server]

/-- At any size below that of the reason, the refusal ends the connection. -/
theorem refusal_breaks {limit : UInt32} (hpos : 0 < limit)
    (hsize : limit.toNat < reasonLimitStreamsExceeded.length) :
    ∃ sys sys', establish ⟨limit, 0, 1⟩ = some sys ∧
      (Config.mk limit 0 1).ack.maxFramePayload = limit ∧
      run (restrict (givenFits limit) (restrict soundWire systemStep)) sys refuseBoth =
        some sys' ∧
      (sys' .client).reader = .failing reasonLimitFrameTooLarge := by
  have hview : ∀ n : Fin reasonLimitStreamsExceeded.length, 0 < n.val →
      (Config.mk (.ofNat n) 0 1).ack.maxFramePayload = .ofNat n ∧
      ((establish ⟨.ofNat n, 0, 1⟩).bind fun sys =>
        (run (restrict (givenFits (.ofNat n)) (restrict soundWire systemStep)) sys
          refuseBoth).map fun sys' =>
            decide ((sys' .client).reader = .failing reasonLimitFrameTooLarge)) = some true := by
    decide +kernel
  obtain ⟨hack, hview⟩ := hview ⟨limit.toNat, hsize⟩ (UInt32.lt_iff_toNat_lt.mp hpos)
  rw [UInt32.ofNat_toNat] at hack hview
  obtain ⟨sys, hestablish, hrest⟩ := Option.bind_eq_some_iff.mp hview
  obtain ⟨sys', hrun, hreader⟩ := Option.map_eq_some_iff.mp hrest
  exact ⟨sys, sys', hestablish, hack, hrun, of_decide_eq_true hreader⟩

/-- Two honest ends and a negotiated frame size that the handshake admits. If and only if the size
leaves room for the longest reason a session sends by itself, every run in which the applications
hand in what fits keeps all frames within the size, no read loop ends the connection for a frame
above it, and a call that cannot be served within it fails locally. -/
theorem frames_within_limit_iff {limit : UInt32} (hpos : 0 < limit) :
    (∀ cfg sys actions sys', establish cfg = some sys → cfg.ack.maxFramePayload = limit →
      run (restrict (givenFits limit) (restrict soundWire systemStep)) sys actions = some sys' →
      WithinLimit limit sys' ∧ ∀ x, (sys' x).FailsLocally limit) ↔
    reasonLimitStreamsExceeded.length ≤ limit.toNat := by
  constructor
  · intro hwithin
    by_contra hsize
    obtain ⟨sys, sys', hestablish, hack, hrun, hreader⟩ :=
      refusal_breaks hpos (Nat.not_le.mp hsize)
    exact ((hwithin _ sys _ sys' hestablish hack hrun).1 .client).2 hreader
  · rintro hsize cfg sys actions sys' hestablish rfl hrun
    have hfits : ∀ x, (sys' x).Fits cfg.ack.maxFramePayload :=
      run_invariant (fun h hstep => fits_system_step hsize h hstep) (fits_establish hestablish) hrun
    exact ⟨fun x => ⟨(hfits x).out, (hfits x).reader.quiet⟩, fun x => fails_locally (hfits x)⟩

/-- A stream is opened, accepted and closed at both ends, within 64 KiB. -/
theorem both_close_within_limit : ∃ sys sys', establish ⟨0, 0, 0⟩ = some sys ∧
    run (restrict (givenFits 65536) (restrict soundWire systemStep)) sys bothClose = some sys' ∧
    WithinLimit 65536 sys' := by
  have hview : ((establish ⟨0, 0, 0⟩).bind fun sys =>
      (run (restrict (givenFits 65536) (restrict soundWire systemStep)) sys bothClose).map
        fun _ => ()) = some () := by
    decide +kernel
  obtain ⟨sys, hestablish, hview⟩ := Option.bind_eq_some_iff.mp hview
  obtain ⟨sys', hrun, -⟩ := Option.map_eq_some_iff.mp hview
  have hwithin := (frames_within_limit_iff (by decide)).mpr (by decide) _ _ _ _ hestablish
    (by decide) hrun
  exact ⟨sys, sys', hestablish, hrun, hwithin.1⟩

/-- Configurations and runs in which a frame is above the negotiated size: the payload of an
OPEN_STREAM, the credit for one byte, the reason of an ordinary close, the refusal of a stream
when both ends open one at once, and the reason of a shutdown. -/
def oversized : List (Config × List SystemAction) :=
  [(⟨8, 0, 0⟩, openWith .client (List.replicate 9 0) ++ [SystemAction.deliver .server]),
    (⟨3, 2, 0⟩, openAccept ++ readByte), (⟨1, 0, 0⟩, openAccept ++ closeStream),
    (⟨8, 0, 1⟩, refuseBoth), (⟨4, 0, 0⟩, shutDown)]

/-- A read loop is about to end the session for an oversized frame. -/
def Trips (scenario : Config × List SystemAction) : Prop :=
  ∃ sys sys' x, establish scenario.1 = some sys ∧
    run (restrict soundWire systemStep) sys scenario.2 = some sys' ∧
    (sys' x).reader = .failing reasonLimitFrameTooLarge

/-- Each of them ends a session of two honest ends. -/
theorem oversized_trip : oversized.Forall Trips := by
  have hview : ∀ scenario ∈ oversized, ((establish scenario.1).bind fun sys =>
      (run (restrict soundWire systemStep) sys scenario.2).map fun sys' =>
        [Side.client, Side.server].any fun x =>
          (sys' x).reader = .failing reasonLimitFrameTooLarge) = some true := by
    decide +kernel
  refine List.forall_iff_forall_mem.mpr fun scenario hscenario => ?_
  obtain ⟨sys, hestablish, hrest⟩ := Option.bind_eq_some_iff.mp (hview scenario hscenario)
  obtain ⟨sys', hrun, hreader⟩ := Option.map_eq_some_iff.mp hrest
  obtain ⟨x, -, hx⟩ := List.any_eq_true.mp hreader
  exact ⟨sys, sys', x, hestablish, hrun, of_decide_eq_true hx⟩

end Oversized

end AccessRelay.Mux
