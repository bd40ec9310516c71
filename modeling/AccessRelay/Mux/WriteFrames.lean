import AccessRelay.Machine.Run
import AccessRelay.Mux.Operation
import AccessRelay.Proto.FrameRoundTrip

/-!
# What a call of Write puts on the wire

One call of `Stream.Write` down to the bytes of the connection: the loop of `Write`, `sendData`, and
`WriteFrame` on a connection that may fail part way. Between any two of its steps the peer may
return credit, either side may close or reset the stream, and the session may end.

`Write` and `WriteFrame` both convert a length to 32 bits before they compare it. With `2 ^ 32`
bytes or more left to write, the low 32 bits of that number decide how much is sent, and once they
are within the window and the frame limit everything that is left goes out behind a header that
announces only as many bytes (`last_round_wraps`). With fewer bytes the frames are exact, and the
bound is the right one (`write_frames_exact_iff`).
-/

namespace AccessRelay.Mux

open Encoding Proto Machine

/-- A call of `Write` with what it works on. `op` is what the call does next; `granted` is the
credit the peer has granted so far. -/
structure Writing where
  limits : Limits
  done : Bool
  cell : Cell
  writer : Writer
  op : Op
  granted : Nat

/-- The next step of the call, or what happens to the stream meanwhile. -/
inductive WritingAction where
  | advance
  | grant (credit : UInt32)
  | closeLocal
  | reset (reason : Reason)
  | remoteClose (reason : Reason)
  | kill (reason : Reason)
  | endSession

namespace Writing

/-- `Write(p)` is called on a stream in any state, with nothing on the connection yet. -/
def start (lim : Limits) (c : Cell) (room : Option Nat) (p : Bytes) : Writing where
  limits := lim
  done := false
  cell := c
  writer := ⟨⟨[], room⟩, maxFramePayload⟩
  op := .write p 0
  granted := c.stream.sendWindow.toNat

/-- The call with another stream state. -/
def setStream (w : Writing) (st : Stream) : Writing :=
  { w with cell := { w.cell with stream := st } }

/-- The next step of the call. -/
def advance (w : Writing) : Option Writing :=
  match w.op with
  | .write p written =>
      (Op.stepWrite w.limits w.cell p written).map fun turn =>
        { w with cell := turn.cell, op := turn.op }
  | .sendData p written n =>
      if w.done then some { w with op := .writeDone written (some .send) }
      else
        match w.writer.writeFrame .streamData w.cell.stream.id ((p.drop written).take n) with
        | (some _, writer) =>
            some { w with writer := writer, op := .writeDone written (some .send) }
        | (none, writer) => some { w with writer := writer, op := .write p (written + n) }
  | _ => none

/-- One step. -/
def step (w : Writing) : WritingAction → Option Writing
  | .advance => w.advance
  | .grant credit =>
      some { w.setStream (w.cell.stream.grantCredit credit) with
        granted := w.granted + credit.toNat }
  | .closeLocal => w.cell.stream.closeLocal.map w.setStream
  | .reset reason => (w.cell.stream.abort reason).map w.setStream
  | .remoteClose reason => some (w.setStream (w.cell.stream.remoteClose reason))
  | .kill reason => some (w.setStream (w.cell.stream.kill reason))
  | .endSession => some { w with done := true }

/-- What is on the wire decodes to STREAM_DATA frames of one byte up to the frame limit, within the
credit granted so far, and nothing more; and when the call has returned `n` they carry exactly the
first `n` bytes of `p`. The bytes may arrive in any chunks. -/
def Exact (w : Writing) (p : Bytes) : Prop :=
  ∀ src : Source, src.final = .eof → src.chunks.flatten = w.writer.sink.out →
    ∃ frames last, readFrames frames.length (newReader src maxFramePayload) = some (frames, last) ∧
      (∃ e, (last.readFrame).1 = .error e) ∧
      (∀ f ∈ frames, f.type = .streamData ∧ f.streamID = w.cell.stream.id ∧
        0 < f.payload.length ∧ f.payload.length ≤ w.limits.maxFrame.toNat) ∧
      (frames.map (·.payload)).flatten.length ≤ w.granted ∧
      ∀ n err, w.op = .writeDone n err →
        n ≤ p.length ∧ (frames.map (·.payload)).flatten = p.take n

end Writing

/-- A frame of the call. -/
def dataFrame (id : UInt32) (chunk : Bytes) : Frame := ⟨.streamData, id, chunk⟩

/-- A part of a frame that is not all of it. -/
def CutShort (rest : Bytes) : Prop :=
  ∃ frame : Frame, frame.payload.length ≤ maxFramePayload.toNat ∧
    ∃ missing, missing ≠ [] ∧ frame.encode = rest ++ missing

/-- The credit taken for bytes that are not on the wire yet. -/
def Op.inFlight : Op → Nat
  | .sendData _ _ n => n
  | _ => 0

/-- How far a call of `Write(p)` has come when these chunks are on the wire, and the rest of a frame
that could not be finished. -/
def Op.Wrote (p : Bytes) (limit : Nat) (chunks : List Bytes) (rest : Bytes) : Op → Prop
  | .write q written =>
      q = p ∧ written ≤ p.length ∧ chunks.flatten = p.take written ∧ rest = []
  | .sendData q written n =>
      q = p ∧ written + n ≤ p.length ∧ 0 < n ∧ n ≤ limit ∧ chunks.flatten = p.take written ∧
        rest = []
  | .writeDone written _ =>
      written ≤ p.length ∧ chunks.flatten = p.take written ∧ CutShort rest
  | _ => False

section Codec

/-- Nothing at all is less than a frame. -/
theorem cut_short_nil : CutShort [] :=
  ⟨⟨.ping, 0, []⟩, Nat.zero_le _, Frame.encode ⟨.ping, 0, []⟩, by decide, rfl⟩

/-- A part of a frame is not read as a frame. -/
theorem scan_cut_short {rest : Bytes} (h : CutShort rest) :
    ∃ e, scanFrame maxFramePayload rest = .error e := by
  obtain ⟨frame, hsize, missing, hmissing, hencode⟩ := h
  cases hscan : scanFrame maxFramePayload rest with
  | error e => exact ⟨e, rfl⟩
  | ok result =>
      exfalso
      obtain ⟨other, after⟩ := result
      obtain ⟨hrest, hother⟩ := encode_scan hscan
      -- The whole frame would be read as another one with bytes left over.
      have hwhole := scan_encode hsize []
      have hpart := scan_encode hother (after ++ missing)
      rw [List.append_nil, hencode, hrest, List.append_assoc] at hwhole
      rw [hwhole] at hpart
      simp only [Except.ok.injEq, Prod.mk.injEq, List.nil_eq, List.append_eq_nil_iff] at hpart
      exact hmissing hpart.2.2

/-- Frames on the wire are read back, and a part of a frame after them is not. -/
theorem read_back {frames : List Frame} {rest : Bytes} {src : Source}
    (hsizes : ∀ f ∈ frames, f.payload.length ≤ maxFramePayload.toNat) (hrest : CutShort rest)
    (hfinal : src.final = .eof)
    (hwire : src.chunks.flatten = (frames.map Frame.encode).flatten ++ rest) :
    ∃ last, readFrames frames.length (newReader src maxFramePayload) = some (frames, last) ∧
      ∃ e, (last.readFrame).1 = .error e := by
  have hremaining : (newReader src maxFramePayload).br.remaining =
      (frames.map Frame.encode).flatten ++ rest := by
    rw [new_reader_remaining, hwire]
  obtain ⟨last, hread, hclean, hlast⟩ :=
    read_frames_encode (new_reader_clean hfinal) hsizes hremaining
  have hmax : last.max = maxFramePayload := read_frames_max hread
  obtain ⟨e, hscan⟩ := scan_cut_short hrest
  refine ⟨last, hread, e, (read_frame_spec hclean).2 e ?_⟩
  rw [hmax, hlast, hscan]

/-- A write to the connection is complete or cut short. -/
theorem sink_write_cases {sink sink' : Sink} {bytes : Bytes} {err : Option CodecError}
    (h : sink.write bytes = (err, sink')) :
    (err = none ∧ sink'.out = sink.out ++ bytes) ∨
      ∃ part missing, err ≠ none ∧ missing ≠ [] ∧ bytes = part ++ missing ∧
        sink'.out = sink.out ++ part := by
  unfold Sink.write at h
  cases hroom : sink.room with
  | none =>
      simp only [hroom, Prod.mk.injEq] at h
      obtain ⟨rfl, rfl⟩ := h
      exact .inl ⟨rfl, rfl⟩
  | some n =>
      simp only [hroom] at h
      split_ifs at h with hfits
      · obtain ⟨rfl, rfl⟩ := Prod.mk.inj h
        exact .inl ⟨rfl, rfl⟩
      · obtain ⟨rfl, rfl⟩ := Prod.mk.inj h
        refine .inr ⟨bytes.take n, bytes.drop n, by simp, ?_,
          (List.take_append_drop n bytes).symm, rfl⟩
        intro hnone
        exact hfits (List.drop_eq_nil_iff.mp hnone)

/-- A frame within the limit is written, or only a part of it. -/
theorem write_frame_cases {writer writer' : Writer} {t : Typ} {id : UInt32} {payload : Bytes}
    {err : Option CodecError} (hsize : payload.length ≤ writer.max.toNat)
    (h : writer.writeFrame t id payload = (err, writer')) :
    writer'.max = writer.max ∧
      ((err = none ∧ writer'.sink.out = writer.sink.out ++ Frame.encode ⟨t, id, payload⟩) ∨
        ∃ part missing, err ≠ none ∧ missing ≠ [] ∧
          Frame.encode ⟨t, id, payload⟩ = part ++ missing ∧
          writer'.sink.out = writer.sink.out ++ part) := by
  have hfits : ¬ writer.max < UInt32.ofNat payload.length := by
    rw [UInt32.lt_iff_toNat_lt, UInt32.toNat_ofNat_of_lt' (hsize.trans_lt (UInt32.toNat_lt _))]
    omega
  simp only [Writer.writeFrame, if_neg hfits] at h
  split at h
  next e sink heq =>
    obtain ⟨rfl, rfl⟩ := Prod.mk.inj h
    rcases sink_write_cases heq with ⟨hnone, -⟩ | ⟨part, missing, -, hmissing, hheader, hout⟩
    · cases hnone
    · refine ⟨rfl, .inr ⟨part, missing ++ payload, by simp, by simp [hmissing], ?_, hout⟩⟩
      rw [Frame.encode, hheader, List.append_assoc]
  next sink heq =>
    rcases sink_write_cases heq with ⟨-, hout⟩ | ⟨part, missing, herr, -⟩
    · split_ifs at h with hempty
      · obtain ⟨rfl, rfl⟩ := Prod.mk.inj h
        refine ⟨rfl, .inl ⟨rfl, ?_⟩⟩
        rw [hout, Frame.encode, List.isEmpty_iff.mp hempty, List.append_nil]
      · obtain ⟨rfl, rfl⟩ := Prod.mk.inj h
        refine ⟨rfl, ?_⟩
        have hpair : sink.write payload = ((sink.write payload).1, (sink.write payload).2) := rfl
        rcases sink_write_cases hpair with
          ⟨hnone, hout'⟩ | ⟨part, missing, herr, hmissing, hpayload, hout'⟩
        · exact .inl ⟨hnone, by rw [hout', hout, Frame.encode, List.append_assoc]⟩
        · refine .inr ⟨encodeHeader t id (UInt32.ofNat payload.length) ++ part, missing, herr,
            hmissing, ?_, ?_⟩
          · rw [Frame.encode, List.append_assoc, ← hpayload]
          · rw [hout', hout, List.append_assoc]
    · exact absurd rfl herr

/-- On a connection that does not fail, `WriteFrame` writes every frame whose length passes the
check in 32 bits. -/
theorem write_frame_open {writer : Writer} {t : Typ} {id : UInt32} {payload : Bytes}
    (hroom : writer.sink.room = none) (hfits : UInt32.ofNat payload.length ≤ writer.max)
    (hsome : payload ≠ []) :
    writer.writeFrame t id payload = (none, { writer with
      sink := ⟨writer.sink.out ++ Frame.encode ⟨t, id, payload⟩, none⟩ }) := by
  have hempty : payload.isEmpty = false := by simpa using hsome
  have hfits := UInt32.not_lt.mpr hfits
  simp [Writer.writeFrame, hfits, Sink.write, hroom, Frame.encode, hempty]

end Codec

section Sound

variable {w w' : Writing} {p : Bytes} {id : UInt32} {limit : Nat} {chunks : List Bytes}
  {rest : Bytes}

/-- Where a call of `Write(p)` with fewer than `2 ^ 32` bytes is. -/
structure Writing.Sent (w : Writing) (p : Bytes) (chunks : List Bytes) (rest : Bytes) : Prop where
  writer : w.writer.max = maxFramePayload
  frame : 0 < w.limits.maxFrame ∧ w.limits.maxFrame ≤ maxFramePayload
  wire : w.writer.sink.out =
    ((chunks.map (dataFrame w.cell.stream.id)).map Frame.encode).flatten ++ rest
  sizes : ∀ b ∈ chunks, 0 < b.length ∧ b.length ≤ w.limits.maxFrame.toNat
  credit : chunks.flatten.length + w.cell.stream.sendWindow.toNat + w.op.inFlight ≤ w.granted
  progress : w.op.Wrote p w.limits.maxFrame.toNat chunks rest

theorem Op.Wrote.cut_short {op : Op} (h : op.Wrote p limit chunks rest) : CutShort rest := by
  cases op with
  | write q written => exact h.2.2.2 ▸ cut_short_nil
  | sendData q written n => exact h.2.2.2.2.2 ▸ cut_short_nil
  | writeDone written err => exact h.2.2
  | _ => exact h.elim

/-- What is on the wire is then exact. -/
theorem Writing.Sent.exact (h : w.Sent p chunks rest) : w.Exact p := by
  intro src hfinal hwire
  have hpayloads : (chunks.map (dataFrame w.cell.stream.id)).map (·.payload) = chunks := by
    rw [List.map_map]
    exact List.map_id'' (fun _ => rfl) chunks
  have hlimit : w.limits.maxFrame.toNat ≤ maxFramePayload.toNat :=
    UInt32.le_iff_toNat_le.mp h.frame.2
  have hframes : ∀ f ∈ chunks.map (dataFrame w.cell.stream.id), f.type = .streamData ∧
      f.streamID = w.cell.stream.id ∧ 0 < f.payload.length ∧
      f.payload.length ≤ w.limits.maxFrame.toNat := by
    intro f hf
    obtain ⟨b, hb, rfl⟩ := List.mem_map.mp hf
    exact ⟨rfl, rfl, h.sizes b hb⟩
  obtain ⟨last, hread, hend⟩ := read_back
    (fun f hf => (hframes f hf).2.2.2.trans hlimit) h.progress.cut_short hfinal
    (hwire.trans h.wire)
  refine ⟨_, last, hread, hend, hframes, ?_, ?_⟩
  · rw [hpayloads]
    have hcredit := h.credit
    omega
  · intro n err hop
    have hprogress := h.progress
    rw [hop] at hprogress
    rw [hpayloads]
    exact ⟨hprogress.1, hprogress.2.1⟩

/-- The stream changes, with no more credit than was granted for it. -/
theorem Writing.Sent.set_stream (h : w.Sent p chunks rest) {st : Stream} {credit : Nat}
    (hid : st.id = w.cell.stream.id)
    (hwindow : st.sendWindow.toNat ≤ w.cell.stream.sendWindow.toNat + credit) :
    { w.setStream st with granted := w.granted + credit }.Sent p chunks rest := by
  refine ⟨h.writer, h.frame, ?_, h.sizes, ?_, h.progress⟩
  · show w.writer.sink.out = ((chunks.map (dataFrame st.id)).map Frame.encode).flatten ++ rest
    rw [hid]
    exact h.wire
  · have hcredit := h.credit
    show chunks.flatten.length + st.sendWindow.toNat + w.op.inFlight ≤ w.granted + credit
    omega

theorem grant_credit_le (st : Stream) (n : UInt32) :
    (st.grantCredit n).sendWindow.toNat ≤ st.sendWindow.toNat + n.toNat := by
  unfold Stream.grantCredit
  split_ifs with hover
  · rw [UInt32.lt_iff_toNat_lt, UInt32.toNat_sub_of_le _ _ (UInt32.le_iff_toNat_le.mpr
      (Nat.le_of_lt_succ n.toNat_lt))] at hover
    show (0xFFFFFFFF : UInt32).toNat ≤ _
    omega
  · show (st.sendWindow + n).toNat ≤ _
    rw [UInt32.toNat_add]
    exact Nat.mod_le _ _

/-- One round of the loop of `Write`. -/
theorem sent_round {written : Nat} {turn : Turn} (hlength : p.length < 2 ^ 32)
    (h : w.Sent p chunks rest) (hop : w.op = .write p written)
    (hturn : Op.stepWrite w.limits w.cell p written = some turn) :
    { w with cell := turn.cell, op := turn.op }.Sent p chunks rest := by
  obtain ⟨-, hwritten, hchunks, hrest⟩ : p = p ∧ written ≤ p.length ∧
      chunks.flatten = p.take written ∧ rest = [] := by
    have hprogress := h.progress
    rwa [hop] at hprogress
  have hcredit := h.credit
  rw [hop] at hcredit
  cases @write_cases w.limits w.done none w.cell turn p written hturn with
  | written _ _ hall =>
      exact ⟨h.writer, h.frame, h.wire, h.sizes, hcredit, hwritten, hchunks,
        hrest ▸ cut_short_nil⟩
  | writeReset _ _ hreset =>
      exact ⟨h.writer, h.frame, h.wire, h.sizes, hcredit, hwritten, hchunks,
        hrest ▸ cut_short_nil⟩
  | writeClosed _ _ hclosed hreset =>
      exact ⟨h.writer, h.frame, h.wire, h.sizes, hcredit, hwritten, hchunks,
        hrest ▸ cut_short_nil⟩
  | @took _ _ n after hmore hwrite =>
      obtain ⟨hn, hwindow, hframe, hafter, -, -, hpos⟩ :=
        Stream.write_take hwrite ((Nat.sub_le _ _).trans_lt hlength)
      have hsub : after.sendWindow.toNat = w.cell.stream.sendWindow.toNat - n := by
        have hnat : (UInt32.ofNat n).toNat = n :=
          UInt32.toNat_ofNat_of_lt' (hwindow.trans_lt (UInt32.toNat_lt _))
        rw [hafter]
        show (w.cell.stream.sendWindow - UInt32.ofNat n).toNat = _
        rw [UInt32.toNat_sub_of_le _ _ (UInt32.le_iff_toNat_le.mpr (hnat.symm ▸ hwindow)), hnat]
      have hid : after.id = w.cell.stream.id := by rw [hafter]
      refine ⟨h.writer, h.frame, ?_, h.sizes, ?_, rfl, by omega,
        hpos h.frame.1 (Nat.sub_pos_of_lt hmore), hframe, hchunks, hrest⟩
      · show w.writer.sink.out =
          ((chunks.map (dataFrame after.id)).map Frame.encode).flatten ++ rest
        rw [hid]
        exact h.wire
      · show chunks.flatten.length + after.sendWindow.toNat + n ≤ w.granted
        have hnone : (Op.write p written).inFlight = 0 := rfl
        omega

/-- `sendData`, and the way back to the loop. -/
theorem sent_data {written n : Nat} (h : w.Sent p chunks rest) (hop : w.op = .sendData p written n)
    (hstep : w.advance = some w') : ∃ chunks rest, w'.Sent p chunks rest := by
  obtain ⟨-, hn, hpos, hlimit, hchunks, hrest⟩ : p = p ∧ written + n ≤ p.length ∧ 0 < n ∧
      n ≤ w.limits.maxFrame.toNat ∧ chunks.flatten = p.take written ∧ rest = [] := by
    have hprogress := h.progress
    rwa [hop] at hprogress
  have hcredit : chunks.flatten.length + w.cell.stream.sendWindow.toNat + n ≤ w.granted := by
    have hcredit := h.credit
    rwa [hop] at hcredit
  have hlength : ((p.drop written).take n).length = n := by
    rw [List.length_take, List.length_drop]
    omega
  have hsize : ((p.drop written).take n).length ≤ w.writer.max.toNat := by
    have hframe := UInt32.le_iff_toNat_le.mp h.frame.2
    rw [hlength, h.writer]
    omega
  have hwire : w.writer.sink.out =
      ((chunks.map (dataFrame w.cell.stream.id)).map Frame.encode).flatten := by
    rw [h.wire, hrest, List.append_nil]
  have hless : chunks.flatten.length + w.cell.stream.sendWindow.toNat + 0 ≤ w.granted := by omega
  simp only [Writing.advance, hop] at hstep
  split_ifs at hstep with hdone
  · cases hstep
    exact ⟨chunks, rest, h.writer, h.frame, h.wire, h.sizes, hless, by omega, hchunks,
      hrest ▸ cut_short_nil⟩
  · split at hstep
    next e writer heq =>
      cases hstep
      obtain ⟨hmax, ⟨hnone, -⟩ | ⟨part, missing, -, hmissing, hencode, hout⟩⟩ :=
        write_frame_cases hsize heq
      · cases hnone
      · refine ⟨chunks, part, hmax.trans h.writer, h.frame, ?_, h.sizes, hless, by omega, hchunks,
          _, hsize.trans (by rw [h.writer]), missing, hmissing, hencode⟩
        show writer.sink.out = _
        rw [hout, hwire]
    next writer heq =>
      cases hstep
      obtain ⟨hmax, ⟨-, hout⟩ | ⟨part, missing, herr, -⟩⟩ := write_frame_cases hsize heq
      · refine ⟨chunks ++ [(p.drop written).take n], [], hmax.trans h.writer, h.frame, ?_, ?_, ?_,
          rfl, hn, ?_, rfl⟩
        · show writer.sink.out = _
          rw [hout, hwire]
          simp [dataFrame]
        · intro b hb
          rcases List.mem_append.mp hb with hold | hnew
          · exact h.sizes b hold
          · obtain rfl := List.mem_singleton.mp hnew
            rw [hlength]
            exact ⟨hpos, hlimit⟩
        · show (chunks ++ [(p.drop written).take n]).flatten.length +
            w.cell.stream.sendWindow.toNat + 0 ≤ w.granted
          rw [List.flatten_append, List.length_append, List.flatten_singleton, hlength]
          omega
        · rw [List.flatten_append, List.flatten_singleton, hchunks, List.take_add]
      · exact absurd rfl herr

/-- Every step keeps the wire exact. -/
theorem sent_step {a : WritingAction} (hlength : p.length < 2 ^ 32)
    (h : ∃ chunks rest, w.Sent p chunks rest) (hstep : w.step a = some w') :
    ∃ chunks rest, w'.Sent p chunks rest := by
  obtain ⟨chunks, rest, h⟩ := h
  -- A change of the stream that leaves its window alone.
  have hkeeps : ∀ st : Stream, st.id = w.cell.stream.id →
      st.sendWindow = w.cell.stream.sendWindow → (w.setStream st).Sent p chunks rest := by
    intro st hid hwindow
    exact @Writing.Sent.set_stream w p chunks rest h st 0 hid (by rw [hwindow]; exact Nat.le_refl _)
  cases a with
  | advance =>
      have hadvance : w.advance = some w' := hstep
      cases hop : w.op with
      | write q written =>
          have hq : q = p := by
            have hprogress := h.progress
            rw [hop] at hprogress
            exact hprogress.1
          subst hq
          simp only [Writing.advance, hop] at hadvance
          obtain ⟨turn, hturn, rfl⟩ := Option.map_eq_some_iff.mp hadvance
          exact ⟨chunks, rest, sent_round hlength h hop hturn⟩
      | sendData q written n =>
          have hq : q = p := by
            have hprogress := h.progress
            rw [hop] at hprogress
            exact hprogress.1
          subst hq
          exact sent_data h hop hadvance
      | _ => simp [Writing.advance, hop] at hadvance
  | grant credit =>
      cases hstep
      refine ⟨chunks, rest, h.set_stream ?_ (grant_credit_le _ _)⟩
      unfold Stream.grantCredit
      split <;> rfl
  | closeLocal =>
      obtain ⟨st, hst, rfl⟩ := Option.map_eq_some_iff.mp hstep
      unfold Stream.closeLocal at hst
      split_ifs at hst
      cases hst
      exact ⟨chunks, rest, hkeeps _ rfl rfl⟩
  | reset reason =>
      obtain ⟨st, hst, rfl⟩ := Option.map_eq_some_iff.mp hstep
      unfold Stream.abort at hst
      split_ifs at hst
      cases hst
      exact ⟨chunks, rest, hkeeps _ rfl rfl⟩
  | remoteClose reason =>
      cases hstep
      refine ⟨chunks, rest, ?_⟩
      unfold Stream.remoteClose
      split_ifs <;> exact hkeeps _ rfl rfl
  | kill reason =>
      cases hstep
      refine ⟨chunks, rest, ?_⟩
      unfold Stream.kill
      split_ifs <;> exact hkeeps _ rfl rfl
  | endSession =>
      cases hstep
      exact ⟨chunks, rest, h.writer, h.frame, h.wire, h.sizes, h.credit, h.progress⟩

/-- A call that has just started has written nothing. -/
theorem sent_start {lim : Limits} {c : Cell} {room : Option Nat} (hframe : 0 < lim.maxFrame)
    (hmax : lim.maxFrame ≤ maxFramePayload) : (Writing.start lim c room p).Sent p [] [] := by
  refine ⟨rfl, ⟨hframe, hmax⟩, rfl, fun _ h => absurd h List.not_mem_nil, ?_, rfl,
    Nat.zero_le _, rfl, rfl⟩
  show 0 + c.stream.sendWindow.toNat + 0 ≤ c.stream.sendWindow.toNat
  omega

end Sound

section Wraps

variable {w : Writing} {p : Bytes} {written : Nat}

/-- A call with all the credit there is, on an open stream and a connection that does not fail. -/
structure Writing.Unhindered (w : Writing) (p : Bytes) (written : Nat) : Prop where
  op : w.op = .write p written
  done : w.done = false
  room : w.writer.sink.room = none
  max : w.writer.max = maxFramePayload
  reset : w.cell.stream.reset = false
  localClosed : w.cell.stream.localClosed = false
  window : w.cell.stream.sendWindow = 0xFFFFFFFF

/-- A round then takes everything that is left if its low 32 bits are within the frame limit, and a
frame otherwise. -/
theorem Writing.Unhindered.round (h : w.Unhindered p written) (hmore : written < p.length)
    {n : Nat} (hn : n = if w.limits.maxFrame < UInt32.ofNat (p.length - written) then
      w.limits.maxFrame.toNat else p.length - written) :
    w.step .advance = some { w.setStream { w.cell.stream with
      sendWindow := w.cell.stream.sendWindow - UInt32.ofNat n } with
      op := .sendData p written n } := by
  have hall : ¬ (0xFFFFFFFF : UInt32) < UInt32.ofNat (p.length - written) := by
    rw [UInt32.lt_iff_toNat_lt]
    have hlt := (UInt32.ofNat (p.length - written)).toNat_lt
    show ¬ 4294967295 < _
    omega
  have hturn : Op.stepWrite w.limits w.cell p written = some
      ⟨{ w.cell with stream := { w.cell.stream with
          sendWindow := w.cell.stream.sendWindow - UInt32.ofNat n } },
        .sendData p written n, .silent⟩ := by
    simp only [Op.stepWrite, if_neg (Nat.not_le.mpr hmore), Stream.write, h.reset, h.localClosed,
      h.window, if_neg hall, ← hn, Bool.false_eq_true, if_false]
    rfl
  simp only [Writing.step, Writing.advance, h.op, hturn, Option.map_some]
  rfl

/-- `sendData` then writes its bytes behind a header with the low 32 bits of their number. -/
theorem send_data_open {n : Nat} (hop : w.op = .sendData p written n) (hdone : w.done = false)
    (hroom : w.writer.sink.room = none) (hn : (UInt32.ofNat n) ≤ w.writer.max) (hpos : 0 < n)
    (hleft : written + n ≤ p.length) :
    w.step .advance = some { w with
      writer := { w.writer with sink := ⟨w.writer.sink.out ++
        (dataFrame w.cell.stream.id ((p.drop written).take n)).encode, none⟩ }
      op := .write p (written + n) } := by
  have hlength : ((p.drop written).take n).length = n := by
    rw [List.length_take, List.length_drop]
    omega
  have hsome : (p.drop written).take n ≠ [] := by
    rw [← List.length_pos_iff, hlength]
    exact hpos
  have hwrite : w.writer.writeFrame .streamData w.cell.stream.id ((p.drop written).take n) = _ :=
    write_frame_open hroom (by rw [hlength]; exact hn) hsome
  simp only [Writing.step, Writing.advance, hop, hdone, Bool.false_eq_true, if_false, hwrite]
  rfl

/-- The loop ends when everything has been written. -/
theorem finish_step {n : Nat} (hop : w.op = .write p n) (hall : p.length ≤ n) :
    w.step .advance = some { w with op := .writeDone n none } := by
  simp [Writing.step, Writing.advance, hop, Op.stepWrite, hall]

/-- The last round: everything that is left goes out behind one header. -/
theorem last_round_wraps (h : w.Unhindered p written) (hmore : written < p.length)
    (hframe : w.limits.maxFrame ≤ maxFramePayload)
    (hlow : UInt32.ofNat (p.length - written) ≤ w.limits.maxFrame) :
    ∃ w', run Writing.step w [.advance, .advance, .advance] = some w' ∧
      w'.op = .writeDone p.length none ∧ w'.limits = w.limits ∧
      w'.writer.sink.out = w.writer.sink.out ++
        encodeHeader .streamData w.cell.stream.id (UInt32.ofNat (p.length - written)) ++
        p.drop written := by
  have hround := h.round hmore (n := p.length - written) (by rw [if_neg (UInt32.not_lt.mpr hlow)])
  have hfits : UInt32.ofNat (p.length - written) ≤ w.writer.max := by
    rw [h.max]
    exact UInt32.le_trans hlow hframe
  have hsend := send_data_open (w := { w.setStream { w.cell.stream with
      sendWindow := w.cell.stream.sendWindow - UInt32.ofNat (p.length - written) } with
      op := .sendData p written (p.length - written) }) rfl h.done h.room hfits (by omega)
    (by omega)
  rw [run_cons, hround, Option.bind_some, run_cons, hsend, Option.bind_some, run_cons,
    finish_step rfl (by omega), Option.bind_some]
  refine ⟨_, rfl, ?_, rfl, ?_⟩
  · show Op.writeDone (written + (p.length - written)) none = _
    rw [Nat.add_sub_cancel' (Nat.le_of_lt hmore)]
  · have htake : (p.drop written).take (p.length - written) = p.drop written :=
      List.take_of_length_le (by rw [List.length_drop])
    show w.writer.sink.out ++ Frame.encode ⟨.streamData, w.cell.stream.id,
      (p.drop written).take (p.length - written)⟩ = _
    rw [htake, Frame.encode, List.length_drop, List.append_assoc]

theorem grant_all (st : Stream) : (st.grantCredit 0xFFFFFFFF).sendWindow = 0xFFFFFFFF ∧
    (st.grantCredit 0xFFFFFFFF).reset = st.reset ∧
    (st.grantCredit 0xFFFFFFFF).localClosed = st.localClosed := by
  unfold Stream.grantCredit
  split_ifs with hsome
  · exact ⟨rfl, rfl, rfl⟩
  · have hzero : st.sendWindow = 0 := by
      rw [UInt32.lt_iff_toNat_lt] at hsome
      exact UInt32.toNat_inj.mp (Nat.eq_zero_of_not_pos hsome)
    refine ⟨?_, rfl, rfl⟩
    show st.sendWindow + 0xFFFFFFFF = _
    rw [hzero]
    rfl

/-- Any other round sends a full frame; then the peer returns all credit. -/
theorem full_round (h : w.Unhindered p written) (hpos : 0 < w.limits.maxFrame)
    (hframe : w.limits.maxFrame ≤ maxFramePayload)
    (hover : w.limits.maxFrame < UInt32.ofNat (p.length - written)) :
    ∃ w', run Writing.step w [.advance, .advance, .grant 0xFFFFFFFF] = some w' ∧
      w'.Unhindered p (written + w.limits.maxFrame.toNat) ∧ w'.limits = w.limits ∧
      w'.writer.sink.out.length =
        w.writer.sink.out.length + headerSize + w.limits.maxFrame.toNat := by
  have hpos' : 0 < w.limits.maxFrame.toNat := UInt32.lt_iff_toNat_lt.mp hpos
  have hleft : w.limits.maxFrame.toNat < p.length - written := by
    rw [UInt32.lt_iff_toNat_lt, UInt32.toNat_ofNat'] at hover
    exact hover.trans_le (Nat.mod_le _ _)
  have hround := h.round (by omega) (n := w.limits.maxFrame.toNat) (by rw [if_pos hover])
  have hfits : UInt32.ofNat w.limits.maxFrame.toNat ≤ w.writer.max := by
    rw [h.max, UInt32.ofNat_toNat]
    exact hframe
  have hsend := send_data_open (w := { w.setStream { w.cell.stream with
      sendWindow := w.cell.stream.sendWindow - UInt32.ofNat w.limits.maxFrame.toNat } with
      op := .sendData p written w.limits.maxFrame.toNat }) rfl h.done h.room hfits hpos'
    (by omega)
  rw [run_cons, hround, Option.bind_some, run_cons, hsend, Option.bind_some, run_cons]
  refine ⟨_, rfl, ⟨rfl, h.done, rfl, h.max, ?_, ?_, ?_⟩, rfl, ?_⟩
  · exact (grant_all _).2.1.trans h.reset
  · exact (grant_all _).2.2.trans h.localClosed
  · exact (grant_all _).1
  · show (w.writer.sink.out ++ Frame.encode ⟨.streamData, w.cell.stream.id,
      (p.drop written).take w.limits.maxFrame.toNat⟩).length = _
    rw [List.length_append, Frame.encode, List.length_append, length_encode_header,
      List.length_take, List.length_drop]
    omega

/-- With `2 ^ 32` bytes or more to write, some schedule of credit comes to the last round with the
length cut: the call returns the length of `p` after `k` full frames and one more header. -/
theorem rounds_wrap (h : w.Unhindered p written) (hpos : 0 < w.limits.maxFrame)
    (hframe : w.limits.maxFrame ≤ maxFramePayload) (hleft : written + 2 ^ 32 ≤ p.length) :
    ∃ actions w' k, run Writing.step w actions = some w' ∧ w'.op = .writeDone p.length none ∧
      w'.limits = w.limits ∧
      w'.writer.sink.out.length =
        w.writer.sink.out.length + headerSize * (k + 1) + (p.length - written) ∧
      written + k * w.limits.maxFrame.toNat + 2 ^ 32 ≤ p.length := by
  -- The low 32 bits of what is left go down by a frame each round.
  induction hlow : (p.length - written) % 2 ^ 32 using Nat.strong_induction_on
    generalizing w written with
  | _ low ih =>
      subst hlow
      have hmore : written < p.length := by omega
      by_cases hlast : UInt32.ofNat (p.length - written) ≤ w.limits.maxFrame
      · obtain ⟨w', hrun, hop, hlimits, hout⟩ := last_round_wraps h hmore hframe hlast
        refine ⟨_, w', 0, hrun, hop, hlimits, ?_, by omega⟩
        rw [hout, List.length_append, List.length_append, length_encode_header, List.length_drop]
        omega
      · have hover := UInt32.not_le.mp hlast
        obtain ⟨w₁, hrun₁, h₁, hlimits₁, hout₁⟩ := full_round h hpos hframe hover
        have hpos' : 0 < w.limits.maxFrame.toNat := UInt32.lt_iff_toNat_lt.mp hpos
        have hover' : w.limits.maxFrame.toNat < (p.length - written) % 2 ^ 32 := by
          rw [UInt32.lt_iff_toNat_lt, UInt32.toNat_ofNat'] at hover
          exact hover
        obtain ⟨actions, w', k, hrun, hop, hlimits, hout, hk⟩ :=
          ih ((p.length - (written + w.limits.maxFrame.toNat)) % 2 ^ 32) (by omega) h₁
            (hlimits₁ ▸ hpos) (hlimits₁ ▸ hframe) (by omega) rfl
        rw [hlimits₁] at hk
        refine ⟨[.advance, .advance, .grant 0xFFFFFFFF] ++ actions, w', k + 1, ?_, hop,
          hlimits.trans hlimits₁, ?_, ?_⟩
        · rw [run_append, hrun₁]
          exact hrun
        · rw [hout, hout₁, Nat.mul_add headerSize (k + 1) 1, Nat.mul_one]
          omega
        · rw [Nat.add_mul, Nat.one_mul]
          omega

/-- The number of bytes on the wire is that of the headers and that of the payloads. -/
theorem length_encodings (frames : List Frame) :
    (frames.map Frame.encode).flatten.length =
      headerSize * frames.length + (frames.map (·.payload)).flatten.length := by
  induction frames with
  | nil => rfl
  | cons f rest ih =>
      simp only [List.map_cons, List.flatten_cons, List.length_append, List.length_cons, ih,
        Frame.encode, length_encode_header]
      rw [Nat.mul_add, Nat.mul_one]
      omega

theorem length_payloads {frames : List Frame} {limit : Nat}
    (h : ∀ f ∈ frames, f.payload.length ≤ limit) :
    (frames.map (·.payload)).flatten.length ≤ frames.length * limit := by
  induction frames with
  | nil => exact Nat.zero_le _
  | cons f rest ih =>
      have hrest := ih fun g hg => h g (List.mem_cons_of_mem _ hg)
      have hfirst := h f List.mem_cons_self
      rw [List.map_cons, List.flatten_cons, List.length_append, List.length_cons, Nat.add_mul,
        Nat.one_mul]
      omega

/-- Such a call is not exact: its payloads need one frame more than there are headers for. -/
theorem wrapped_not_exact {k : Nat} (hop : w.op = .writeDone p.length none)
    (hout : w.writer.sink.out.length = headerSize * (k + 1) + p.length)
    (hk : k * w.limits.maxFrame.toNat + 2 ^ 32 ≤ p.length) : ¬ w.Exact p := by
  intro hexact
  obtain ⟨frames, last, hread, -, hframes, -, hall⟩ :=
    hexact ⟨[w.writer.sink.out], .eof, false⟩ rfl (by simp)
  obtain ⟨-, hpayloads⟩ := hall p.length none hop
  rw [List.take_length] at hpayloads
  obtain ⟨hbytes, -⟩ := encode_read_frames (new_reader_clean rfl) hread
  have hlength := congrArg List.length hbytes
  rw [new_reader_remaining, List.length_append, length_encodings, hpayloads] at hlength
  simp only [List.flatten_singleton, hout] at hlength
  have hfew : frames.length ≤ k + 1 := by
    have hheader : headerSize = 10 := rfl
    rw [hheader] at hlength
    omega
  have hsum := length_payloads fun f hf => (hframes f hf).2.2.2
  have hmany : frames.length * w.limits.maxFrame.toNat ≤
      (k + 1) * w.limits.maxFrame.toNat := Nat.mul_le_mul_right _ hfew
  rw [hpayloads] at hsum
  rw [Nat.add_mul, Nat.one_mul] at hmany
  have hlimit := w.limits.maxFrame.toNat_lt
  omega

end Wraps


/-- For every frame limit the handshake admits: whatever the state of the stream, the schedule of
credit, the closes and resets that come in between and the connection, `Write(p)` puts exact frames
on the wire, if and only if `p` has fewer than `2 ^ 32` bytes. -/
theorem write_frames_exact_iff {lim : Limits} {p : Bytes} (hpos : 0 < lim.maxFrame)
    (hframe : lim.maxFrame ≤ maxFramePayload) :
    (∀ c room actions w, run Writing.step (.start lim c room p) actions = some w → w.Exact p) ↔
      p.length < 2 ^ 32 := by
  constructor
  · intro hexact
    by_contra hlong
    have hstart : (Writing.start lim (newCell (newStream 1 0xFFFFFFFF)) none p).Unhindered p 0 :=
      ⟨rfl, rfl, rfl, rfl, rfl, rfl, rfl⟩
    obtain ⟨actions, w, k, hrun, hop, hlimits, hout, hk⟩ :=
      rounds_wrap hstart hpos hframe (by omega)
    have hlimits' : w.limits = lim := hlimits
    refine wrapped_not_exact (k := k) hop ?_ ?_ (hexact _ _ _ _ hrun)
    · rw [hout]
      show 0 + headerSize * (k + 1) + (p.length - 0) = _
      omega
    · rw [hlimits']
      have hk' : 0 + k * lim.maxFrame.toNat + 2 ^ 32 ≤ p.length := hk
      omega
  · intro hlength c room actions w hrun
    have hkept : ∀ {t t' : Writing} {a : WritingAction}, (∃ chunks rest, t.Sent p chunks rest) →
        t.step a = some t' → ∃ chunks rest, t'.Sent p chunks rest :=
      fun hsent hstep => sent_step hlength hsent hstep
    obtain ⟨chunks, rest, hsent⟩ :=
      run_invariant hkept ⟨[], [], sent_start hpos hframe⟩ hrun
    exact hsent.exact

/-- Three bytes in frames of two, with a window of one byte and a grant of two. -/
theorem three_bytes_exact : ∃ w,
    run Writing.step (.start ⟨2, 1, 16, 1⟩ (newCell (newStream 1 1)) none [1, 2, 3])
      [.advance, .advance, .grant 2, .advance, .advance, .advance] = some w ∧
    w.op = .writeDone 3 none ∧ w.Exact [1, 2, 3] := by
  have hview : (run Writing.step (.start ⟨2, 1, 16, 1⟩ (newCell (newStream 1 1)) none [1, 2, 3])
      [.advance, .advance, .grant 2, .advance, .advance, .advance]).map (·.op) =
      some (.writeDone 3 none) := by
    decide +kernel
  obtain ⟨w, hrun, hop⟩ := Option.map_eq_some_iff.mp hview
  have hexact := (write_frames_exact_iff (by decide) (by decide)).mpr (by decide) _ _ _ _ hrun
  exact ⟨w, hrun, hop, hexact⟩

/-- `Write` with `2 ^ 32` bytes and a frame limit of 64 KiB: all of them go out behind a header that
announces none. -/
theorem header_announces_nothing : ∃ w,
    run Writing.step (.start ⟨maxFramePayload, 0xFFFFFFFF, 16, 1⟩
      (newCell (newStream 1 0xFFFFFFFF)) none (List.replicate (2 ^ 32) 7))
      [.advance, .advance, .advance] = some w ∧
    w.op = .writeDone (2 ^ 32) none ∧
    w.writer.sink.out = encodeHeader .streamData 1 0 ++ List.replicate (2 ^ 32) 7 ∧
    ¬ w.Exact (List.replicate (2 ^ 32) 7) := by
  generalize hp : (List.replicate (2 ^ 32) 7 : Bytes) = p
  have hlength : p.length = 2 ^ 32 := by rw [← hp, List.length_replicate]
  have hstart : (Writing.start ⟨maxFramePayload, 0xFFFFFFFF, 16, 1⟩
      (newCell (newStream 1 0xFFFFFFFF)) none p).Unhindered p 0 :=
    ⟨rfl, rfl, rfl, rfl, rfl, rfl, rfl⟩
  have hlow : UInt32.ofNat (p.length - 0) = 0 := by
    rw [hlength]
    decide
  obtain ⟨w, hrun, hop, -, hout⟩ := last_round_wraps hstart (by omega) (UInt32.le_refl _)
    (by rw [hlow]; exact UInt32.le_iff_toNat_le.mpr (Nat.zero_le _))
  rw [hlow, List.drop_zero] at hout
  have hwire : w.writer.sink.out = encodeHeader .streamData 1 0 ++ p := hout
  refine ⟨w, hrun, hlength ▸ hop, hwire, wrapped_not_exact (k := 0) hop ?_ (by omega)⟩
  rw [hwire, List.length_append, length_encode_header]
  omega

end AccessRelay.Mux
