import AccessRelay.Mux.Bond

/-!
# Flow control

The window of a stream, in one direction, is spread over both ends and the connection between
them: credit the sender has, bytes it has taken credit for, bytes on their way, bytes in the
receiver's buffer, credit the receiver has not returned, and credit on its way back. `outgoing`
is the part at the sending end and `incoming` the part at the receiving end. A step of one end
keeps its part, a message moves bytes or credit from one part to the other, and what is lost when
a stream or a session ends only makes the sum smaller.
-/

namespace AccessRelay.Mux

open Encoding Proto Machine

/-- Bytes that `Write` has taken credit for and not sent. -/
def Op.taken : Op → Nat
  | .sendData p written n => ((p.drop written).take n).length
  | _ => 0

/-- Credit that `Read` has decided to return and not sent. -/
def Op.owed : Op → Nat
  | .sendWindowUpdate credit _ => credit.toNat
  | _ => 0

/-- The data bytes of a message. -/
def Msg.bytes : Msg → Nat
  | .data b => b.length
  | _ => 0

/-- The credit of a message. -/
def Msg.credit : Msg → Nat
  | .window credit => credit.toNat
  | _ => 0

/-- The data bytes in the hands of the read loop. -/
def Hand.bytes : Hand → Nat
  | .serving (.delivering b) => b.length
  | _ => 0

/-- The credit in the hands of the read loop. -/
def Hand.credit : Hand → Nat
  | .serving (.granting credit) => credit.toNat
  | _ => 0

namespace End

/-- Bytes taken and not sent, and bytes sent and not read. -/
def bytesOut (e : End) : Nat := (e.ops.map Op.taken).sum + (e.out.map Msg.bytes).sum

/-- Credit owed and not sent, and credit sent and not read. -/
def creditOut (e : End) : Nat := (e.ops.map Op.owed).sum + (e.out.map Msg.credit).sum

/-- The part of the window that is at the sending end. A stream that does not exist has its
whole window. -/
def outgoing (lim : Limits) (e : End) : Nat :=
  e.cell.elim lim.window.toNat (fun c => c.stream.sendWindow.toNat) + e.hand.credit + e.bytesOut

/-- The part of the window that is at the receiving end. -/
def incoming (e : End) : Nat :=
  e.cell.elim 0 (fun c => c.stream.buf.length + c.stream.pendingCredit.toNat) + e.hand.bytes +
    e.creditOut

end End

/-- The limits of an established connection. -/
structure Limits.Proper (lim : Limits) : Prop where
  maxFrame : lim.maxFrame ≤ maxFramePayload
  window : 0 < lim.window
  threshold : 0 < lim.creditThreshold ∧ lim.creditThreshold ≤ lim.window

/-- The operation is within the bounds of its 32 bit counters, and within the frame limit. -/
def Op.Small (lim : Limits) : Op → Prop
  | .write p _ => p.length < 2 ^ 32
  | .sendData p _ n => p.length < 2 ^ 32 ∧ n ≤ lim.maxFrame.toNat
  | _ => True

section Turns

variable {lim : Limits} {done : Bool} {ack : Option Reason} {c : Cell} {op : Op} {turn : Turn}

theorem turn_small (hturn : OpStep lim done ack c op turn) (hop : op.Small lim) :
    turn.op.Small lim := by
  cases hturn with
  | readBytes length hread => split_ifs <;> trivial
  | took p written hlength hwrite =>
      have hp : p.length < 2 ^ 32 := hop
      obtain ⟨-, -, hframe, -⟩ := Stream.write_take hwrite (by omega)
      exact ⟨hp, hframe⟩
  | dataSent p written n hdone => exact hop.1
  | _ => trivial

/-- `Write` turns credit into bytes, and loses some only if the session is done. -/
theorem turn_outgoing (id : UInt32) (hturn : OpStep lim done ack c op turn) (hlim : lim.Proper)
    (hop : op.Small lim) :
    turn.cell.stream.sendWindow.toNat + turn.op.taken +
        ((turn.effect.msgs id).map Msg.bytes).sum ≤ c.stream.sendWindow.toNat + op.taken ∧
      (done = false → turn.cell.stream.sendWindow.toNat + turn.op.taken +
        ((turn.effect.msgs id).map Msg.bytes).sum = c.stream.sendWindow.toNat + op.taken) := by
  cases hturn with
  | readBytes length hread =>
      obtain ⟨-, -, -, hafter, -⟩ := Stream.read_bytes hread
      rw [hafter]
      split_ifs <;> simp [Op.taken, Effect.msgs]
  | creditSent credit data hdone =>
      cases hdecode : decodeWindow (encodeWindow credit) <;>
        simp [Op.taken, Effect.msgs, msgOf, hdecode, Msg.bytes]
  | took p written hlength hwrite =>
      have hp : p.length < 2 ^ 32 := hop
      obtain ⟨hremaining, hwindow, -, hafter, -⟩ := Stream.write_take hwrite (by omega)
      rename_i n after
      have hn : (UInt32.ofNat n).toNat = n := by
        rw [UInt32.toNat_ofNat']
        exact Nat.mod_eq_of_lt (by have := c.stream.sendWindow.toNat_lt; omega)
      have hsub : after.sendWindow.toNat = c.stream.sendWindow.toNat - n := by
        rw [hafter]
        show (c.stream.sendWindow - UInt32.ofNat n).toNat = _
        rw [UInt32.toNat_sub_of_le _ _ (UInt32.le_iff_toNat_le.mpr (by omega)), hn]
      have htaken : (Op.sendData p written n).taken = n := by
        simp only [Op.taken, List.length_take, List.length_drop]
        omega
      simp only [Effect.msgs, List.map_nil, List.sum_nil, hsub, htaken]
      simp only [Op.taken]
      omega
  | dataSent p written n hdone => simp [Op.taken, Effect.msgs, msgOf, Msg.bytes]
  | dataLost p written n hlost =>
      refine ⟨by simp [Op.taken, Effect.msgs], ?_⟩
      intro hdone
      rcases hlost with hd | hsize
      · rw [hdone] at hd
        cases hd
      · -- A chunk never exceeds a frame.
        have hframe := UInt32.le_iff_toNat_le.mp hlim.maxFrame
        have hn : n ≤ lim.maxFrame.toNat := hop.2
        have hchunk : ((p.drop written).take n).length ≤ n := List.length_take_le _ _
        omega
  | _ => simp [Op.taken, Effect.msgs, msgOf, Msg.bytes]

/-- `Read` turns buffered bytes into credit, and loses some only if the stream or the session has
ended. -/
theorem turn_incoming (id : UInt32) (hturn : OpStep lim done ack c op turn)
    (hfit : c.stream.buf.length + c.stream.pendingCredit.toNat < 2 ^ 32) :
    turn.cell.stream.buf.length + turn.cell.stream.pendingCredit.toNat + turn.op.owed +
        ((turn.effect.msgs id).map Msg.credit).sum ≤
        c.stream.buf.length + c.stream.pendingCredit.toNat + op.owed ∧
      (done = false → turn.cell.stream.reset = false →
        turn.cell.stream.buf.length + turn.cell.stream.pendingCredit.toNat + turn.op.owed +
          ((turn.effect.msgs id).map Msg.credit).sum =
          c.stream.buf.length + c.stream.pendingCredit.toNat + op.owed) := by
  cases hturn with
  | readBytes length hread =>
      rename_i data credit after
      obtain ⟨hdata, hbuf, -, -, hcredit⟩ := Stream.read_bytes hread
      have hlen : data.length + after.buf.length = c.stream.buf.length := by
        rw [hdata, hbuf, ← List.length_append, List.take_append_drop]
      have hsum : (c.stream.pendingCredit + UInt32.ofNat data.length).toNat =
          c.stream.pendingCredit.toNat + data.length := by
        rw [UInt32.toNat_add, UInt32.toNat_ofNat',
          Nat.mod_eq_of_lt (show data.length < 2 ^ 32 by omega)]
        exact Nat.mod_eq_of_lt (by omega)
      have howed : (if credit = 0 then Op.readDone data else .sendWindowUpdate credit data).owed =
          credit.toNat := by
        split_ifs with hzero
        · rw [hzero]
          rfl
        · rfl
      simp only [Effect.msgs, List.map_nil, List.sum_nil, howed]
      rcases hcredit with ⟨hzero, hpending, -⟩ | ⟨hsent, hpending⟩
      · rw [hzero, hpending, hsum]
        simp only [Op.owed, UInt32.toNat_zero]
        omega
      · rw [hsent, hpending, hsum]
        simp only [Op.owed, UInt32.toNat_zero]
        omega
  | took p written hlength hwrite =>
      rw [Stream.write_after hwrite]
      simp [Op.owed, Effect.msgs]
  | creditSent credit data hdone =>
      have hmsg : ((msgOf id ⟨.streamWindow, id, encodeWindow credit⟩).toList.map
          Msg.credit).sum = credit.toNat := by
        by_cases hzero : credit = 0
        · subst hzero
          have hdecode : decodeWindow (encodeWindow 0) = none := by decide
          simp [msgOf, hdecode]
        · simp [msgOf, decode_encode_window hzero, Msg.credit]
      simp [Op.owed, Effect.msgs, hmsg]
  | creditLost credit data hdone => simp [Op.owed, Effect.msgs, hdone]
  | resetAbort r hreset => simp [Op.owed, Effect.msgs]
  | _ => simp [Op.owed, Effect.msgs, msgOf, Msg.credit]

end Turns

/-- The counters of a stream are what they stand for: the receive window is what the buffer
leaves of the whole, and less credit is pending than is worth a frame. -/
structure Stream.Metered (lim : Limits) (st : Stream) : Prop where
  room : st.recvWindow.toNat + st.buf.length ≤ lim.window.toNat
  exact : st.reset = false → st.recvWindow.toNat + st.buf.length = lim.window.toNat
  pending : st.pendingCredit < lim.creditThreshold

/-- The counters of an end are what they stand for. -/
structure End.Metered (lim : Limits) (e : End) : Prop where
  cell : ∀ c, e.cell = some c → c.stream.Metered lim
  ops : ∀ op ∈ e.ops, op.Small lim

/-- An operation is started within the bounds. -/
def SmallStart (l : Label) : Prop := ∀ p written, l = .start (.write p written) → p.length < 2 ^ 32

section Streams

variable {st st' : Stream} {b : Bytes}

theorem deliver_cases (h : st.deliver b = some st') :
    (st' = st ∧ (st.reset = true ∨ st.remoteClosed = true)) ∨
      (st.reset = false ∧ st.remoteClosed = false ∧ UInt32.ofNat b.length ≤ st.recvWindow ∧
        st' = { st with
          recvWindow := st.recvWindow - UInt32.ofNat b.length, buf := st.buf ++ b }) := by
  unfold Stream.deliver at h
  by_cases hclosed : st.reset = true ∨ st.remoteClosed = true
  · rw [if_pos hclosed] at h
    exact .inl ⟨(Option.some.inj h).symm, hclosed⟩
  · rw [if_neg hclosed] at h
    push Not at hclosed
    split_ifs at h with hwindow
    exact .inr ⟨by simpa using hclosed.1, by simpa using hclosed.2, UInt32.not_lt.mp hwindow,
      (Option.some.inj h).symm⟩

theorem remote_close_fields (st : Stream) (r : Reason) :
    (st.remoteClose r).recvWindow = st.recvWindow ∧
    (st.remoteClose r).sendWindow = st.sendWindow ∧
    (st.remoteClose r).pendingCredit = st.pendingCredit ∧
    ((st.remoteClose r).buf = st.buf ∨ ((st.remoteClose r).buf = [] ∧
      (st.remoteClose r).reset = true)) ∧
    ((st.remoteClose r).reset = false → st.reset = false) ∧
    ((st.remoteClose r).remoteClosed = true ∨ (st.remoteClose r).reset = true) := by
  unfold Stream.remoteClose
  by_cases hclosed : st.remoteClosed = true ∨ st.reset = true
  · rw [if_pos hclosed]
    exact ⟨rfl, rfl, rfl, .inl rfl, fun h => h, hclosed⟩
  · rw [if_neg hclosed]
    split_ifs
    · exact ⟨rfl, rfl, rfl, .inl rfl, fun h => h, .inl rfl⟩
    · exact ⟨rfl, rfl, rfl, .inr ⟨rfl, rfl⟩, fun h => absurd h (by simp), .inl rfl⟩

theorem kill_fields (st : Stream) (r : Reason) : (st.kill r).recvWindow = st.recvWindow ∧
    (st.kill r).sendWindow = st.sendWindow ∧ (st.kill r).pendingCredit = st.pendingCredit ∧
    (st.kill r).buf = st.buf := by
  unfold Stream.kill
  split_ifs <;> exact ⟨rfl, rfl, rfl, rfl⟩

theorem grant_credit_fields (st : Stream) (n : UInt32) :
    (st.grantCredit n).recvWindow = st.recvWindow ∧
    (st.grantCredit n).pendingCredit = st.pendingCredit ∧ (st.grantCredit n).buf = st.buf ∧
    (st.grantCredit n).reset = st.reset := by
  unfold Stream.grantCredit
  split_ifs <;> exact ⟨rfl, rfl, rfl, rfl⟩

/-- `Read` gives back the window of the bytes it hands out. -/
theorem read_recv_window {threshold credit : UInt32} {length : Nat} {data : Bytes}
    (h : st.read threshold length = .bytes data credit st')
    (hfits : st.recvWindow.toNat + st.buf.length < 2 ^ 32) :
    st'.recvWindow.toNat = st.recvWindow.toNat + data.length := by
  obtain ⟨hdata, -, -, hafter, -⟩ := Stream.read_bytes h
  have hlen : data.length ≤ st.buf.length := by
    rw [hdata]
    exact List.length_take_le' _ _
  rw [hafter]
  show (st.recvWindow + UInt32.ofNat data.length).toNat = _
  rw [UInt32.toNat_add, UInt32.toNat_ofNat',
    Nat.mod_eq_of_lt (show data.length < 2 ^ 32 by omega)]
  exact Nat.mod_eq_of_lt (by omega)

/-- `deliver` takes the window of the bytes it buffers. -/
theorem deliver_recv_window (h : st.deliver b = some st') (hb : b.length < 2 ^ 32) :
    st'.recvWindow.toNat + (st'.buf.length - st.buf.length) = st.recvWindow.toNat := by
  rcases deliver_cases h with ⟨rfl, -⟩ | ⟨-, -, hle, rfl⟩
  · omega
  · have hlen : (UInt32.ofNat b.length).toNat = b.length := by
      rw [UInt32.toNat_ofNat']
      exact Nat.mod_eq_of_lt hb
    have hle' := UInt32.le_iff_toNat_le.mp hle
    show (st.recvWindow - UInt32.ofNat b.length).toNat + _ = _
    rw [UInt32.toNat_sub_of_le _ _ hle, hlen, List.length_append]
    omega

/-- Credit that fits is added. -/
theorem grant_credit_send_window {n : UInt32} (h : st.sendWindow.toNat + n.toNat < 2 ^ 32) :
    (st.grantCredit n).sendWindow.toNat = st.sendWindow.toNat + n.toNat := by
  have hmax : (0xFFFFFFFF : UInt32).toNat = 2 ^ 32 - 1 := rfl
  have hn : n ≤ 0xFFFFFFFF := UInt32.le_iff_toNat_le.mpr (by have := n.toNat_lt; omega)
  have hroom : ¬ (0xFFFFFFFF : UInt32) - n < st.sendWindow := by
    rw [UInt32.lt_iff_toNat_lt, UInt32.toNat_sub_of_le _ _ hn, hmax]
    omega
  rw [Stream.grantCredit, if_neg hroom]
  show (st.sendWindow + n).toNat = _
  rw [UInt32.toNat_add]
  exact Nat.mod_eq_of_lt h

end Streams

section Meters

variable {lim : Limits} {o : Bool} {id : UInt32} {e e' : End} {l : Label}

theorem metered_new_stream (hcredit : 0 < lim.creditThreshold) (id : UInt32) (payload : Bytes) :
    { newStream id lim.window with openPayload := payload }.Metered lim :=
  ⟨(Nat.add_zero _).le, fun _ => Nat.add_zero _, hcredit⟩

theorem metered_deliver {st st' : Stream} {b : Bytes} (hm : st.Metered lim)
    (hb : b.length < 2 ^ 32) (h : st.deliver b = some st') : st'.Metered lim := by
  rcases deliver_cases h with ⟨rfl, -⟩ | ⟨hreset, -, hle, rfl⟩
  · exact hm
  · have hsum := hm.exact hreset
    have htotal : (st.recvWindow - UInt32.ofNat b.length).toNat + (st.buf ++ b).length =
        lim.window.toNat := by
      have hrecv := deliver_recv_window h hb
      simp only [List.length_append] at hrecv ⊢
      omega
    exact ⟨htotal.le, fun _ => htotal, hm.pending⟩

theorem metered_grant_credit {st : Stream} (n : UInt32) (hm : st.Metered lim) :
    (st.grantCredit n).Metered lim := by
  obtain ⟨hrecv, hpending, hbuf, hreset⟩ := grant_credit_fields st n
  exact ⟨by rw [hrecv, hbuf]; exact hm.room, by rw [hrecv, hbuf, hreset]; exact hm.exact,
    by rw [hpending]; exact hm.pending⟩

theorem metered_remote_close {st : Stream} (r : Reason) (hm : st.Metered lim) :
    (st.remoteClose r).Metered lim := by
  obtain ⟨hrecv, -, hpending, hbuf, hreset, -⟩ := remote_close_fields st r
  have hroom := hm.room
  refine ⟨?_, ?_, by rw [hpending]; exact hm.pending⟩
  · rcases hbuf with hbuf | ⟨hbuf, -⟩ <;> rw [hrecv, hbuf]
    · exact hroom
    · rw [List.length_nil]
      omega
  · intro h
    rcases hbuf with hbuf | ⟨-, hdead⟩
    · rw [hrecv, hbuf]
      exact hm.exact (hreset h)
    · rw [h] at hdead
      cases hdead

theorem metered_kill {st : Stream} (r : Reason) (hm : st.Metered lim) :
    (st.kill r).Metered lim := by
  obtain ⟨hrecv, -, hpending, hbuf⟩ := kill_fields st r
  refine ⟨by rw [hrecv, hbuf]; exact hm.room, ?_, by rw [hpending]; exact hm.pending⟩
  intro h
  rw [kill_reset] at h
  cases h

/-- A step of an operation keeps the counters of the stream. -/
theorem metered_turn {done : Bool} {ack : Option Reason} {c : Cell} {op : Op} {turn : Turn}
    (hturn : OpStep lim done ack c op turn) (hthreshold : 0 < lim.creditThreshold)
    (hm : c.stream.Metered lim) : turn.cell.stream.Metered lim := by
  cases hturn with
  | readBytes length hread =>
      rename_i data credit after
      obtain ⟨hdata, hbuf, -, hafter, hcredit⟩ := Stream.read_bytes hread
      have hlen : data.length + after.buf.length = c.stream.buf.length := by
        rw [hdata, hbuf, ← List.length_append, List.take_append_drop]
      have hwindow := lim.window.toNat_lt
      have hroom := hm.room
      have hrecv := read_recv_window hread (by omega)
      have hreset : after.reset = c.stream.reset := by rw [hafter]
      refine ⟨by dsimp only; omega, ?_, ?_⟩
      · intro h
        have hexact := hm.exact (hreset ▸ h)
        dsimp only
        omega
      · rcases hcredit with ⟨-, -, hlt⟩ | ⟨-, hzero⟩
        · exact hlt
        · show after.pendingCredit < lim.creditThreshold
          rw [hzero]
          exact hthreshold
  | took p written hlength hwrite =>
      rw [Stream.write_after hwrite]
      exact ⟨hm.room, hm.exact, hm.pending⟩
  | resetAbort r hreset =>
      have hroom := hm.room
      exact ⟨by simp only [List.length_nil]; omega, fun h => absurd h (by simp), hm.pending⟩
  | closeLocal r hclosed hreset => exact ⟨hm.room, hm.exact, hm.pending⟩
  | _ => exact hm

/-- A step of an end keeps its counters. -/
theorem EndStep.metered (h : EndStep lim o id e l e') (hlim : lim.Proper) (hm : e.Metered lim)
    (hl : SmallStart l) (hbytes : e.hand.bytes < 2 ^ 32) : e'.Metered lim := by
  have hcons : ∀ {op : Op} {ops : Multiset Op}, op.Small lim → (∀ op ∈ ops, op.Small lim) →
      ∀ op' ∈ op ::ₘ ops, op'.Small lim := by
    intro op ops hop hops op' hop'
    rcases Multiset.mem_cons.mp hop' with rfl | hop'
    · exact hop
    · exact hops op' hop'
  cases h with
  | create payload hopens hcell hdone =>
      refine ⟨?_, hcons trivial hm.ops⟩
      intro c hc
      cases hc
      exact metered_new_stream hlim.threshold.1 id []
  | start hheld hcell hop =>
      rename_i op c c'
      refine ⟨?_, hcons ?_ hm.ops⟩
      · intro d hd
        cases hd
        exact (start_spec hop).1 ▸ hm.cell _ hcell
      · cases op with
        | write p written => exact hl p written rfl
        | sendData p written n => cases hop
        | _ => trivial
  | advance hcell hops hturn =>
      refine ⟨?_, ?_⟩
      · intro c hc
        rw [perform_cell] at hc
        cases hc
        exact metered_turn hturn hlim.threshold.1 (hm.cell _ hcell)
      · rw [perform_ops]
        exact hcons (turn_small hturn (hm.ops _ (by simp [hops])))
          fun op hop => hm.ops op (by simp [hops, hop])
  | accept hqueued => exact ⟨hm.cell, hcons trivial hm.ops⟩
  | deliver hhand hcell hdeliver =>
      refine ⟨?_, hm.ops⟩
      intro c hc
      cases hc
      rw [hhand] at hbytes
      exact metered_deliver (hm.cell _ hcell) hbytes hdeliver
  | grant hhand hcell =>
      refine ⟨?_, hm.ops⟩
      intro c hc
      cases hc
      exact metered_grant_credit _ (hm.cell _ hcell)
  | close hhand hcell =>
      refine ⟨?_, hm.ops⟩
      intro c hc
      cases hc
      exact metered_remote_close _ (hm.cell _ hcell)
  | kill hlive hdoomed hcell =>
      refine ⟨?_, hm.ops⟩
      intro c hc
      cases hc
      exact metered_kill _ (hm.cell _ hcell)
  | _ => exact ⟨hm.cell, hm.ops⟩

theorem Receive.metered {m : Msg} (h : Receive lim id e m e') (hlim : lim.Proper)
    (hm : e.Metered lim) : e'.Metered lim := by
  cases h with
  | opened payload hcell =>
      refine ⟨?_, hm.ops⟩
      intro c hc
      cases hc
      exact metered_new_stream hlim.threshold.1 id payload
  | _ => exact ⟨hm.cell, hm.ops⟩

/-- Frames for the stream reach it: the session is not done, its read loop runs, and the stream,
if there is one, is in the stream map. -/
def End.Able (e : End) : Prop :=
  e.done = false ∧ e.hand ≠ .stopped ∧ ∀ c, e.cell = some c → e.registered = true

/-- The stream takes data. -/
def End.Receptive (e : End) : Prop :=
  e.Able ∧ ∀ c, e.cell = some c → c.stream.reset = false ∧ c.stream.remoteClosed = false

/-- An end that is not able does not become so. -/
theorem EndStep.able (h : EndStep lim o id e l e') (ha : e'.Able) : e.Able := by
  obtain ⟨hdone, hhand, hregistered⟩ := ha
  have hborn : ∀ {c}, e.cell = some c → e'.registered = true := by
    intro c hc
    obtain ⟨c', hc', -⟩ := h.cell_mono hc
    exact hregistered c' hc'
  cases h with
  | idle hd hended hlive =>
      refine ⟨?_, hhand, fun c hc => hborn hc⟩
      cases hdone' : e.done with
      | false => rfl
      | true => exact (hd hdone').symm.trans hdone
  | halt _ => exact absurd rfl hhand
  | create payload hopens hcell hd =>
      refine ⟨hd, hhand, ?_⟩
      intro c hc
      rw [hcell] at hc
      cases hc
  | advance hcell hops hturn =>
      rw [perform_done] at hdone
      rw [perform_hand] at hhand
      refine ⟨hdone, hhand, ?_⟩
      intro c hc
      have hreg := hborn hc
      rw [perform_registered, Bool.and_eq_true] at hreg
      exact hreg.1
  | ack hserving _ _ => exact ⟨hdone, by simp [hserving], fun c hc => hborn hc⟩
  | queue hserving _ => exact ⟨hdone, by simp [hserving], fun c hc => hborn hc⟩
  | full hserving _ => exact ⟨hdone, by simp [hserving], fun c hc => hborn hc⟩
  | drop hserving hcell => exact absurd (hborn hcell) (by simp)
  | refuse hrefusing hd => exact ⟨hd, by simp [hrefusing], fun c hc => hborn hc⟩
  | deliver hserving hcell _ => exact ⟨hdone, by simp [hserving], fun c hc => hborn hc⟩
  | grant hserving hcell => exact ⟨hdone, by simp [hserving], fun c hc => hborn hc⟩
  | found hlooking hreg => exact ⟨hdone, by simp [hlooking], fun c hc => hreg⟩
  | missing hlooking _ => exact ⟨hdone, by simp [hlooking], fun c hc => hborn hc⟩
  | close hserving hcell => exact ⟨hdone, by simp [hserving], fun c hc => hborn hc⟩
  | retired hserving hcell _ => exact absurd (hborn hcell) (by simp)
  | kept hserving hcell _ => exact ⟨hdone, by simp [hserving], fun c hc => hborn hc⟩
  | collect _ _ _ => exact ⟨hdone, hhand, fun c hc => absurd (hborn hc) (by simp)⟩
  | _ => exact ⟨hdone, hhand, fun c hc => hborn hc⟩

theorem EndStep.receptive (h : EndStep lim o id e l e') (hr : e'.Receptive) :
    e.Receptive := by
  refine ⟨h.able hr.1, ?_⟩
  intro c hc
  obtain ⟨c', hc', hgrows⟩ := h.cell_mono hc
  obtain ⟨hreset, hremote⟩ := hr.2 c' hc'
  refine ⟨?_, ?_⟩
  · cases hreset' : c.stream.reset with
    | false => rfl
    | true => exact (hgrows.reset hreset').symm.trans hreset
  · cases hremote' : c.stream.remoteClosed with
    | false => rfl
    | true => exact (hgrows.remoteClosed hremote').symm.trans hremote

/-- A step of the sending end keeps its part of the window, or loses some of it when the session
is done or the read loop has stopped. -/
theorem EndStep.outgoing (h : EndStep lim o id e l e') (hlim : lim.Proper) (hm : e.Metered lim)
    (hle : e.outgoing lim ≤ lim.window.toNat) :
    e'.outgoing lim ≤ e.outgoing lim ∧ (e'.Able → e'.outgoing lim = e.outgoing lim) := by
  have hwindow := lim.window.toNat_lt
  cases h with
  | halt hhand =>
      have hcredit : e.hand.credit = 0 := by
        rcases hhand with h | h | h | ⟨b, h⟩ <;> rw [h] <;> rfl
      have hstopped : Hand.stopped.credit = 0 := rfl
      simp [End.outgoing, End.bytesOut, hcredit, hstopped]
  | create payload hopens hcell hdone =>
      simp [End.outgoing, End.bytesOut, hcell, newCell, newStream, Op.taken]
  | start hheld hcell hop =>
      have htaken : ∀ {op c c'}, Op.start c op = some c' → op.taken = 0 := by
        intro op c c' hop
        unfold Op.start at hop
        split at hop <;> cases hop <;> rfl
      simp [End.outgoing, End.bytesOut, hcell, (start_spec hop).1, htaken hop]
  | advance hcell hops hturn =>
      obtain ⟨hless, heq⟩ := turn_outgoing id hturn hlim (hm.ops _ (by simp [hops]))
      simp only [End.outgoing, End.bytesOut, hcell, hops, perform_cell, perform_hand, perform_ops,
        perform_out, Option.elim_some, Multiset.map_cons, Multiset.sum_cons, List.map_append,
        List.sum_append]
      refine ⟨by omega, ?_⟩
      intro hable
      have hsum := heq (by simpa using hable.1)
      omega
  | accept hqueued => simp [End.outgoing, End.bytesOut, Op.taken]
  | ack hhand hcell hdone =>
      simp [End.outgoing, End.bytesOut, hhand, Hand.credit, Msg.bytes]
  | refuse hhand hdone =>
      simp [End.outgoing, End.bytesOut, hhand, Hand.credit, Msg.bytes]
  | deliver hhand hcell hdeliver =>
      have hsend : ∀ {st st' : Stream} {b : Bytes}, st.deliver b = some st' →
          st'.sendWindow = st.sendWindow := by
        intro st st' b h
        rcases deliver_cases h with ⟨rfl, -⟩ | ⟨-, -, -, rfl⟩ <;> rfl
      simp [End.outgoing, End.bytesOut, hcell, hhand, Hand.credit, hsend hdeliver]
  | grant hhand hcell =>
      rename_i c credit
      have hfit : c.stream.sendWindow.toNat + credit.toNat < 2 ^ 32 := by
        simp only [End.outgoing, hcell, hhand, Option.elim_some, Hand.credit] at hle
        omega
      have hbefore : e.outgoing lim =
          c.stream.sendWindow.toNat + credit.toNat + e.bytesOut := by
        rw [End.outgoing, hcell, hhand]
        rfl
      have hafter : ∀ c' : Cell, End.outgoing lim { e with cell := some c', hand := .free } =
          c'.stream.sendWindow.toNat + e.bytesOut := fun _ => rfl
      rw [hbefore, hafter, grant_credit_send_window hfit]
      exact ⟨Nat.le_refl _, fun _ => rfl⟩
  | close hhand hcell =>
      simp [End.outgoing, End.bytesOut, hcell, hhand, Hand.credit, remote_close_fields]
  | kill hlive hdoomed hcell =>
      simp [End.outgoing, End.bytesOut, hcell, kill_fields]
  | idle hdone hended hlive => exact ⟨Nat.le_refl _, fun _ => rfl⟩
  | collect hlive hdoomed hunanswered => exact ⟨Nat.le_refl _, fun _ => rfl⟩
  | notify hlive hdoomed hunanswered => exact ⟨Nat.le_refl _, fun _ => rfl⟩
  | queue hhand hcell => simp [End.outgoing, End.bytesOut, hhand, Hand.credit]
  | full hhand hcell => simp [End.outgoing, End.bytesOut, hhand, Hand.credit]
  | drop hhand hcell => simp [End.outgoing, End.bytesOut, hhand, Hand.credit]
  | found hhand hregistered => simp [End.outgoing, End.bytesOut, hhand, Hand.credit]
  | missing hhand hregistered => simp [End.outgoing, End.bytesOut, hhand, Hand.credit]
  | retired hhand hcell hfinished => simp [End.outgoing, End.bytesOut, hhand, Hand.credit]
  | kept hhand hcell hfinished => simp [End.outgoing, End.bytesOut, hhand, Hand.credit]

/-- A step of the receiving end keeps its part of the window, or loses some of it when the stream
or the session ends. -/
theorem EndStep.incoming (h : EndStep lim o id e l e') (hle : e.incoming ≤ lim.window.toNat) :
    e'.incoming ≤ e.incoming ∧ (e'.Receptive → e'.incoming = e.incoming) := by
  have hwindow := lim.window.toNat_lt
  cases h with
  | halt hhand =>
      refine ⟨?_, fun hr => absurd rfl hr.1.2.1⟩
      simp [End.incoming, End.creditOut, Hand.bytes]
  | create payload hopens hcell hdone =>
      simp [End.incoming, End.creditOut, hcell, newCell, newStream, Op.owed]
  | start hheld hcell hop =>
      have howed : ∀ {op c c'}, Op.start c op = some c' → op.owed = 0 := by
        intro op c c' hop
        unfold Op.start at hop
        split at hop <;> cases hop <;> rfl
      simp [End.incoming, End.creditOut, hcell, (start_spec hop).1, howed hop]
  | advance hcell hops hturn =>
      rename_i op rest c turn
      have hfit : c.stream.buf.length + c.stream.pendingCredit.toNat < 2 ^ 32 := by
        simp only [End.incoming, hcell, Option.elim_some] at hle
        omega
      obtain ⟨hless, heq⟩ := turn_incoming id hturn hfit
      simp only [End.incoming, End.creditOut, hcell, hops, perform_cell, perform_hand, perform_ops,
        perform_out, Option.elim_some, Multiset.map_cons, Multiset.sum_cons, List.map_append,
        List.sum_append]
      refine ⟨by omega, ?_⟩
      intro hr
      have hsum := heq (by simpa using hr.1.1) (hr.2 turn.cell (by simp)).1
      omega
  | accept hqueued => simp [End.incoming, End.creditOut, Op.owed]
  | ack hhand hcell hdone =>
      simp [End.incoming, End.creditOut, hhand, Hand.bytes, Msg.credit]
  | refuse hhand hdone =>
      simp [End.incoming, End.creditOut, hhand, Hand.bytes, Msg.credit]
  | deliver hhand hcell hdeliver =>
      rcases deliver_cases hdeliver with ⟨rfl, hclosed⟩ | ⟨-, -, -, rfl⟩
      · refine ⟨by simp [End.incoming, End.creditOut, hcell, hhand, Hand.bytes], ?_⟩
        intro hr
        obtain ⟨hreset, hremote⟩ := hr.2 _ rfl
        rcases hclosed with h | h
        · exact absurd (h.symm.trans hreset) (by simp)
        · exact absurd (h.symm.trans hremote) (by simp)
      · simp only [End.incoming, End.creditOut, hcell, hhand, Hand.bytes, Option.elim_some,
          List.length_append]
        omega
  | grant hhand hcell =>
      rename_i c credit
      obtain ⟨-, hpending, hbuf, -⟩ := grant_credit_fields c.stream credit
      have hbefore : e.incoming =
          c.stream.buf.length + c.stream.pendingCredit.toNat + e.creditOut := by
        rw [End.incoming, hcell, hhand]
        rfl
      have hafter : ∀ c' : Cell, End.incoming { e with cell := some c', hand := .free } =
          c'.stream.buf.length + c'.stream.pendingCredit.toNat + e.creditOut := fun _ => rfl
      rw [hbefore, hafter, hpending, hbuf]
      exact ⟨Nat.le_refl _, fun _ => rfl⟩
  | close hhand hcell =>
      rename_i c reason
      obtain ⟨-, -, hpending, hbuf, -, hclosed⟩ :=
        remote_close_fields c.stream reason
      refine ⟨?_, ?_⟩
      · rcases hbuf with hbuf | ⟨hbuf, -⟩ <;>
          simp [End.incoming, End.creditOut, hcell, hhand, Hand.bytes, hpending, hbuf]
      · intro hr
        obtain ⟨hreset, hremote⟩ := hr.2 _ rfl
        rcases hclosed with h | h
        · exact absurd (h.symm.trans hremote) (by simp)
        · exact absurd (h.symm.trans hreset) (by simp)
  | kill hlive hdoomed hcell =>
      simp [End.incoming, End.creditOut, hcell, kill_fields]
  | idle hdone hended hlive => exact ⟨Nat.le_refl _, fun _ => rfl⟩
  | collect hlive hdoomed hunanswered => exact ⟨Nat.le_refl _, fun _ => rfl⟩
  | notify hlive hdoomed hunanswered => exact ⟨Nat.le_refl _, fun _ => rfl⟩
  | queue hhand hcell => simp [End.incoming, End.creditOut, hhand, Hand.bytes]
  | full hhand hcell => simp [End.incoming, End.creditOut, hhand, Hand.bytes]
  | drop hhand hcell => simp [End.incoming, End.creditOut, hhand, Hand.bytes]
  | found hhand hregistered => simp [End.incoming, End.creditOut, hhand, Hand.bytes]
  | missing hhand hregistered => simp [End.incoming, End.creditOut, hhand, Hand.bytes]
  | retired hhand hcell hfinished => simp [End.incoming, End.creditOut, hhand, Hand.bytes]
  | kept hhand hcell hfinished => simp [End.incoming, End.creditOut, hhand, Hand.bytes]

end Meters

/-- The window of a stream in one direction, from the first end to the second: it is never
exceeded, and nothing of it is lost as long as frames reach both ends and the receiving one takes
data. -/
structure Flow (lim : Limits) (a b : End) : Prop where
  metered : a.Metered lim
  total : a.outgoing lim + b.incoming ≤ lim.window.toNat
  exact : a.Able → b.Receptive → a.outgoing lim + b.incoming = lim.window.toNat

section Flow

variable {lim : Limits} {id : UInt32} {o : Bool} {a b a' b' : End} {l : Label} {m : Msg}
  {rest : List Msg}

theorem Flow.bytes_lt (h : Flow lim a b) : b.hand.bytes < 2 ^ 32 := by
  have htotal := h.total
  have hwindow := lim.window.toNat_lt
  simp only [End.incoming] at htotal
  omega

theorem outgoing_pop (hout : a.out = m :: rest) :
    a.outgoing lim = End.outgoing lim { a with out := rest } + m.bytes := by
  simp only [End.outgoing, End.bytesOut, hout, List.map_cons, List.sum_cons]
  omega

theorem incoming_pop (hout : b.out = m :: rest) :
    b.incoming = End.incoming { b with out := rest } + m.credit := by
  simp only [End.incoming, End.creditOut, hout, List.map_cons, List.sum_cons]
  omega

/-- The sending end moves. -/
theorem Flow.send (hlim : lim.Proper) (h : Flow lim a b) (h' : Flow lim b a) (hl : SmallStart l)
    (hstep : EndStep lim o id a l a') : Flow lim a' b := by
  have htotal := h.total
  obtain ⟨hle, heq⟩ := hstep.outgoing hlim h.metered (by omega)
  refine ⟨hstep.metered hlim h.metered hl h'.bytes_lt, by omega, ?_⟩
  intro hable hreceptive
  rw [heq hable]
  exact h.exact (hstep.able hable) hreceptive

/-- The receiving end moves. -/
theorem Flow.recv (h : Flow lim a b) (hstep : EndStep lim o id b l b') : Flow lim a b' := by
  have htotal := h.total
  obtain ⟨hle, heq⟩ := hstep.incoming (by omega)
  refine ⟨h.metered, by omega, ?_⟩
  intro hable hreceptive
  rw [heq hreceptive]
  exact h.exact hable (hstep.receptive hreceptive)

/-- What a message brings to the receiving end: all of its bytes, if they are not lost. -/
theorem Receive.incoming (h : Receive lim id b m b') (hhand : b.hand = .free) :
    b'.incoming ≤ b.incoming + m.bytes ∧
      (b'.Receptive → b.Receptive ∧ (b'.incoming = b.incoming + m.bytes ∨
        (b.cell = none ∧ m ≠ .openStream))) := by
  cases h with
  | tooLarge hsize =>
      refine ⟨?_, fun hr => absurd rfl hr.1.2.1⟩
      simp only [End.incoming, hhand, Hand.bytes, End.creditOut]
      omega
  | openFailed =>
      refine ⟨?_, fun hr => absurd rfl hr.1.2.1⟩
      simp only [End.incoming, hhand, Hand.bytes, End.creditOut]
      omega
  | openRefused =>
      have hsame : End.incoming { b with hand := .refusing } = b.incoming := by
        rw [End.incoming, End.incoming, hhand]
        rfl
      refine ⟨hsame.le, fun hr => ⟨⟨⟨hr.1.1, by simp [hhand], hr.1.2.2⟩, hr.2⟩, .inl hsame⟩⟩
  | opened payload hcell =>
      have hsame : ∀ c : Cell, c.stream.buf = [] → c.stream.pendingCredit = 0 →
          End.incoming { b with cell := some c, registered := true, hand := .serving .acking } =
            b.incoming := by
        intro c hbuf hpending
        simp [End.incoming, hhand, hcell, hbuf, hpending, Hand.bytes, End.creditOut]
      have hnew := hsame (newCell { newStream id lim.window with openPayload := payload }) rfl rfl
      refine ⟨hnew.le, fun hr => ⟨⟨⟨hr.1.1, by simp [hhand], ?_⟩, ?_⟩, .inl hnew⟩⟩ <;>
        · intro c hc
          rw [hcell] at hc
          cases hc
  | streamOK =>
      exact ⟨Nat.le_refl _,
        fun hr => ⟨⟨⟨hr.1.1, by simp [hhand], hr.1.2.2⟩, hr.2⟩, .inl rfl⟩⟩
  | data hregistered =>
      have hsum : ∀ data : Bytes, End.incoming { b with hand := .serving (.delivering data) } =
          b.incoming + data.length := by
        intro data
        simp only [End.incoming, hhand, Hand.bytes, End.creditOut]
        omega
      exact ⟨(hsum _).le, fun hr => ⟨⟨⟨hr.1.1, by simp [hhand], hr.1.2.2⟩, hr.2⟩, .inl (hsum _)⟩⟩
  | window hregistered =>
      have hsame : ∀ credit : UInt32, End.incoming { b with hand := .serving (.granting credit) } =
          b.incoming := by
        intro credit
        rw [End.incoming, End.incoming, hhand]
        rfl
      exact ⟨(hsame _).le,
        fun hr => ⟨⟨⟨hr.1.1, by simp [hhand], hr.1.2.2⟩, hr.2⟩, .inl (hsame _)⟩⟩
  | dropped hregistered hm =>
      refine ⟨Nat.le_add_right _ _, fun hr => ⟨hr, .inr ⟨?_, ?_⟩⟩⟩
      · cases hcell : b.cell with
        | none => rfl
        | some c =>
            rw [hr.1.2.2 c hcell] at hregistered
            cases hregistered
      · rcases hm with ⟨data, rfl⟩ | ⟨credit, rfl⟩ <;> simp
  | close =>
      have hsame : ∀ reason : Reason, End.incoming { b.complete reason with
          hand := .lookingUp reason } = b.incoming := by
        intro reason
        rw [End.incoming, End.incoming, hhand]
        rfl
      exact ⟨(hsame _).le,
        fun hr => ⟨⟨⟨hr.1.1, by simp [hhand], hr.1.2.2⟩, hr.2⟩, .inl (hsame _)⟩⟩

/-- What a message brings to the sending end: all of its credit, if it is not lost. -/
theorem Receive.outgoing (h : Receive lim id a m a') (hhand : a.hand = .free) :
    a'.outgoing lim ≤ a.outgoing lim + m.credit ∧
      (a'.Able → a.Able ∧ (a'.outgoing lim = a.outgoing lim + m.credit ∨
        (a.cell = none ∧ m ≠ .openStream))) := by
  cases h with
  | tooLarge hsize =>
      refine ⟨?_, fun hable => absurd rfl hable.2.1⟩
      simp only [End.outgoing, hhand, Hand.credit, End.bytesOut]
      omega
  | openFailed =>
      refine ⟨?_, fun hable => absurd rfl hable.2.1⟩
      simp only [End.outgoing, hhand, Hand.credit, End.bytesOut]
      omega
  | openRefused =>
      have hsame : End.outgoing lim { a with hand := .refusing } = a.outgoing lim := by
        rw [End.outgoing, End.outgoing, hhand]
        rfl
      exact ⟨hsame.le, fun hable => ⟨⟨hable.1, by simp [hhand], hable.2.2⟩, .inl hsame⟩⟩
  | opened payload hcell =>
      have hsame : ∀ c : Cell, c.stream.sendWindow = lim.window → End.outgoing lim
          { a with cell := some c, registered := true, hand := .serving .acking } =
            a.outgoing lim := by
        intro c hwindow
        simp [End.outgoing, hhand, hcell, hwindow, Hand.credit, End.bytesOut]
      have hnew := hsame (newCell { newStream id lim.window with openPayload := payload }) rfl
      refine ⟨hnew.le, fun hable => ⟨⟨hable.1, by simp [hhand], ?_⟩, .inl hnew⟩⟩
      intro c hc
      rw [hcell] at hc
      cases hc
  | streamOK =>
      exact ⟨Nat.le_refl _, fun hable => ⟨⟨hable.1, by simp [hhand], hable.2.2⟩, .inl rfl⟩⟩
  | data hregistered =>
      have hsame : ∀ data : Bytes, End.outgoing lim
          { a with hand := .serving (.delivering data) } = a.outgoing lim := by
        intro data
        rw [End.outgoing, End.outgoing, hhand]
        rfl
      exact ⟨(hsame _).le,
        fun hable => ⟨⟨hable.1, by simp [hhand], hable.2.2⟩, .inl (hsame _)⟩⟩
  | window hregistered =>
      have hsum : ∀ credit : UInt32, End.outgoing lim
          { a with hand := .serving (.granting credit) } = a.outgoing lim + credit.toNat := by
        intro credit
        simp only [End.outgoing, hhand, Hand.credit, End.bytesOut]
        omega
      exact ⟨(hsum _).le,
        fun hable => ⟨⟨hable.1, by simp [hhand], hable.2.2⟩, .inl (hsum _)⟩⟩
  | dropped hregistered hm =>
      refine ⟨Nat.le_add_right _ _, fun hable => ⟨hable, .inr ⟨?_, ?_⟩⟩⟩
      · cases hcell : a.cell with
        | none => rfl
        | some c =>
            rw [hable.2.2 c hcell] at hregistered
            cases hregistered
      · rcases hm with ⟨data, rfl⟩ | ⟨credit, rfl⟩ <;> simp
  | close =>
      have hsame : ∀ reason : Reason, End.outgoing lim { a.complete reason with
          hand := .lookingUp reason } = a.outgoing lim := by
        intro reason
        rw [End.outgoing, End.outgoing, hhand]
        rfl
      exact ⟨(hsame _).le,
        fun hable => ⟨⟨hable.1, by simp [hhand], hable.2.2⟩, .inl (hsame _)⟩⟩

/-- The receiving end reads a message. An end without an object is sent nothing but OPEN_STREAM,
so what it drops are no bytes of the window. -/
theorem Flow.arrive (hbond : Bond o a b) (h : Flow lim a b) (hout : a.out = m :: rest)
    (hhand : b.hand = .free) (hreceive : Receive lim id b m b') :
    Flow lim { a with out := rest } b' := by
  have htotal := h.total
  have hpop : a.outgoing lim = _ := outgoing_pop hout
  obtain ⟨hle, heq⟩ := hreceive.incoming hhand
  refine ⟨⟨h.metered.cell, h.metered.ops⟩, by omega, ?_⟩
  intro hable hreceptive
  obtain ⟨hb, hsum | ⟨hcell, hm⟩⟩ := heq hreceptive
  · have hsum' := h.exact ⟨hable.1, hable.2.1, hable.2.2⟩ hb
    omega
  · exact absurd ((hbond.mute hcell).out m (by simp [hout])) hm

/-- The sending end reads a message. -/
theorem Flow.return (hlim : lim.Proper) (hbond : Bond (!o) b a) (h : Flow lim a b)
    (hout : b.out = m :: rest) (hhand : a.hand = .free) (hreceive : Receive lim id a m a') :
    Flow lim a' { b with out := rest } := by
  have htotal := h.total
  have hpop := incoming_pop hout
  obtain ⟨hle, heq⟩ := hreceive.outgoing hhand
  refine ⟨hreceive.metered hlim h.metered, by omega, ?_⟩
  intro hable hreceptive
  obtain ⟨ha, hsum | ⟨hcell, hm⟩⟩ := heq hable
  · have hsum' := h.exact ha ⟨⟨hreceptive.1.1, hreceptive.1.2.1, hreceptive.1.2.2⟩, hreceptive.2⟩
    omega
  · exact absurd ((hbond.mute hcell).out m (by simp [hout])) hm

/-- The window of a stream is kept in both directions. -/
theorem flow_step {opener : Side} {ends ends' : Side → End} {x : Side} (hlim : lim.Proper)
    (hB : Directed.Both Bond opener ends) (hF : Directed.Both (fun _ => Flow lim) opener ends)
    (hl : SmallStart l) (h : LinkStep lim id opener ends x l ends') :
    Directed.Both (fun _ => Flow lim) opener ends' := by
  refine link_step_directed (C := Bond) (G := fun _ => SmallStart) ?_ ?_ ?_ ?_ hB hF hl h
  · exact fun _ _ hab hba hl hstep => hab.send hlim hba hl hstep
  · exact fun _ _ hab _ _ hstep => hab.recv hstep
  · exact fun hC _ hab _ hout hhand hreceive => hab.arrive hC hout hhand hreceive
  · exact fun _ hC hab _ hout hhand hreceive => hab.return hlim hC hout hhand hreceive

end Flow

end AccessRelay.Mux
