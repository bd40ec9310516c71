import AccessRelay.Mux.FlowControl

/-!
# What an end has written

One goroutine writes to a stream and then closes it. `Written` is what this keeps at the sending
end: the bytes that are on the connection are the first of those that were handed to `Write`, the
rest of them is in the one `Write` that is in progress, and nothing is left when the close is
sent. Bytes are left behind only by a `Write` that fails, and that is final: the stream is reset or
the session is done.

`EndStep.emits` says what a step puts on the connection.
-/

namespace AccessRelay.Mux

open Encoding Proto

/-- The bytes of a message. -/
def Msg.carries : Msg → Bytes
  | .data b => b
  | _ => []

/-- The bytes of some messages. -/
def dataOf (ms : List Msg) : Bytes := ms.flatMap Msg.carries

@[simp] theorem data_of_nil : dataOf [] = [] := rfl

@[simp] theorem data_of_cons (m : Msg) (ms : List Msg) :
    dataOf (m :: ms) = m.carries ++ dataOf ms := rfl

@[simp] theorem data_of_append (ms ms' : List Msg) : dataOf (ms ++ ms') = dataOf ms ++ dataOf ms' :=
  List.flatMap_append

/-- The operation is a `Write` in progress. -/
def Op.writers : Op → Nat
  | .write _ _ | .sendData _ _ _ => 1
  | _ => 0

namespace End

/-- The stream object of an end, or a new one if it has none. -/
def object (e : End) : Cell := e.cell.getD (newCell (newStream 0 0))

/-- The calls of `Write` that are in progress. -/
def writers (e : End) : Nat := (e.ops.map Op.writers).sum

/-- The application has closed the stream, and everything it has written is on the connection. -/
def Finished (e : End) : Prop :=
  e.object.history.closing = true ∧ e.object.history.handed = e.object.history.sent

/-- One goroutine writes to the stream, and then closes it. -/
def OneWriter (e : End) : Label → Prop
  | .start (.write _ _) => e.writers = 0 ∧ e.object.history.closing = false
  | .start (.closeWith _) => e.writers = 0
  | _ => True

end End

theorem object_some {e : End} {c : Cell} (h : e.cell = some c) : e.object = c := by
  rw [End.object, h]
  rfl

/-- The two objects agree on everything that has to do with data. -/
structure Cell.Alike (c c' : Cell) : Prop where
  history : c'.history = c.history
  buf : c'.stream.buf = c.stream.buf
  localClosed : c'.stream.localClosed = c.stream.localClosed
  remoteClosed : c'.stream.remoteClosed = c.stream.remoteClosed
  reset : c'.stream.reset = c.stream.reset

theorem Cell.Alike.rfl {c : Cell} : c.Alike c :=
  ⟨Eq.refl _, Eq.refl _, Eq.refl _, Eq.refl _, Eq.refl _⟩

/-- A message does not change what an end has written or read. -/
theorem Receive.alike {lim : Limits} {id : UInt32} {e e' : End} {m : Msg}
    (h : Receive lim id e m e') : e.object.Alike e'.object := by
  cases h with
  | opened payload hcell =>
      rw [End.object, End.object, hcell]
      exact ⟨rfl, rfl, rfl, rfl, rfl⟩
  | _ => exact .rfl

/-- What an operation in progress has to do with the bytes that were written. -/
def Op.Fits (done : Bool) (c : Cell) : Op → Prop
  | .write p written => c.stream.reset = true ∨ done = true ∨
      c.history.handed = c.history.sent ++ p.drop written
  | .sendData p written _ => done = true ∨ c.history.handed = c.history.sent ++ p.drop written
  | .closeWith _ => c.history.closing = true
  | .sendClose _ =>
      c.history.closing = true ∧ (done = true ∨ c.history.handed = c.history.sent)
  | .sendReset r => Stream.graceful r = true → c.history.quietReset = true
  | _ => True

/-- What the sending end of a stream keeps. -/
structure End.Written (lim : Limits) (e : End) : Prop where
  small : ∀ op ∈ e.ops, op.Small lim
  front : e.object.history.sent <+: e.object.history.handed
  one : e.writers ≤ 1
  ops : ∀ op ∈ e.ops, op.Fits e.done e.object
  /-- Nothing is left over between two calls, unless one has failed. -/
  resting : e.writers = 0 → e.object.stream.reset = true ∨ e.done = true ∨
    e.object.history.handed = e.object.history.sent
  closing : e.object.history.closing = true → e.writers = 0
  closed : e.object.stream.localClosed = true →
    e.object.history.closing = true ∨ e.object.stream.reset = true

section Fits

variable {lim : Limits} {done done' : Bool} {ack : Option Reason} {c c' : Cell} {op : Op}
  {turn : Turn}

/-- The step writes nothing, and ends the stream only for good. -/
structure Cell.Steady (c c' : Cell) : Prop where
  handed : c'.history.handed = c.history.handed
  sent : c'.history.sent = c.history.sent
  closing : c.history.closing = true → c'.history.closing = true
  quietReset : c.history.quietReset = true → c'.history.quietReset = true
  reset : c.stream.reset = true → c'.stream.reset = true

theorem Op.Fits.steady (h : op.Fits done c) (hs : c.Steady c')
    (hdone : done = true → done' = true) : op.Fits done' c' := by
  cases op with
  | write p written =>
      rcases h with hr | hd | heq
      · exact .inl (hs.reset hr)
      · exact .inr (.inl (hdone hd))
      · exact .inr (.inr (by rw [hs.handed, hs.sent, heq]))
  | sendData p written n =>
      rcases h with hd | heq
      · exact .inl (hdone hd)
      · exact .inr (by rw [hs.handed, hs.sent, heq])
  | closeWith r => exact hs.closing h
  | sendClose r =>
      refine ⟨hs.closing h.1, ?_⟩
      rcases h.2 with hd | heq
      · exact .inl (hdone hd)
      · exact .inr (by rw [hs.handed, hs.sent, heq])
  | sendReset r => exact fun hg => hs.quietReset (h hg)
  | _ => trivial

theorem turn_closing (hturn : OpStep lim done ack c op turn) :
    turn.cell.history.closing = c.history.closing := by
  cases hturn <;> rfl

/-- What a step of an operation does to the bytes that are written. Only `sendData` puts some on
the connection. -/
theorem turn_written (hturn : OpStep lim done ack c op turn) (hlim : lim.Proper)
    (hsmall : op.Small lim) (hfits : op.Fits done c)
    (hopen : op.writers = 1 → c.stream.localClosed = true → c.stream.reset = true)
    (hrest : c.history.closing = true → c.stream.reset = true ∨ done = true ∨
      c.history.handed = c.history.sent) :
    turn.op.Fits done turn.cell ∧ turn.op.writers ≤ op.writers ∧
      (op.writers = 1 → turn.op.writers = 0 → turn.cell.stream.reset = true ∨ done = true ∨
        turn.cell.history.handed = turn.cell.history.sent) ∧
      (c.Steady turn.cell ∨ ∃ p written n, op = .sendData p written n ∧ done = false ∧
        turn = ⟨{ c with history := { c.history with
          sent := c.history.sent ++ (p.drop written).take n } }, .write p (written + n),
          .send .streamData ((p.drop written).take n)⟩) := by
  have hreset := (turn_grows hturn).reset
  -- Operations that write nothing.
  have hsteady : turn.cell.history.handed = c.history.handed →
      turn.cell.history.sent = c.history.sent →
      turn.cell.history.quietReset = c.history.quietReset → c.Steady turn.cell := by
    intro hhanded hsent hquiet
    exact ⟨hhanded, hsent, fun hc => (turn_closing hturn).trans hc, fun hq => hquiet.trans hq,
      hreset⟩
  cases hturn with
  | readBytes length hread =>
      refine ⟨?_, ?_, fun h => absurd h (by simp [Op.writers]),
        .inl (hsteady rfl rfl rfl)⟩
      · dsimp only
        split_ifs <;> trivial
      · dsimp only
        split_ifs <;> exact Nat.le_refl _
  | took p written hlength hwrite =>
      obtain ⟨-, -, -, -, hopen₀, -⟩ := Stream.write_take hwrite
        (by have hp : p.length < 2 ^ 32 := hsmall; omega)
      refine ⟨?_, Nat.le_refl _, fun _ h => absurd h (by simp [Op.writers]),
        .inl (hsteady rfl rfl rfl)⟩
      rcases hfits with hr | hd | heq
      · rw [hopen₀] at hr
        cases hr
      · exact .inl hd
      · exact .inr heq
  | dataSent p written n hdone =>
      refine ⟨?_, Nat.le_refl _, fun _ h => absurd h (by simp [Op.writers]),
        .inr ⟨p, written, n, rfl, hdone, rfl⟩⟩
      rcases hfits with hd | heq
      · rw [hdone] at hd
        cases hd
      · right; right
        show c.history.handed = c.history.sent ++ (p.drop written).take n ++ p.drop (written + n)
        rw [heq, List.append_assoc, ← List.drop_drop, List.take_append_drop]
  | dataLost p written n hlost =>
      refine ⟨trivial, Nat.zero_le _, fun _ _ => .inr (.inl ?_), .inl (hsteady rfl rfl rfl)⟩
      rcases hlost with hd | hsize
      · exact hd
      · -- A chunk never exceeds a frame.
        have hframe := UInt32.le_iff_toNat_le.mp hlim.maxFrame
        have hn : n ≤ lim.maxFrame.toNat := hsmall.2
        have hchunk : ((p.drop written).take n).length ≤ n := List.length_take_le _ _
        omega
  | written p written hlength =>
      refine ⟨trivial, Nat.zero_le _, fun _ _ => ?_, .inl (hsteady rfl rfl rfl)⟩
      rcases hfits with hr | hd | heq
      · exact .inl hr
      · exact .inr (.inl hd)
      · rw [List.drop_of_length_le hlength, List.append_nil] at heq
        exact .inr (.inr heq)
  | writeReset p written hended =>
      exact ⟨trivial, Nat.zero_le _, fun _ _ => .inl hended, .inl (hsteady rfl rfl rfl)⟩
  | writeClosed p written hclosed hopen₀ =>
      exact ⟨trivial, Nat.zero_le _, fun _ _ => .inl (hopen rfl hclosed),
        .inl (hsteady rfl rfl rfl)⟩
  | closeLocal r hclosed hopen₀ =>
      refine ⟨⟨hfits, ?_⟩, Nat.zero_le _, fun h => absurd h (by simp [Op.writers]),
        .inl (hsteady rfl rfl rfl)⟩
      exact (hrest hfits).resolve_left (by simp [hopen₀])
  | resetAbort r hopen₀ =>
      refine ⟨?_, Nat.zero_le _, fun h => absurd h (by simp [Op.writers]),
        .inl ⟨rfl, rfl, fun h => h, ?_, fun _ => rfl⟩⟩
      · intro hg
        simp [hg]
      · intro hq
        simp [hq]
  | _ =>
      exact ⟨trivial, Nat.zero_le _, fun h => absurd h (by simp [Op.writers]),
        .inl (hsteady rfl rfl rfl)⟩

/-- An end closes its side by a close or by a reset. -/
theorem turn_local (hturn : OpStep lim done ack c op turn)
    (hlocal : turn.cell.stream.localClosed = true) :
    c.stream.localClosed = true ∨ turn.cell.stream.reset = true ∨ ∃ r, op = .closeWith r := by
  cases hturn with
  | readBytes length hread =>
      obtain ⟨-, -, -, hafter, -⟩ := Stream.read_bytes hread
      exact .inl ((congrArg Stream.localClosed hafter).symm.trans hlocal)
  | took p written hlength hwrite =>
      rw [Stream.write_after hwrite] at hlocal
      exact .inl hlocal
  | closeLocal r hclosed hreset => exact .inr (.inr ⟨r, rfl⟩)
  | resetAbort r hreset => exact .inr (.inl rfl)
  | _ => exact .inl hlocal

end Fits

section Steps

variable {lim : Limits} {opens : Bool} {id : UInt32} {e e' : End} {l : Label}

theorem writers_cons (op : Op) (rest : Multiset Op) :
    ((op ::ₘ rest).map Op.writers).sum = op.writers + (rest.map Op.writers).sum := by
  rw [Multiset.map_cons, Multiset.sum_cons]

/-- An operation in progress is one of those that are counted. -/
theorem writers_pos {op : Op} (hop : op ∈ e.ops) (hone : op.writers = 1) : 0 < e.writers := by
  obtain ⟨rest, hrest⟩ := Multiset.exists_cons_of_mem hop
  rw [End.writers, hrest, writers_cons, hone]
  omega

/-- A step that adds no operation of its own keeps what has been written. -/
theorem End.Written.steady (h : e.Written lim) (hops : e'.ops = e.ops)
    (hs : e.object.Steady e'.object) (hdone : e.done = true → e'.done = true)
    (hclosing : e'.object.history.closing = true →
      e.object.history.closing = true ∨ e.writers = 0)
    (hclosed : e'.object.stream.localClosed = true →
      e.object.stream.localClosed = true ∨ e'.object.stream.reset = true) : e'.Written lim := by
  have hwriters : e'.writers = e.writers := by rw [End.writers, End.writers, hops]
  refine ⟨hops ▸ h.small, ?_, hwriters ▸ h.one, ?_, ?_, ?_, ?_⟩
  · rw [hs.sent, hs.handed]
    exact h.front
  · rw [hops]
    exact fun op hop => (h.ops op hop).steady hs hdone
  · rw [hwriters, hs.handed, hs.sent]
    intro hzero
    rcases h.resting hzero with hr | hd | heq
    · exact .inl (hs.reset hr)
    · exact .inr (.inl (hdone hd))
    · exact .inr (.inr heq)
  · rw [hwriters]
    intro hc
    rcases hclosing hc with hc | hzero
    · exact h.closing hc
    · exact hzero
  · intro hlocal
    rcases hclosed hlocal with hl | hr
    · exact (h.closed hl).imp hs.closing hs.reset
    · exact .inr hr

/-- An operation that writes nothing is added. -/
theorem End.Written.add (h : e.Written lim) {op : Op} (hops : e'.ops = op ::ₘ e.ops)
    (hobject : e'.object = e.object) (hdone : e'.done = e.done) (hsmall : op.Small lim)
    (hwriters : op.writers = 0) (hfits : op.Fits e.done e.object) : e'.Written lim := by
  have hsame : e'.writers = e.writers := by
    rw [End.writers, hops, writers_cons, hwriters, Nat.zero_add]
    rfl
  refine ⟨?_, hobject ▸ h.front, hsame ▸ h.one, ?_, ?_, ?_, ?_⟩
  · rw [hops]
    intro op' hop'
    rcases Multiset.mem_cons.mp hop' with rfl | hop'
    · exact hsmall
    · exact h.small op' hop'
  · rw [hops, hobject, hdone]
    intro op' hop'
    rcases Multiset.mem_cons.mp hop' with rfl | hop'
    · exact hfits
    · exact h.ops op' hop'
  · rw [hsame, hobject, hdone]
    exact h.resting
  · rw [hsame, hobject]
    exact h.closing
  · rw [hobject]
    exact h.closed

/-- An operation of the application is started. -/
theorem End.Written.start (h : e.Written lim) {op : Op} {c c' : Cell} (hcell : e.cell = some c)
    (hop : op.start c = some c') (hone : e.OneWriter (.start op))
    (hsmall : SmallStart (.start op)) :
    End.Written lim { e with cell := some c', ops := op ::ₘ e.ops } := by
  have hobject := object_some hcell
  unfold Op.start at hop
  split at hop
  · cases hop
    exact h.add rfl (by rw [hobject]; rfl) rfl trivial rfl trivial
  · cases hop
    exact h.add rfl (by rw [hobject]; rfl) rfl trivial rfl trivial
  next p =>
    cases hop
    -- The new call is the only one, and nothing is left over from those before.
    obtain ⟨hzero, hclosing⟩ := hone
    rw [hobject] at hclosing
    have hnone : ∀ op ∈ e.ops, op.writers = 0 := by
      intro op hop
      by_contra hne
      have hw : op.writers = 1 := by
        cases op <;> first | rfl | exact absurd rfl hne
      exact absurd (writers_pos hop hw) (by omega)
    have hrest := h.resting hzero
    have hfront := h.front
    rw [hobject] at hrest hfront
    refine ⟨?_, ?_, ?_, ?_, ?_, ?_, ?_⟩
    · intro op' hop'
      rcases Multiset.mem_cons.mp hop' with rfl | hop'
      · exact hsmall p 0 rfl
      · exact h.small op' hop'
    · exact hfront.trans (List.prefix_append _ _)
    · show ((Op.write p 0 ::ₘ e.ops).map Op.writers).sum ≤ 1
      rw [writers_cons]
      show 1 + e.writers ≤ 1
      omega
    · intro op' hop'
      rcases Multiset.mem_cons.mp hop' with rfl | hop'
      · show c.stream.reset = true ∨ e.done = true ∨
          c.history.handed ++ p = c.history.sent ++ p.drop 0
        rcases hrest with hr | hd | heq
        · exact .inl hr
        · exact .inr (.inl hd)
        · exact .inr (.inr (by rw [heq, List.drop_zero]))
      · have hfits := h.ops op' hop'
        have hw := hnone op' hop'
        rw [hobject] at hfits
        cases op' with
        | write q written => cases hw
        | sendData q written n => cases hw
        | closeWith r =>
            rw [show c.history.closing = true from hfits] at hclosing
            cases hclosing
        | sendClose r =>
            rw [show c.history.closing = true from hfits.1] at hclosing
            cases hclosing
        | sendReset r => exact hfits
        | _ => trivial
    · intro hw
      rw [End.writers, writers_cons] at hw
      simp [Op.writers] at hw
    · intro hc
      rw [show c.history.closing = true from hc] at hclosing
      cases hclosing
    · have hclosed := h.closed
      rw [hobject] at hclosed
      exact hclosed
  next r =>
    cases hop
    have hzero : e.writers = 0 := hone
    let closing : Cell := { c with history := { c.history with closing := true } }
    have hmarked : End.Written lim { e with cell := some closing } := by
      refine h.steady rfl ?_ (fun hd => hd) (fun _ => .inr hzero) ?_
      · rw [hobject]
        exact ⟨rfl, rfl, fun _ => rfl, fun hq => hq, fun hr => hr⟩
      · rw [hobject]
        exact .inl
    exact hmarked.add rfl rfl rfl trivial rfl rfl
  · cases hop

/-- An operation in progress takes a step. -/
theorem End.Written.advance (h : e.Written lim) (hlim : lim.Proper) {op : Op}
    {rest : Multiset Op} {c : Cell} {turn : Turn} (hcell : e.cell = some c)
    (hops : e.ops = op ::ₘ rest) (hturn : OpStep lim e.done e.acked c op turn) :
    End.Written lim
      ({ e with cell := some turn.cell, ops := turn.op ::ₘ rest }.perform id turn.effect) := by
  have hobject := object_some hcell
  obtain ⟨hsmall, hfront, hone, hfits, hresting, hclosing, hclosed⟩ := h
  rw [hobject] at hfront hfits hresting hclosing hclosed
  have hmem : op ∈ e.ops := by simp [hops]
  have hcount : e.writers = op.writers + (rest.map Op.writers).sum := by
    rw [End.writers, hops, writers_cons]
  have hopen : op.writers = 1 → c.stream.localClosed = true → c.stream.reset = true := by
    intro hw hl
    refine (hclosed hl).resolve_left fun hc => ?_
    have hzero := hclosing hc
    omega
  obtain ⟨hfits', hle, hlast, hkind⟩ := turn_written hturn hlim (hsmall op hmem) (hfits op hmem)
    hopen fun hc => hresting (hclosing hc)
  have hgrows := turn_grows hturn
  have hcell' : (({ e with cell := some turn.cell, ops := turn.op ::ₘ rest } : End).perform id
      turn.effect).object = turn.cell := object_some (perform_cell _ _ _)
  have hcount' : (({ e with cell := some turn.cell, ops := turn.op ::ₘ rest } : End).perform id
      turn.effect).writers = turn.op.writers + (rest.map Op.writers).sum := by
    rw [End.writers, perform_ops, writers_cons]
  have hrest : ∀ op' ∈ rest, op'.Fits e.done turn.cell := by
    intro op' hop'
    have hold := hfits op' (by simp [hops, hop'])
    rcases hkind with hs | ⟨p, written, n, rfl, hdone, rfl⟩
    · exact hold.steady hs fun hd => hd
    · -- There is no other `Write`, and no close while this one is in progress.
      have hbusy : (Op.sendData p written n).writers = 1 := rfl
      have hnot : c.history.closing ≠ true := fun hc => by
        have hzero := hclosing hc
        omega
      have hw : op'.writers = 0 := by
        obtain ⟨others, hothers⟩ := Multiset.exists_cons_of_mem hop'
        rw [hothers, writers_cons] at hcount
        omega
      cases op' with
      | write q written' => cases hw
      | sendData q written' n' => cases hw
      | closeWith r => exact absurd hold hnot
      | sendClose r => exact absurd hold.1 hnot
      | sendReset r => exact hold
      | _ => trivial
  refine ⟨?_, ?_, ?_, ?_, ?_, ?_, ?_⟩
  · rw [perform_ops]
    intro op' hop'
    rcases Multiset.mem_cons.mp hop' with rfl | hop'
    · exact turn_small hturn (hsmall op hmem)
    · exact hsmall op' (by simp [hops, hop'])
  · rw [hcell']
    rcases hkind with hs | ⟨p, written, n, rfl, hdone, rfl⟩
    · rw [hs.sent, hs.handed]
      exact hfront
    · rcases hfits _ hmem with hd | heq
      · rw [hdone] at hd
        cases hd
      · show c.history.sent ++ (p.drop written).take n <+: c.history.handed
        rw [heq]
        exact (List.prefix_append_right_inj _).mpr (List.take_prefix _ _)
  · rw [hcount']
    omega
  · rw [perform_ops, perform_done, hcell']
    intro op' hop'
    rcases Multiset.mem_cons.mp hop' with rfl | hop'
    · exact hfits'
    · exact hrest op' hop'
  · rw [hcount', perform_done, hcell']
    intro hzero
    have hturnzero : turn.op.writers = 0 := by omega
    by_cases hw : op.writers = 1
    · exact hlast hw hturnzero
    · rcases hkind with hs | ⟨p, written, n, rfl, hdone, rfl⟩
      · have hop0 : op.writers = 0 := by
          cases op <;> first | rfl | exact absurd rfl hw
        rw [hs.handed, hs.sent]
        rcases hresting (by omega) with hr | hd | heq
        · exact .inl (hs.reset hr)
        · exact .inr (.inl hd)
        · exact .inr (.inr heq)
      · exact absurd rfl hw
  · rw [hcount', hcell', turn_closing hturn]
    intro hc
    have hzero := hclosing hc
    omega
  · rw [hcell', turn_closing hturn]
    intro hl
    rcases turn_local hturn hl with hl | hr | ⟨r, rfl⟩
    · exact (hclosed hl).imp_right hgrows.reset
    · exact .inr hr
    · exact .inl (hfits _ hmem)

/-- A step of an end keeps what it has written in order. -/
theorem EndStep.written (h : EndStep lim opens id e l e') (hlim : lim.Proper)
    (hs : e.Sound opens) (hw : e.Written lim) (hone : e.OneWriter l) (hsmall : SmallStart l) :
    e'.Written lim := by
  -- Steps that leave the operations alone, and of the object only what has to do with reading.
  have hkeep : e'.ops = e.ops → e'.done = e.done → ∀ {c c' : Cell}, e.cell = some c →
      e'.cell = some c' → c'.history = c.history →
      (c'.stream.localClosed = true → c.stream.localClosed = true ∨ c'.stream.reset = true) →
      e'.Written lim := by
    intro hops hdone c c' hc hc' hhistory hlocal
    obtain ⟨d, hd, hgrows⟩ := h.cell_mono hc
    rw [hc'] at hd
    cases hd
    have hobject := object_some hc
    have hobject' := object_some hc'
    refine hw.steady hops ?_ (fun hd => hdone.trans hd) ?_ ?_
    · rw [hobject, hobject']
      exact ⟨by rw [hhistory], by rw [hhistory], by simp [hhistory], by simp [hhistory],
        hgrows.reset⟩
    · rw [hobject, hobject', hhistory]
      exact .inl
    · rw [hobject, hobject']
      exact hlocal
  have hsame : e'.ops = e.ops → e'.cell = e.cell → (e.done = true → e'.done = true) →
      e'.Written lim := by
    intro hops hcell hdone
    have hobject : e'.object = e.object := by rw [End.object, End.object, hcell]
    refine hw.steady hops ?_ hdone ?_ ?_ <;> rw [hobject]
    · exact ⟨rfl, rfl, fun h => h, fun h => h, fun h => h⟩
    · exact .inl
    · exact .inl
  cases h with
  | idle hdone hended hlive => exact hsame rfl rfl hdone
  | create payload hopens hcell hdone =>
      have hu := hs.unborn hcell
      refine ⟨?_, List.prefix_rfl, ?_, ?_, fun _ => .inr (.inr rfl), ?_, ?_⟩
      · simp [hu.ops, Op.Small]
      · simp [End.writers, hu.ops, Op.writers]
      · simp [hu.ops, Op.Fits]
      · simp [End.object, newCell]
      · simp [End.object, newCell, newStream]
  | start hheld hcell hop => exact hw.start hcell hop hone hsmall
  | advance hcell hops hturn => exact hw.advance hlim hcell hops hturn
  | accept hqueued => exact hw.add rfl rfl rfl trivial rfl trivial
  | deliver hhand hcell hdeliver =>
      refine hkeep rfl rfl hcell rfl rfl ?_
      rcases deliver_cases hdeliver with ⟨rfl, -⟩ | ⟨-, -, -, rfl⟩ <;> exact .inl
  | grant hhand hcell =>
      refine hkeep rfl rfl hcell rfl rfl ?_
      unfold Stream.grantCredit
      split_ifs <;> exact .inl
  | close hhand hcell =>
      refine hkeep rfl rfl hcell rfl rfl ?_
      unfold Stream.remoteClose
      split_ifs <;> exact .inl
  | kill hlive hdoomed hcell =>
      exact hkeep rfl rfl hcell rfl rfl fun _ => .inr (kill_reset _ _)
  | _ => exact hsame rfl rfl fun hd => hd

/-- A message leaves what an end has written as it is. -/
theorem Receive.written {m : Msg} (h : Receive lim id e m e') (hw : e.Written lim) :
    e'.Written lim := by
  have halike := h.alike
  have hdone : e'.done = e.done := by cases h <;> rfl
  refine hw.steady h.frame.1 ?_ (fun hd => hdone.trans hd) ?_ ?_
  · exact ⟨by rw [halike.history], by rw [halike.history], by simp [halike.history],
      by simp [halike.history], fun hr => halike.reset.trans hr⟩
  · rw [halike.history]
    exact .inl
  · rw [halike.localClosed]
    exact .inl

/-- What a step puts on the connection: the bytes it adds to what has been sent, none of them
after a close, and a graceful close only when everything has been sent, or as part of a reset. -/
structure End.Emits (e e' : End) (new : List Msg) : Prop where
  out : e'.out = e.out ++ new
  sent : e'.object.history.sent = e.object.history.sent ++ dataOf new
  closing : e.object.history.closing = true → e'.object.history.closing = true ∧
    e'.object.history.handed = e.object.history.handed ∧ dataOf new = []
  quiet : e.object.history.quietReset = true → e'.object.history.quietReset = true
  graceful : ∀ r, .close r ∈ new → Stream.graceful r = true →
    dataOf new = [] ∧ (e'.object.history.quietReset = true ∨ e'.Finished)

theorem End.Emits.finished {new : List Msg} (h : e.Emits e' new) (hf : e.Finished) :
    e'.Finished := by
  obtain ⟨hclosing, hhanded, hnew⟩ := h.closing hf.1
  refine ⟨hclosing, ?_⟩
  rw [hhanded, h.sent, hnew, List.append_nil]
  exact hf.2

theorem emits_nothing (hout : e'.out = e.out)
    (hhistory : e'.object.history = e.object.history) : e.Emits e' [] := by
  refine ⟨by simp [hout], by simp [hhistory], ?_, by simp [hhistory], by simp⟩
  intro hc
  rw [hhistory]
  exact ⟨hc, rfl, rfl⟩

theorem emits_advance (hw : e.Written lim) {op : Op} {rest : Multiset Op} {c : Cell} {turn : Turn}
    (hcell : e.cell = some c) (hops : e.ops = op ::ₘ rest)
    (hturn : OpStep lim e.done e.acked c op turn) :
    e.Emits ({ e with cell := some turn.cell, ops := turn.op ::ₘ rest }.perform id turn.effect)
      (turn.effect.msgs id) := by
  have hobject := object_some hcell
  have hobject' : (({ e with cell := some turn.cell, ops := turn.op ::ₘ rest } : End).perform id
      turn.effect).object = turn.cell := object_some (perform_cell _ _ _)
  have hfits := hw.ops op (by simp [hops])
  rw [hobject] at hfits
  have hclosing := turn_closing hturn
  -- Operations that put neither data nor a close on the connection.
  have hquiet : turn.cell.history.sent = c.history.sent →
      turn.cell.history.handed = c.history.handed →
      (c.history.quietReset = true → turn.cell.history.quietReset = true) →
      (∀ m ∈ turn.effect.msgs id, m.carries = [] ∧ ∀ r, m ≠ .close r) →
      e.Emits ({ e with cell := some turn.cell, ops := turn.op ::ₘ rest }.perform id turn.effect)
        (turn.effect.msgs id) := by
    intro hsent hhanded hq hmsgs
    have hdata : dataOf (turn.effect.msgs id) = [] :=
      List.flatMap_eq_nil_iff.mpr fun m hm => (hmsgs m hm).1
    refine ⟨perform_out _ _ _, ?_, ?_, ?_, ?_⟩
    · rw [hobject, hobject', hsent, hdata, List.append_nil]
    · rw [hobject, hobject', hclosing, hhanded]
      exact fun hc => ⟨hc, rfl, hdata⟩
    · rw [hobject, hobject']
      exact hq
    · intro r hr
      exact absurd rfl ((hmsgs _ hr).2 r)
  have hreason : ∀ r : Reason, Stream.graceful (if r = [] then reasonOK else r) = true →
      Stream.graceful r = true := by
    intro r hg
    split_ifs at hg with hr
    · simp [hr, Stream.graceful]
    · exact hg
  cases hturn with
  | creditSent credit data hdone =>
      refine hquiet rfl rfl (fun h => h) ?_
      cases hdecode : decodeWindow (encodeWindow credit) <;>
        simp [Effect.msgs, msgOf, Msg.carries, hdecode]
  | dataSent p written n hdone =>
      have hmsgs : Effect.msgs id (.send .streamData ((p.drop written).take n)) =
          [.data ((p.drop written).take n)] := by simp [Effect.msgs, msgOf]
      refine ⟨perform_out _ _ _, ?_, ?_, ?_, ?_⟩
      · rw [hobject, hobject', hmsgs]
        simp [Msg.carries]
      · intro hc
        -- The stream is not closed while a `Write` is in progress.
        have hmem : Op.sendData p written n ∈ e.ops := by simp [hops]
        have hpos := writers_pos hmem rfl
        have hzero := hw.closing hc
        omega
      · rw [hobject, hobject']
        exact fun h => h
      · rw [hmsgs]
        simp
  | closeSent r hdone =>
      have hmsgs : Effect.msgs id (.send .closeStream r) =
          [.close (if r = [] then reasonOK else r)] := by simp [Effect.msgs, msgOf]
      obtain ⟨hc, hsent⟩ := hfits
      refine ⟨perform_out _ _ _, ?_, ?_, ?_, ?_⟩
      · rw [hobject, hobject', hmsgs]
        simp [Msg.carries]
      · rw [hobject, hobject', hmsgs]
        exact fun hc => ⟨hc, rfl, by simp [Msg.carries]⟩
      · rw [hobject, hobject']
        exact fun h => h
      · intro r' _ _
        refine ⟨by simp [hmsgs, Msg.carries], .inr ?_⟩
        rw [End.Finished, hobject']
        exact ⟨hc, hsent.resolve_left (by simp [hdone])⟩
  | resetAbort r hreset =>
      refine hquiet rfl rfl ?_ (by simp [Effect.msgs])
      intro hq
      simp [hq]
  | resetSent r hdone =>
      have hmsgs : Effect.msgs id (.send .closeStream r) =
          [.close (if r = [] then reasonOK else r)] := by simp [Effect.msgs, msgOf]
      refine ⟨perform_out _ _ _, ?_, ?_, ?_, ?_⟩
      · rw [hobject, hobject', hmsgs]
        simp [Msg.carries]
      · rw [hobject, hobject', hmsgs]
        exact fun hc => ⟨hc, rfl, by simp [Msg.carries]⟩
      · rw [hobject, hobject']
        exact fun h => h
      · intro r' hr' hg
        rw [hmsgs, List.mem_singleton] at hr'
        cases hr'
        refine ⟨by simp [hmsgs, Msg.carries], .inl ?_⟩
        rw [hobject']
        exact hfits (hreason r hg)
  | _ =>
      exact hquiet rfl rfl (fun h => h) (by simp [Effect.msgs, msgOf, Msg.carries])

/-- What a step of an end puts on the connection. -/
theorem EndStep.emits (h : EndStep lim opens id e l e') (hw : e.Written lim)
    (hone : e.OneWriter l) : ∃ new, e.Emits e' new := by
  have hstream : ∀ {c : Cell}, e.cell = some c → ∀ (st : Stream) (hand : Hand) (doomed : Bool),
      e.Emits { e with cell := some { c with stream := st }, hand := hand, doomed := doomed }
        [] := by
    intro c hc st hand doomed
    refine emits_nothing rfl ?_
    rw [object_some hc]
    rfl
  cases h with
  | create payload hopens hcell hdone =>
      refine ⟨[], emits_nothing rfl ?_⟩
      rw [End.object, End.object, hcell]
      rfl
  | @start op c c' hheld hcell hop =>
      have hobject := object_some hcell
      refine ⟨[], ?_⟩
      unfold Op.start at hop
      split at hop <;> cases hop
      · exact emits_nothing rfl (by rw [hobject]; rfl)
      · exact emits_nothing rfl (by rw [hobject]; rfl)
      · refine ⟨by simp, ?_, ?_, ?_, by simp⟩
        · rw [hobject]
          exact (List.append_nil _).symm
        · intro hc
          rw [hone.2] at hc
          cases hc
        · rw [hobject]
          exact fun h => h
      · refine ⟨by simp, ?_, ?_, ?_, by simp⟩
        · rw [hobject]
          exact (List.append_nil _).symm
        · rw [hobject]
          exact fun _ => ⟨rfl, rfl, rfl⟩
        · rw [hobject]
          exact fun h => h
  | advance hcell hops hturn => exact ⟨_, emits_advance hw hcell hops hturn⟩
  | ack hhand hcell hdone =>
      refine ⟨[.streamOK], rfl, by simp [Msg.carries]; rfl, ?_, fun h => h, by simp⟩
      exact fun hc => ⟨hc, rfl, rfl⟩
  | refuse hhand hdone =>
      refine ⟨[.close reasonLimitStreamsExceeded], rfl, by simp [Msg.carries]; rfl, ?_, fun h => h,
        ?_⟩
      · exact fun hc => ⟨hc, rfl, rfl⟩
      · intro r hr hg
        rw [List.mem_singleton] at hr
        cases hr
        exact absurd hg (by decide)
  | deliver hhand hcell hdeliver => exact ⟨[], hstream hcell _ _ _⟩
  | grant hhand hcell => exact ⟨[], hstream hcell _ _ _⟩
  | close hhand hcell => exact ⟨[], hstream hcell _ _ _⟩
  | kill hlive hdoomed hcell => exact ⟨[], hstream hcell _ _ _⟩
  | _ => exact ⟨[], emits_nothing rfl rfl⟩

end Steps

end AccessRelay.Mux
