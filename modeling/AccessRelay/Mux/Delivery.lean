import AccessRelay.Mux.Writing

/-!
# What the other end reads

The bytes that an end has sent are, in order: those that `Read` has returned at the other end,
those in its buffer, those in the hands of its read loop, and those on the connection. `inflow` is
the part of them that has left the connection. It is exactly what is missing from the connection as
long as the receiving end takes data, and the beginning of what was sent in any case, since what is
dropped at the end of a stream or of a session is the rest.

A graceful close comes after all data. So the end that reads it, and reports the end of the stream
when its buffer is empty, has returned everything; unless the close was that of a reset.
-/

namespace AccessRelay.Mux

open Encoding Proto Machine

/-- The bytes in the hands of the read loop. -/
def Hand.carries : Hand → Bytes
  | .serving (.delivering b) => b
  | _ => []

namespace End

/-- The bytes that have been delivered to the stream and not dropped. -/
def taken (e : End) : Bytes := e.object.history.returned ++ e.object.stream.buf

/-- The stream takes no more data. -/
def deaf (e : End) : Bool := e.object.stream.reset || e.object.stream.remoteClosed

/-- The bytes that have arrived and not been dropped. -/
def inflow (e : End) : Bytes := e.taken ++ if e.deaf then [] else e.hand.carries

/-- Data of the stream reaches it and is taken. -/
def Hears (e : End) : Prop :=
  e.hand ≠ .stopped ∧ e.deaf = false ∧ ∀ c, e.cell = some c → e.registered = true

end End

/-- What a step does to the bytes that have arrived, and how the end of the stream is heard. -/
structure End.Intake (e e' : End) : Prop where
  inflow : e'.inflow <+: e.inflow
  exact : e'.Hears → e.Hears ∧ e'.inflow = e.inflow
  remote : e.object.stream.remoteClosed = true → e'.object.stream.remoteClosed = true
  reset : e.object.stream.reset = true → e'.object.stream.reset = true
  taken : e'.object.stream.reset = false → e'.taken = e.taken ∨
    (e.object.stream.remoteClosed = false ∧ ∃ b, e.hand = .serving (.delivering b))
  heard : e'.object.stream.remoteClosed = true → e.object.stream.remoteClosed = true ∨
    e'.object.stream.reset = true ∨
    ∃ r, e.hand = .serving (.closing r) ∧ Stream.graceful r = true
  eof : e'.object.history.eof = true → e.object.history.eof = true ∨
    (e.object.stream.remoteClosed = true ∧ e.object.stream.reset = false ∧
      e.object.stream.buf = [])
  drained : e.object.stream.buf = [] → e.object.stream.remoteClosed = true →
    e'.object.stream.buf = [] ∧ e'.object.history.returned = e.object.history.returned
  looking : ∀ r, e'.hand = .lookingUp r → e.hand = .lookingUp r
  closing : ∀ r, e'.hand = .serving (.closing r) → e.hand = .serving (.closing r) ∨
    (e.hand = .lookingUp r ∧ e.registered = true)

section Steps

variable {lim : Limits} {opens : Bool} {id : UInt32} {e e' : End} {l : Label}

/-- What has ended stays so, at an end with or without an object. -/
theorem EndStep.object_grows (h : EndStep lim opens id e l e') :
    e.object.stream.Grows e'.object.stream := by
  cases hc : e.cell with
  | none =>
      rw [End.object, hc]
      exact ⟨fun h => absurd h (by simp [newCell, newStream]),
        fun h => absurd h (by simp [newCell, newStream]),
        fun h => absurd h (by simp [newCell, newStream])⟩
  | some c =>
      obtain ⟨c', hc', hgrows⟩ := h.cell_mono hc
      rw [object_some hc, object_some hc']
      exact hgrows

/-- An end that does not take data does not begin to. -/
theorem EndStep.hears (h : EndStep lim opens id e l e') (hears : e'.Hears) : e.Hears := by
  obtain ⟨hhand, hdeaf, hregistered⟩ := hears
  have hgrows := h.object_grows
  refine ⟨fun heq => hhand (h.hand_stopped heq), ?_, ?_⟩
  · simp only [End.deaf, Bool.or_eq_false_iff] at hdeaf ⊢
    refine ⟨?_, ?_⟩
    · rw [← Bool.not_eq_true]
      exact fun hr => absurd (hgrows.reset hr) (by simp [hdeaf.1])
    · rw [← Bool.not_eq_true]
      exact fun hr => absurd (hgrows.remoteClosed hr) (by simp [hdeaf.2])
  · intro c hc
    obtain ⟨c', hc', -⟩ := h.cell_mono hc
    refine (h.entries_of.1 (hregistered c' hc')).resolve_right ?_
    simp [hc]

/-- The two objects agree on what has been read and can be. -/
structure Cell.SameRead (c c' : Cell) : Prop where
  returned : c'.history.returned = c.history.returned
  eof : c'.history.eof = c.history.eof
  buf : c'.stream.buf = c.stream.buf
  remoteClosed : c'.stream.remoteClosed = c.stream.remoteClosed
  reset : c'.stream.reset = c.stream.reset

theorem Cell.SameRead.rfl {c : Cell} : c.SameRead c :=
  ⟨Eq.refl _, Eq.refl _, Eq.refl _, Eq.refl _, Eq.refl _⟩

theorem Cell.Alike.same_read {c c' : Cell} (h : c.Alike c') : c.SameRead c' :=
  ⟨by rw [h.history], by rw [h.history], h.buf, h.remoteClosed, h.reset⟩

/-- The hands of the read loop, as far as they matter here. -/
structure Hand.Follows (hand hand' : Hand) (registered : Bool) : Prop where
  carries : hand'.carries = hand.carries ∨ hand' = .stopped
  looking : ∀ r, hand' = .lookingUp r → hand = .lookingUp r
  closing : ∀ r, hand' = .serving (.closing r) → hand = .serving (.closing r) ∨
    (hand = .lookingUp r ∧ registered = true)

/-- A step that drops nothing and hears nothing. -/
theorem EndStep.intake_kept (h : EndStep lim opens id e l e') (htaken : e'.taken = e.taken)
    (hremote : e'.object.stream.remoteClosed = e.object.stream.remoteClosed)
    (hreset : e'.object.stream.reset = e.object.stream.reset)
    (heof : e'.object.history.eof = true → e.object.history.eof = true ∨
      (e.object.stream.remoteClosed = true ∧ e.object.stream.reset = false ∧
        e.object.stream.buf = []))
    (hdrained : e.object.stream.buf = [] → e'.object.stream.buf = [] ∧
      e'.object.history.returned = e.object.history.returned)
    (hhand : e.hand.Follows e'.hand e.registered) : e.Intake e' := by
  have hdeaf : e'.deaf = e.deaf := by rw [End.deaf, End.deaf, hreset, hremote]
  have hgrows := h.object_grows
  refine ⟨?_, ?_, hgrows.remoteClosed, hgrows.reset, fun _ => .inl htaken, ?_, heof,
    fun hbuf _ => hdrained hbuf, hhand.looking, hhand.closing⟩
  · rw [End.inflow, End.inflow, htaken, hdeaf]
    refine (List.prefix_append_right_inj _).mpr ?_
    split_ifs
    · exact List.prefix_rfl
    · rcases hhand.carries with heq | heq
      · rw [heq]
      · rw [heq]
        exact List.nil_prefix
  · intro hears
    refine ⟨h.hears hears, ?_⟩
    rw [End.inflow, End.inflow, htaken, hdeaf, hhand.carries.resolve_right hears.1]
  · rw [hremote]
    exact .inl

theorem EndStep.intake_same (h : EndStep lim opens id e l e')
    (hread : e.object.SameRead e'.object) (hhand : e.hand.Follows e'.hand e.registered) :
    e.Intake e' := by
  refine h.intake_kept ?_ hread.remoteClosed hread.reset ?_ ?_ hhand
  · rw [End.taken, End.taken, hread.returned, hread.buf]
  · rw [hread.eof]
    exact .inl
  · exact fun hbuf => ⟨hread.buf.trans hbuf, hread.returned⟩

/-- A `Read` takes bytes out of the buffer, or reports the end of the stream; a reset drops the
buffer. Other operations do nothing of the kind. -/
theorem turn_reads {done : Bool} {ack : Option Reason} {c : Cell} {op : Op} {turn : Turn}
    (hturn : OpStep lim done ack c op turn) :
    c.SameRead turn.cell ∨
      (∃ data, turn.cell.history.returned = c.history.returned ++ data ∧
        c.stream.buf = data ++ turn.cell.stream.buf ∧ c.stream.buf ≠ [] ∧
        turn.cell.history.eof = c.history.eof ∧
        turn.cell.stream.remoteClosed = c.stream.remoteClosed ∧
        turn.cell.stream.reset = c.stream.reset) ∨
      (turn.cell = { c with history := { c.history with eof := true } } ∧ c.stream.buf = [] ∧
        c.stream.reset = false ∧ c.stream.remoteClosed = true) ∨
      (turn.cell.history.returned = c.history.returned ∧ turn.cell.stream.buf = [] ∧
        turn.cell.history.eof = c.history.eof ∧ turn.cell.stream.reset = true) := by
  cases hturn with
  | readBytes length hread =>
      obtain ⟨hdata, hbuf, hne, hafter, -⟩ := Stream.read_bytes hread
      have hremote := congrArg Stream.remoteClosed hafter
      have hreset := congrArg Stream.reset hafter
      refine .inr (.inl ⟨_, rfl, ?_, hne, rfl, hremote, hreset⟩)
      show c.stream.buf = _ ++ Stream.buf _
      rw [hdata, hbuf, List.take_append_drop]
  | readEOF length hbuf hreset hclosed => exact .inr (.inr (.inl ⟨rfl, hbuf, hreset, hclosed⟩))
  | resetAbort r hreset => exact .inr (.inr (.inr ⟨rfl, rfl, rfl, rfl⟩))
  | took p written hlength hwrite =>
      left
      rw [Stream.write_after hwrite]
      exact ⟨rfl, rfl, rfl, rfl, rfl⟩
  | _ => exact .inl ⟨rfl, rfl, rfl, rfl, rfl⟩

/-- A step after which the stream is reset. -/
theorem EndStep.intake_reset (h : EndStep lim opens id e l e')
    (hreset : e'.object.stream.reset = true) (htaken : e'.taken <+: e.taken)
    (heof : e'.object.history.eof = e.object.history.eof)
    (hreturned : e'.object.history.returned = e.object.history.returned)
    (hbuf : e.object.stream.buf = [] → e'.object.stream.buf = [])
    (hhand : e.hand.Follows e'.hand e.registered) : e.Intake e' := by
  have hgrows := h.object_grows
  have hdeaf : e'.deaf = true := by simp [End.deaf, hreset]
  refine ⟨?_, ?_, hgrows.remoteClosed, hgrows.reset, ?_, fun _ => .inr (.inl hreset), ?_, ?_,
    hhand.looking, hhand.closing⟩
  · rw [End.inflow, hdeaf, if_pos rfl, List.append_nil]
    exact htaken.trans (List.prefix_append _ _)
  · intro hears
    rw [hears.2.1] at hdeaf
    cases hdeaf
  · intro hfalse
    rw [hreset] at hfalse
    cases hfalse
  · rw [heof]
    exact .inl
  · exact fun hempty _ => ⟨hbuf hempty, hreturned⟩

theorem EndStep.intake_advance {op : Op} {rest : Multiset Op} {c : Cell} {turn : Turn}
    (h : EndStep lim opens id e (.advance op)
      ({ e with cell := some turn.cell, ops := turn.op ::ₘ rest }.perform id turn.effect))
    (hcell : e.cell = some c) (hturn : OpStep lim e.done e.acked c op turn) :
    e.Intake
      ({ e with cell := some turn.cell, ops := turn.op ::ₘ rest }.perform id turn.effect) := by
  have hobject := object_some hcell
  have hobject' : (({ e with cell := some turn.cell, ops := turn.op ::ₘ rest } : End).perform id
      turn.effect).object = turn.cell := object_some (perform_cell _ _ _)
  have hhand : e.hand.Follows (({ e with cell := some turn.cell, ops := turn.op ::ₘ rest } :
      End).perform id turn.effect).hand e.registered := by
    rw [perform_hand]
    exact ⟨.inl rfl, fun r h => h, fun r h => .inl h⟩
  rcases turn_reads hturn with hsame | ⟨data, hreturned, hbuf, hne, heof, hremote, hreset⟩ |
    ⟨hturned, hbuf, hreset, hremote⟩ | ⟨hreturned, hbuf, heof, hreset⟩
  · refine h.intake_same ?_ hhand
    rw [hobject, hobject']
    exact hsame
  · refine h.intake_kept ?_ ?_ ?_ ?_ ?_ hhand
    · rw [End.taken, End.taken, hobject, hobject', hreturned, hbuf, List.append_assoc]
    · rw [hobject, hobject', hremote]
    · rw [hobject, hobject', hreset]
    · rw [hobject, hobject', heof]
      exact .inl
    · rw [hobject]
      exact fun hempty => absurd hempty hne
  · refine h.intake_kept ?_ ?_ ?_ ?_ ?_ hhand
    · rw [End.taken, End.taken, hobject, hobject', hturned]
    · rw [hobject, hobject', hturned]
    · rw [hobject, hobject', hturned]
    · rw [hobject]
      exact fun _ => .inr ⟨hremote, hreset, hbuf⟩
    · rw [hobject, hobject', hturned]
      exact fun hempty => ⟨hempty, rfl⟩
  · refine h.intake_reset ?_ ?_ ?_ ?_ ?_ hhand
    · rw [hobject']
      exact hreset
    · rw [End.taken, End.taken, hobject, hobject', hreturned, hbuf, List.append_nil]
      exact List.prefix_append _ _
    · rw [hobject, hobject', heof]
    · rw [hobject, hobject', hreturned]
    · rw [hobject']
      exact fun _ => hbuf

/-- The read loop delivers data. -/
theorem EndStep.intake_deliver {c : Cell} {b : Bytes} {st : Stream}
    (h : EndStep lim opens id e l { e with cell := some { c with stream := st }, hand := .free })
    (hcell : e.cell = some c) (hhand : e.hand = .serving (.delivering b))
    (hdeliver : c.stream.deliver b = some st) :
    e.Intake { e with cell := some { c with stream := st }, hand := .free } := by
  have hobject := object_some hcell
  have hcarries : e.hand.carries = b := by
    rw [hhand]
    rfl
  have hfollows : (∀ r, Hand.free = .lookingUp r → e.hand = .lookingUp r) ∧
      ∀ r, Hand.free = .serving (.closing r) → e.hand = .serving (.closing r) ∨
        (e.hand = .lookingUp r ∧ e.registered = true) := by
    constructor <;> intro r hr <;> cases hr
  rcases deliver_cases hdeliver with ⟨rfl, hclosed⟩ | ⟨hreset, hremote, -, rfl⟩
  · -- The data comes too late and is dropped.
    have hdeaf : e.deaf = true := by
      rw [End.deaf, hobject]
      simpa using hclosed
    have htaken : End.taken { e with cell := some { c with stream := c.stream }, hand := .free } =
        e.taken := by
      rw [End.taken, End.taken, hobject]
      rfl
    have hinflow : End.inflow { e with cell := some { c with stream := c.stream }, hand := .free } =
        e.inflow := by
      rw [End.inflow, End.inflow, htaken, hdeaf, if_pos rfl]
      simp [Hand.carries]
    have hgrows := h.object_grows
    refine ⟨hinflow ▸ List.prefix_rfl, fun hears => ⟨h.hears hears, hinflow⟩, hgrows.remoteClosed,
      hgrows.reset, fun _ => .inl htaken, ?_, ?_, ?_, hfollows.1, hfollows.2⟩
    · rw [hobject]
      exact .inl
    · rw [hobject]
      exact .inl
    · rw [hobject]
      exact fun hempty _ => ⟨hempty, rfl⟩
  · have hdeaf : e.deaf = false := by
      rw [End.deaf, hobject, hreset, hremote]
      rfl
    have hinflow : ∀ window : UInt32, End.inflow { e with
        cell := some { c with stream := { c.stream with
          recvWindow := window, buf := c.stream.buf ++ b } }
        hand := .free } = e.inflow := by
      intro window
      have hafter : End.inflow { e with
          cell := some { c with stream := { c.stream with
            recvWindow := window, buf := c.stream.buf ++ b } }
          hand := .free } = c.history.returned ++ (c.stream.buf ++ b) ++
            if c.stream.reset || c.stream.remoteClosed then [] else [] := rfl
      rw [hafter, hreset, hremote, End.inflow, hdeaf, hcarries, End.taken, hobject]
      simp
    have hgrows := h.object_grows
    refine ⟨hinflow _ ▸ List.prefix_rfl, fun hears => ⟨h.hears hears, hinflow _⟩,
      hgrows.remoteClosed, hgrows.reset, ?_, ?_, ?_, ?_, hfollows.1, hfollows.2⟩
    · rw [hobject]
      exact fun _ => .inr ⟨hremote, b, hhand⟩
    · rw [hobject]
      exact .inl
    · rw [hobject]
      exact .inl
    · rw [hobject, hremote]
      exact fun _ hr => absurd hr (by simp)

/-- The read loop hears that the other end has closed the stream. -/
theorem EndStep.intake_close {c : Cell} {r : Reason}
    (h : EndStep lim opens id e l { e with
      cell := some { c with stream := c.stream.remoteClose r }, hand := .serving .retiring })
    (hcell : e.cell = some c) (hhand : e.hand = .serving (.closing r)) :
    e.Intake { e with
      cell := some { c with stream := c.stream.remoteClose r }, hand := .serving .retiring } := by
  have hobject := object_some hcell
  have hcarries : e.hand.carries = [] := by
    rw [hhand]
    rfl
  have hfollows : e.hand.Follows (.serving .retiring) e.registered := by
    refine ⟨.inl ?_, ?_, ?_⟩
    · rw [hcarries]
      rfl
    · intro r' hr'
      cases hr'
    · intro r' hr'
      cases hr'
  by_cases hlater : c.stream.remoteClosed = true ∨ c.stream.reset = true
  · have hsame : c.stream.remoteClose r = c.stream := by
      unfold Stream.remoteClose
      rw [if_pos hlater]
    refine h.intake_same ?_ hfollows
    rw [hobject, hsame]
    exact .rfl
  · rw [not_or, Bool.not_eq_true, Bool.not_eq_true] at hlater
    obtain ⟨hremote, hreset⟩ := hlater
    have hfirst : c.stream.remoteClose r =
        if Stream.graceful r then { c.stream with remoteClosed := true }
        else { c.stream with
          remoteClosed := true, reset := true, resetReason := r, buf := [] } := by
      unfold Stream.remoteClose
      rw [if_neg (by simp [hremote, hreset])]
    have hgrows := h.object_grows
    by_cases hgraceful : Stream.graceful r = true
    · rw [if_pos hgraceful] at hfirst
      rw [hfirst] at h hgrows ⊢
      have htaken : End.taken { e with
          cell := some { c with stream := { c.stream with remoteClosed := true } }
          hand := .serving .retiring } = e.taken := by
        rw [End.taken, End.taken, hobject]
        rfl
      have hinflow : End.inflow { e with
          cell := some { c with stream := { c.stream with remoteClosed := true } }
          hand := .serving .retiring } = e.inflow := by
        rw [End.inflow, End.inflow, htaken, hcarries]
        simp [Hand.carries]
      refine ⟨hinflow ▸ List.prefix_rfl, fun hears => ⟨h.hears hears, hinflow⟩,
        hgrows.remoteClosed, hgrows.reset, fun _ => .inl htaken,
        fun _ => .inr (.inr ⟨r, hhand, hgraceful⟩), ?_, ?_, hfollows.looking, hfollows.closing⟩
      · rw [hobject]
        exact .inl
      · rw [hobject]
        exact fun hempty _ => ⟨hempty, rfl⟩
    · rw [if_neg hgraceful] at hfirst
      rw [hfirst] at h ⊢
      refine h.intake_reset rfl ?_ ?_ ?_ (fun _ => rfl) hfollows
      · rw [End.taken, End.taken, hobject]
        show c.history.returned ++ [] <+: _
        rw [List.append_nil]
        exact List.prefix_append _ _
      · rw [hobject]
        rfl
      · rw [hobject]
        rfl

/-- What a step of an end does to the bytes that have arrived. -/
theorem EndStep.intake (h : EndStep lim opens id e l e') : e.Intake e' := by
  have hsame : ∀ hand : Hand, e'.hand = hand → e.hand.Follows hand e.registered →
      e'.cell = e.cell → e.Intake e' := by
    intro hand heq hfollows hcell
    refine h.intake_same ?_ (heq ▸ hfollows)
    rw [End.object, End.object, hcell]
    exact .rfl
  have hkept : e.hand.Follows e.hand e.registered :=
    ⟨.inl rfl, fun r hr => hr, fun r hr => .inl hr⟩
  -- The read loop is done with a step that has nothing to do with data.
  have hnext : ∀ hand : Hand, e.hand.carries = [] → hand.carries = [] →
      (∀ r, hand ≠ .lookingUp r) → (∀ r, hand ≠ .serving (.closing r)) →
      e.hand.Follows hand e.registered := by
    intro hand hbefore hafter hlooking hclosing
    exact ⟨.inl (hafter.trans hbefore.symm), fun r hr => absurd hr (hlooking r),
      fun r hr => absurd hr (hclosing r)⟩
  cases hstep : h with
  | idle hdone hended hlive => exact hsame _ rfl hkept rfl
  | halt hhand =>
      refine hsame _ rfl ⟨.inr rfl, ?_, ?_⟩ rfl <;> intro r hr <;> cases hr
  | create payload hopens hcell hdone =>
      refine h.intake_same ?_ hkept
      rw [End.object, End.object, hcell]
      exact ⟨rfl, rfl, rfl, rfl, rfl⟩
  | start hheld hcell hop =>
      refine h.intake_same ?_ hkept
      rw [object_some hcell]
      unfold Op.start at hop
      split at hop <;> cases hop <;> exact ⟨rfl, rfl, rfl, rfl, rfl⟩
  | advance hcell hops hturn => exact h.intake_advance hcell hturn
  | accept hqueued => exact hsame _ rfl hkept rfl
  | deliver hhand hcell hdeliver => exact h.intake_deliver hcell hhand hdeliver
  | close hhand hcell => exact h.intake_close hcell hhand
  | grant hhand hcell =>
      refine h.intake_same ?_ (hnext _ (by rw [hhand]; rfl) rfl (by simp) (by simp))
      rw [object_some hcell]
      have hfields : ∀ (st st' : Stream), st'.buf = st.buf → st'.remoteClosed = st.remoteClosed →
          st'.reset = st.reset → ∀ history, Cell.SameRead ⟨st, history⟩ ⟨st', history⟩ :=
        fun _ _ hbuf hremote hreset _ => ⟨rfl, rfl, hbuf, hremote, hreset⟩
      refine hfields _ _ ?_ ?_ ?_ _ <;> unfold Stream.grantCredit <;> split_ifs <;> rfl
  | kill hlive hdoomed hcell =>
      refine h.intake_reset (kill_reset _ _) ?_ ?_ ?_ ?_ hkept
      · rw [End.taken, End.taken, object_some hcell]
        show _ ++ (Stream.kill _ _).buf <+: _
        rw [(kill_fields _ _).2.2.2]
        exact List.prefix_rfl
      · rw [object_some hcell]
        rfl
      · rw [object_some hcell]
        rfl
      · rw [object_some hcell]
        exact fun hempty => (kill_fields _ _).2.2.2.trans hempty
  | collect hlive hdoomed hunanswered => exact hsame _ rfl hkept rfl
  | notify hlive hdoomed hunanswered => exact hsame _ rfl hkept rfl
  | found hhand hregistered =>
      refine hsame _ rfl ⟨.inl (by rw [hhand]; rfl), ?_, ?_⟩ rfl
      · intro r hr
        cases hr
      · intro r hr
        cases hr
        exact .inr ⟨hhand, hregistered⟩
  | ack hhand hcell hdone =>
      exact hsame _ rfl (hnext _ (by rw [hhand]; rfl) rfl (by simp) (by simp)) rfl
  | queue hhand hcell =>
      exact hsame _ rfl (hnext _ (by rw [hhand]; rfl) rfl (by simp) (by simp)) rfl
  | full hhand hcell =>
      exact hsame _ rfl (hnext _ (by rw [hhand]; rfl) rfl (by simp) (by simp)) rfl
  | drop hhand hcell =>
      exact hsame _ rfl (hnext _ (by rw [hhand]; rfl) rfl (by simp) (by simp)) rfl
  | refuse hhand hdone =>
      exact hsame _ rfl (hnext _ (by rw [hhand]; rfl) rfl (by simp) (by simp)) rfl
  | missing hhand hregistered =>
      exact hsame _ rfl (hnext _ (by rw [hhand]; rfl) rfl (by simp) (by simp)) rfl
  | retired hhand hcell hfinished =>
      exact hsame _ rfl (hnext _ (by rw [hhand]; rfl) rfl (by simp) (by simp)) rfl
  | kept hhand hcell hfinished =>
      exact hsame _ rfl (hnext _ (by rw [hhand]; rfl) rfl (by simp) (by simp)) rfl

end Steps

/-- What has been sent by `a` and has arrived at `b`. -/
structure Delivers (a b : End) : Prop where
  front : b.inflow <+: a.object.history.sent
  whole : b.Hears → a.object.history.sent = b.inflow ++ dataOf a.out
  /-- Nothing follows a graceful close, on the connection or when it has been read. -/
  ending : ∀ before r after, a.out = before ++ .close r :: after → Stream.graceful r = true →
    a.object.history.quietReset = true ∨ (a.Finished ∧ dataOf after = [])
  looking : ∀ r, b.hand = .lookingUp r → Stream.graceful r = true →
    a.object.history.quietReset = true ∨ (a.Finished ∧ dataOf a.out = [])
  closing : ∀ r, b.hand = .serving (.closing r) → Stream.graceful r = true → b.deaf = false →
    a.object.history.quietReset = true ∨ (a.Finished ∧ b.taken = a.object.history.sent)
  closed : b.object.stream.remoteClosed = true → b.object.stream.reset = false →
    a.object.history.quietReset = true ∨ (a.Finished ∧ b.taken = a.object.history.sent)
  eof : b.object.history.eof = true → b.object.stream.remoteClosed = true ∧
    b.object.stream.buf = [] ∧ (a.object.history.quietReset = true ∨
      (a.Finished ∧ b.object.history.returned = a.object.history.sent))

section Delivers

variable {lim : Limits} {id : UInt32} {o : Bool} {a b a' b' : End} {l : Label} {m : Msg}
  {rest new : List Msg}

/-- The sending end moves. -/
theorem Delivers.send (h : Delivers a b) (hemits : a.Emits a' new) : Delivers a' b := by
  -- After a close nothing changes any more.
  have hdone : ∀ {P P' : Prop}, (a.Finished → P →
      a'.object.history.sent = a.object.history.sent → dataOf new = [] → P') →
      (a.object.history.quietReset = true ∨ (a.Finished ∧ P)) →
      a'.object.history.quietReset = true ∨ (a'.Finished ∧ P') := by
    rintro P P' himp (hquiet | ⟨hfinished, hp⟩)
    · exact .inl (hemits.quiet hquiet)
    · obtain ⟨-, -, hnew⟩ := hemits.closing hfinished.1
      refine .inr ⟨hemits.finished hfinished, himp hfinished hp ?_ hnew⟩
      rw [hemits.sent, hnew, List.append_nil]
  refine ⟨?_, ?_, ?_, ?_, ?_, ?_, ?_⟩
  · rw [hemits.sent]
    exact h.front.trans (List.prefix_append _ _)
  · intro hears
    rw [hemits.sent, hemits.out, data_of_append, h.whole hears, List.append_assoc]
  · intro before r after hout hgraceful
    rw [hemits.out] at hout
    rcases List.append_eq_append_iff.mp hout with ⟨extra, hbefore, hnew⟩ | ⟨extra, hold, hafter⟩
    · -- The close is one of the new messages.
      obtain ⟨hdata, hend⟩ := hemits.graceful r (by rw [hnew]; simp) hgraceful
      rw [hnew, data_of_append, data_of_cons] at hdata
      exact hend.imp_right fun hf => ⟨hf, (List.append_eq_nil_iff.mp
        (List.append_eq_nil_iff.mp hdata).2).2⟩
    · cases extra with
      | nil =>
          rw [List.nil_append] at hafter
          obtain ⟨hdata, hend⟩ := hemits.graceful r (by rw [← hafter]; simp) hgraceful
          rw [← hafter, data_of_cons] at hdata
          exact hend.imp_right fun hf => ⟨hf, (List.append_eq_nil_iff.mp hdata).2⟩
      | cons m extra =>
          rw [List.cons_append, List.cons.injEq] at hafter
          obtain ⟨rfl, rfl⟩ := hafter
          refine hdone ?_ (h.ending before r extra hold hgraceful)
          intro _ hextra _ hnew
          rw [data_of_append, hextra, hnew]
          rfl
  · intro r hhand hgraceful
    refine hdone ?_ (h.looking r hhand hgraceful)
    intro _ hout _ hnew
    rw [hemits.out, data_of_append, hout, hnew]
    rfl
  · intro r hhand hgraceful hdeaf
    refine hdone ?_ (h.closing r hhand hgraceful hdeaf)
    intro _ htaken hsent _
    rw [hsent, htaken]
  · intro hremote hreset
    refine hdone ?_ (h.closed hremote hreset)
    intro _ htaken hsent _
    rw [hsent, htaken]
  · intro heof
    obtain ⟨hremote, hbuf, hend⟩ := h.eof heof
    refine ⟨hremote, hbuf, hdone ?_ hend⟩
    intro _ hreturned hsent _
    rw [hsent, hreturned]

/-- The receiving end moves. -/
theorem Delivers.recv (h : Delivers a b) (hintake : b.Intake b') : Delivers a b' := by
  have hreset : b'.object.stream.reset = false → b.object.stream.reset = false := by
    intro hfalse
    rw [← Bool.not_eq_true]
    exact fun hr => absurd (hintake.reset hr) (by simp [hfalse])
  have hremote : b'.object.stream.remoteClosed = false → b.object.stream.remoteClosed = false := by
    intro hfalse
    rw [← Bool.not_eq_true]
    exact fun hr => absurd (hintake.remote hr) (by simp [hfalse])
  refine ⟨hintake.inflow.trans h.front, ?_, h.ending, ?_, ?_, ?_, ?_⟩
  · intro hears
    obtain ⟨hears₀, heq⟩ := hintake.exact hears
    rw [heq]
    exact h.whole hears₀
  · exact fun r hhand => h.looking r (hintake.looking r hhand)
  · intro r hhand hgraceful hdeaf
    simp only [End.deaf, Bool.or_eq_false_iff] at hdeaf
    have hdeaf₀ : b.deaf = false := by simp [End.deaf, hreset hdeaf.1, hremote hdeaf.2]
    have htaken : (∀ data, b.hand ≠ .serving (.delivering data)) → b'.taken = b.taken := by
      intro hnot
      refine (hintake.taken hdeaf.1).resolve_right ?_
      rintro ⟨-, data, heq⟩
      exact hnot data heq
    rcases hintake.closing r hhand with hsame | ⟨hlooking, hregistered⟩
    · rw [htaken (by simp [hsame])]
      exact h.closing r hsame hgraceful hdeaf₀
    · -- The close has been found: all data before it is in the stream.
      rw [htaken (by simp [hlooking])]
      refine (h.looking r hlooking hgraceful).imp_right fun hend => ⟨hend.1, ?_⟩
      have hwhole := h.whole ⟨by simp [hlooking], hdeaf₀, fun _ _ => hregistered⟩
      rw [hend.2, List.append_nil, End.inflow, hlooking] at hwhole
      simpa [Hand.carries] using hwhole.symm
  · intro hclosed hopen
    have hopen₀ := hreset hopen
    have htaken : (b.object.stream.remoteClosed = true ∨ ∃ r, b.hand = .serving (.closing r)) →
        b'.taken = b.taken := by
      intro hwhy
      refine (hintake.taken hopen).resolve_right ?_
      rintro ⟨hnot, data, heq⟩
      rcases hwhy with hr | ⟨r, hr⟩
      · rw [hnot] at hr
        cases hr
      · rw [heq] at hr
        cases hr
    cases hbefore : b.object.stream.remoteClosed with
    | true =>
        rw [htaken (.inl hbefore)]
        exact h.closed hbefore hopen₀
    | false =>
        rcases hintake.heard hclosed with hr | hr | ⟨r, hhand, hgraceful⟩
        · rw [hbefore] at hr
          cases hr
        · rw [hopen] at hr
          cases hr
        · rw [htaken (.inr ⟨r, hhand⟩)]
          exact h.closing r hhand hgraceful (by simp [End.deaf, hbefore, hopen₀])
  · intro heof
    rcases hintake.eof heof with hold | ⟨hclosed, hopen, hbuf⟩
    · obtain ⟨hclosed, hbuf, hend⟩ := h.eof hold
      obtain ⟨hbuf', hreturned⟩ := hintake.drained hbuf hclosed
      rw [hreturned]
      exact ⟨hintake.remote hclosed, hbuf', hend⟩
    · obtain ⟨hbuf', hreturned⟩ := hintake.drained hbuf hclosed
      refine ⟨hintake.remote hclosed, hbuf', ?_⟩
      rw [hreturned]
      have hclose := h.closed hclosed hopen
      rw [End.taken, hbuf, List.append_nil] at hclose
      exact hclose

/-- The receiving end reads a message. -/
theorem Delivers.arrive (h : Delivers a b) (hmute : b.cell = none → a.Mute)
    (hout : a.out = m :: rest) (hhand : b.hand = .free) (hreceive : Receive lim id b m b') :
    Delivers { a with out := rest } b' := by
  have hread := hreceive.alike.same_read
  have htaken : b'.taken = b.taken := by rw [End.taken, End.taken, hread.returned, hread.buf]
  have hdeaf : b'.deaf = b.deaf := by rw [End.deaf, End.deaf, hread.reset, hread.remoteClosed]
  have hbefore : b.inflow = b.taken := by
    rw [End.inflow, hhand]
    simp [Hand.carries]
  have hfront : b.taken <+: a.object.history.sent := hbefore ▸ h.front
  have hending : ∀ before r after, rest = before ++ .close r :: after →
      Stream.graceful r = true →
      a.object.history.quietReset = true ∨ (a.Finished ∧ dataOf after = []) := by
    intro before r after heq hgraceful
    refine h.ending (m :: before) r after ?_ hgraceful
    rw [hout, heq, List.cons_append]
  have hclosed : b'.object.stream.remoteClosed = true → b'.object.stream.reset = false →
      a.object.history.quietReset = true ∨ (a.Finished ∧ b'.taken = a.object.history.sent) := by
    rw [hread.remoteClosed, hread.reset, htaken]
    exact h.closed
  have heof : b'.object.history.eof = true → b'.object.stream.remoteClosed = true ∧
      b'.object.stream.buf = [] ∧ (a.object.history.quietReset = true ∨
        (a.Finished ∧ b'.object.history.returned = a.object.history.sent)) := by
    rw [hread.eof, hread.remoteClosed, hread.buf, hread.returned]
    exact h.eof
  -- What the end hears of the message, unless the read loop stops.
  have hheard : b'.Hears → b.Hears := by
    rintro ⟨-, hd, hregistered⟩
    refine ⟨by simp [hhand], hdeaf ▸ hd, ?_⟩
    cases hreceive with
    | opened payload hcell =>
        intro c hc
        rw [hcell] at hc
        cases hc
    | _ => exact hregistered
  -- Messages without data.
  have hempty : b'.hand.carries = [] → m.carries = [] →
      (∀ r, b'.hand = .lookingUp r → m = .close r) → (∀ r, b'.hand ≠ .serving (.closing r)) →
      Delivers { a with out := rest } b' := by
    intro hcarries hm hlooking hclosing
    have hinflow : b'.inflow = b.inflow := by
      rw [hbefore, End.inflow, htaken, hcarries]
      simp
    refine ⟨hinflow ▸ h.front, ?_, hending, ?_, fun r hr => absurd hr (hclosing r), hclosed, heof⟩
    · intro hears
      rw [hinflow]
      have hwhole := h.whole (hheard hears)
      rw [hout, data_of_cons, hm, List.nil_append] at hwhole
      exact hwhole
    · intro r hr hgraceful
      have hm' := hlooking r hr
      subst hm'
      exact h.ending [] r rest hout hgraceful
  cases hreceive with
  | tooLarge hsize =>
      refine ⟨?_, fun hears => absurd rfl hears.1, hending, ?_, ?_, hclosed, heof⟩
      · show End.inflow _ <+: a.object.history.sent
        rw [End.inflow, htaken]
        simpa [Hand.carries] using hfront
      · intro r hr
        cases hr
      · intro r hr
        cases hr
  | openFailed => exact hempty rfl rfl (by simp) (by simp)
  | openRefused => exact hempty rfl rfl (by simp) (by simp)
  | opened payload hcell => exact hempty rfl rfl (by simp) (by simp)
  | streamOK =>
      have hfree : (b.complete reasonOK).hand = .free := hhand
      refine hempty ?_ rfl ?_ ?_ <;> rw [hfree]
      · rfl
      · simp
      · simp
  | window hregistered => exact hempty rfl rfl (by simp) (by simp)
  | close => exact hempty rfl rfl (by simp) (by simp)
  | dropped hregistered hm =>
      rcases hm with ⟨bytes, rfl⟩ | ⟨credit, rfl⟩
      · refine ⟨h.front, ?_, hending, ?_, ?_, hclosed, heof⟩
        · -- A stream that hears is in the map, and before there is one no data is sent.
          intro hears
          have hcell : b.cell = none := by
            rw [Option.eq_none_iff_forall_ne_some]
            intro c hc
            have := hears.2.2 c hc
            simp [hregistered] at this
          exact absurd ((hmute hcell).out _ (by rw [hout]; exact List.mem_cons_self)) (by simp)
        · intro r hr
          rw [hhand] at hr
          cases hr
        · intro r hr
          rw [hhand] at hr
          cases hr
      · exact hempty (by rw [hhand]; rfl) rfl (by simp [hhand]) (by simp [hhand])
  | @data bytes hregistered =>
      cases hd : b.deaf with
      | true =>
          have hears : ¬ End.Hears { b with hand := .serving (.delivering bytes) } := by
            intro hears
            have := hdeaf.symm.trans hears.2.1
            rw [hd] at this
            cases this
          refine ⟨?_, fun hh => absurd hh hears, hending, ?_, ?_, hclosed, heof⟩
          · show End.inflow _ <+: a.object.history.sent
            rw [End.inflow, htaken, hdeaf, hd, if_pos rfl, List.append_nil]
            exact hfront
          · intro r hr
            cases hr
          · intro r hr
            cases hr
      | false =>
          have hwhole := h.whole ⟨by simp [hhand], hd, fun _ _ => hregistered⟩
          rw [hbefore, hout, data_of_cons, ← List.append_assoc] at hwhole
          have hinflow : End.inflow { b with hand := .serving (.delivering bytes) } =
              b.taken ++ bytes := by
            rw [End.inflow, htaken, hdeaf, hd]
            rfl
          refine ⟨?_, ?_, hending, ?_, ?_, hclosed, heof⟩
          · show End.inflow _ <+: a.object.history.sent
            rw [hinflow, hwhole]
            exact List.prefix_append _ _
          · intro _
            rw [hinflow]
            exact hwhole
          · intro r hr
            cases hr
          · intro r hr
            cases hr

/-- The sending end reads a message. -/
theorem Delivers.return (h : Delivers a b) (hreceive : Receive lim id a m a') :
    Delivers a' { b with out := rest } := by
  have hsend : Delivers a' b :=
    h.send (emits_nothing hreceive.frame.2.1 hreceive.alike.history)
  exact ⟨hsend.front, hsend.whole, hsend.ending, hsend.looking, hsend.closing, hsend.closed,
    hsend.eof⟩

end Delivers

end AccessRelay.Mux
