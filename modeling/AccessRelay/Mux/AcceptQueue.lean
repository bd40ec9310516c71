import AccessRelay.Mux.StreamCap
import AccessRelay.Mux.Inbound

/-!
# The accept queue

`handleOpen` answers an OPEN_STREAM with STREAM_OK and then puts the stream into a queue that is
as large as the stream limit, "so this cannot block". The limit counts the streams in the table;
the queue holds those that `AcceptStream` has not returned. As long as no stream leaves the table
while it waits, the queue is a part of the table and has room for whatever passes the limit
(`accept_queue_has_room`). An abort by the peer removes a stream from the table and not from the
queue, so a peer that opens and aborts fills the queue (`acknowledged_then_refused`).
-/

namespace AccessRelay.Mux

open Encoding Proto Machine

/-- The stream that the read loop has registered and is about to queue. -/
def Reader.handing : Reader → List Handle
  | .serving h .acking | .serving h .queueing => [h]
  | _ => []

/-- The streams that wait for `AcceptStream`, in the order in which it returns them. -/
def Session.waiting (s : Session) : List Handle := s.acceptCh ++ s.reader.handing

/-- The event drops this identifier from the stream table: `retire`, called by an operation or by
the read loop, or `closeOnce`, which takes the whole table. -/
def Session.retires (s : Session) (id : UInt32) : Event → Bool
  | .act (.advance index _) =>
      match s.calls[index]? with
      | some (.stream h (.retireOpen _)) | some (.stream h (.retire _)) => h.id = id
      | some (.stream h (.retireIfDone _)) =>
          h.id = id && (s.cell h).any fun c => c.stream.finished
      | _ => false
  | .act .dispatch =>
      match s.reader with
      | .serving h .dropping => h.id = id
      | .serving h .retiring => h.id = id && (s.cell h).any fun c => c.stream.finished
      | _ => false
  | .act (.endStep _) =>
      match s.ending with
      | .collecting _ => true
      | _ => false
  | _ => false

/-- The event is the critical section of `Open`, which registers a stream under the next identifier
if the session is live and has room. -/
def Session.opening (s : Session) : Event → Bool
  | .act (.advance index _) =>
      match s.calls[index]? with
      | some (.openStream _) => true
      | _ => false
  | _ => false

/-- No stream leaves the table while it waits for `AcceptStream`. -/
def keepsWaiting (s : Session) (e : Event) : Bool := s.waiting.all fun h => !s.retires h.id e

/-- `handleOpen` takes in a stream of the peer. -/
structure Session.TakesIn (s s' : Session) (id : UInt32) : Prop where
  peer : s.owns id = false
  fresh : ∀ h ∈ s.streams, h.id ≠ id
  waiting : s'.waiting = s.waiting ++ [s.nextHandle id]
  streams : s'.streams = s.nextHandle id :: s.streams

/-- What waits for `AcceptStream` is in the table, each stream once, under an identifier of the
peer; and the read loop has not found the queue full. -/
structure Session.InLine (s : Session) : Prop where
  parity : s.owns s.nextID = true
  nodup : s.waiting.Nodup
  listed : ∀ h ∈ s.waiting, h ∈ s.streams ∧ s.owns h.id = false
  kept : ∀ h, s.reader ≠ .serving h .dropping

/-- What a step may do to the queue: nothing, append one stream, or hand the first one to an
`AcceptStream`. -/
def Session.QueueMoves (s s' : Session) : Prop :=
  s'.acceptCh = s.acceptCh ∨ (∃ h, s'.acceptCh = s.acceptCh ++ [h]) ∨
    ∃ h, s.acceptCh = h :: s'.acceptCh ∧ .stream h .accepted ∈ s'.calls

section Waiting

variable {s s' : Session}

theorem waiting_congr (hqueue : s'.acceptCh = s.acceptCh) (hreader : s'.reader = s.reader) :
    s'.waiting = s.waiting := by
  rw [Session.waiting, Session.waiting, hqueue, hreader]

theorem waiting_sublist (hqueue : s'.acceptCh = s.acceptCh) (hnone : s'.reader.handing = []) :
    s'.waiting.Sublist s.waiting := by
  rw [Session.waiting, Session.waiting, hqueue, hnone, List.append_nil]
  exact List.sublist_append_left _ _

theorem reply_waiting (type : Typ) (id : UInt32) (payload : Bytes) :
    (s.reply type id payload .idle).waiting.Sublist s.waiting := by
  refine waiting_sublist (reply_calls ..).2 ?_
  rcases (reply_control (s := s) type id payload .idle).1 with hnext | hnext <;> rw [hnext] <;> rfl

/-- The read loop goes on with a stream in line, takes it to the queue, or drops it. -/
theorem serve_step_waiting {h : Handle} {c : Cell} {task : Task}
    (hreader : s.reader = .serving h task) :
    (s.serveStep h c task).waiting.Sublist s.waiting := by
  cases task with
  | acking =>
      have hline : s.waiting = s.acceptCh ++ [h] := by
        rw [Session.waiting, hreader]
        rfl
      simp only [Session.serveStep, Session.reply]
      split_ifs
      · rw [hline]
        exact List.Sublist.refl _
      · exact waiting_sublist rfl rfl
  | queueing =>
      have hline : s.waiting = s.acceptCh ++ [h] := by
        rw [Session.waiting, hreader]
        rfl
      simp only [Session.serveStep]
      split_ifs
      · -- The stream moves from the hands of the read loop to the end of the queue.
        rw [hline]
        show ((s.acceptCh ++ [h]) ++ []).Sublist _
        rw [List.append_nil]
      · exact waiting_sublist rfl rfl
  | delivering payload =>
      simp only [Session.serveStep]
      cases c.stream.deliver payload <;> exact waiting_sublist rfl rfl
  | retiring =>
      simp only [Session.serveStep]
      split_ifs <;> exact waiting_sublist rfl rfl
  | dropping => exact waiting_sublist rfl rfl
  | granting credit => exact waiting_sublist rfl rfl
  | closing reason => exact waiting_sublist rfl rfl

/-- Nothing is put in line by a step of the session itself. -/
theorem moves_waiting {a : Action} (hmoves : s.Moves a s') : s'.waiting.Sublist s.waiting := by
  cases hmoves with
  | @accepted index choice h rest hqueue =>
      rw [Session.waiting, Session.waiting, hqueue]
      exact List.sublist_cons_self _ _
  | @turned index choice h op c turn hcall hcell hturn =>
      have hsame : ((s.setCell h turn.cell).perform h.id turn.effect).waiting = s.waiting :=
        waiting_congr (perform_queue ..) (perform_control ..).1
      exact hsame ▸ List.Sublist.refl _
  | served hreader hcell => exact serve_step_waiting hreader
  | refused hreader => exact reply_waiting ..
  | ponged hreader => exact reply_waiting ..
  | @lookedUp id reason hreader =>
      refine waiting_sublist (serve_calls ..).2 ?_
      unfold Session.serve
      split <;> rfl
  | quit hreader => exact waiting_sublist rfl rfl
  | told hreader => exact waiting_sublist rfl rfl
  | woken hreader hdone => exact waiting_sublist rfl rfl
  | broken err hreader => exact waiting_sublist rfl rfl
  | _ => exact List.Sublist.refl _

theorem reply_pending (type : Typ) (id : UInt32) (payload : Bytes) (next : Reader) :
    (s.reply type id payload next).pending = s.pending := by
  unfold Session.reply
  split_ifs <;> rfl

/-- What a step of the session itself leaves in its two tables: everything but what it retires, and
what `Open` writes over. -/
theorem moves_tables {a : Action} {h : Handle} (hmoves : s.Moves a s')
    (hstays : s.retires h.id (.act a) = false)
    (hopen : s.opening (.act a) = true → h.id ≠ s.nextID) :
    (h ∈ s.streams → h ∈ s'.streams) ∧ (h ∈ s.pending → h ∈ s'.pending) := by
  have hsame : (h ∈ s.streams → h ∈ s.streams) ∧ (h ∈ s.pending → h ∈ s.pending) :=
    ⟨fun hmem => hmem, fun hmem => hmem⟩
  have hretire : ∀ {id : UInt32}, h.id ≠ id →
      (h ∈ s.streams → h ∈ (s.retire id).streams) ∧ (h ∈ s.pending → h ∈ (s.retire id).pending) :=
    fun hne => ⟨fun hmem => List.mem_filter.mpr ⟨hmem, decide_eq_true hne⟩,
      fun hmem => List.mem_filter.mpr ⟨hmem, decide_eq_true hne⟩⟩
  have hreply : ∀ (type : Typ) (id : UInt32) (payload : Bytes) (next : Reader),
      (h ∈ s.streams → h ∈ (s.reply type id payload next).streams) ∧
        (h ∈ s.pending → h ∈ (s.reply type id payload next).pending) := by
    intro type id payload next
    rw [reply_streams, reply_pending]
    exact hsame
  cases hmoves with
  | opened index choice payload hcall hdone =>
      have hid := decide_eq_true (hopen (by simp only [Session.opening, hcall]))
      exact ⟨fun hmem => List.mem_cons_of_mem _ (List.mem_filter.mpr ⟨hmem, hid⟩),
        fun hmem => List.mem_cons_of_mem _ (List.mem_filter.mpr ⟨hmem, hid⟩)⟩
  | @turned index choice i op c turn hcall hcell hturn =>
      simp only [Session.retires, hcall] at hstays
      cases hturn with
      | openRetired error =>
          exact hretire fun heq => of_decide_eq_false hstays heq.symm
      | closeRetired failed hfinished =>
          refine hretire fun heq => ?_
          simp [hcell, hfinished, heq] at hstays
      | resetRetired failed =>
          exact hretire fun heq => of_decide_eq_false hstays heq.symm
      | _ => exact hsame
  | @served i task c hreader hcell =>
      simp only [Session.retires, hreader] at hstays
      cases task with
      | dropping => exact hretire fun heq => of_decide_eq_false hstays heq.symm
      | retiring =>
          simp only [Session.serveStep]
          split_ifs with hfinished
          · refine hretire fun heq => ?_
            simp [hcell, hfinished, heq] at hstays
          · exact hsame
      | acking => exact hreply ..
      | queueing =>
          simp only [Session.serveStep]
          split_ifs <;> exact hsame
      | delivering payload =>
          simp only [Session.serveStep]
          cases c.stream.deliver payload <;> exact hsame
      | granting credit => exact hsame
      | closing reason => exact hsame
  | refused hreader => exact hreply ..
  | ponged hreader => exact hreply ..
  | lookedUp hreader =>
      unfold Session.serve
      split <;> exact hsame
  | collected choice hending => simp [Session.retires, hending] at hstays
  | _ => exact hsame

/-- Reading a frame leaves the line and the table alone, or takes in a stream. -/
theorem read_waiting {f : Frame} (hread : s.read f = some s') :
    (s'.waiting = s.waiting ∧ s'.streams = s.streams) ∨ s.TakesIn s' f.streamID := by
  obtain ⟨hidle, hreads⟩ := read_reads hread
  have hline : s.waiting = s.acceptCh := by
    rw [Session.waiting, hidle]
    exact List.append_nil _
  by_cases hopen : f.type = .openStream
  · -- `Reads` does not say that the identifier was free, so `handleOpen` is inverted here.
    simp only [Session.read, hidle, if_true, Option.some.injEq, Session.receive, hopen,
      Session.handleOpen] at hread
    subst hread
    rw [hline]
    split_ifs with hsize hlive hparity hlimit
    · exact .inl ⟨List.append_nil _, rfl⟩
    · exact .inl ⟨List.append_nil _, rfl⟩
    · exact .inl ⟨List.append_nil _, rfl⟩
    · exact .inl ⟨List.append_nil _, rfl⟩
    · right
      have hfresh : ∀ h ∈ s.streams, h.id ≠ f.streamID := by simpa using hlive
      refine ⟨by simpa [Session.owns] using hparity, hfresh, congrArg (· ++ _) hline.symm, ?_⟩
      refine congrArg (List.cons _) (List.filter_eq_self.mpr ?_)
      exact fun h hh => decide_eq_true (hfresh h hh)
  left
  have hnone : ∀ {t : Session}, t.acceptCh = s.acceptCh → t.reader.handing = [] →
      t.waiting = s.waiting := by
    intro t hqueue hreader
    rw [Session.waiting, hqueue, hreader, List.append_nil, hline]
  cases hreads with
  | registered htype => exact absurd htype hopen
  | answered =>
      refine ⟨hnone (complete_open_calls ..).2 ?_, complete_open_streams ..⟩
      rw [(complete_open_control ..).1, hidle]
      rfl
  | close => exact ⟨hnone (complete_open_calls f.streamID _).2 rfl, complete_open_streams ..⟩
  | pong => exact ⟨rfl, rfl⟩
  | _ => exact ⟨hnone rfl rfl, rfl⟩

/-- The read loop drops a stream only if it has found the queue full. -/
theorem moves_dropping {a : Action} {h : Handle} (hmoves : s.Moves a s')
    (hkept : s.reader ≠ .serving h .dropping) (hdrops : s'.reader = .serving h .dropping) :
    s.reader = .serving h .queueing ∧ s.limits.maxStreams.toNat ≤ s.acceptCh.length := by
  cases hmoves with
  | @turned index choice i op c turn hcall hcell hturn =>
      have hsame := (perform_control (s := s.setCell i turn.cell) i.id turn.effect).1
      exact absurd (hsame.symm.trans hdrops) hkept
  | @served i task c hreader hcell =>
      obtain ⟨rfl, -⟩ := (serve_step_reader i c task).2 h .dropping hdrops
      cases task with
      | queueing =>
          simp only [Session.serveStep] at hdrops
          split_ifs at hdrops with hroom
          exact ⟨hreader, Nat.le_of_not_lt hroom⟩
      | acking =>
          rcases (reply_control (s := s) .streamOK h.id [] (.serving h .queueing)).1 with
            hnext | hnext <;> cases hnext.symm.trans hdrops
      | delivering payload =>
          simp only [Session.serveStep] at hdrops
          split at hdrops <;> cases hdrops
      | retiring =>
          simp only [Session.serveStep] at hdrops
          split_ifs at hdrops
      | _ => cases hdrops
  | refused hreader =>
      rcases (reply_control (s := s) .closeStream _ _ .idle).1 with hnext | hnext <;>
        cases hnext.symm.trans hdrops
  | ponged hreader =>
      rcases (reply_control (s := s) .pong _ _ .idle).1 with hnext | hnext <;>
        cases hnext.symm.trans hdrops
  | @lookedUp id reason hreader => cases ((serve_control id _).2.2 _ _ hdrops).2
  | quit | told | woken | broken => cases hdrops
  | _ => exact absurd hdrops hkept

/-- Reading a frame does not touch the queue. -/
theorem reads_queue {f : Frame} (hreads : s.Reads f s') : s'.acceptCh = s.acceptCh := by
  cases hreads with
  | answered => exact (complete_open_calls ..).2
  | close => exact (complete_open_calls f.streamID _).2
  | _ => rfl

theorem reads_not_dropping {f : Frame} {h : Handle} (hidle : s.reader = .idle)
    (hreads : s.Reads f s') : s'.reader ≠ .serving h .dropping := by
  intro hdrops
  cases hreads with
  | answered =>
      rw [(complete_open_control ..).1, hidle] at hdrops
      cases hdrops
  | pong =>
      rw [hidle] at hdrops
      cases hdrops
  | _ => cases hdrops

/-- A stream leaves the queue at its head, for an `AcceptStream`. -/
theorem react_queue_moves {e : Event} (hreact : s.react e = some s') : s.QueueMoves s' := by
  rcases react_cases hreact with ⟨a, rfl, hmoves⟩ | ⟨f, -, -, -, hreads⟩
  · cases hmoves with
    | @accepted index choice h rest hqueue =>
        obtain ⟨call, hcall, -⟩ := Option.bind_eq_some_iff.mp hreact
        have hindex : index < s.calls.length := (List.getElem?_eq_some_iff.mp hcall).1
        exact .inr (.inr ⟨h, hqueue, List.mem_set hindex _⟩)
    | turned => exact .inl (perform_queue ..)
    | @served h task c =>
        rcases (serve_step_calls (s := s) h c task).2 with hsame | hmore
        · exact .inl hsame
        · exact .inr (.inl ⟨h, hmore⟩)
    | refused => exact .inl (reply_calls ..).2
    | ponged => exact .inl (reply_calls ..).2
    | lookedUp => exact .inl (serve_calls ..).2
    | _ => exact .inl rfl
  · exact .inl (reads_queue hreads)

theorem react_owns {e : Event} (hreact : s.react e = some s') (id : UInt32) :
    s'.owns id = s.owns id := by
  rw [Session.owns, Session.owns]
  rcases react_books hreact with hkeeps | ⟨i, hreg⟩
  · rw [hkeeps.isClient]
  · rw [hreg.isClient]

theorem parity_react {e : Event} (hreact : s.react e = some s')
    (hparity : s.owns s.nextID = true) : s'.owns s'.nextID = true := by
  rw [react_owns hreact]
  cases e with
  | act a =>
      rcases step_books hreact with hkeeps | ⟨-, -, hnext⟩
      · rw [hkeeps.nextID]
        exact hparity
      · rw [hnext, owns_add_two]
        exact hparity
  | frame f =>
      simp only [Session.react, Option.ite_none_right_eq_some] at hreact
      rcases read_books hreact.2 with hkeeps | ⟨-, -, -, hnext⟩
      · rw [hkeeps.nextID]
        exact hparity
      · rw [hnext]
        exact hparity

/-- The stream in the hands of the read loop finds room: with the queue before it, it is a part of
the table. -/
theorem Session.InLine.room {h : Handle} (hs : s.InLine) (hcapped : s.Capped)
    (hhanding : s.reader.handing = [h]) : s.acceptCh.length < s.limits.maxStreams.toNat := by
  have hline : s.waiting = s.acceptCh ++ [h] := by rw [Session.waiting, hhanding]
  have hpart : s.waiting ⊆ s.streams := fun i hi => (hs.listed i hi).1
  have hle : s.waiting.length ≤ s.streams.length := (hs.nodup.subperm hpart).length_le
  rw [hline, List.length_append, List.length_singleton] at hle
  exact Nat.lt_of_succ_le (hle.trans hcapped.streams)

/-- A stream that is taken in is new to the line. -/
theorem Session.TakesIn.in_line {id : UInt32} (ht : s.TakesIn s' id) (hs : s.InLine)
    (howns : ∀ i, s'.owns i = s.owns i) :
    s'.waiting.Nodup ∧ ∀ h ∈ s'.waiting, h ∈ s'.streams ∧ s'.owns h.id = false := by
  have hnew : s.nextHandle id ∉ s.waiting :=
    fun hmem => ht.fresh _ (hs.listed _ hmem).1 rfl
  rw [ht.waiting, ht.streams]
  refine ⟨List.nodup_append.mpr ⟨hs.nodup, List.nodup_singleton _, ?_⟩, ?_⟩
  · intro h hh i hi heq
    rw [List.mem_singleton.mp hi] at heq
    exact hnew (heq ▸ hh)
  · intro h hh
    rw [howns]
    rcases List.mem_append.mp hh with hold | hnext
    · exact ⟨List.mem_cons_of_mem _ (hs.listed h hold).1, (hs.listed h hold).2⟩
    · rw [List.mem_singleton.mp hnext]
      exact ⟨List.mem_cons_self, ht.peer⟩

theorem in_line_react {e : Event} (hs : s.InLine) (hcapped : s.Capped)
    (hstep : restrict keepsWaiting Session.react s e = some s') : s'.InLine := by
  obtain ⟨hguard, hreact⟩ := restrict_eq_some.mp hstep
  have howns := react_owns hreact
  have hparity := parity_react hreact hs.parity
  cases e with
  | act a =>
      have hmoves := step_moves hreact
      have hline := moves_waiting hmoves
      refine ⟨hparity, hs.nodup.sublist hline, ?_, ?_⟩
      · intro h hh
        have hold := hline.subset hh
        obtain ⟨hmem, hpeer⟩ := hs.listed h hold
        have hstays : s.retires h.id (.act a) = false := by
          simpa using List.all_eq_true.mp hguard h hold
        -- `Open` writes over identifiers of its own parity only.
        have hopen : h.id ≠ s.nextID := by
          intro heq
          rw [heq, hs.parity] at hpeer
          cases hpeer
        refine ⟨(moves_tables hmoves hstays fun _ => hopen).1 hmem, ?_⟩
        rw [howns]
        exact hpeer
      · intro h hdrops
        obtain ⟨hqueueing, hfull⟩ := moves_dropping hmoves (hs.kept h) hdrops
        have hroom := hs.room (h := h) hcapped (by rw [hqueueing]; rfl)
        omega
  | frame f =>
      simp only [Session.react, Option.ite_none_right_eq_some] at hreact
      obtain ⟨hidle, hreads⟩ := read_reads hreact.2
      have hkept : ∀ h, s'.reader ≠ .serving h .dropping :=
        fun _ => reads_not_dropping hidle hreads
      rcases read_waiting hreact.2 with ⟨hline, hstreams⟩ | htakes
      · refine ⟨hparity, hline ▸ hs.nodup, ?_, hkept⟩
        intro h hh
        rw [hline] at hh
        rw [hstreams, howns]
        exact hs.listed h hh
      · obtain ⟨hnodup, hlisted⟩ := htakes.in_line hs howns
        exact ⟨hparity, hnodup, hlisted, hkept⟩

theorem in_line_new_session (isClient : Bool) (ack : HelloAck) :
    (newSession isClient ack).InLine := by
  refine ⟨(tidy_new_session isClient ack).parity, List.nodup_nil,
    fun _ h => absurd h List.not_mem_nil, ?_⟩
  intro h hreader
  cases hreader

end Waiting

/-- In every state of every run in which no stream leaves the table while it waits for
`AcceptStream`: when `handleOpen` passes its limit check, the accept queue has room; a stream that
has been answered with STREAM_OK goes into the queue and is not dropped for a full one; and it
leaves the queue only at its head, for an `AcceptStream`. -/
theorem accept_queue_has_room {isClient : Bool} {ack : HelloAck} {events : List Event}
    {s : Session}
    (hrun : run (restrict keepsWaiting Session.react) (newSession isClient ack) events = some s) :
    (∀ f s' h, s.react (.frame f) = some s' → s'.reader = .serving h .acking →
      s.acceptCh.length < ack.maxStreams.toNat) ∧
    (∀ h, s.reader = .serving h .queueing → s.react (.act .dispatch) =
      some { s with acceptCh := s.acceptCh ++ [h], reader := .idle }) ∧
    (∀ h, s.reader ≠ .serving h .dropping) ∧
    ∀ e s', s.react e = some s' → s.QueueMoves s' := by
  have hplain := run_of_restrict hrun
  obtain ⟨hcapped, hmax⟩ := capped_run hplain
  have hgrounded := (session_run hplain).1
  have hkept : ∀ {t t' : Session} {e : Event}, t.InLine ∧ t.Capped →
      restrict keepsWaiting Session.react t e = some t' → t'.InLine ∧ t'.Capped := by
    intro t t' e h hstep
    exact ⟨in_line_react h.1 h.2 hstep, capped_react h.2 (restrict_eq_some.mp hstep).2⟩
  have hstart : (newSession isClient ack).InLine ∧ (newSession isClient ack).Capped :=
    ⟨in_line_new_session isClient ack, Nat.zero_le _, Nat.zero_le _⟩
  obtain ⟨hline, -⟩ := run_invariant hkept hstart hrun
  refine ⟨?_, ?_, hline.kept, fun e s' => react_queue_moves⟩
  · intro f s' h hreact hacking
    have hguard : keepsWaiting s (.frame f) = true := List.all_eq_true.mpr fun _ _ => rfl
    have hstep : restrict keepsWaiting Session.react s (.frame f) = some s' :=
      restrict_eq_some.mpr ⟨hguard, hreact⟩
    have hroom := (in_line_react hline hcapped hstep).room (h := h) (capped_react hcapped hreact)
      (by rw [hacking]; rfl)
    simp only [Session.react, Option.ite_none_right_eq_some] at hreact
    rw [react_limits (restrict_eq_some.mp hstep).2, hmax,
      reads_queue (read_reads hreact.2).2] at hroom
    exact hroom
  · intro h hqueueing
    obtain ⟨c, hcell⟩ := cell_of_has (hgrounded.serving h .queueing hqueueing)
    have hroom := hline.room (h := h) hcapped (by rw [hqueueing]; rfl)
    simp [Session.react, Session.step, Session.dispatch, hqueueing, hcell, Session.serveStep,
      hroom]

/-- A server with room for one stream. -/
def oneStream : HelloAck := ⟨version, 64, 64, 1⟩

/-- The client's stream is accepted before the client aborts it, and the next one is queued. -/
def acceptedInTime : List Event :=
  [.frame ⟨.openStream, 1, []⟩, .act .dispatch, .act .dispatch,
    .act (.start .acceptStream), .act (.advance 0 .value),
    .frame ⟨.closeStream, 1, reasonShutdown⟩, .act .dispatch, .act .dispatch, .act .dispatch,
    .frame ⟨.openStream, 3, []⟩, .act .dispatch]

/-- The second stream is answered with STREAM_OK and goes into the queue. -/
theorem second_stream_queued : ∃ s,
    run (restrict keepsWaiting Session.react) (newSession false oneStream) acceptedInTime =
      some s ∧
    s.reader = .serving ⟨3, 0⟩ .queueing ∧
    s.react (.act .dispatch) =
      some { s with acceptCh := s.acceptCh ++ [⟨3, 0⟩], reader := .idle } := by
  have hview : (run (restrict keepsWaiting Session.react) (newSession false oneStream)
      acceptedInTime).map (fun s => s.reader) = some (.serving ⟨3, 0⟩ .queueing) := by
    decide +kernel
  obtain ⟨s, hrun, hreader⟩ := Option.map_eq_some_iff.mp hview
  exact ⟨s, hrun, hreader, (accept_queue_has_room hrun).2.1 _ hreader⟩

/-- The client opens a stream and aborts it before it is accepted, and opens another: that one is
answered with STREAM_OK and then refused. -/
theorem acknowledged_then_refused : ∃ s,
    run Session.react (newSession false oneStream)
      [.frame ⟨.openStream, 1, []⟩, .act .dispatch, .act .dispatch,
        .frame ⟨.closeStream, 1, reasonShutdown⟩, .act .dispatch, .act .dispatch, .act .dispatch,
        .frame ⟨.openStream, 3, []⟩, .act .dispatch, .act .dispatch, .act .dispatch,
        .act .dispatch] = some s ∧
    s.acceptCh = [⟨1, 0⟩] ∧ s.streams = [] ∧
    s.out = [⟨.streamOK, 1, []⟩, ⟨.streamOK, 3, []⟩,
      ⟨.closeStream, 3, reasonLimitStreamsExceeded⟩] := by
  have hview : (run Session.react (newSession false oneStream)
      [.frame ⟨.openStream, 1, []⟩, .act .dispatch, .act .dispatch,
        .frame ⟨.closeStream, 1, reasonShutdown⟩, .act .dispatch, .act .dispatch, .act .dispatch,
        .frame ⟨.openStream, 3, []⟩, .act .dispatch, .act .dispatch, .act .dispatch,
        .act .dispatch]).map (fun s => (s.acceptCh, s.streams, s.out)) =
      some ([⟨1, 0⟩], [], [⟨.streamOK, 1, []⟩, ⟨.streamOK, 3, []⟩,
        ⟨.closeStream, 3, reasonLimitStreamsExceeded⟩]) := by
    decide +kernel
  obtain ⟨s, hrun, hs⟩ := Option.map_eq_some_iff.mp hview
  simp only [Prod.mk.injEq] at hs
  exact ⟨s, hrun, hs⟩

end AccessRelay.Mux
