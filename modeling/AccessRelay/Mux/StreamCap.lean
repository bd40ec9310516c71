import AccessRelay.Mux.Books

/-!
# The cap on concurrent streams

`Dial` takes a configuration with a `MaxStreams` of its own and builds the session from the
HELLO_ACK alone. A session keeps to the limits it was built with, against any peer: its stream
map never has more entries than `maxStreams` (`capped_react`), and its accept queue is a channel
of that size. So the cap of a dialled session is the number that the far end announced
(`dialled_cap_iff`), and a relay that announces a larger one can open one stream more than the
configuration allows (`flood_run`).
-/

namespace AccessRelay.Mux

open Encoding Proto Machine

/-- The two frames that `Dial` waits for. -/
inductive Awaited where
  | helloAck
  | authOK
  deriving DecidableEq, Repr

/-- The type of an awaited frame. -/
def Awaited.type : Awaited → Typ
  | .helloAck => .helloAck
  | .authOK => .authOK

/-- Why `Dial` failed. `send` is the write before the frame that would have been awaited. -/
inductive DialError where
  | send (before : Awaited)
  | read (awaited : Awaited) (error : CodecError)
  | refused (awaited : Awaited) (reason : Reason)
  | unexpected (awaited : Awaited) (found : Typ)
  | helloAck (error : HelloAckError)
  | version (chosen : UInt8)
  | authOK (error : AuthError)

/-- What the connection gives `Dial`: whether its two writes succeed, and what its two reads
return. -/
structure Exchange where
  helloSent : Bool
  answer : Except CodecError Frame
  authSent : Bool
  outcome : Except CodecError Frame

/-- Take the frame that a read returned, if it is the one that was awaited. -/
def Awaited.take (awaited : Awaited) : Except CodecError Frame → Except DialError Frame
  | .error e => .error (.read awaited e)
  | .ok f =>
      if f.type = .error then .error (.refused awaited f.payload)
      else if f.type ≠ awaited.type then .error (.unexpected awaited f.type)
      else .ok f

/-- `Dial`. Of the configuration only the role is used, in HELLO; the limits, defaults included,
are never looked at again. -/
def dial (_cfg : Config) (x : Exchange) : Except DialError Session :=
  if x.helloSent = false then .error (.send .helloAck)
  else match Awaited.helloAck.take x.answer with
  | .error e => .error e
  | .ok f =>
      match decodeHelloAck f.payload with
      | .error e => .error (.helloAck e)
      | .ok ack =>
          if ack.version ≠ version then .error (.version ack.version)
          else if x.authSent = false then .error (.send .authOK)
          else match Awaited.authOK.take x.outcome with
          | .error e => .error e
          | .ok f =>
              match decodeAuthOK f.payload with
              | .error e => .error (.authOK e)
              | .ok _ => .ok (newSession true ack)

/-- The size of the accept queue, `make(chan *Stream, ack.MaxStreams)`. -/
def Session.acceptCap (s : Session) : Nat := s.limits.maxStreams.toNat

theorem awaited_take_ok {awaited : Awaited} {got : Except CodecError Frame} {f : Frame}
    (h : awaited.take got = .ok f) : got = .ok f := by
  cases got with
  | error e => cases h
  | ok found =>
      simp only [Awaited.take] at h
      split_ifs at h
      cases h
      rfl

/-- A dialled session is the one that the HELLO_ACK describes. -/
theorem dial_ok {cfg : Config} {x : Exchange} {s : Session} (h : dial cfg x = .ok s) :
    ∃ f ack, x.answer = .ok f ∧ decodeHelloAck f.payload = .ok ack ∧ s = newSession true ack := by
  unfold dial at h
  split at h
  · cases h
  split at h
  · cases h
  next f hanswer =>
    split at h
    · cases h
    next ack hack =>
      split at h
      · cases h
      split at h
      · cases h
      split at h
      · cases h
      split at h
      · cases h
      cases h
      exact ⟨f, ack, awaited_take_ok hanswer, hack, rfl⟩

section Capped

variable {s s' : Session}

/-- The test that `Open` and `handleOpen` make before they register a stream. The length of the
map is converted to 32 bits first. -/
def Session.HasRoom (s : Session) : Prop := UInt32.ofNat s.streams.length < s.limits.maxStreams

/-- The tables of a session are within the limits it was built with. -/
structure Session.Capped (s : Session) : Prop where
  streams : s.streams.length ≤ s.limits.maxStreams.toNat
  queue : s.acceptCh.length ≤ s.limits.maxStreams.toNat

/-- The stream map shrinks, or there was room for the one stream that is new. -/
def Session.Fills (s s' : Session) : Prop :=
  s'.streams.length ≤ s.streams.length ∨
    (s.HasRoom ∧ s'.streams.length ≤ s.streams.length + 1)

theorem length_register (st : Stream) :
    (s.register st).streams.length ≤ s.streams.length + 1 := by
  show (s.streams.filter fun h => h.id ≠ st.id).length + 1 ≤ s.streams.length + 1
  exact Nat.succ_le_succ (List.length_filter_le _ _)

theorem length_retire (id : UInt32) : (s.retire id).streams.length ≤ s.streams.length :=
  List.length_filter_le _ _

theorem reply_streams (type : Typ) (id : UInt32) (payload : Bytes) (next : Reader) :
    (s.reply type id payload next).streams = s.streams := by
  unfold Session.reply
  split_ifs <;> rfl

theorem serve_streams (id : UInt32) (task : Task) : (s.serve id task).streams = s.streams := by
  unfold Session.serve
  split <;> rfl

theorem complete_open_streams (id : UInt32) (reason : Reason) :
    (s.completeOpen id reason).streams = s.streams := by
  unfold Session.completeOpen
  split <;> rfl

theorem serve_step_length (h : Handle) (c : Cell) (task : Task) :
    (s.serveStep h c task).streams.length ≤ s.streams.length := by
  cases task with
  | acking => exact (congrArg List.length (reply_streams ..)).le
  | queueing =>
      simp only [Session.serveStep]
      split_ifs <;> exact le_rfl
  | dropping => exact length_retire h.id
  | delivering payload =>
      simp only [Session.serveStep]
      cases c.stream.deliver payload <;> exact le_rfl
  | granting credit => exact le_rfl
  | closing reason => exact le_rfl
  | retiring =>
      simp only [Session.serveStep]
      split_ifs
      · exact length_retire h.id
      · exact le_rfl

/-- `Open` registers a stream only if there is room. -/
theorem open_fills (payload : Bytes) : s.Fills (s.openStream payload).1 := by
  unfold Session.openStream
  split_ifs with hdone hlimit
  · exact .inl le_rfl
  · exact .inl le_rfl
  · exact .inr ⟨UInt32.not_le.mp hlimit, length_register _⟩

/-- `handleOpen` registers a stream only if there is room. -/
theorem handle_open_fills (id : UInt32) (payload : Bytes) :
    s.Fills (s.handleOpen id payload) := by
  unfold Session.handleOpen
  split_ifs with hlive hparity hlimit
  · exact .inl le_rfl
  · exact .inl le_rfl
  · exact .inl le_rfl
  · exact .inr ⟨UInt32.not_le.mp hlimit, length_register _⟩

theorem step_fills {a : Action} (hstep : s.step a = some s') : s.Fills s' := by
  -- `Moves` does not say that `Open` found room, so its step is inverted here once more.
  by_cases hopen : ∃ index choice payload, a = .advance index choice ∧
      s.calls[index]? = some (.openStream payload)
  · obtain ⟨index, choice, payload, rfl, hcall⟩ := hopen
    simp only [Session.step, hcall, Option.bind_some, Session.callStep, Option.map_some,
      Option.some.injEq] at hstep
    subst hstep
    exact open_fills (s := s) payload
  refine .inl ?_
  cases step_moves hstep with
  | opened index choice payload hcall =>
      exact absurd ⟨index, choice, payload, rfl, hcall⟩ hopen
  | @turned index choice h op c turn =>
      show ((s.setCell h turn.cell).perform h.id turn.effect).streams.length ≤ _
      cases turn.effect with
      | silent => exact le_rfl
      | send type payload => exact le_rfl
      | retire => exact List.length_filter_le _ _
  | served => exact serve_step_length ..
  | refused => exact (congrArg List.length (reply_streams ..)).le
  | ponged => exact (congrArg List.length (reply_streams ..)).le
  | lookedUp => exact (congrArg List.length (serve_streams ..)).le
  | collected => exact Nat.zero_le _
  | _ => exact le_rfl

theorem read_fills {f : Frame} (hread : s.read f = some s') : s.Fills s' := by
  obtain ⟨hidle, hreads⟩ := read_reads hread
  by_cases hopen : f.type = .openStream
  · simp only [Session.read, hidle, if_true, Option.some.injEq, Session.receive, hopen] at hread
    subst hread
    split_ifs
    · exact .inl le_rfl
    · exact handle_open_fills ..
  refine .inl ?_
  cases hreads with
  | registered htype => exact absurd htype hopen
  | answered => exact (congrArg List.length (complete_open_streams ..)).le
  | close => exact (congrArg List.length (complete_open_streams f.streamID _)).le
  | _ => exact le_rfl

/-- The queue takes a stream only if its channel has room. -/
theorem react_queue {e : Event} (hreact : s.react e = some s') :
    s'.acceptCh.length ≤ s.acceptCh.length ∨ s'.acceptCh.length ≤ s.limits.maxStreams.toNat := by
  rcases react_cases hreact with ⟨a, -, hmoves⟩ | ⟨f, -, -, -, hreads⟩
  · cases hmoves with
    | @accepted index choice h rest hqueue =>
        refine .inl ?_
        show rest.length ≤ _
        rw [hqueue, List.length_cons]
        exact Nat.le_succ _
    | turned => exact .inl (congrArg List.length (perform_queue ..)).le
    | @served h task c =>
        by_cases htask : task = .queueing
        · subst htask
          simp only [Session.serveStep]
          split_ifs with hroom
          · refine .inr ?_
            show (s.acceptCh ++ [h]).length ≤ _
            rw [List.length_append, List.length_singleton]
            exact hroom
          · exact .inl le_rfl
        · refine .inl ?_
          cases task with
          | queueing => exact absurd rfl htask
          | acking => exact (congrArg List.length (reply_calls ..).2).le
          | delivering payload =>
              simp only [Session.serveStep]
              cases c.stream.deliver payload <;> exact le_rfl
          | retiring =>
              simp only [Session.serveStep]
              split_ifs <;> exact le_rfl
          | _ => exact le_rfl
    | refused => exact .inl (congrArg List.length (reply_calls ..).2).le
    | ponged => exact .inl (congrArg List.length (reply_calls ..).2).le
    | lookedUp => exact .inl (congrArg List.length (serve_calls ..).2).le
    | _ => exact .inl le_rfl
  · refine .inl ?_
    cases hreads with
    | answered => exact (congrArg List.length (complete_open_calls ..).2).le
    | close => exact (congrArg List.length (complete_open_calls f.streamID _).2).le
    | _ => exact le_rfl

/-- While the map is within its limit, the test for room is not confused by the conversion. -/
theorem Session.HasRoom.lt (h : s.HasRoom)
    (hcapped : s.streams.length ≤ s.limits.maxStreams.toNat) :
    s.streams.length < s.limits.maxStreams.toNat := by
  have hfits : s.streams.length < 2 ^ 32 := hcapped.trans_lt s.limits.maxStreams.toNat_lt
  rw [Session.HasRoom, UInt32.lt_iff_toNat_lt, UInt32.toNat_ofNat_of_lt' hfits] at h
  exact h

/-- No event takes a session beyond the limits it was built with. -/
theorem capped_react {e : Event} (h : s.Capped) (hreact : s.react e = some s') : s'.Capped := by
  have hlimits := react_limits hreact
  have hfills : s.Fills s' := by
    cases e with
    | act a => exact step_fills hreact
    | frame f =>
        simp only [Session.react, Option.ite_none_right_eq_some] at hreact
        exact read_fills hreact.2
  refine ⟨?_, ?_⟩
  · rw [hlimits]
    rcases hfills with hle | ⟨hroom, hle⟩
    · exact hle.trans h.streams
    · exact hle.trans (hroom.lt h.streams)
  · rw [hlimits]
    rcases react_queue hreact with hle | hle
    · exact hle.trans h.queue
    · exact hle

/-- A session that was built from a HELLO_ACK keeps to what it announced. -/
theorem capped_run {isClient : Bool} {ack : HelloAck} {events : List Event}
    (hrun : run Session.react (newSession isClient ack) events = some s) :
    s.Capped ∧ s.limits.maxStreams = ack.maxStreams := by
  have hkept : ∀ {t : Session} {e : Event} {t' : Session},
      t.Capped ∧ t.limits.maxStreams = ack.maxStreams → t.react e = some t' →
        t'.Capped ∧ t'.limits.maxStreams = ack.maxStreams := by
    rintro t e t' ⟨hcapped, hmax⟩ hreact
    refine ⟨capped_react hcapped hreact, ?_⟩
    rw [react_limits hreact]
    exact hmax
  exact run_invariant hkept ⟨⟨Nat.zero_le _, Nat.zero_le _⟩, rfl⟩ hrun

end Capped

section Flood

variable {s : Session}

/-- The identifier of a relay's `n`-th stream. -/
def relayID (n : Nat) : UInt32 := UInt32.ofNat (2 * (n + 1))

/-- The relay opens a stream, and the read loop acknowledges and queues it. -/
def openRound (n : Nat) : List Event :=
  [.frame ⟨.openStream, relayID n, []⟩, .act .dispatch, .act .dispatch]

/-- The relay opens one stream after another. -/
def flood : Nat → List Event
  | 0 => []
  | n + 1 => flood n ++ openRound n

/-- A session at rest that holds the first `n` streams of a relay. -/
structure Session.Flooded (s : Session) (ack : HelloAck) (n : Nat) : Prop where
  isClient : s.isClient = true
  limits : s.limits.maxStreams = ack.maxStreams
  reader : s.reader = .idle
  done : s.done = false
  streams : s.streams.map Handle.id = ((List.range n).map relayID).reverse
  queue : s.acceptCh.length = n

theorem to_nat_relay_id {n : Nat} (hn : n + 1 < 2 ^ 31) : (relayID n).toNat = 2 * (n + 1) := by
  have hfits : 2 * (n + 1) < 2 ^ 32 := by omega
  exact UInt32.toNat_ofNat_of_lt' hfits

/-- The identifiers are new, and of the relay's parity. -/
theorem relay_id_new {n i : Nat} (hn : n + 1 < 2 ^ 31) (hi : i < n) : relayID i ≠ relayID n := by
  intro h
  have heq := congrArg UInt32.toNat h
  rw [to_nat_relay_id (by omega), to_nat_relay_id hn] at heq
  omega

theorem relay_id_even {n : Nat} (hn : n + 1 < 2 ^ 31) : relayID n % 2 = 0 := by
  rw [← UInt32.toNat_inj, UInt32.toNat_mod, to_nat_relay_id hn]
  show 2 * (n + 1) % 2 = 0
  omega

theorem Session.Flooded.free {ack : HelloAck} {n : Nat} (h : s.Flooded ack n)
    (hn : n + 1 < 2 ^ 31) : ∀ i ∈ s.streams, i.id ≠ relayID n := by
  intro i hi heq
  have hmem : i.id ∈ s.streams.map Handle.id := List.mem_map_of_mem hi
  rw [h.streams, List.mem_reverse, List.mem_map] at hmem
  obtain ⟨k, hk, hid⟩ := hmem
  exact relay_id_new hn (List.mem_range.mp hk) (hid.trans heq)

theorem Session.Flooded.length {ack : HelloAck} {n : Nat} (h : s.Flooded ack n) :
    s.streams.length = n := by
  have hlength := congrArg List.length h.streams
  rwa [List.length_map, List.length_reverse, List.length_map, List.length_range] at hlength

/-- An OPEN for a new identifier of the peer is registered while there is room. -/
theorem read_open {id : UInt32} (hidle : s.reader = .idle)
    (hfree : ∀ i ∈ s.streams, i.id ≠ id) (hparity : s.owns id = false) (hroom : s.HasRoom) :
    s.react (.frame ⟨.openStream, id, []⟩) =
      some { s.register (newStream id s.limits.window) with
        reader := .serving (s.nextHandle id) .acking } := by
  have hlive : ¬ (s.streams.any fun i => i.id = id) = true := by
    rw [Bool.not_eq_true, List.any_eq_false]
    intro i hi
    simpa using hfree i hi
  have howns : ¬ decide (id % 2 = 1) = s.isClient := by simpa [Session.owns] using hparity
  have hsize : ¬ s.limits.maxFrame < UInt32.ofNat 0 := UInt32.not_lt.mpr UInt32.zero_le
  simp only [Session.react, List.length_nil, Nat.zero_le, if_true, Session.read, hidle,
    Session.receive]
  rw [if_neg hsize, Session.handleOpen, if_neg hlive, if_neg howns,
    if_neg (UInt32.not_le.mpr hroom)]
  rfl

/-- The read loop acknowledges a stream and queues it, while the connection can be written and
the channel has room. -/
theorem run_acking {h : Handle} {c : Cell} (hreader : s.reader = .serving h .acking)
    (hcell : s.cell h = some c) (hdone : s.done = false)
    (hroom : s.acceptCh.length < s.limits.maxStreams.toNat) :
    run Session.react s [.act .dispatch, .act .dispatch] =
      some { s.emit .streamOK h.id [] with acceptCh := s.acceptCh ++ [h], reader := .idle } := by
  have hwritable : writable s.done [] = true := by rw [hdone]; rfl
  have hacked : s.react (.act .dispatch) =
      some { s.emit .streamOK h.id [] with reader := .serving h .queueing } := by
    show s.dispatch = _
    simp only [Session.dispatch, hreader, hcell, Option.map_some, Session.serveStep,
      Session.reply, hwritable, if_true]
  have hobject : (s.cells h.id)[h.nth]? = some c := hcell
  rw [run_cons, hacked, Option.bind_some, run_cons]
  simp only [Session.react, Session.step, Session.dispatch, Session.cell, Session.emit, hobject,
    Option.map_some, Session.serveStep, hroom, if_true, Option.bind_some, run_nil]

/-- One more stream, while the announced limit has room for it. -/
theorem Session.Flooded.round {ack : HelloAck} {n : Nat} (h : s.Flooded ack n)
    (hn : n + 1 < 2 ^ 31) (hroom : n < ack.maxStreams.toNat) :
    ∃ s', run Session.react s (openRound n) = some s' ∧ s'.Flooded ack (n + 1) := by
  have hparity : s.owns (relayID n) = false := by
    rw [Session.owns, relay_id_even hn, h.isClient]
    rfl
  have hasRoom : s.HasRoom := by
    have hfits : n < 2 ^ 32 := hroom.trans ack.maxStreams.toNat_lt
    rw [Session.HasRoom, h.limits, h.length, UInt32.lt_iff_toNat_lt,
      UInt32.toNat_ofNat_of_lt' hfits]
    exact hroom
  have hqueue : s.acceptCh.length < s.limits.maxStreams.toNat := by
    rw [h.queue, h.limits]
    exact hroom
  have hkept : (s.streams.filter fun i => i.id ≠ relayID n) = s.streams := by
    rw [List.filter_eq_self]
    intro i hi
    simpa using h.free hn i hi
  -- The object that the OPEN has created is there for the two steps that follow.
  have hcell : (s.register (newStream (relayID n) s.limits.window)).cell
      (s.nextHandle (relayID n)) = some (newCell (newStream (relayID n) s.limits.window)) := by
    simp [Session.cell, Session.register, Session.nextHandle, newStream]
  have hread := read_open h.reader (h.free hn) hparity hasRoom
  have hacked := run_acking (s := { s.register (newStream (relayID n) s.limits.window) with
    reader := .serving (s.nextHandle (relayID n)) .acking }) rfl hcell h.done hqueue
  rw [openRound, run_cons, hread, Option.bind_some, hacked]
  refine ⟨_, rfl, h.isClient, h.limits, rfl, h.done, ?_, ?_⟩
  · show (s.nextHandle (relayID n) :: s.streams.filter fun i => i.id ≠ relayID n).map
      Handle.id = _
    rw [hkept, List.map_cons, h.streams, List.range_succ, List.map_append, List.reverse_append]
    rfl
  · show (s.acceptCh ++ [s.nextHandle (relayID n)]).length = n + 1
    rw [List.length_append, h.queue]
    rfl

/-- A relay opens as many streams as it has announced. -/
theorem flood_run {ack : HelloAck} {n : Nat} (hn : n < 2 ^ 31) (hroom : n ≤ ack.maxStreams.toNat) :
    ∃ s, run Session.react (newSession true ack) (flood n) = some s ∧ s.Flooded ack n := by
  induction n with
  | zero => exact ⟨_, rfl, rfl, rfl, rfl, rfl, rfl, rfl⟩
  | succ n ih =>
      obtain ⟨s, hrun, hflooded⟩ := ih (by omega) (by omega)
      obtain ⟨s', hround, hflooded'⟩ := hflooded.round hn hroom
      refine ⟨s', ?_, hflooded'⟩
      rw [flood, run_append, hrun]
      exact hround

end Flood

/-- The cap of a dialled session, against any relay. The stream map and the accept queue stay
within the configuration's `MaxStreams` if and only if the relay announces no more than that. A
relay that announces more gets one stream more than the configuration allows, as long as there
are identifiers for them. -/
theorem dialled_cap_iff {cfg : Config} {x : Exchange} {s : Session} {f : Frame} {ack : HelloAck}
    (hdial : dial cfg x = .ok s) (hanswer : x.answer = .ok f)
    (hack : decodeHelloAck f.payload = .ok ack) :
    ((∀ events s', run Session.react s events = some s' →
        s'.streams.length ≤ cfg.maxStreams.toNat ∧ s'.acceptCap ≤ cfg.maxStreams.toNat ∧
          s'.acceptCh.length ≤ cfg.maxStreams.toNat) ↔ ack.maxStreams ≤ cfg.maxStreams) ∧
    (cfg.maxStreams < ack.maxStreams → cfg.maxStreams.toNat + 1 < 2 ^ 31 →
      ∃ events s', run Session.react s events = some s' ∧
        s'.streams.length = cfg.maxStreams.toNat + 1) := by
  obtain ⟨f', ack', hanswer', hack', rfl⟩ := dial_ok hdial
  obtain rfl : f = f' := Except.ok.inj (hanswer.symm.trans hanswer')
  obtain rfl : ack = ack' := Except.ok.inj (hack.symm.trans hack')
  refine ⟨⟨fun h => ?_, fun hle events s' hrun => ?_⟩, fun hlt hids => ?_⟩
  · -- The queue is made before the first frame arrives.
    obtain ⟨-, hcap, -⟩ := h [] _ rfl
    exact UInt32.le_iff_toNat_le.mpr hcap
  · obtain ⟨hcapped, hmax⟩ := capped_run hrun
    rw [UInt32.le_iff_toNat_le, ← hmax] at hle
    exact ⟨hcapped.streams.trans hle, hle, hcapped.queue.trans hle⟩
  · obtain ⟨s', hrun, hflooded⟩ := flood_run hids (UInt32.lt_iff_toNat_lt.mp hlt)
    exact ⟨_, s', hrun, hflooded.length⟩

section Relay

/-- A relay that announces the given number of streams and admits the agent. -/
def announcing (maxStreams : UInt32) : Exchange where
  helloSent := true
  answer := .ok ⟨.helloAck, 0, (⟨version, 65536, 262144, maxStreams⟩ : HelloAck).encode⟩
  authSent := true
  outcome := .ok ⟨.authOK, 0, (⟨[115]⟩ : AuthOK).encode⟩

/-- An agent that allows two streams. -/
def twoStreams : Config := ⟨0, 0, 2⟩

/-- A relay that announces two streams is held to two. -/
theorem dialled_cap_two : ∃ s, dial twoStreams (announcing 2) = .ok s ∧
    ∀ events s', run Session.react s events = some s' →
      s'.streams.length ≤ 2 ∧ s'.acceptCap ≤ 2 ∧ s'.acceptCh.length ≤ 2 := by
  have hack : decodeHelloAck (⟨version, 65536, 262144, 2⟩ : HelloAck).encode =
      .ok ⟨version, 65536, 262144, 2⟩ := by
    decide +kernel
  have hcap := @dialled_cap_iff twoStreams (announcing 2) _ _ _ rfl rfl hack
  exact ⟨_, rfl, hcap.1.mpr (UInt32.le_refl 2)⟩

/-- The relay announces `0xFFFFFFFF` and opens three streams: the agent that allows two has three
registered, and its queue has room for four billion. -/
theorem three_streams_on_two : ∃ s s', dial twoStreams (announcing 0xFFFFFFFF) = .ok s ∧
    run Session.react s (flood 3) = some s' ∧ s'.streams.length = 3 ∧
    s'.acceptCap = 4294967295 := by
  have hview : ((dial twoStreams (announcing 0xFFFFFFFF)).toOption.bind fun s =>
      (run Session.react s (flood 3)).map fun s' => (s'.streams.length, s'.acceptCap)) =
      some (3, 4294967295) := by
    decide +kernel
  obtain ⟨s, hdial, hrest⟩ := Option.bind_eq_some_iff.mp hview
  obtain ⟨s', hrun, hs'⟩ := Option.map_eq_some_iff.mp hrest
  obtain ⟨hstreams, hcap⟩ := Prod.mk.inj hs'
  refine ⟨s, s', ?_, hrun, hstreams, hcap⟩
  cases hresult : dial twoStreams (announcing 0xFFFFFFFF) with
  | error e =>
      rw [hresult] at hdial
      cases hdial
  | ok t =>
      rw [hresult] at hdial
      cases hdial
      rfl

end Relay

end AccessRelay.Mux
