import AccessRelay.Mux.Objects

/-!
# A graceful close and what comes after it

A peer that has sent its last byte half-closes the stream with the reason ok. What it sent is then
to be read, and after that `Read` reports the end of the stream. `Stream.readAll` is a caller that
reads until something else than bytes comes back.

`kill` marks every stream that is in the table when the session ends as reset, also one that the
peer has half-closed, and `Read` looks at the reset before it looks at the close. The end of the
stream is then an error (`kill_turns_end_into_error`). A stream that `closeOnce` does not kill
keeps its end, and these are the only ones (`graceful_close_kept`).
-/

namespace AccessRelay.Mux

open Encoding Proto Machine

/-- Successive calls of `Read`, at most `n`, up to the first that returns no bytes: the bytes they
return, and what the last one comes to. -/
def Stream.readAll (threshold : UInt32) (length : Nat) : Nat → Stream → Bytes × ReadResult
  | 0, _ => ([], .wait)
  | n + 1, st =>
      match st.read threshold length with
      | .bytes data _ after =>
          (data ++ (readAll threshold length n after).1, (readAll threshold length n after).2)
      | .wait => ([], .wait)
      | .closed reason => ([], .closed reason)
      | .eof => ([], .eof)

/-- The bytes of a STREAM_DATA frame that `deliver` puts into the buffer. -/
def Stream.takes (st : Stream) (b : Bytes) : Bytes :=
  if st.reset ∨ st.remoteClosed ∨ st.recvWindow < UInt32.ofNat b.length then [] else b

/-- The bytes an event delivers to a stream. -/
def Session.delivers (s : Session) (h : Handle) : Event → Bytes
  | .act .dispatch =>
      match s.reader, s.cell h with
      | .serving i (.delivering b), some c => if i = h then c.stream.takes b else []
      | _, _ => []
  | _ => []

/-- The bytes a run delivers to a stream. -/
def deliveredTo (h : Handle) : Session → List Event → Bytes
  | _, [] => []
  | s, e :: rest =>
      s.delivers h e ++ ((s.react e).map fun s' => deliveredTo h s' rest).getD []

/-- The bytes of a stream that have been read or can be read. -/
def Session.readable (s : Session) (h : Handle) : Bytes :=
  ((s.cell h).map fun c => c.history.returned ++ c.stream.buf).getD []

/-- The local side does not reset the stream. -/
def neverResets (h : Handle) (s : Session) : Event → Bool
  | .act (.advance index _) =>
      match s.calls[index]? with
      | some (.stream i (.reset _)) => i ≠ h
      | _ => true
  | _ => true

/-- `closeOnce` does not kill the stream. -/
def spares (h : Handle) (s : Session) : Event → Bool
  | .act (.endStep choice) =>
      match s.ending with
      | .killing _ streams _ => streams[choice]? ≠ some h
      | _ => true
  | _ => true

/-- Successive `Read` calls return the rest of these bytes and then report the end of the stream,
whatever the size of their buffers. -/
def Session.ReadsOut (s : Session) (h : Handle) (data : Bytes) : Prop :=
  ∃ c, s.cell h = some c ∧ c.history.returned ++ c.stream.buf = data ∧
    ∀ length, 0 < length →
      c.stream.readAll s.limits.creditThreshold length (c.stream.buf.length + 1) =
        (c.stream.buf, .eof)

section Reading

variable {st : Stream} {threshold : UInt32} {length n : Nat}

/-- A stream that the peer has closed in good order is read to its end. -/
theorem read_all_eof (hclosed : st.remoteClosed = true) (hreset : st.reset = false)
    (hlength : 0 < length) (hn : st.buf.length < n) :
    st.readAll threshold length n = (st.buf, .eof) := by
  induction n generalizing st with
  | zero => omega
  | succ n ih =>
      unfold Stream.readAll
      cases hread : st.read threshold length with
      | wait | closed reason =>
          unfold Stream.read at hread
          simp only [hreset, hclosed, Bool.false_eq_true, if_false, if_true] at hread
          split_ifs at hread
      | eof => rw [(Stream.read_eof hread).1]
      | bytes data credit after =>
          obtain ⟨hdata, hbuf, hsome, hafter, -⟩ := Stream.read_bytes hread
          have hshorter : after.buf.length < n := by
            have hpos := List.length_pos_iff.mpr hsome
            rw [hbuf, List.length_drop]
            omega
          have hrest : after.readAll threshold length n = (after.buf, .eof) :=
            ih (by rw [hafter]; exact hclosed) (by rw [hafter]; exact hreset) hshorter
          simp only [hrest, hdata, hbuf, List.take_append_drop]

/-- Only a stream that has not been reset is read to its end. -/
theorem not_reset_of_read_all (h : (st.readAll threshold length n).2 = .eof) :
    st.reset = false := by
  induction n generalizing st with
  | zero => cases h
  | succ n ih =>
      unfold Stream.readAll at h
      cases hread : st.read threshold length with
      | wait | closed reason =>
          rw [hread] at h
          cases h
      | eof => exact (Stream.read_eof hread).2.1
      | bytes data credit after =>
          rw [hread] at h
          have hlater := ih h
          rw [(Stream.read_bytes hread).2.2.2.1] at hlater
          exact hlater

end Reading

section Bytes

variable {s s' : Session} {h : Handle} {c c' : Cell} {e : Event}

theorem deliver_takes {st' : Stream} {b : Bytes} (hdeliver : c.stream.deliver b = some st') :
    st'.buf = c.stream.buf ++ c.stream.takes b := by
  unfold Stream.deliver at hdeliver
  unfold Stream.takes
  split_ifs at hdeliver with hdone hwindow
  · cases hdeliver
    rcases hdone with hreset | hclosed
    · simp [hreset]
    · simp [hclosed]
  · cases hdeliver
    rw [if_neg]
    intro hany
    rcases hany with hreset | hclosed | hover
    · exact hdone (.inl hreset)
    · exact hdone (.inr hclosed)
    · exact hwindow hover

theorem deliver_none {b : Bytes} (hdeliver : c.stream.deliver b = none) :
    c.stream.takes b = [] := by
  unfold Stream.deliver at hdeliver
  unfold Stream.takes
  split_ifs at hdeliver with hdone hwindow
  rw [if_pos (.inr (.inr hwindow))]

/-- No operation loses a byte of a stream that is not reset in it. -/
theorem turn_readable {lim : Limits} {done : Bool} {ack : Option Reason} {op : Op} {turn : Turn}
    (hturn : OpStep lim done ack c op turn) (hreset : turn.cell.stream.reset = false) :
    turn.cell.history.returned ++ turn.cell.stream.buf =
      c.history.returned ++ c.stream.buf := by
  cases hturn with
  | readBytes length hread =>
      obtain ⟨hdata, hbuf, -⟩ := Stream.read_bytes hread
      simp only [hdata, hbuf, List.append_assoc, List.take_append_drop]
  | took p written hlength hwrite =>
      rw [Stream.write_after hwrite]
  | resetAbort r hopen => cases hreset
  | _ => rfl

/-- An event other than a delivery loses no byte of a stream that is not reset in it. -/
theorem touches_readable (htouches : s.Touches h c e c') (hreset : c'.stream.reset = false)
    (hreader : e = .act .dispatch → ∀ b, s.reader ≠ .serving h (.delivering b)) :
    c'.history.returned ++ c'.stream.buf = c.history.returned ++ c.stream.buf := by
  cases htouches with
  | unchanged => rfl
  | started hop =>
      unfold Op.start at hop
      split at hop <;> cases hop <;> rfl
  | turned index choice hcall hturn => exact turn_readable hturn hreset
  | delivered hserving hdeliver => exact absurd hserving (hreader rfl _)
  | granted hserving =>
      unfold Stream.grantCredit
      split <;> rfl
  | @closed reason hserving =>
      show c.history.returned ++ (c.stream.remoteClose reason).buf = _
      unfold Stream.remoteClose at hreset ⊢
      split_ifs at hreset ⊢ <;> rfl
  | killed choice hending hh =>
      rw [kill_reset] at hreset
      cases hreset

theorem readable_of_cell (hcell : s.cell h = some c) :
    s.readable h = c.history.returned ++ c.stream.buf := by
  rw [Session.readable, hcell]
  rfl

/-- One event adds to a stream what it delivers, as long as the stream is not reset in it. -/
theorem react_readable (hreact : s.react e = some s')
    (hreset : ∀ c', s'.cell h = some c' → c'.stream.reset = false) :
    s'.readable h = s.readable h ++ s.delivers h e := by
  cases hcell : s.cell h with
  | none =>
      have hnothing : s.delivers h e = [] := by
        unfold Session.delivers
        rw [hcell]
        split
        · split <;> simp_all
        · rfl
      have hold : s.readable h = [] := by rw [Session.readable, hcell]; rfl
      rw [hnothing, hold]
      cases hcell' : s'.cell h with
      | none => rw [Session.readable, hcell']; rfl
      | some c' =>
          obtain ⟨payload, rfl⟩ := cell_born hreact hcell hcell'
          rw [readable_of_cell hcell']
          rfl
  | some c =>
      obtain ⟨c', hcell', htouches⟩ := react_touches hreact hcell
      rw [readable_of_cell hcell, readable_of_cell hcell']
      by_cases hdelivery : e = .act .dispatch ∧ ∃ b, s.reader = .serving h (.delivering b)
      · obtain ⟨rfl, b, hreader⟩ := hdelivery
        have hdelivers : s.delivers h (.act .dispatch) = c.stream.takes b := by
          simp [Session.delivers, hreader, hcell]
        have hstep : some (s.serveStep h c (.delivering b)) = some s' := by
          simpa [Session.react, Session.step, Session.dispatch, hreader, hcell] using hreact
        rw [hdelivers]
        cases hdeliver : c.stream.deliver b with
        | none =>
            simp only [Session.serveStep, hdeliver, Option.some.injEq] at hstep
            rw [← hstep] at hcell'
            rw [show c' = c from Option.some.inj (hcell'.symm.trans hcell), deliver_none hdeliver,
              List.append_nil]
        | some st =>
            simp only [Session.serveStep, hdeliver, Option.some.injEq] at hstep
            rw [← hstep] at hcell'
            rw [show c' = { c with stream := st } from
              Option.some.inj (hcell'.symm.trans (cell_set_cell_self _ hcell)),
              deliver_takes hdeliver, List.append_assoc]
      · have hnothing : s.delivers h e = [] := by
          unfold Session.delivers
          split
          · split
            next i b d hreader hd =>
              split_ifs with hi
              · exact absurd ⟨rfl, b, hi ▸ hreader⟩ hdelivery
              · rfl
            · rfl
          · rfl
        rw [hnothing, List.append_nil]
        exact touches_readable htouches (hreset c' hcell')
          fun he b hreader => hdelivery ⟨he, b, hreader⟩

/-- A stream that is not reset was not reset before. -/
theorem react_not_reset (hreact : s.react e = some s')
    (hreset : ∀ c', s'.cell h = some c' → c'.stream.reset = false) :
    ∀ c, s.cell h = some c → c.stream.reset = false := by
  intro c hcell
  obtain ⟨c', hcell', htouches⟩ := react_touches hreact hcell
  by_contra hwas
  have hstays := (touches_grows htouches).reset (by simpa using hwas)
  rw [hreset c' hcell'] at hstays
  cases hstays

/-- A stream that is not reset holds what has been delivered to it and not been read. -/
theorem run_readable {events : List Event} (hrun : run Session.react s events = some s')
    (hreset : ∀ c', s'.cell h = some c' → c'.stream.reset = false) :
    s'.readable h = s.readable h ++ deliveredTo h s events ∧
      ∀ c, s.cell h = some c → c.stream.reset = false := by
  induction events generalizing s with
  | nil =>
      cases hrun
      exact ⟨by simp [deliveredTo], hreset⟩
  | cons e rest ih =>
      obtain ⟨t, ht, hrest⟩ := Option.bind_eq_some_iff.mp hrun
      obtain ⟨hlater, hnot⟩ := ih hrest
      refine ⟨?_, react_not_reset ht hnot⟩
      rw [hlater, react_readable ht hnot, deliveredTo, ht, List.append_assoc]
      rfl

end Bytes

section Guarded

variable {s s' : Session} {h : Handle} {c c' : Cell} {e : Event}

/-- The session, while the local side does not reset the stream. -/
def Session.reactUnreset (h : Handle) : Session → Event → Option Session :=
  restrict (neverResets h) Session.react

/-- The session, while `closeOnce` does not kill the stream either. -/
def Session.reactUnharmed (h : Handle) : Session → Event → Option Session :=
  restrict (spares h) (Session.reactUnreset h)

/-- A stream is then reset only by `remoteClose`. -/
theorem touches_reset (hnever : neverResets h s e = true) (hspares : spares h s e = true)
    (htouches : s.Touches h c e c') (hopen : c.stream.reset = false)
    (hreset : c'.stream.reset = true) :
    e = .act .dispatch ∧ ∃ reason, s.reader = .serving h (.closing reason) := by
  have hsame : c'.stream.reset = c.stream.reset → e = .act .dispatch ∧
      ∃ reason, s.reader = .serving h (.closing reason) := by
    intro heq
    rw [heq, hopen] at hreset
    cases hreset
  cases htouches with
  | unchanged => exact hsame rfl
  | started hop => exact hsame (congrArg Stream.reset (start_spec hop).1)
  | turned index choice hcall hturn =>
      cases hturn with
      | readBytes length hread =>
          refine hsame ?_
          rw [(Stream.read_bytes hread).2.2.2.1]
      | took p written hlength hwrite =>
          refine hsame ?_
          rw [Stream.write_after hwrite]
      | resetAbort r hlive => simp [neverResets, hcall] at hnever
      | _ => exact hsame rfl
  | delivered hreader hdeliver =>
      refine hsame ?_
      unfold Stream.deliver at hdeliver
      split_ifs at hdeliver <;> cases hdeliver <;> rfl
  | granted hreader =>
      refine hsame ?_
      unfold Stream.grantCredit
      split <;> rfl
  | closed hreader => exact ⟨rfl, _, hreader⟩
  | killed choice hending hh => simp [spares, hending, hh] at hspares

/-- Where a stream is when the peer has aborted it: out of the table, or about to be. The read loop
is not about to close such a stream. -/
structure Session.Orderly (s : Session) (h : Handle) : Prop where
  table : ∀ c, s.cell h = some c → c.stream.reset = true → h ∈ s.streams →
    s.reader = .serving h .retiring
  closing : ∀ c reason, s.cell h = some c → s.reader = .serving h (.closing reason) →
    c.stream.reset = false

/-- The read loop comes to close a stream it has found in the table. -/
theorem closing_react {reason : Reason} (hreact : s.react e = some s')
    (hreader : s'.reader = .serving h (.closing reason)) :
    (s.reader = s'.reader ∧ e ≠ .act .dispatch) ∨
      (h ∈ s.streams ∧ s'.cells = s.cells ∧ s.reader ≠ .serving h .retiring) := by
  rcases react_cases hreact with ⟨a, rfl, hmoves⟩ | ⟨f, rfl, -, hidle, hreads⟩
  · by_cases ha : a = .dispatch
    · right
      subst ha
      cases hmoves with
      | @served i task c hserving hcell =>
          exfalso
          cases task with
          | acking =>
              rcases (reply_control (s := s) .streamOK i.id [] (.serving i .queueing)).1 with
                hnext | hnext
              · rw [Session.serveStep, hnext] at hreader
                cases hreader
              · rw [Session.serveStep, hnext] at hreader
                cases hreader
          | queueing =>
              simp only [Session.serveStep] at hreader
              split_ifs at hreader
              cases hreader
          | delivering b =>
              simp only [Session.serveStep] at hreader
              cases hdeliver : c.stream.deliver b <;> simp [hdeliver] at hreader
          | retiring =>
              simp only [Session.serveStep] at hreader
              split_ifs at hreader
          | dropping | granting credit | closing reason => cases hreader
      | @lookedUp id reason' hlooking =>
          obtain ⟨hmem, -⟩ := (serve_control (s := s) id (.closing reason')).2.2 _ _ hreader
          exact ⟨hmem, serve_cells _ _, by rw [hlooking]; simp⟩
      | refused hrefusing =>
          rcases (reply_control (s := s) _ _ _ _).1 with hnext | hnext
          · rw [hnext] at hreader
            cases hreader
          · rw [hnext] at hreader
            cases hreader
      | ponged hponging =>
          rcases (reply_control (s := s) _ _ _ _).1 with hnext | hnext
          · rw [hnext] at hreader
            cases hreader
          · rw [hnext] at hreader
            cases hreader
      | quit _ => cases hreader
      | told _ => cases hreader
      | woken _ _ => cases hreader
    · refine .inl ⟨?_, fun heq => ha (Event.act.inj heq)⟩
      by_cases hidle : s.reader = .idle
      · -- An idle read loop stays idle or fails.
        exfalso
        cases hmoves with
        | @turned index choice i op c turn hcall hcell hturn =>
            have hkept := (perform_control (s := s.setCell i turn.cell) i.id turn.effect).1
            have hidle' : s.reader = .serving h (.closing reason) := hkept.symm.trans hreader
            rw [hidle] at hidle'
            cases hidle'
        | broken err _ => cases hreader
        | served _ _ | refused _ | lookedUp _ | ponged _ | quit _ | told _ | woken _ _ =>
            exact ha rfl
        | _ =>
            have hidle' : s.reader = .serving h (.closing reason) := hreader
            rw [hidle] at hidle'
            cases hidle'
      · exact (moves_reader hmoves ha hidle).symm
  · exfalso
    have hkept : s'.reader = s.reader → False := by
      intro heq
      rw [heq, hidle] at hreader
      cases hreader
    cases hreads with
    | answered htype => exact hkept (complete_open_control _ _).1
    | pong htype => exact hkept rfl
    | _ => cases hreader

/-- An abort leaves the table in order. -/
theorem orderly_react (ho : s.Orderly h) (hnever : neverResets h s e = true)
    (hspares : spares h s e = true) (hreact : s.react e = some s') : s'.Orderly h := by
  cases hcell : s.cell h with
  | none =>
      have hfresh : ∀ c', s'.cell h = some c' → c'.stream.reset = false := by
        intro c' hcell'
        obtain ⟨payload, rfl⟩ := cell_born hreact hcell hcell'
        rfl
      refine ⟨?_, fun c' reason hcell' _ => hfresh c' hcell'⟩
      intro c' hcell' hreset
      rw [hfresh c' hcell'] at hreset
      cases hreset
  | some c =>
      obtain ⟨c₁, hc₁, htouches⟩ := react_touches hreact hcell
      refine ⟨?_, ?_⟩
      · intro c' hcell' hreset hmem
        rw [hc₁, Option.some.injEq] at hcell'
        subst hcell'
        cases hwas : c.stream.reset with
        | true =>
            have hretiring := ho.table c hcell hwas (streams_react hreact hcell hmem)
            rcases react_cases hreact with ⟨a, rfl, hmoves⟩ | ⟨f, rfl, -, hidle, -⟩
            · by_cases ha : a = .dispatch
              · -- A stream that is reset is finished, and leaves the table here.
                subst ha
                have hstep : { s.retire h.id with reader := .idle } = s' := by
                  simpa [Session.react, Session.step, Session.dispatch, hretiring, hcell,
                    Session.serveStep, Stream.finished, hwas] using hreact
                rw [← hstep] at hmem
                have hne := of_decide_eq_true (List.mem_filter.mp hmem).2
                exact absurd rfl hne
              · rw [moves_reader hmoves ha (by rw [hretiring]; simp), hretiring]
            · rw [hidle] at hretiring
              cases hretiring
        | false =>
            obtain ⟨rfl, reason, hclosing⟩ := touches_reset hnever hspares htouches hwas hreset
            have hstep : some (s.serveStep h c (.closing reason)) = some s' := by
              simpa [Session.react, Session.step, Session.dispatch, hclosing, hcell] using hreact
            rw [← Option.some.inj hstep]
            rfl
      · intro c' reason hcell' hreader
        rcases closing_react hreact hreader with ⟨hsame, hother⟩ | ⟨hmem, hcells, hnot⟩
        · rw [hc₁, Option.some.injEq] at hcell'
          subst hcell'
          by_contra hreset
          exact hother (touches_reset hnever hspares htouches
            (ho.closing c reason hcell (hsame.trans hreader)) (by simpa using hreset)).1
        · rw [cell_congr hcells, hcell, Option.some.injEq] at hcell'
          subst hcell'
          by_contra hreset
          exact hnot (ho.table c hcell (by simpa using hreset) hmem)

/-- The peer has closed the stream in good order, nobody has reset it, and these are the bytes that
were delivered to it. -/
def Session.ClosedWell (s : Session) (h : Handle) (data : Bytes) : Prop :=
  ∃ c, s.cell h = some c ∧ c.stream.remoteClosed = true ∧ c.stream.reset = false ∧
    c.history.returned ++ c.stream.buf = data

variable {data : Bytes}

theorem Session.ClosedWell.reads_out (hs : s.ClosedWell h data) : s.ReadsOut h data := by
  obtain ⟨c, hcell, hclosed, hreset, hdata⟩ := hs
  exact ⟨c, hcell, hdata, fun length hlength =>
    read_all_eof hclosed hreset hlength (Nat.lt_succ_self _)⟩

theorem Session.ReadsOut.not_reset (hs : s.ReadsOut h data) :
    ∀ c, s.cell h = some c → c.stream.reset = false := by
  obtain ⟨c, hcell, -, hread⟩ := hs
  intro c' hcell'
  rw [hcell, Option.some.injEq] at hcell'
  subst hcell'
  exact not_reset_of_read_all (congrArg Prod.snd (hread 1 Nat.one_pos))

/-- A stream that the peer has closed takes no more bytes. -/
theorem delivers_closed (hcell : s.cell h = some c) (hclosed : c.stream.remoteClosed = true) :
    s.delivers h e = [] := by
  unfold Session.delivers
  rw [hcell]
  split
  · split
    next i b d hreader hd =>
      cases hd
      split_ifs
      · simp [Stream.takes, hclosed]
      · rfl
    · rfl
  · rfl

theorem closed_well_react (hs : s.ClosedWell h data) (hstep : s.reactUnharmed h e = some s') :
    s'.ClosedWell h data := by
  obtain ⟨hspares, hstep⟩ := restrict_eq_some.mp hstep
  obtain ⟨hnever, hreact⟩ := restrict_eq_some.mp hstep
  obtain ⟨c, hcell, hclosed, hreset, hdata⟩ := hs
  obtain ⟨c', hcell', htouches⟩ := react_touches hreact hcell
  have hreset' : c'.stream.reset = false := by
    by_contra hnow
    obtain ⟨rfl, reason, hclosing⟩ :=
      touches_reset hnever hspares htouches hreset (by simpa using hnow)
    -- The close finds the stream closed, and does nothing.
    have hreact' : some (s.serveStep h c (.closing reason)) = some s' := by
      simpa [Session.react, Session.step, Session.dispatch, hclosing, hcell] using hreact
    rw [← Option.some.inj hreact'] at hcell'
    have hc' := Option.some.inj (hcell'.symm.trans (cell_set_cell_self _ hcell))
    rw [hc'] at hnow
    simp [Stream.remoteClose, hclosed, hreset] at hnow
  have hbytes : s'.readable h = s.readable h ++ s.delivers h e := by
    refine react_readable hreact ?_
    intro d hd
    rw [hcell', Option.some.injEq] at hd
    exact hd ▸ hreset'
  rw [delivers_closed hcell hclosed, List.append_nil, readable_of_cell hcell,
    readable_of_cell hcell', hdata] at hbytes
  exact ⟨c', hcell', (touches_grows htouches).remoteClosed hclosed, hreset', hbytes⟩

/-- A stream that `closeOnce` kills is reset. -/
theorem killed_reset (hreact : s.react e = some s') (hspares : spares h s e = false) :
    ∃ c, s'.cell h = some c ∧ c.stream.reset = true := by
  cases e with
  | act a =>
      cases a with
      | endStep choice =>
          cases hending : s.ending with
          | killing reason streams pending =>
              have hh : streams[choice]? = some h := by simpa [spares, hending] using hspares
              have hmoves : s.Moves (.endStep choice) s' := step_moves hreact
              cases hmoves with
              | @killed _ reason' streams' pending' i c hending' hi hcell =>
                  rw [hending] at hending'
                  cases hending'
                  rw [hh, Option.some.injEq] at hi
                  subst hi
                  exact ⟨_, cell_set_cell_self _ hcell, kill_reset _ _⟩
              | killedAll _ hending' =>
                  rw [hending] at hending'
                  cases hending'
                  cases hh
              | announced _ hending' | collected _ hending' | notified _ hending'
              | ended _ hending' =>
                  rw [hending] at hending'
                  cases hending'
          | _ => simp [spares, hending] at hspares
      | _ => cases hspares
  | frame f => cases hspares

/-- If the stream is not reset in the end, then `closeOnce` has not killed it on the way. -/
theorem spared_run {events : List Event} (hrun : run (Session.reactUnreset h) s events = some s')
    (hreset : ∀ c, s'.cell h = some c → c.stream.reset = false) :
    run (Session.reactUnharmed h) s events = some s' := by
  induction events generalizing s with
  | nil => exact hrun
  | cons e rest ih =>
      obtain ⟨t, ht, hrest⟩ := Option.bind_eq_some_iff.mp hrun
      have hnot := (run_readable (run_of_restrict hrest) hreset).2
      have hspares : spares h s e = true := by
        by_contra hkills
        obtain ⟨c, hcell, hkilled⟩ :=
          killed_reset (restrict_eq_some.mp ht).2 (by simpa using hkills)
        rw [hnot c hcell] at hkilled
        cases hkilled
      rw [run_cons, Session.reactUnharmed, restrict_eq_some.mpr ⟨hspares, ht⟩]
      exact ih hrest

theorem remote_close_ok {st : Stream} (hreset : st.reset = false) :
    st.remoteClose reasonOK = { st with remoteClosed := true } := by
  unfold Stream.remoteClose
  split_ifs with hdone hgraceful
  · have hclosed : st.remoteClosed = true := by simpa [hreset] using hdone
    rw [← hclosed]
  · rfl
  · exact absurd rfl hgraceful

/-- The run up to the close, without a kill and without a local reset. -/
theorem closed_well_close {isClient : Bool} {ack : HelloAck} {events : List Event}
    (hrun : run (Session.reactUnharmed h) (newSession isClient ack) events = some s)
    (hclosing : s.reader = .serving h (.closing reasonOK))
    (hclose : s.react (.act .dispatch) = some s') :
    s'.ClosedWell h (deliveredTo h (newSession isClient ack) events) := by
  have hkept : ∀ {t t' : Session} {e : Event}, t.Orderly h → t.reactUnharmed h e = some t' →
      t'.Orderly h := by
    intro t t' e ho hstep
    obtain ⟨hspares, hstep⟩ := restrict_eq_some.mp hstep
    obtain ⟨hnever, hreact⟩ := restrict_eq_some.mp hstep
    exact orderly_react ho hnever hspares hreact
  have horderly : s.Orderly h := by
    refine run_invariant hkept ?_ hrun
    refine ⟨?_, ?_⟩
    · intro c hcell
      cases hcell
    · intro c reason hcell
      cases hcell
  have hplain : run Session.react (newSession isClient ack) events = some s :=
    run_of_restrict (run_of_restrict hrun)
  obtain ⟨c, hcell⟩ := cell_of_has ((session_run hplain).1.serving h _ hclosing)
  have hreset := horderly.closing c reasonOK hcell hclosing
  have hreadable : s.readable h = deliveredTo h (newSession isClient ack) events := by
    refine (run_readable hplain ?_).1
    intro d hd
    rw [hcell, Option.some.injEq] at hd
    exact hd ▸ hreset
  have hstep : some (s.serveStep h c (.closing reasonOK)) = some s' := by
    simpa [Session.react, Session.step, Session.dispatch, hclosing, hcell] using hclose
  have hcell' : s'.cell h = some { c with stream := c.stream.remoteClose reasonOK } := by
    rw [← Option.some.inj hstep]
    exact cell_set_cell_self _ hcell
  rw [readable_of_cell hcell] at hreadable
  rw [remote_close_ok hreset] at hcell'
  exact ⟨_, hcell', rfl, hreset, hreadable⟩

end Guarded

/-- A run in which the local side never resets the stream, and in which the read loop closes it
with the reason ok. In every state after the close, `Read` returns the rest of the bytes that were
delivered before it and then reports the end of the stream, if and only if `closeOnce` kills the
stream neither before nor after. -/
theorem graceful_close_kept {isClient : Bool} {ack : HelloAck} {before after : List Event}
    {s₀ s₁ s : Session} {h : Handle}
    (hbefore : run (Session.reactUnreset h) (newSession isClient ack) before = some s₀)
    (hclosing : s₀.reader = .serving h (.closing reasonOK))
    (hclose : s₀.react (.act .dispatch) = some s₁)
    (hafter : run (Session.reactUnreset h) s₁ after = some s) :
    run (Session.reactUnharmed h) (newSession isClient ack) (before ++ .act .dispatch :: after) =
        some s ↔
      ∀ k t, run (Session.reactUnreset h) s₁ (after.take k) = some t →
        t.ReadsOut h (deliveredTo h (newSession isClient ack) before) := by
  have hdispatch : s₀.reactUnharmed h (.act .dispatch) = some s₁ := by
    simp only [Session.reactUnharmed, Session.reactUnreset, restrict, neverResets, spares, if_true,
      hclose]
  have hiff : s₁.ClosedWell h (deliveredTo h (newSession isClient ack) before) →
      (run (Session.reactUnharmed h) s₁ after = some s ↔
        ∀ k t, run (Session.reactUnreset h) s₁ (after.take k) = some t →
          t.ReadsOut h (deliveredTo h (newSession isClient ack) before)) := by
    intro hwell
    refine run_restrict_iff_always (fun hs => hs.reads_out)
      (fun hs hstep => closed_well_react hs hstep) ?_ hwell hafter
    intro t e t' hs hstep hkills hreads
    obtain ⟨c, hcell, hkilled⟩ := killed_reset (restrict_eq_some.mp hstep).2 hkills
    rw [hreads.not_reset c hcell] at hkilled
    cases hkilled
  rw [run_append]
  constructor
  · intro hrun
    obtain ⟨t, ht, hrest⟩ := Option.bind_eq_some_iff.mp hrun
    have hsame : t = s₀ :=
      Option.some.inj ((run_of_restrict ht).symm.trans hbefore)
    subst hsame
    rw [run_cons, hdispatch, Option.bind_some] at hrest
    exact (hiff (closed_well_close ht hclosing hclose)).mp hrest
  · intro hreads
    have hopen := (hreads 0 s₁ (by rw [List.take_zero]; rfl)).not_reset
    have hspared := spared_run hbefore (react_not_reset hclose hopen)
    rw [hspared, Option.bind_some, run_cons, hdispatch, Option.bind_some]
    exact (hiff (closed_well_close hspared hclosing hclose)).mpr hreads

/-- The peer sends three bytes and half-closes the stream. -/
def threeBytes : List Event :=
  [.frame ⟨.openStream, 1, []⟩, .act .dispatch, .act .dispatch, .act (.start .acceptStream),
    .act (.advance 0 .value), .frame ⟨.streamData, 1, [7, 8, 9]⟩, .act .dispatch,
    .frame ⟨.closeStream, 1, reasonOK⟩, .act .dispatch]

/-- The local side closes its direction as well, and then the peer disconnects. -/
def closedBothWays : List Event :=
  [.act .dispatch, .act (.start (.stream ⟨1, 0⟩ (.closeWith reasonOK))), .act (.advance 1 .value),
    .act (.advance 1 .value), .act (.advance 1 .value), .act (.readFailed .eof), .act .dispatch,
    .act (.endStep 0), .act (.endStep 0), .act (.endStep 0)]

/-- The peer disconnects while the local direction is still open. -/
def peerLeaves : List Event :=
  [.act .dispatch, .act (.readFailed .eof), .act .dispatch, .act (.endStep 0),
    .act (.endStep 0), .act (.endStep 0), .act (.endStep 0)]

/-- Both directions are closed and the stream has left the table when the session ends. -/
theorem both_close_read_out : ∃ s₀ s₁ s,
    run (Session.reactUnreset ⟨1, 0⟩) (newSession false smallAck) threeBytes = some s₀ ∧
    s₀.react (.act .dispatch) = some s₁ ∧
    run (Session.reactUnreset ⟨1, 0⟩) s₁ closedBothWays = some s ∧ s.done = true ∧
    s.ReadsOut ⟨1, 0⟩ [7, 8, 9] := by
  have hview :
      ((run (Session.reactUnreset ⟨1, 0⟩) (newSession false smallAck) threeBytes).bind fun s₀ =>
      (s₀.react (.act .dispatch)).bind fun s₁ =>
      (run (Session.reactUnreset ⟨1, 0⟩) s₁ closedBothWays).bind fun s =>
      (run (Session.reactUnharmed ⟨1, 0⟩) (newSession false smallAck)
        (threeBytes ++ .act .dispatch :: closedBothWays)).map fun _ => (s₀.reader, s.done)) =
      some (.serving ⟨1, 0⟩ (.closing reasonOK), true) := by
    decide +kernel
  have hdata : deliveredTo ⟨1, 0⟩ (newSession false smallAck) threeBytes = [7, 8, 9] := by
    decide +kernel
  obtain ⟨s₀, hbefore, hview⟩ := Option.bind_eq_some_iff.mp hview
  obtain ⟨s₁, hclose, hview⟩ := Option.bind_eq_some_iff.mp hview
  obtain ⟨s, hafter, hview⟩ := Option.bind_eq_some_iff.mp hview
  obtain ⟨s', hspared, hview⟩ := Option.map_eq_some_iff.mp hview
  obtain ⟨hclosing, hdone⟩ := Prod.mk.inj hview
  have hsame : s' = s := by
    have hplain := run_of_restrict hspared
    rw [run_append, hbefore, Option.bind_some, run_cons] at hplain
    have hup : (s₀.reactUnreset ⟨1, 0⟩ (.act .dispatch)) = some s₁ := hclose
    rw [hup, Option.bind_some, hafter] at hplain
    exact (Option.some.inj hplain).symm
  subst hsame
  have hreads := (graceful_close_kept hbefore hclosing hclose hafter).mp hspared
  refine ⟨s₀, s₁, s', hbefore, hclose, hafter, hdone, ?_⟩
  rw [← hdata]
  exact hreads closedBothWays.length s' (by rw [List.take_length]; exact hafter)

/-- The peer has half-closed the stream and disconnects; the local side has not closed its
direction. `Read` returns the bytes and then the error of the killed stream. -/
theorem kill_turns_end_into_error : ∃ s₀ s₁ s c,
    run (Session.reactUnreset ⟨1, 0⟩) (newSession false smallAck) threeBytes = some s₀ ∧
    s₀.reader = .serving ⟨1, 0⟩ (.closing reasonOK) ∧ s₀.react (.act .dispatch) = some s₁ ∧
    run (Session.reactUnreset ⟨1, 0⟩) s₁ peerLeaves = some s ∧ s.cell ⟨1, 0⟩ = some c ∧
    c.stream.readAll s.limits.creditThreshold 8 4 = ([7, 8, 9], .closed reasonShutdown) := by
  have hview :
      ((run (Session.reactUnreset ⟨1, 0⟩) (newSession false smallAck) threeBytes).bind fun s₀ =>
      (s₀.react (.act .dispatch)).bind fun s₁ =>
      (run (Session.reactUnreset ⟨1, 0⟩) s₁ peerLeaves).bind fun s =>
      (s.cell ⟨1, 0⟩).map fun c =>
        (s₀.reader, c.stream.readAll s.limits.creditThreshold 8 4)) =
      some (.serving ⟨1, 0⟩ (.closing reasonOK), [7, 8, 9], .closed reasonShutdown) := by
    decide +kernel
  obtain ⟨s₀, hbefore, hview⟩ := Option.bind_eq_some_iff.mp hview
  obtain ⟨s₁, hclose, hview⟩ := Option.bind_eq_some_iff.mp hview
  obtain ⟨s, hafter, hview⟩ := Option.bind_eq_some_iff.mp hview
  obtain ⟨c, hcell, hview⟩ := Option.map_eq_some_iff.mp hview
  obtain ⟨hclosing, hread⟩ := Prod.mk.inj hview
  exact ⟨s₀, s₁, s, c, hbefore, hclosing, hclose, hafter, hcell, hread⟩

end AccessRelay.Mux
