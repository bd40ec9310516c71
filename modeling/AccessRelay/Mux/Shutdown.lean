import AccessRelay.Mux.Admission
import AccessRelay.Mux.Identifiers
import AccessRelay.Mux.Inbound
import AccessRelay.Mux.Projection

/-!
# Ending a session ends its streams

`closeOnce` takes the streams that are in the table, kills them, and marks the session done. A
stream that is registered after the table has been taken is not among them, and `Open` and
`handleOpen` can do so until the session is done. Where that does not happen, and no identifier is
used twice, every stream the application has or may still get is finished once the end is
complete.
-/

namespace AccessRelay.Mux

open Encoding Proto Machine

/-- `closeOnce` has taken the streams of the session. -/
def Ending.taken : Ending → Bool
  | .killing _ _ _ | .notifying _ _ | .ended _ => true
  | _ => false

/-- Nobody uses an identifier twice, and no stream is registered once `closeOnce` has taken the
streams. -/
def orderlyEnd (s : Session) (e : Event) : Bool :=
  freshIdentifiers s e &&
    match e with
    | .act (.advance index _) =>
        match s.calls[index]? with
        | some (.openStream _) => !s.ending.taken || s.done
        | _ => true
    | .frame f => f.type ≠ .openStream || !s.ending.taken
    | _ => true

/-- `Open` or `AcceptStream` has returned the stream, or may still return it. -/
def Session.MayReturn (s : Session) (h : Handle) : Prop :=
  (∃ op, Call.stream h op ∈ s.calls ∧ op.Admits) ∨ h ∈ s.acceptCh ∨
    s.reader = .serving h .acking ∨ s.reader = .serving h .queueing

/-- What a session keeps as long as its end is orderly. -/
structure Session.Accounted (s : Session) : Prop where
  tidy : s.Tidy
  grounded : s.Grounded
  admitted : ∀ id, (view id s).Admitted
  rooted : s.Rooted
  taken : s.ending.taken = true → s.streams = []

section Accounted

variable {s s' : Session} {e : Event}

/-- Once `closeOnce` has taken the streams, the table stays empty. -/
theorem taken_react (htaken : s.ending.taken = true → s.streams = [])
    (horderly : orderlyEnd s e = true) (hreact : s.react e = some s') :
    s'.ending.taken = true → s'.streams = [] := by
  have hkeep : s'.streams ⊆ s.streams → (s'.ending.taken = true → s.ending.taken = true) →
      s'.ending.taken = true → s'.streams = [] := by
    intro hsub hended htaken'
    rw [htaken (hended htaken')] at hsub
    exact List.subset_nil.mp hsub
  rcases react_cases hreact with ⟨a, rfl, hmoves⟩ | ⟨f, rfl, -, -, hreads⟩
  · have hshutdown : ∀ {reason : Reason} {next : Reader}, s' = s.shutdown reason next →
        s'.ending.taken = true → s'.streams = [] := by
      rintro reason next rfl
      refine hkeep (fun _ h => h) ?_
      simp only [Session.shutdown]
      split_ifs
      · simp [Ending.taken]
      · exact fun h => h
    rcases step_books hreact with hkeeps | ⟨⟨index, choice, payload, rfl, hcall⟩, -, -⟩
    · cases hmoves with
      | @turned index choice h op c turn hcall hcell hturn =>
          refine hkeep hkeeps.streams ?_
          rw [(perform_control (s := s.setCell h turn.cell) h.id turn.effect).2.1]
          exact fun h => h
      | @served h task c hreader hcell =>
          refine hkeep hkeeps.streams ?_
          rw [(serve_step_reader (s := s) h c task).1.1]
          exact fun h => h
      | refused hreader =>
          refine hkeep hkeeps.streams ?_
          rw [(reply_control (s := s) _ _ _ _).2.1]
          exact fun h => h
      | ponged hreader =>
          refine hkeep hkeeps.streams ?_
          rw [(reply_control (s := s) _ _ _ _).2.1]
          exact fun h => h
      | lookedUp hreader =>
          refine hkeep hkeeps.streams ?_
          rw [(serve_control (s := s) _ _).1]
          exact fun h => h
      | quit hreader => exact hshutdown rfl
      | told hreader => exact hshutdown rfl
      | closed reason hending => exact hkeep hkeeps.streams (by simp [Ending.taken])
      | announced choice hending out hout => exact hkeep hkeeps.streams (by simp [Ending.taken])
      | collected choice hending => exact fun _ => rfl
      | killed choice hending hh hcell =>
          exact hkeep hkeeps.streams (by simp [hending, Ending.taken])
      | killedAll choice hending =>
          exact hkeep hkeeps.streams (by simp [hending, Ending.taken])
      | notified choice hending =>
          exact hkeep hkeeps.streams (by simp [hending, Ending.taken])
      | ended choice hending => exact hkeep hkeeps.streams (by simp [hending, Ending.taken])
      | _ => exact hkeep hkeeps.streams (fun h => h)
    · -- The only step that registers a stream is `Open`, which the guard admits earlier only.
      cases hmoves with
      | opened index choice payload' hcall' hdone =>
          intro htaken'
          have hearlier : s.ending.taken = false := by
            simpa [hcall, hdone] using (Bool.and_eq_true_iff.mp horderly).2
          exact absurd (show s.ending.taken = true from htaken') (by simp [hearlier])
      | failed index choice call hne => exact hkeep (fun _ h => h) (fun h => h)
      | accepted index choice hq => exact hkeep (fun _ h => h) (fun h => h)
      | turned index choice hcall' hcell hturn =>
          rw [hcall] at hcall'
          cases hcall'
  · cases hreads with
    | registered htype hparity =>
        intro htaken'
        have hearlier : s.ending.taken = false := by
          simpa [htype] using (Bool.and_eq_true_iff.mp horderly).2
        exact absurd (show s.ending.taken = true from htaken') (by simp [hearlier])
    | answered htype =>
        refine hkeep (keeps_complete_open _ _).streams ?_
        rw [(complete_open_control (s := s) _ _).2.1]
        exact fun h => h
    | @close htype reason hreason =>
        refine hkeep (keeps_complete_open f.streamID reason).streams ?_
        show (s.completeOpen f.streamID reason).ending.taken = true → _
        rw [(complete_open_control (s := s) _ _).2.1]
        exact fun h => h
    | _ => exact hkeep (fun _ h => h) (fun h => h)

/-- A session stays accounted for. -/
theorem accounted_react (ha : s.Accounted)
    (hstep : restrict orderlyEnd Session.react s e = some s') : s'.Accounted := by
  obtain ⟨horderly, hreact⟩ := restrict_eq_some.mp hstep
  have hfresh : freshIdentifiers s e = true := (Bool.and_eq_true_iff.mp horderly).1
  refine ⟨tidy_fresh ha.tidy hfresh hreact, grounded_react ha.grounded hreact, ?_,
    rooted_kept ha.rooted (react_books hreact) (react_kind hreact),
    taken_react ha.taken horderly hreact⟩
  intro id
  cases e with
  | act a => exact (session_step_view ha.tidy hreact id).admitted (ha.admitted id)
  | frame f =>
      simp only [Session.react, Option.ite_none_right_eq_some] at hreact
      have hopen : f.type = .openStream → f.streamID = id → s.cells id = [] := by
        rintro htype rfl
        simpa [freshIdentifiers, htype] using hfresh
      obtain ⟨hhand, hread⟩ := session_read_view ha.tidy hreact.2 hopen
      rcases hread with ⟨m, -, hreceive⟩ | ⟨-, hquiet⟩
      · exact hreceive.admitted hhand (ha.admitted id)
      · exact hquiet.admitted (ha.admitted id)

theorem accounted_new_session (isClient : Bool) (ack : HelloAck) :
    (newSession isClient ack).Accounted := by
  refine ⟨tidy_new_session isClient ack, ?_, ?_, ⟨by simp [newSession], by simp [newSession]⟩,
    fun _ => rfl⟩
  · refine ⟨?_, ?_, ?_, ?_, ?_⟩ <;> simp [newSession, Ending.toKill]
  · intro id
    refine ⟨fun _ => ?_, ?_, ?_, ?_⟩
    · constructor <;> simp [view, newSession, Ending.toKill, handOf]
    · simp [view, newSession, handOf, End.admissions, Hand.admissions]
    · simp [view, newSession, Session.cell]
    · simp [view, newSession, Session.cell]

/-- Once the end is complete, a stream that the application has or may still get is finished. -/
theorem Session.Accounted.finished (ha : s.Accounted) {reason : Reason}
    (hended : s.ending = .ended reason) {h : Handle} (hmay : s.MayReturn h) :
    ∃ c, s.cell h = some c ∧ c.stream.finished = true := by
  have hhas : s.Has h := by
    rcases hmay with ⟨op, hop, -⟩ | hqueued | hreader | hreader
    · exact ha.rooted.calls h op hop
    · exact ha.rooted.queue h hqueued
    · exact ha.grounded.serving h _ hreader
    · exact ha.grounded.serving h _ hreader
  obtain ⟨c, hcell⟩ := cell_of_has hhas
  refine ⟨c, hcell, ?_⟩
  have hh := handle_eq ha.tidy hcell
  have hview : (view h.id s).cell = some c := by
    show s.cell ⟨h.id, 0⟩ = some c
    rw [← hh]
    exact hcell
  rcases (ha.admitted h.id).leaves c hview with hf | hr | hd | hab
  · exact hf
  · have hstreams := ha.taken (by rw [hended]; rfl)
    simp [view, hstreams] at hr
  · simp [view, hended, Ending.toKill] at hd
  · exfalso
    rcases hmay with ⟨op, hop, hadmits⟩ | hqueued | hreader | hreader
    · refine hab.ops op ?_ hadmits
      refine Multiset.mem_coe.mpr (List.mem_filterMap.mpr ⟨.stream h op, hop, ?_⟩)
      rw [opOf, if_pos hh]
    · have hzero : s.acceptCh.count ⟨h.id, 0⟩ = 0 := hab.queued
      rw [← hh] at hzero
      exact absurd hqueued (List.count_eq_zero.mp hzero)
    · apply hab.acking
      show handOf h.id s.reader = _
      rw [hreader, handOf, if_pos hh]
    · apply hab.queueing
      show handOf h.id s.reader = _
      rw [hreader, handOf, if_pos hh]

end Accounted

/-- Neither `Read` nor `Write` waits on a stream that is finished. -/
theorem finished_never_blocks {lim : Limits} {done : Bool} {ack : Option Reason} {c : Cell}
    (hfinished : c.stream.finished = true) (choice : Choice) :
    (∀ length, (Op.read length).step lim done ack c choice ≠ none) ∧
      ∀ p written, (Op.write p written).step lim done ack c choice ≠ none := by
  simp only [Stream.finished, Bool.or_eq_true, Bool.and_eq_true] at hfinished
  refine ⟨?_, ?_⟩
  · intro length
    simp only [Op.step, Op.stepRead, Stream.read]
    split_ifs <;> simp_all
  · intro p written
    simp only [Op.step, Op.stepWrite, Stream.write]
    split_ifs <;> simp_all

/-- In a run in which no identifier is used twice and no stream is registered after `closeOnce` has
taken the table: once the end of the session is complete, every stream that `Open` or
`AcceptStream` has returned or may still return is reset or closed by the peer, and no `Read` or
`Write` on it waits. -/
theorem ended_session_ends_streams {isClient : Bool} {ack : HelloAck} {events : List Event}
    {s : Session} {reason : Reason}
    (hrun : run (restrict orderlyEnd Session.react) (newSession isClient ack) events = some s)
    (hended : s.ending = .ended reason) :
    ∀ h, s.MayReturn h → ∃ c, s.cell h = some c ∧
      (c.stream.reset = true ∨ c.stream.remoteClosed = true) ∧
      ∀ choice, (∀ length, (Op.read length).step s.limits s.done (s.ackFor h) c choice ≠ none) ∧
        ∀ p written, (Op.write p written).step s.limits s.done (s.ackFor h) c choice ≠ none := by
  have ha : s.Accounted := run_invariant (fun h hstep => accounted_react h hstep)
    (accounted_new_session isClient ack) hrun
  intro h hmay
  obtain ⟨c, hcell, hfinished⟩ := ha.finished hended hmay
  refine ⟨c, hcell, ?_, finished_never_blocks hfinished⟩
  simp only [Stream.finished, Bool.or_eq_true, Bool.and_eq_true] at hfinished
  exact hfinished.imp_right fun h => h.2

/-- A server has accepted a stream when it is closed; the stream is reset. -/
theorem accepted_stream_reset : ∃ s c,
    run (restrict orderlyEnd Session.react) (newSession false ⟨version, 8, 4, 16⟩)
      [.frame ⟨.openStream, 1, []⟩, .act .dispatch, .act .dispatch, .act (.start .acceptStream),
        .act (.advance 0 .value), .act (.close reasonOK), .act (.endStep 0), .act (.endStep 0),
        .act (.endStep 0), .act (.endStep 0), .act (.endStep 0)] = some s ∧
    s.ending = .ended reasonOK ∧ s.calls = [.stream ⟨1, 0⟩ .accepted] ∧
    s.cell ⟨1, 0⟩ = some c ∧ (c.stream.reset = true ∨ c.stream.remoteClosed = true) := by
  have hview : (run (restrict orderlyEnd Session.react) (newSession false ⟨version, 8, 4, 16⟩)
      [.frame ⟨.openStream, 1, []⟩, .act .dispatch, .act .dispatch, .act (.start .acceptStream),
        .act (.advance 0 .value), .act (.close reasonOK), .act (.endStep 0), .act (.endStep 0),
        .act (.endStep 0), .act (.endStep 0), .act (.endStep 0)]).map
      (fun s => (s.ending, s.calls)) = some (.ended reasonOK, [.stream ⟨1, 0⟩ .accepted]) := by
    decide +kernel
  obtain ⟨s, hrun, hs⟩ := Option.map_eq_some_iff.mp hview
  obtain ⟨hended, hcalls⟩ := Prod.mk.inj hs
  obtain ⟨c, hcell, hclosed, -⟩ := ended_session_ends_streams hrun hended ⟨1, 0⟩
    (.inl ⟨.accepted, by simp [hcalls], trivial⟩)
  exact ⟨s, c, hrun, hended, hcalls, hcell, hclosed⟩

/-- The peer's OPEN_STREAM is handled between the moment `Close` takes the table and the moment it
marks the session done. The stream is registered, acknowledged and queued; nobody kills it, and
`AcceptStream` returns it from the ended session. A `Read` on it waits, and so does a `Write` once
the window is used up. -/
theorem stream_outlives_session : ∃ s c,
    run Session.react (newSession false ⟨version, 8, 4, 16⟩)
      [.act (.close reasonOK), .act (.endStep 0), .act (.endStep 0), .frame ⟨.openStream, 1, []⟩,
        .act .dispatch, .act .dispatch, .act (.endStep 0), .act (.endStep 0),
        .act (.start .acceptStream), .act (.advance 0 .value)] = some s ∧
    s.ending = .ended reasonOK ∧ s.done = true ∧ s.calls = [.stream ⟨1, 0⟩ .accepted] ∧
    s.cell ⟨1, 0⟩ = some c ∧ c.stream.reset = false ∧ c.stream.remoteClosed = false ∧
    ∀ choice, (Op.read 1).step s.limits s.done (s.ackFor ⟨1, 0⟩) c choice = none := by
  have hview : (run Session.react (newSession false ⟨version, 8, 4, 16⟩)
      [.act (.close reasonOK), .act (.endStep 0), .act (.endStep 0), .frame ⟨.openStream, 1, []⟩,
        .act .dispatch, .act .dispatch, .act (.endStep 0), .act (.endStep 0),
        .act (.start .acceptStream), .act (.advance 0 .value)]).map
      (fun s => (s.ending, s.done, s.calls, s.cell ⟨1, 0⟩)) =
      some (.ended reasonOK, true, [.stream ⟨1, 0⟩ .accepted],
        some (newCell (newStream 1 4))) := by
    decide +kernel
  obtain ⟨s, hrun, hs⟩ := Option.map_eq_some_iff.mp hview
  simp only [Prod.mk.injEq] at hs
  obtain ⟨hended, hdone, hcalls, hcell⟩ := hs
  exact ⟨s, _, hrun, hended, hdone, hcalls, hcell, rfl, rfl, fun choice => rfl⟩

end AccessRelay.Mux
