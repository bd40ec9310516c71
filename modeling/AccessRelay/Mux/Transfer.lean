import AccessRelay.Mux.Agreement
import AccessRelay.Mux.Delivery
import AccessRelay.Mux.Window

/-!
# Bytes from one end of a stream to the other

What `Read` has returned at one end of a stream is the beginning of what was handed to `Write` at
the other end, for every stream of the two sessions and in every state of every run in which one
goroutine writes to each end of a stream and then closes it. If `Read` has reported the end of the
stream then nothing is missing, unless the other end has reset the stream with a reason that reads
as an orderly close: a reset does not wait for the `Write` that it interrupts.
-/

namespace AccessRelay.Mux

open Encoding Proto Machine

/-- A `Write` on the stream is in progress. -/
def Session.writing (s : Session) (h : Handle) : Bool :=
  s.calls.any fun
    | .stream i op => i = h && op.writers ≠ 0
    | _ => false

/-- What the application has seen of a stream, which is nothing if there is no such stream. -/
def Session.history (s : Session) (h : Handle) : History :=
  ((s.cell h).getD (newCell (newStream 0 0))).history

/-- One goroutine issues the writes on each end of a stream, and then the close. -/
def oneWriter (sys : System) : SystemAction → Bool
  | .act x (.start (.stream h (.write _ _))) =>
      !(sys x).writing h && !((sys x).history h).closing
  | .act x (.start (.stream h (.closeWith _))) => !(sys x).writing h
  | _ => true

/-- What every run of the two sessions keeps about the bytes of their streams. -/
structure Transfer (lim : Limits) (sys : System) : Prop where
  joint : Joint lim sys
  written : ∀ id x, (link id sys x).Written lim
  delivers : ∀ id, Directed.Both (fun _ => Delivers) (openerOf id) (link id sys)

section Transfer

variable {lim : Limits} {id : UInt32} {sys sys' : System} {a : SystemAction}

theorem writers_of_not_writing {s : Session} (h : s.writing ⟨id, 0⟩ = false) :
    (view id s).writers = 0 := by
  refine Multiset.sum_eq_zero fun n hn => ?_
  obtain ⟨op, hop, rfl⟩ := Multiset.mem_map.mp hn
  obtain ⟨call, hcall, hop⟩ := List.mem_filterMap.mp (Multiset.mem_coe.mp hop)
  have hno := List.any_eq_false.mp h call hcall
  cases call with
  | stream i op' =>
      rw [opOf] at hop
      split_ifs at hop with hi
      cases hop
      simpa [hi] using hno
  | _ => cases hop

/-- The guard on the calls, at one stream. -/
theorem one_writer_label (h : oneWriter sys a = true) :
    (link id sys a.side).OneWriter (labelAt id sys a) := by
  cases a with
  | deliver x => trivial
  | act x b =>
      cases b with
      | start call =>
          cases call with
          | stream i op =>
              show End.OneWriter _ (labelOf id (sys x) (.start (.stream i op)))
              rw [labelOf]
              split_ifs with hi
              · subst hi
                cases op with
                | write p written =>
                    simp only [oneWriter, Bool.and_eq_true, Bool.not_eq_true'] at h
                    exact ⟨writers_of_not_writing h.1, h.2⟩
                | closeWith r =>
                    simp only [oneWriter, Bool.not_eq_true'] at h
                    exact writers_of_not_writing h
                | _ => trivial
              · trivial
          | _ => trivial
      | advance index choice =>
          show End.OneWriter _ (labelOf id (sys x) (.advance index choice))
          rw [labelOf]
          split
          · split_ifs <;> trivial
          · trivial
      | _ => trivial

theorem written_step {opener : Side} {ends ends' : Side → End} {x : Side} {l : Label}
    (hlim : lim.Proper) (hB : Directed.Both Bond opener ends) (hW : ∀ x, (ends x).Written lim)
    (hone : (ends x).OneWriter l) (hsmall : SmallStart l)
    (h : LinkStep lim id opener ends x l ends') : ∀ x, (ends' x).Written lim := by
  refine link_step_directed (C := Bond) (P := fun _ a _ => a.Written lim)
    (G := fun e l => e.OneWriter l ∧ SmallStart l) ?_ ?_ ?_ ?_ hB hW ⟨hone, hsmall⟩ h
  · exact fun hab _ ha _ hG hstep => hstep.written hlim hab.sound ha hG.1 hG.2
  · exact fun _ _ ha _ _ _ => ha
  · exact fun _ _ ha _ _ _ _ => { ha with }
  · exact fun _ _ ha _ _ _ hreceive => hreceive.written ha

theorem delivers_step {opener : Side} {ends ends' : Side → End} {x : Side} {l : Label}
    (hB : Directed.Both Bond opener ends) (hW : ∀ x, (ends x).Written lim)
    (hD : Directed.Both (fun _ => Delivers) opener ends) (hone : (ends x).OneWriter l)
    (h : LinkStep lim id opener ends x l ends') :
    Directed.Both (fun _ => Delivers) opener ends' := by
  refine link_step_directed (C := fun o a b => Bond o a b ∧ a.Written lim) (G := End.OneWriter)
    ?_ ?_ ?_ ?_ (fun y => ⟨hB y, hW y⟩) hD hone h
  · intro o a b l a' hab _ ha _ hG hstep
    obtain ⟨new, hemits⟩ := hstep.emits hab.2 hG
    exact ha.send hemits
  · exact fun _ _ ha _ _ hstep => ha.recv hstep.intake
  · exact fun hab _ ha _ hout hhand hreceive => ha.arrive hab.1.mute hout hhand hreceive
  · exact fun _ _ ha _ _ _ hreceive => ha.return hreceive

theorem transfer_step (hlim : lim.Proper) (h : Transfer lim sys)
    (hstep : restrict (fun sys a => withinBounds sys a && oneWriter sys a) systemStep sys a =
      some sys') : Transfer lim sys' := by
  obtain ⟨hguard, hstep⟩ := restrict_eq_some.mp hstep
  rw [Bool.and_eq_true] at hguard
  have hlink := system_step_link h.joint hstep
  refine ⟨joint_step h.joint hstep hguard.1, fun id => ?_, fun id => ?_⟩
  · exact written_step hlim (h.joint.bond id) (h.written id) (one_writer_label hguard.2)
      (small_start hguard.1 id) (hlink id)
  · exact delivers_step (h.joint.bond id) (h.written id) (h.delivers id)
      (one_writer_label hguard.2) (hlink id)

theorem transfer_establish {cfg : Config} (h : establish cfg = some sys) :
    Transfer (limitsOf cfg.ack) sys := by
  have hjoint := joint_establish h
  obtain ⟨rfl, -⟩ := establish_limits h
  refine ⟨hjoint, fun id x => ?_, fun id x => ?_⟩
  · show newEnd.Written _
    refine ⟨?_, ?_, ?_, ?_, ?_, ?_, ?_⟩
    all_goals simp [newEnd, End.object, End.writers, newCell, newStream]
  · show Delivers newEnd newEnd
    have hinflow : newEnd.inflow = [] := rfl
    refine ⟨?_, ?_, ?_, ?_, ?_, ?_, ?_⟩
    · rw [hinflow]
      exact List.nil_prefix
    · exact fun _ => rfl
    all_goals simp [newEnd, End.object, newCell, newStream]

/-- The two ends of a stream, as the application sees them. -/
theorem Transfer.history (h : Transfer lim sys) (i : Handle) (y : Side) :
    ((sys y).history i).returned <+: ((sys y.other).history i).handed ∧
      (((sys y).history i).eof = true → ((sys y.other).history i).quietReset = true ∨
        (((sys y.other).history i).closing = true ∧
          ((sys y).history i).returned = ((sys y.other).history i).handed)) := by
  cases hcell : (sys y).cell i with
  | none =>
      -- Nothing has been read from a stream that does not exist.
      have hblank : (sys y).history i = (newCell (newStream 0 0)).history := by
        rw [Session.history, hcell]
        rfl
      rw [hblank]
      exact ⟨List.nil_prefix, fun heof => by cases heof⟩
  | some d =>
      obtain ⟨id, n⟩ := i
      obtain rfl : n = 0 := congrArg Handle.nth (handle_eq (h.joint.tidy y) hcell)
      have hdelivers := h.delivers id y.other
      rw [Side.other_other] at hdelivers
      have hwritten := h.written id y.other
      show (link id sys y).object.history.returned <+:
          (link id sys y.other).object.history.handed ∧
        ((link id sys y).object.history.eof = true →
          (link id sys y.other).object.history.quietReset = true ∨
          ((link id sys y.other).object.history.closing = true ∧
            (link id sys y).object.history.returned =
              (link id sys y.other).object.history.handed))
      refine ⟨?_, ?_⟩
      · have htaken : (link id sys y).object.history.returned <+: (link id sys y).inflow := by
          rw [End.inflow, End.taken, List.append_assoc]
          exact List.prefix_append _ _
        exact (htaken.trans hdelivers.front).trans hwritten.front
      · intro heof
        obtain ⟨-, -, hend⟩ := hdelivers.eof heof
        refine hend.imp_right fun hfinished => ⟨hfinished.1.1, ?_⟩
        rw [hfinished.2, hfinished.1.2]

end Transfer

/-- In every state of every run, what `Read` has returned at one end of a stream is the beginning
of what was handed to `Write` at the other end; and once `Read` has reported the end of the stream
it is all of it, and the other end has closed the stream, unless it has reset the stream with an
empty or `ok` reason. -/
theorem bytes_in_order {cfg : Config} {sys sys' : System} {actions : List SystemAction}
    (hestablish : establish cfg = some sys)
    (hrun : run (restrict (fun sys a => withinBounds sys a && oneWriter sys a) systemStep) sys
      actions = some sys') :
    ∀ h y, ((sys' y).history h).returned <+: ((sys' y.other).history h).handed ∧
      (((sys' y).history h).eof = true → ((sys' y.other).history h).quietReset = true ∨
        (((sys' y.other).history h).closing = true ∧
          ((sys' y).history h).returned = ((sys' y.other).history h).handed)) := by
  have hlim := proper_of_establish hestablish
  have hinv : Transfer (limitsOf cfg.ack) sys' :=
    run_invariant (fun h hstep => transfer_step hlim h hstep) (transfer_establish hestablish) hrun
  exact fun h y => hinv.history h y

/-- The client writes three bytes and closes the stream, and the server reads two of them, the
third, and the end of the stream. -/
def writeClose : List SystemAction :=
  openAccept ++ [.act .client (.start (.stream ⟨1, 0⟩ (.write [1, 2, 3] 0))),
    .act .client (.advance 1 .value), .act .client (.advance 1 .value),
    .act .client (.advance 1 .value), .deliver .server, .act .server .dispatch] ++
    closeCall .client 2 (.closeWith reasonOK) ++
    [.act .server (.start (.stream ⟨1, 0⟩ (.read 2))), .act .server (.advance 1 .value),
      .act .server (.start (.stream ⟨1, 0⟩ (.read 2))), .act .server (.advance 2 .value),
      .act .server (.start (.stream ⟨1, 0⟩ (.read 2))), .act .server (.advance 3 .value)]

/-- Everything has been read. -/
theorem write_close_read : ∃ sys sys', establish ⟨0, 0, 0⟩ = some sys ∧
    run (restrict (fun sys a => withinBounds sys a && oneWriter sys a) systemStep) sys
      writeClose = some sys' ∧
    ((sys' .server).history ⟨1, 0⟩).eof = true ∧
    ((sys' .client).history ⟨1, 0⟩).handed = [1, 2, 3] ∧
    ((sys' .server).history ⟨1, 0⟩).returned = [1, 2, 3] := by
  have hview : ((establish ⟨0, 0, 0⟩).bind fun sys =>
      (run (restrict (fun sys a => withinBounds sys a && oneWriter sys a) systemStep) sys
        writeClose).map fun sys' =>
        (((sys' .server).history ⟨1, 0⟩).eof, (sys' .client).history ⟨1, 0⟩)) =
      some (true, ⟨[1, 2, 3], [1, 2, 3], [], false, true, false, false⟩) := by
    decide +kernel
  obtain ⟨sys, hestablish, hfinal⟩ := Option.bind_eq_some_iff.mp hview
  obtain ⟨sys', hrun, hs⟩ := Option.map_eq_some_iff.mp hfinal
  obtain ⟨heof, hclient⟩ := Prod.mk.inj hs
  have hhanded : ((sys' .client).history ⟨1, 0⟩).handed = [1, 2, 3] := by rw [hclient]
  refine ⟨sys, sys', hestablish, hrun, heof, hhanded, ?_⟩
  rcases (bytes_in_order hestablish hrun ⟨1, 0⟩ .server).2 heof with hquiet | ⟨-, hall⟩
  · rw [show Side.server.other = .client from rfl, hclient] at hquiet
    cases hquiet
  · exact hall.trans hhanded

/-- The client resets the stream with the reason `ok` while its `Write` holds credit and has not
sent its bytes. The CLOSE_STREAM of the reset comes first, so the server drops the bytes. -/
def resetOvertakes : List SystemAction :=
  openAccept ++ [.act .client (.start (.stream ⟨1, 0⟩ (.write [1, 2, 3] 0))),
    .act .client (.advance 1 .value), .act .client (.start (.stream ⟨1, 0⟩ (.reset reasonOK))),
    .act .client (.advance 2 .value), .act .client (.advance 2 .value),
    .act .client (.advance 1 .value), .act .client (.advance 1 .value),
    .act .client (.advance 2 .value), .act .client (.start (.stream ⟨1, 0⟩ (.closeWith reasonOK))),
    .act .client (.advance 3 .value), .deliver .server, .act .server .dispatch,
    .act .server .dispatch, .act .server .dispatch, .deliver .server, .act .server .dispatch,
    .act .server (.start (.stream ⟨1, 0⟩ (.read 10))), .act .server (.advance 1 .value)]

/-- The `Write` and the `Close` of the client have succeeded, and `Read` reports the end of the
stream to the server without a byte. -/
theorem reset_overtakes_write : ∃ sys sys', establish ⟨0, 0, 0⟩ = some sys ∧
    run (restrict (fun sys a => withinBounds sys a && oneWriter sys a) systemStep) sys
      resetOvertakes = some sys' ∧
    (sys' .client).calls = [.stream ⟨1, 0⟩ .opened, .stream ⟨1, 0⟩ (.writeDone 3 none),
      .stream ⟨1, 0⟩ (.closeDone false), .stream ⟨1, 0⟩ (.closeDone false)] ∧
    ((sys' .client).history ⟨1, 0⟩).handed = [1, 2, 3] ∧
    ((sys' .server).history ⟨1, 0⟩).eof = true ∧
    ((sys' .server).history ⟨1, 0⟩).returned = [] := by
  have hview : ((establish ⟨0, 0, 0⟩).bind fun sys =>
      (run (restrict (fun sys a => withinBounds sys a && oneWriter sys a) systemStep) sys
        resetOvertakes).map fun sys' =>
        ((sys' .client).calls, (sys' .client).history ⟨1, 0⟩, (sys' .server).history ⟨1, 0⟩)) =
      some ([.stream ⟨1, 0⟩ .opened, .stream ⟨1, 0⟩ (.writeDone 3 none),
        .stream ⟨1, 0⟩ (.closeDone false), .stream ⟨1, 0⟩ (.closeDone false)],
        ⟨[1, 2, 3], [1, 2, 3], [], false, true, true, true⟩,
        ⟨[], [], [], true, false, false, false⟩) := by
    decide +kernel
  obtain ⟨sys, hestablish, hfinal⟩ := Option.bind_eq_some_iff.mp hview
  obtain ⟨sys', hrun, hs⟩ := Option.map_eq_some_iff.mp hfinal
  simp only [Prod.mk.injEq] at hs
  obtain ⟨hcalls, hclient, hserver⟩ := hs
  exact ⟨sys, sys', hestablish, hrun, hcalls, by rw [hclient], by rw [hserver], by rw [hserver]⟩

end AccessRelay.Mux
