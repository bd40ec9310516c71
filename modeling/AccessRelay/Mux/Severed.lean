import AccessRelay.Mux.Transfer

/-!
# Streams that are severed

A stream that is reset at one end before the application there has closed it ends in an error for
the other end, never in an end of stream (`severed_never_ends`): a `Close` that comes after the
reset sends nothing. `Severed` is what keeps it so. It holds from the reset on
(`severed_of_reset`), whatever either end does later (`severed_step`).
-/

namespace AccessRelay.Mux

open Encoding Proto Machine

/-- The stream is reset at `a`, and no graceful close of `a` has reached `b` or is on its way. -/
structure Severed (a b : End) : Prop where
  reset : a.object.stream.reset = true
  tells : ¬ a.Tells true
  looking : ∀ r, b.hand = .lookingUp r → Stream.graceful r = false
  /-- A close that the read loop is about to make may be graceful if it comes too late. -/
  closing : ∀ r, b.hand = .serving (.closing r) →
    Stream.graceful r = false ∨ b.object.stream.reset = true
  closed : b.object.stream.remoteClosed = true → b.object.stream.reset = true
  eof : b.object.history.eof = false

section Severed

variable {lim : Limits} {opens o : Bool} {id : UInt32} {a b a' b' e e' : End} {l : Label} {m : Msg}
  {rest : List Msg}

/-- Nothing of what `b` has heard can have been a close, because `a` has not made one. -/
theorem severed_of_reset (hwritten : a.Written lim) (hdelivers : Delivers a b)
    (hreset : a.object.stream.reset = true) (hclosing : a.object.history.closing = false)
    (hquiet : a.object.history.quietReset = false) : Severed a b := by
  have hnone : ∀ {P : Prop}, ¬ (a.object.history.quietReset = true ∨ (a.Finished ∧ P)) := by
    rintro P (hq | ⟨hfinished, -⟩)
    · rw [hquiet] at hq
      cases hq
    · rw [End.Finished, hclosing] at hfinished
      cases hfinished.1
  refine ⟨hreset, ?_, ?_, ?_, ?_, ?_⟩
  · rintro (⟨op, hop, hcloses⟩ | ⟨m, hm, hcloses⟩)
    · have hfits := hwritten.ops op hop
      cases op with
      | sendClose r =>
          rw [Op.Fits, hclosing] at hfits
          cases hfits.1
      | sendReset r =>
          rw [Op.closes, Option.some.injEq] at hcloses
          have hq := hfits hcloses
          rw [hquiet] at hq
          cases hq
      | _ => cases hcloses
    · cases m with
      | close r =>
          rw [Msg.closes, Option.some.injEq] at hcloses
          obtain ⟨before, after, hout⟩ := List.append_of_mem hm
          exact hnone (hdelivers.ending before r after hout hcloses)
      | _ => cases hcloses
  · intro r hhand
    rw [← Bool.not_eq_true]
    exact fun hgraceful => hnone (hdelivers.looking r hhand hgraceful)
  · intro r hhand
    by_contra hboth
    rw [not_or, Bool.not_eq_false, Bool.not_eq_true] at hboth
    obtain ⟨hgraceful, hb⟩ := hboth
    cases hdeaf : b.deaf with
    | false => exact hnone (hdelivers.closing r hhand hgraceful hdeaf)
    | true =>
        rw [End.deaf, hb, Bool.false_or] at hdeaf
        exact hnone (hdelivers.closed hdeaf hb)
  · intro hremote
    rw [← Bool.not_eq_false]
    exact fun hb => hnone (hdelivers.closed hremote hb)
  · rw [← Bool.not_eq_true]
    exact fun heof => hnone (hdelivers.eof heof).2.2

/-- On a stream that is reset an operation sends no close but the one it is about to send. -/
theorem turn_says_reset {done : Bool} {ack : Option Reason} {c : Cell} {op : Op} {turn : Turn}
    {g : Bool} (hturn : OpStep lim done ack c op turn) (hreset : c.stream.reset = true)
    (hsaid : turn.Says id g) : op.closes = some g := by
  have hnothing : ∀ {op' : Op}, op'.closes = none →
      ¬ (op'.closes = some g ∨ ∃ m ∈ Effect.msgs id .silent, m.closes = some g) := by
    rintro op' hnone (hop | ⟨m, hm, -⟩)
    · rw [hnone] at hop
      cases hop
    · cases hm
  cases hturn with
  | closeLocal r hclosed hlive =>
      rw [hreset] at hlive
      cases hlive
  | resetAbort r hlive =>
      rw [hreset] at hlive
      cases hlive
  | closeSent r hdone =>
      rw [Op.closes, ← close_says r g]
      exact hsaid.resolve_left (by simp [Op.closes])
  | resetSent r hdone =>
      rw [Op.closes, ← close_says r g]
      exact hsaid.resolve_left (by simp [Op.closes])
  | readBytes length hread =>
      refine absurd hsaid (hnothing ?_)
      dsimp only
      split_ifs <;> rfl
  | creditSent credit data hdone =>
      rcases hsaid with hop | ⟨m, hm, hcloses⟩
      · cases hop
      · cases hdecode : decodeWindow (encodeWindow credit) with
        | none => simp [Effect.msgs, msgOf, hdecode] at hm
        | some n =>
            simp only [Effect.msgs, msgOf, hdecode, if_true, Option.map_some, Option.toList_some,
              List.mem_singleton] at hm
            subst hm
            cases hcloses
  | _ => simp [Turn.Says, Op.closes, Effect.msgs, msgOf, Msg.closes] at hsaid

/-- Nor does any other step of that end: a refusal is not graceful. -/
theorem EndStep.tells_reset (h : EndStep lim opens id e l e')
    (hreset : e.object.stream.reset = true) (htells : e'.Tells true) : e.Tells true := by
  have hops : ∀ {op : Op}, op.closes = none → (∃ x ∈ op ::ₘ e.ops, x.closes = some true) →
      ∃ x ∈ e.ops, x.closes = some true := by
    rintro op hnone ⟨x, hmem, hcloses⟩
    rcases Multiset.mem_cons.mp hmem with rfl | hmem
    · rw [hnone] at hcloses
      cases hcloses
    · exact ⟨x, hmem, hcloses⟩
  have hout : ∀ {m : Msg}, m.closes ≠ some true → (∃ x ∈ e.out ++ [m], x.closes = some true) →
      ∃ x ∈ e.out, x.closes = some true := by
    rintro m hnot ⟨x, hmem, hcloses⟩
    rcases List.mem_append.mp hmem with hmem | hnew
    · exact ⟨x, hmem, hcloses⟩
    · exact absurd (List.mem_singleton.mp hnew ▸ hcloses) hnot
  cases h with
  | start hheld hcell hop =>
      refine htells.imp_left (hops ?_)
      unfold Op.start at hop
      split at hop <;> first | rfl | cases hop
  | create payload hopens hcell hdone =>
      rw [End.object, hcell] at hreset
      cases hreset
  | advance hcell hmem hturn =>
      rw [object_some hcell] at hreset
      rw [tells_advance] at htells
      rw [tells_cons hmem]
      exact htells.imp_left (turn_says_reset hturn hreset)
  | accept hqueued => exact htells.imp_left (hops rfl)
  | ack hhand hcell hdone => exact htells.imp_right (hout (by simp [Msg.closes]))
  | refuse hhand hdone => exact htells.imp_right (hout (by decide))
  | _ => exact htells

/-- The end that has reset the stream moves. -/
theorem Severed.send (h : Severed a b) (hstep : EndStep lim opens id a l a') : Severed a' b :=
  { h with
    reset := hstep.object_grows.reset h.reset
    tells := fun htells => h.tells (hstep.tells_reset h.reset htells) }

/-- The other end moves. -/
theorem Severed.recv (h : Severed a b) (hintake : b.Intake b') : Severed a b' where
  reset := h.reset
  tells := h.tells
  looking := fun r hhand => h.looking r (hintake.looking r hhand)
  closing := by
    intro r hhand
    rcases hintake.closing r hhand with hsame | ⟨hlooking, -⟩
    · exact (h.closing r hsame).imp_right hintake.reset
    · exact .inl (h.looking r hlooking)
  closed := by
    intro hremote
    rcases hintake.heard hremote with hbefore | hreset | ⟨r, hhand, hgraceful⟩
    · exact hintake.reset (h.closed hbefore)
    · exact hreset
    · exact hintake.reset ((h.closing r hhand).resolve_left (by simp [hgraceful]))
  eof := by
    rw [← Bool.not_eq_true]
    intro heof
    rcases hintake.eof heof with hbefore | ⟨hremote, hreset, -⟩
    · rw [h.eof] at hbefore
      cases hbefore
    · rw [h.closed hremote] at hreset
      cases hreset

/-- The other end reads a message. -/
theorem Severed.arrive (h : Severed a b) (hout : a.out = m :: rest)
    (hreceive : Receive lim id b m b') : Severed { a with out := rest } b' := by
  have halike := hreceive.alike
  have hlooking : ∀ r, b'.hand = .lookingUp r → b.hand = .lookingUp r ∨ m = .close r := by
    intro r hhand
    cases hreceive with
    | close => exact .inr (by cases hhand; rfl)
    | streamOK => exact .inl hhand
    | dropped hregistered hm => exact .inl hhand
    | _ => cases hhand
  have hclosing : ∀ r, b'.hand = .serving (.closing r) → b.hand = .serving (.closing r) := by
    intro r hhand
    cases hreceive with
    | streamOK => exact hhand
    | dropped hregistered hm => exact hhand
    | _ => cases hhand
  refine ⟨h.reset, ?_, ?_, ?_, ?_, ?_⟩
  · intro htells
    refine h.tells (htells.imp_right ?_)
    rintro ⟨msg, hmsg, hcloses⟩
    exact ⟨msg, by rw [hout]; exact List.mem_cons_of_mem m hmsg, hcloses⟩
  · intro r hhand
    rcases hlooking r hhand with hbefore | rfl
    · exact h.looking r hbefore
    · rw [← Bool.not_eq_true]
      intro hgraceful
      refine h.tells (.inr ⟨.close r, by rw [hout]; exact List.mem_cons_self, ?_⟩)
      rw [Msg.closes, hgraceful]
  · intro r hhand
    rw [halike.reset]
    exact h.closing r (hclosing r hhand)
  · rw [halike.remoteClosed, halike.reset]
    exact h.closed
  · rw [halike.history]
    exact h.eof

/-- The end that has reset the stream reads a message. -/
theorem Severed.return (h : Severed a b) (hreceive : Receive lim id a m a') :
    Severed a' { b with out := rest } := by
  have hsame : a'.ops = a.ops ∧ a'.out = a.out := by
    cases hreceive <;> exact ⟨rfl, rfl⟩
  refine { h with reset := ?_, tells := ?_ }
  · rw [hreceive.alike.reset]
    exact h.reset
  · rw [End.Tells, hsame.1, hsame.2]
    exact h.tells

/-- A stream that is severed stays so. -/
theorem severed_step {opener x y : Side} {ends ends' : Side → End}
    (h : Severed (ends y) (ends y.other)) (hstep : LinkStep lim id opener ends x l ends') :
    Severed (ends' y) (ends' y.other) := by
  -- one of the two directions, as a property of both
  have hboth : Directed.Both (fun o a b => o = decide (y = opener) → Severed a b) opener ends := by
    intro z hz
    obtain rfl : z = y := by
      cases z <;> cases y <;> cases opener <;> first | rfl | cases hz
    exact h
  refine link_step_directed (C := fun _ _ _ => True) (G := fun _ _ => True) ?_ ?_ ?_ ?_
    (fun _ => trivial) hboth trivial hstep y rfl
  · exact fun _ _ hab _ _ hmove ho => (hab ho).send hmove
  · exact fun _ _ hab _ _ hmove ho => (hab ho).recv hmove.intake
  · exact fun _ _ hab _ hout _ hreceive ho => (hab ho).arrive hout hreceive
  · exact fun _ _ hab _ _ _ hreceive ho => (hab ho).return hreceive

end Severed

/-- The two sessions, with one goroutine that writes to each end of a stream and then closes it,
and counters that do not wrap. -/
def orderlyStep : System → SystemAction → Option System :=
  restrict (fun sys a => withinBounds sys a && oneWriter sys a) systemStep

/-- Once a stream is reset at one end, by its application, by the peer or by the end of the
session, and the application has not closed it before, `Read` never reports the end of the stream
at the other end, whatever the two ends do later. The application has not reset it with an empty
or `ok` reason either, which reads as a close. -/
theorem severed_never_ends {cfg : Config} {start sys sys' : System}
    {before after : List SystemAction} (hestablish : establish cfg = some start)
    (hbefore : run orderlyStep start before = some sys) {y : Side} {h : Handle} {c : Cell}
    (hcell : (sys y).cell h = some c) (hreset : c.stream.reset = true)
    (hopen : c.history.closing = false) (hloud : c.history.quietReset = false)
    (hafter : run orderlyStep sys after = some sys') :
    ((sys' y.other).history h).eof = false := by
  have hlim := proper_of_establish hestablish
  have hinv : Transfer (limitsOf cfg.ack) sys :=
    run_invariant (fun h hstep => transfer_step hlim h hstep) (transfer_establish hestablish)
      hbefore
  obtain ⟨id, n⟩ := h
  obtain rfl : n = 0 := congrArg Handle.nth (handle_eq (hinv.joint.tidy y) hcell)
  have hobject : (link id sys y).object = c := object_some hcell
  rw [← hobject] at hreset hopen hloud
  have hsevered := severed_of_reset (hinv.written id y) (hinv.delivers id y) hreset hopen hloud
  have hkept : ∀ {s s' : System} {a : SystemAction}, Transfer (limitsOf cfg.ack) s ∧
      Severed (link id s y) (link id s y.other) → orderlyStep s a = some s' →
      Transfer (limitsOf cfg.ack) s' ∧ Severed (link id s' y) (link id s' y.other) := by
    rintro s s' a ⟨htransfer, hs⟩ hstep
    refine ⟨transfer_step hlim htransfer hstep, ?_⟩
    exact severed_step hs (system_step_link htransfer.joint (restrict_eq_some.mp hstep).2 id)
  exact (run_invariant hkept ⟨hinv, hsevered⟩ hafter).2.eof

/-- The client writes three bytes and resets the stream before they are sent. -/
def writeReset : List SystemAction :=
  openAccept ++ [.act .client (.start (.stream ⟨1, 0⟩ (.write [1, 2, 3] 0))),
    .act .client (.advance 1 .value),
    .act .client (.start (.stream ⟨1, 0⟩ (.reset reasonShutdown))),
    .act .client (.advance 2 .value)]

/-- Then the write returns, the client closes the stream, and the server reads. -/
def closeAndRead : List SystemAction :=
  [.act .client (.advance 2 .value), .act .client (.advance 1 .value),
    .act .client (.advance 1 .value), .act .client (.advance 2 .value),
    .act .client (.start (.stream ⟨1, 0⟩ (.closeWith reasonOK))),
    .act .client (.advance 3 .value), .deliver .server, .act .server .dispatch,
    .act .server .dispatch, .act .server .dispatch,
    .act .server (.start (.stream ⟨1, 0⟩ (.read 10))), .act .server (.advance 1 .value)]

/-- The `Close` has succeeded, and the `Read` has failed. -/
theorem severed_never_ends_sample : ∃ start sys sys' c, establish ⟨0, 0, 0⟩ = some start ∧
    run orderlyStep start writeReset = some sys ∧ run orderlyStep sys closeAndRead = some sys' ∧
    (sys .client).cell ⟨1, 0⟩ = some c ∧ c.stream.reset = true ∧
    (sys' .client).calls[3]? = some (.stream ⟨1, 0⟩ (.closeDone false)) ∧
    (sys' .server).calls[1]? = some (.stream ⟨1, 0⟩ (.readFailed reasonShutdown)) ∧
    ((sys' .server).history ⟨1, 0⟩).eof = false := by
  have hview : ((establish ⟨0, 0, 0⟩).bind fun start =>
      (run orderlyStep start writeReset).bind fun sys =>
        (run orderlyStep sys closeAndRead).bind fun sys' =>
          ((sys .client).cell ⟨1, 0⟩).map fun c =>
            ((c.stream.reset, c.history.closing, c.history.quietReset),
              (sys' .client).calls[3]?, (sys' .server).calls[1]?)) =
      some ((true, false, false), some (.stream ⟨1, 0⟩ (.closeDone false)),
        some (.stream ⟨1, 0⟩ (.readFailed reasonShutdown))) := by
    decide +kernel
  obtain ⟨start, hestablish, hview⟩ := Option.bind_eq_some_iff.mp hview
  obtain ⟨sys, hbefore, hview⟩ := Option.bind_eq_some_iff.mp hview
  obtain ⟨sys', hafter, hview⟩ := Option.bind_eq_some_iff.mp hview
  obtain ⟨c, hcell, hs⟩ := Option.map_eq_some_iff.mp hview
  simp only [Prod.mk.injEq] at hs
  obtain ⟨⟨hreset, hopen, hloud⟩, hclient, hserver⟩ := hs
  exact ⟨start, sys, sys', c, hestablish, hbefore, hafter, hcell, hreset, hclient, hserver,
    severed_never_ends hestablish hbefore hcell hreset hopen hloud hafter⟩

end AccessRelay.Mux
