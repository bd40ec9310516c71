import AccessRelay.Mux.Bond

/-!
# What a failed Open leaves behind

An `Open` that was not answered yet has either not reached the other end, or the other end is
silent, or its STREAM_OK is the first message on the way back. So the only answer that is not ok,
while the session is up, is the refusal of a stream that was never created. An `Open` that fails
for another reason than the end of its context therefore leaves nothing at either end. An `Open`
whose context ends while it waits tells the other end nothing, and the stream stays there.
-/

namespace AccessRelay.Mux

open Encoding Proto Machine

/-- The read loop has registered the stream, and nothing has been done with it since. -/
structure End.Silent (e : End) : Prop where
  out : e.out = []
  ops : e.ops = 0
  queued : e.queued = 0
  hand : e.hand = .serving .acking ∨ e.hand = .stopped

/-- The operation is an `Open` that failed with this error, or is about to. -/
def End.Fails (e : End) (error : OpenError) : Prop :=
  .retireOpen error ∈ e.ops ∨ .openFailed error ∈ e.ops

/-- What the end `a` that numbers a stream knows of the other end while it waits for an answer and
after it has failed to get one. -/
structure Unanswered (a b : End) : Prop where
  done : a.done = true → a.live = false
  waits : a.awaiting = true → a.hand ≠ .stopped → b.cell ≠ none →
    b.Silent ∨ ∃ rest, b.out = .streamOK :: rest
  refused : a.live = true → ∀ r, a.acked = some r → r ≠ reasonOK →
    b.cell = none ∧ a.openings = 0
  fails : a.live = true → ∀ error, error ≠ .cancelled → a.Fails error →
    b.cell = none ∧ a.openings = 0
  retired : a.live = true → ∀ error, .openFailed error ∈ a.ops → a.registered = false

section Steps

variable {lim : Limits} {id : UInt32} {o : Bool} {a b a' b' : End} {l : Label} {m : Msg}
  {rest : List Msg}

/-- A silent end stays silent until it acknowledges the stream. -/
theorem EndStep.silent (h : EndStep lim o id b l b') (hcell : b.cell ≠ none) (hs : b.Silent) :
    b'.Silent ∨ ∃ rest, b'.out = .streamOK :: rest := by
  have hheld : ¬ b.Held := by simp [End.Held, hs.ops]
  cases h with
  | idle hdone hended hlive => exact .inl ⟨hs.out, hs.ops, hs.queued, hs.hand⟩
  | halt hhand => exact .inl ⟨hs.out, hs.ops, hs.queued, .inr rfl⟩
  | create payload hopens hnone hdone => exact absurd hnone hcell
  | start hh hc hop => exact absurd hh hheld
  | advance hc hops hturn =>
      rw [hs.ops] at hops
      exact absurd hops.symm (Multiset.cons_ne_zero)
  | accept hqueued =>
      have hzero := hs.queued
      omega
  | ack hhand hc hdone => exact .inr ⟨[], by simp [hs.out]⟩
  | collect hlive hdoomed hunanswered => exact .inl ⟨hs.out, hs.ops, hs.queued, hs.hand⟩
  | kill hlive hdoomed hc => exact .inl ⟨hs.out, hs.ops, hs.queued, hs.hand⟩
  | notify hlive hdoomed hunanswered => exact .inl ⟨hs.out, hs.ops, hs.queued, hs.hand⟩
  | queue hhand hc => rcases hs.hand with heq | heq <;> simp [heq] at hhand
  | full hhand hc => rcases hs.hand with heq | heq <;> simp [heq] at hhand
  | drop hhand hc => rcases hs.hand with heq | heq <;> simp [heq] at hhand
  | refuse hhand hdone => rcases hs.hand with heq | heq <;> simp [heq] at hhand
  | deliver hhand hc hdeliver => rcases hs.hand with heq | heq <;> simp [heq] at hhand
  | grant hhand hc => rcases hs.hand with heq | heq <;> simp [heq] at hhand
  | found hhand hregistered => rcases hs.hand with heq | heq <;> simp [heq] at hhand
  | missing hhand hregistered => rcases hs.hand with heq | heq <;> simp [heq] at hhand
  | close hhand hc => rcases hs.hand with heq | heq <;> simp [heq] at hhand
  | retired hhand hc hfinished => rcases hs.hand with heq | heq <;> simp [heq] at hhand
  | kept hhand hc hfinished => rcases hs.hand with heq | heq <;> simp [heq] at hhand

/-- Where the failure of an `Open` comes from. -/
theorem turn_fails {done : Bool} {ack : Option Reason} {c : Cell} {op : Op} {turn : Turn}
    (hturn : OpStep lim done ack c op turn) {error : OpenError} (herror : error ≠ .cancelled)
    (hfails : turn.op = .retireOpen error ∨ turn.op = .openFailed error) :
    op = .retireOpen error ∨ done = true ∨ op.openings = 1 ∧ turn.op.openings = 0 ∨
      ∃ r, ack = some r ∧ r ≠ reasonOK := by
  cases hturn with
  | openUnsent payload => exact .inr (.inr (.inl ⟨rfl, rfl⟩))
  | refused reason hack hreason => exact .inr (.inr (.inr ⟨reason, hack, hreason⟩))
  | cancelled =>
      rcases hfails with heq | heq <;> cases heq
      exact absurd rfl herror
  | openEnded hdone => exact .inr (.inl hdone)
  | openRetired error' =>
      rcases hfails with heq | heq <;> cases heq
      exact .inl rfl
  | readBytes length hread =>
      dsimp only at hfails
      split_ifs at hfails <;> simp at hfails
  | _ => simp at hfails

/-- A step adds no failure but the end of a wait, the refusal of the frame, or the end of a
session. -/
theorem EndStep.fails_of (h : EndStep lim o id a l a') (hbond : Bond o a b) (hu : Unanswered a b)
    (hlive : a'.live = true) {error : OpenError} (herror : error ≠ .cancelled)
    (hfails : a'.Fails error) : b.cell = none ∧ a'.openings = 0 := by
  obtain ⟨hlive₀, -⟩ := h.live_of hlive
  have hzero : b.cell = none ∧ a.openings = 0 → a.cell ≠ none →
      b.cell = none ∧ a'.openings = 0 := by
    rintro ⟨hcell, hnone⟩ hborn
    refine ⟨hcell, ?_⟩
    rcases h.openings_le hbond.sound with hle | ⟨-, hunborn, -⟩
    · omega
    · exact absurd hunborn hborn
  have hborn : ∀ {op : Op}, op ∈ a.ops → a.cell ≠ none := by
    intro op hop hcell
    rw [(hbond.sound.unborn hcell).ops] at hop
    exact absurd hop (Multiset.notMem_zero op)
  have hold : a.Fails error → b.cell = none ∧ a'.openings = 0 := by
    intro hfails
    refine hzero (hu.fails hlive₀ error herror hfails) ?_
    rcases hfails with hop | hop <;> exact hborn hop
  cases h with
  | create payload hopens hcell hdone =>
      refine hold ?_
      simpa [End.Fails] using hfails
  | start hheld hcell hop =>
      rcases hfails with hmem | hmem
      · rcases Multiset.mem_cons.mp hmem with rfl | hmem
        · cases hop
        · exact hold (.inl hmem)
      · rcases Multiset.mem_cons.mp hmem with rfl | hmem
        · cases hop
        · exact hold (.inr hmem)
  | @advance op others c turn hcell hops hturn =>
      have hcases : (turn.op = .retireOpen error ∨ turn.op = .openFailed error) ∨
          a.Fails error := by
        simp only [End.Fails, perform_ops, Multiset.mem_cons] at hfails
        rcases hfails with (heq | hmem) | (heq | hmem)
        · exact .inl (.inl heq.symm)
        · exact .inr (.inl (by simp [hops, hmem]))
        · exact .inl (.inr heq.symm)
        · exact .inr (.inr (by simp [hops, hmem]))
      rcases hcases with hnew | hfails
      · rcases turn_fails hturn herror hnew with rfl | hdone | ⟨hone, hnone⟩ | ⟨r, hack, hr⟩
        · exact hold (.inl (by simp [hops]))
        · rw [hu.done hdone] at hlive₀
          cases hlive₀
        · -- The frame was too large to be sent, so the other end has not heard of the stream.
          have honce := hbond.once
          have hpos : 0 < a.openings := by
            rw [End.openings, hops, Multiset.map_cons, Multiset.sum_cons, hone]
            omega
          refine ⟨(hbond.before hpos).1.cell, ?_⟩
          have hle := turn_openings id hturn
          rw [End.openings, hops, Multiset.map_cons, Multiset.sum_cons, hone] at honce
          have hmsgs : (turn.effect.msgs id).count .openStream = 0 := by
            cases hturn <;> simp_all [Op.openings, Effect.msgs]
          rw [End.openings, perform_ops, perform_out, Multiset.map_cons, Multiset.sum_cons,
            List.count_append, hnone, hmsgs]
          show 0 + (others.map Op.openings).sum + (a.out.count .openStream + 0) = 0
          omega
        · exact hzero (hu.refused hlive₀ r hack hr) (by simp [hcell])
      · exact hold hfails
  | accept hqueued =>
      refine hold ?_
      simpa [End.Fails] using hfails
  | _ => exact hold hfails

/-- The opening end moves. -/
theorem Unanswered.send (h : Unanswered a b) (hbond : Bond true a b)
    (hstep : EndStep lim true id a l a') : Unanswered a' b := by
  have hborn : ∀ {op : Op}, op ∈ a.ops → a.cell ≠ none := by
    intro op hop hcell
    rw [(hbond.sound.unborn hcell).ops] at hop
    exact absurd hop (Multiset.notMem_zero op)
  refine ⟨?_, ?_, ?_, ?_, ?_⟩
  · intro hdone
    cases hlive : a'.live with
    | false => rfl
    | true =>
        have hlive₀ := (hstep.live_of hlive).1
        rw [h.done (hstep.done_of hlive hdone)] at hlive₀
        cases hlive₀
  · intro hawaiting hhand hcell
    rcases hstep.entries_of.2 hawaiting with hold | hnone
    · exact h.waits hold (fun heq => hhand (hstep.hand_stopped heq)) hcell
    · exact absurd (hbond.first rfl hnone).2.cell hcell
  · intro hlive r hacked hr
    obtain ⟨hlive₀, hsame⟩ := hstep.live_of hlive
    rw [hsame] at hacked
    obtain ⟨hcell, hzero⟩ := h.refused hlive₀ r hacked hr
    refine ⟨hcell, ?_⟩
    rcases hstep.openings_le hbond.sound with hle | ⟨-, hnone, -⟩
    · omega
    · rw [(hbond.sound.unborn hnone).acked] at hacked
      cases hacked
  · intro hlive error herror hfails
    exact hstep.fails_of hbond h hlive herror hfails
  · intro hlive error hmem
    have hlive₀ := (hstep.live_of hlive).1
    cases hregistered : a'.registered with
    | false => rfl
    | true =>
        have hold : .openFailed error ∈ a.ops → False := by
          intro hop
          rcases hstep.entries_of.1 hregistered with hr | hnone
          · rw [h.retired hlive₀ error hop] at hr
            cases hr
          · exact hborn hop hnone
        exfalso
        cases hstep with
        | create payload hopens hcell hdone => exact hold (by simpa using hmem)
        | start hheld hcell hop =>
            rcases Multiset.mem_cons.mp hmem with rfl | hmem
            · cases hop
            · exact hold hmem
        | @advance op others c turn hcell hops hturn =>
            rw [perform_ops] at hmem
            rcases Multiset.mem_cons.mp hmem with heq | hmem
            · -- `Open` fails by dropping the stream, unless the session is done.
              have hend : turn.effect = .retire ∨ a.done = true := by
                cases hturn with
                | openEnded hdone => exact .inr hdone
                | openRetired error' => exact .inl rfl
                | readBytes length hread =>
                    dsimp only at heq
                    split_ifs at heq
                | _ => cases heq
              rcases hend with hretire | hdone
              · simp [hretire] at hregistered
              · rw [h.done hdone] at hlive₀
                cases hlive₀
            · exact hold (by simp [hops, hmem])
        | accept hqueued => exact hold (by simpa using hmem)
        | _ => exact hold hmem

/-- The other end moves. -/
theorem Unanswered.recv (h : Unanswered a b) (hstep : EndStep lim false id b l b') :
    Unanswered a b' := by
  have hnone : b.cell = none → b'.cell = none := by
    intro hcell
    exact (hstep.cell_none hcell).resolve_right (by simp)
  refine ⟨h.done, ?_, ?_, ?_, h.retired⟩
  · intro hawaiting hhand hcell
    have hborn : b.cell ≠ none := fun heq => hcell (hnone heq)
    rcases h.waits hawaiting hhand hborn with hsilent | ⟨rest, hout⟩
    · exact hstep.silent hborn hsilent
    · obtain ⟨new, hnew⟩ := hstep.out_append
      exact .inr ⟨rest ++ new, by rw [hnew, hout, List.cons_append]⟩
  · intro hlive r hacked hr
    obtain ⟨hcell, hzero⟩ := h.refused hlive r hacked hr
    exact ⟨hnone hcell, hzero⟩
  · intro hlive error herror hfails
    obtain ⟨hcell, hzero⟩ := h.fails hlive error herror hfails
    exact ⟨hnone hcell, hzero⟩

/-- The other end reads a message. -/
theorem Unanswered.arrive (h : Unanswered a b) (hbond : Bond true a b) (hback : Bond false b a)
    (hout : a.out = m :: rest) (hhand : b.hand = .free) (hreceive : Receive lim id b m b') :
    Unanswered { a with out := rest } b' := by
  have hpop := openings_pop hout
  have hnone : b.cell = none ∧ a.openings = 0 →
      b'.cell = none ∧ End.openings { a with out := rest } = 0 := by
    rintro ⟨hcell, hzero⟩
    refine ⟨?_, by omega⟩
    cases hreceive with
    | opened payload hcell =>
        rw [if_pos rfl] at hpop
        omega
    | _ => exact hcell
  refine ⟨h.done, ?_, fun hlive r hacked hr => hnone (h.refused hlive r hacked hr),
    fun hlive error herror hfails => hnone (h.fails hlive error herror hfails), h.retired⟩
  intro hawaiting hrunning hcell
  obtain ⟨-, hsame, -⟩ := hreceive.frame
  cases hborn : b.cell with
  | some c =>
      rcases h.waits hawaiting hrunning (by simp [hborn]) with hsilent | ⟨rest', hok⟩
      · rcases hsilent.hand with heq | heq <;> simp [hhand] at heq
      · exact .inr ⟨rest', hsame.trans hok⟩
  | none =>
      cases hreceive with
      | opened payload hcell' =>
          have hpos : 0 < a.openings := by
            rw [if_pos rfl] at hpop
            omega
          have hunborn := hback.sound.unborn hborn
          exact .inl ⟨(hbond.before hpos).1.out, hunborn.ops, hunborn.queued, .inl rfl⟩
      | _ => exact absurd hborn hcell

/-- The opening end reads a message. -/
theorem Unanswered.return (h : Unanswered a b) (hbond : Bond true a b)
    (hout : b.out = m :: rest) (hhand : a.hand = .free) (hreceive : Receive lim id a m a') :
    Unanswered a' { b with out := rest } := by
  obtain ⟨hops, hsame, -⟩ := hreceive.frame
  have hopenings : a'.openings = a.openings := by rw [End.openings, End.openings, hops, hsame]
  have hcontrol : a'.done = a.done ∧ a'.live = a.live := by
    cases hreceive <;> exact ⟨rfl, rfl⟩
  have hanswered : b.cell = none ∧ a.openings = 0 →
      End.cell { b with out := rest } = none ∧ a'.openings = 0 :=
    fun hnone => ⟨hnone.1, hopenings.trans hnone.2⟩
  -- While an answer is awaited, the first message is STREAM_OK or the refusal of the stream.
  have hfirst : a.awaiting = true → m ≠ .streamOK → b.cell = none ∧ a.openings = 0 := by
    intro hawaiting hm
    refine ⟨?_, ?_⟩
    · by_contra hcell
      rcases h.waits hawaiting (by simp [hhand]) hcell with hsilent | ⟨rest', hok⟩
      · rw [hsilent.out] at hout
        cases hout
      · rw [hok] at hout
        exact hm (List.cons.inj hout).1.symm
    · by_contra hzero
      rw [(hbond.before (Nat.pos_of_ne_zero hzero)).1.out] at hout
      cases hout
  refine ⟨?_, ?_, ?_, ?_, ?_⟩
  · rw [hcontrol.1, hcontrol.2]
    exact h.done
  · intro hawaiting hrunning hcell
    exfalso
    cases hreceive with
    | tooLarge hsize => exact hrunning rfl
    | openFailed => exact hrunning rfl
    | streamOK => cases hawaiting
    | close => cases hawaiting
    | dropped hregistered hm =>
        refine hcell (hfirst hawaiting ?_).1
        rcases hm with ⟨d, rfl⟩ | ⟨credit, rfl⟩ <;> simp
    | _ => exact hcell (hfirst hawaiting (by simp)).1
  · intro hlive r hacked hr
    rw [hcontrol.2] at hlive
    have hold : a.acked = some r → End.cell { b with out := rest } = none ∧ a'.openings = 0 :=
      fun hacked => hanswered (h.refused hlive r hacked hr)
    -- The channel keeps the first answer.
    have hcomplete : ∀ reason, (a.complete reason).acked = some r → a.acked = some r ∨
        (a.awaiting = true ∧ reason = r) := by
      intro reason heq
      simp only [End.complete] at heq
      split_ifs at heq with hawaiting
      · cases hprev : a.acked with
        | none =>
            rw [hprev] at heq
            exact .inr ⟨hawaiting, Option.some.inj heq⟩
        | some r' =>
            rw [hprev] at heq
            exact .inl heq
      · exact .inl heq
    cases hreceive with
    | streamOK =>
        rcases hcomplete _ hacked with hprev | ⟨-, heq⟩
        · exact hold hprev
        · exact absurd heq.symm hr
    | close =>
        rcases hcomplete _ hacked with hprev | ⟨hawaiting, -⟩
        · exact hold hprev
        · exact hanswered (hfirst hawaiting (by simp))
    | _ => exact hold hacked
  · intro hlive error herror hfails
    rw [hcontrol.2] at hlive
    rw [End.Fails, hops] at hfails
    exact hanswered (h.fails hlive error herror hfails)
  · intro hlive error hmem
    rw [hcontrol.2] at hlive
    rw [hops] at hmem
    cases hreceive with
    | opened payload hcell =>
        rw [(hbond.sound.unborn hcell).ops] at hmem
        exact absurd hmem (Multiset.notMem_zero _)
    | _ => exact h.retired hlive error hmem

/-- An end that does not number the stream has no `Open` on it. -/
theorem EndStep.not_opening (h : EndStep lim false id a l a')
    (hnone : ∀ op ∈ a.ops, ¬ op.Opening) : ∀ op ∈ a'.ops, ¬ op.Opening := by
  cases h with
  | create payload hopens hcell hdone => cases hopens
  | start hheld hcell hop =>
      intro op hmem
      rcases Multiset.mem_cons.mp hmem with rfl | hmem
      · unfold Op.start at hop
        split at hop <;> first | exact fun h => h | cases hop
      · exact hnone op hmem
  | @advance op others c turn hcell hops hturn =>
      rw [perform_ops]
      intro op' hmem
      rcases Multiset.mem_cons.mp hmem with rfl | hmem
      · have hop : ¬ op.Opening := hnone op (by simp [hops])
        cases hturn with
        | readBytes length hread => split_ifs <;> exact fun h => h
        | _ => first | exact fun h => h | exact absurd trivial hop
      · exact hnone op' (by simp [hops, hmem])
  | accept hqueued =>
      intro op hmem
      rcases Multiset.mem_cons.mp hmem with rfl | hmem
      · exact fun h => h
      · exact hnone op hmem
  | _ => exact hnone

/-- What holds between the two ends of a stream about its `Open`. -/
structure Asked (o : Bool) (a b : End) : Prop where
  opener : o = true → Unanswered a b
  acceptor : o = false → ∀ op ∈ a.ops, ¬ op.Opening

/-- What the two ends know about the `Open` of a stream stays true. -/
theorem asked_step {opener : Side} {ends ends' : Side → End} {x : Side}
    (hB : Directed.Both Bond opener ends) (hA : Directed.Both Asked opener ends)
    (h : LinkStep lim id opener ends x l ends') : Directed.Both Asked opener ends' := by
  refine link_step_directed (C := Bond) (G := fun _ _ => True) ?_ ?_ ?_ ?_ hB hA trivial h
  · intro o a b l a' hab _ ha _ _ hstep
    refine ⟨?_, ?_⟩
    · rintro rfl
      exact (ha.opener rfl).send hab hstep
    · rintro rfl
      exact hstep.not_opening (ha.acceptor rfl)
  · intro o a b l b' _ _ ha _ _ hstep
    refine ⟨?_, ha.acceptor⟩
    rintro rfl
    exact (ha.opener rfl).recv hstep
  · intro o a b m rest b' hab hba ha _ hout hhand hreceive
    refine ⟨?_, ha.acceptor⟩
    rintro rfl
    exact (ha.opener rfl).arrive hab hba hout hhand hreceive
  · intro o a b m rest a' hab _ ha _ hout hhand hreceive
    refine ⟨?_, ?_⟩
    · rintro rfl
      exact (ha.opener rfl).return hab hout hhand hreceive
    · intro ho
      rw [hreceive.frame.1]
      exact ha.acceptor ho

end Steps

/-- What every run of the two sessions keeps about the streams that are being opened. -/
structure Opening (lim : Limits) (sys : System) : Prop where
  joint : Joint lim sys
  rooted : ∀ x, (sys x).Rooted
  asked : ∀ id, Directed.Both Asked (openerOf id) (link id sys)

section Opening

variable {lim : Limits} {sys sys' : System} {a : SystemAction}

theorem opening_step (h : Opening lim sys)
    (hstep : restrict withinBounds systemStep sys a = some sys') : Opening lim sys' := by
  obtain ⟨hbound, hstep⟩ := restrict_eq_some.mp hstep
  refine ⟨joint_step h.joint hstep hbound, rooted_step h.rooted hstep, ?_⟩
  intro id
  exact asked_step (h.joint.bond id) (h.asked id) (system_step_link h.joint hstep id)

theorem opening_establish {cfg : Config} (h : establish cfg = some sys) :
    Opening (limitsOf cfg.ack) sys := by
  refine ⟨joint_establish h, rooted_establish h, ?_⟩
  obtain ⟨rfl, -⟩ := establish_limits h
  intro id x
  have hnew : Unanswered newEnd newEnd := by constructor <;> simp [newEnd, End.Fails]
  exact ⟨fun _ => hnew, fun _ op hop => absurd hop (Multiset.notMem_zero op)⟩

/-- The end with a failed `Open` on a stream is the one that numbers it. -/
theorem Opening.failed (h : Opening lim sys) {x : Side} {i : Handle} {error : OpenError}
    (hcall : .stream i (.openFailed error) ∈ (sys x).calls) :
    i = ⟨i.id, 0⟩ ∧ .openFailed error ∈ (link i.id sys x).ops ∧
      Unanswered (link i.id sys x) (link i.id sys x.other) := by
  obtain ⟨c, hcell⟩ := cell_of_has ((h.rooted x).calls i _ hcall)
  have hi := handle_eq (h.joint.tidy x) hcell
  have hmem : .openFailed error ∈ (link i.id sys x).ops := by
    refine Multiset.mem_coe.mpr (List.mem_filterMap.mpr ⟨_, hcall, ?_⟩)
    rw [opOf, if_pos hi]
  have hasked := h.asked i.id x
  refine ⟨hi, hmem, hasked.opener ?_⟩
  by_contra hside
  exact hasked.acceptor (by simpa using hside) _ hmem trivial

end Opening

/-- An `Open` that has failed while its session is up, for another reason than the end of its
context, has left nothing behind: its identifier is in neither stream map, and the other end never
had a stream for it. -/
theorem failed_open_leaves_nothing {cfg : Config} {sys sys' : System}
    {actions : List SystemAction} (hestablish : establish cfg = some sys)
    (hrun : run (restrict withinBounds systemStep) sys actions = some sys') :
    ∀ x h error, .stream h (.openFailed error) ∈ (sys' x).calls → (sys' x).ending = .live →
      error ≠ .cancelled →
      (∀ y, ∀ i ∈ (sys' y).streams, i.id ≠ h.id) ∧ (sys' x.other).cells h.id = [] := by
  have hinv : Opening (limitsOf cfg.ack) sys' :=
    run_invariant (fun h hstep => opening_step h hstep) (opening_establish hestablish) hrun
  intro x h error hcall hlive herror
  obtain ⟨-, hmem, hu⟩ := hinv.failed hcall
  have hup : (link h.id sys' x).live = true := by simp [link, view, hlive]
  obtain ⟨hnone, -⟩ := hu.fails hup error herror (.inr hmem)
  have hcells : (sys' x.other).cells h.id = [] := by
    simpa [link, view, Session.cell] using hnone
  have hregistered : ∀ y, (link h.id sys' y).registered = false := by
    intro y
    by_cases hy : y = x
    · subst hy
      exact hu.retired hup error hmem
    · obtain rfl : y = x.other := by cases x <;> cases y <;> simp_all [Side.other]
      have hside := ((hinv.joint.bond h.id x.other).sound.unborn hnone).registered
      exact hside
  refine ⟨?_, hcells⟩
  intro y i hi hid
  have hi' : i = ⟨h.id, 0⟩ := by
    obtain ⟨j, n⟩ := i
    obtain rfl : j = h.id := hid
    obtain rfl : n = 0 := (hinv.joint.tidy y).streams _ hi
    rfl
  have hfalse := hregistered y
  rw [hi'] at hi
  simp [link, view, hi] at hfalse

/-- Both ends open a stream when there is room for one, and the server refuses the client's. -/
def refusedRun : List SystemAction :=
  [.act .server (.start (.openStream [])), .act .server (.advance 0 .value),
    .act .client (.start (.openStream [])), .act .client (.advance 0 .value),
    .act .client (.advance 0 .value), .deliver .server, .act .server .dispatch, .deliver .client,
    .act .client .dispatch, .act .client .dispatch, .act .client .dispatch,
    .act .client (.advance 0 .value), .act .client (.advance 0 .value)]

/-- The refused stream is in neither map. -/
theorem refused_open_leaves_nothing : ∃ sys sys', establish ⟨0, 0, 1⟩ = some sys ∧
    run (restrict withinBounds systemStep) sys refusedRun = some sys' ∧
    (sys' .client).calls =
      [.stream ⟨1, 0⟩ (.openFailed (.refused reasonLimitStreamsExceeded))] ∧
    (∀ y, ∀ i ∈ (sys' y).streams, i.id ≠ 1) ∧ (sys' .server).cells 1 = [] := by
  have hview : ((establish ⟨0, 0, 1⟩).bind fun sys =>
      (run (restrict withinBounds systemStep) sys refusedRun).map fun sys' =>
        ((sys' .client).calls, (sys' .client).ending)) =
      some ([.stream ⟨1, 0⟩ (.openFailed (.refused reasonLimitStreamsExceeded))], .live) := by
    decide +kernel
  obtain ⟨sys, hestablish, hfinal⟩ := Option.bind_eq_some_iff.mp hview
  obtain ⟨sys', hrun, hs⟩ := Option.map_eq_some_iff.mp hfinal
  obtain ⟨hcalls, hlive⟩ := Prod.mk.inj hs
  obtain ⟨hstreams, hcells⟩ := failed_open_leaves_nothing hestablish hrun .client ⟨1, 0⟩
    (.refused reasonLimitStreamsExceeded) (by simp [hcalls]) hlive (by simp)
  exact ⟨sys, sys', hestablish, hrun, hcalls, hstreams, hcells⟩

/-- The context of an `Open` ends after the server has accepted the stream and before the answer is
read. -/
def cancelledRun : List SystemAction :=
  [.act .client (.start (.openStream [])), .act .client (.advance 0 .value),
    .act .client (.advance 0 .value), .deliver .server, .act .server .dispatch,
    .act .server .dispatch, .act .server (.start .acceptStream), .act .server (.advance 0 .value),
    .act .client (.advance 0 .cancelled), .act .client (.advance 0 .value), .deliver .client]

/-- After it every frame has been delivered and both sessions are up; the server still has the
stream, neither closed nor reset, and its application holds it. -/
theorem cancelled_open_leaves_stream : ∃ sys sys' c, establish ⟨0, 0, 0⟩ = some sys ∧
    run (restrict withinBounds systemStep) sys cancelledRun = some sys' ∧
    (∀ y, (sys' y).ending = .live ∧ (sys' y).out = [] ∧ (sys' y).reader = .idle) ∧
    (sys' .client).calls = [.stream ⟨1, 0⟩ (.openFailed .cancelled)] ∧
    (sys' .server).calls = [.stream ⟨1, 0⟩ .accepted] ∧ (sys' .server).streams = [⟨1, 0⟩] ∧
    (sys' .server).cell ⟨1, 0⟩ = some c ∧ c.stream.reset = false ∧
    c.stream.localClosed = false ∧ c.stream.remoteClosed = false := by
  have hview : ((establish ⟨0, 0, 0⟩).bind fun sys =>
      (run (restrict withinBounds systemStep) sys cancelledRun).map fun sys' =>
        ([Side.client, Side.server].map fun y => ((sys' y).calls, decide
            ((sys' y).ending = .live ∧ (sys' y).out = [] ∧ (sys' y).reader = .idle)),
          (sys' .server).streams, (sys' .server).cell ⟨1, 0⟩)) =
      some ([([.stream ⟨1, 0⟩ (.openFailed .cancelled)], true),
          ([.stream ⟨1, 0⟩ .accepted], true)],
        [⟨1, 0⟩], some (newCell (newStream 1 initialWindow))) := by
    decide +kernel
  obtain ⟨sys, hestablish, hfinal⟩ := Option.bind_eq_some_iff.mp hview
  obtain ⟨sys', hrun, hs⟩ := Option.map_eq_some_iff.mp hfinal
  simp only [List.map_cons, List.map_nil, List.cons.injEq, Prod.mk.injEq, and_true,
    decide_eq_true_eq] at hs
  obtain ⟨⟨⟨hcalls, hquiet⟩, hcalls', hquiet'⟩, hstreams, hcell⟩ := hs
  have hdelivered : ∀ y, (sys' y).ending = .live ∧ (sys' y).out = [] ∧
      (sys' y).reader = .idle := by
    intro y
    cases y
    · exact hquiet
    · exact hquiet'
  exact ⟨sys, sys', _, hestablish, hrun, hdelivered, hcalls, hcalls', hstreams, hcell, rfl, rfl,
    rfl⟩

end AccessRelay.Mux
