import AccessRelay.Mux.CloseProtocol

/-!
# Which streams the two ends still have

The two ends of a stream agree on whether it is open: whenever no close is in flight and no call
that closes it is in progress, the stream is in both stream maps or in neither. `Standing` says
where an end is in the life of its stream and of its session, `Agreed` carries the invariant of
the close protocol over the steps of the two ends, and `close_agreement` states it for runs of the
two sessions in which every close is in order. Closes that are not in order leave the stream at
one of the ends.
-/

namespace AccessRelay.Mux

open Encoding Proto Machine

/-- Nothing has been closed. -/
structure Cell.Fresh (c : Cell) : Prop where
  localClosed : c.stream.localClosed = false
  remoteClosed : c.stream.remoteClosed = false
  reset : c.stream.reset = false
  aborted : c.history.aborted = false

/-- Where the end `a` stands in the life of its session and of its stream. -/
structure Standing (a : End) : Prop where
  admitted : a.Admitted
  done : a.done = true → a.live = false
  spare : a.live = true → a.doomed = false
  refuses : a.hand = .refusing → a.cell = none ∨ a.Abandoned
  young : a.live = true → 0 < a.openings → ∀ c, a.cell = some c → c.Fresh

section Standing

variable {lim : Limits} {id : UInt32} {o : Bool} {a b a' b' : End} {l : Label} {m : Msg}
  {rest : List Msg}

/-- A stream whose OPEN_STREAM has not been read is untouched. -/
theorem Standing.young_step (h : Standing a) (hbond : Bond o a b) (hstep : EndStep lim o id a l a')
    (hlive : a'.live = true) (hpos : 0 < a'.openings) : ∀ c, a'.cell = some c → c.Fresh := by
  have hlive₀ := (hstep.live_of hlive).1
  rcases hstep.openings_le hbond.sound with hle | ⟨-, hnone, -⟩
  · have hpos₀ : 0 < a.openings := hpos.trans_le hle
    obtain ⟨hblank, hhand⟩ := hbond.before hpos₀
    have hmute := hbond.mute hblank.cell
    -- Only an `Open` is in progress, and the read loop has nothing in hand.
    have hopening : ∀ c, a.cell = some c → ∀ op ∈ a.ops, op.Opening := by
      intro c hc
      rcases (hmute.cell c hc).2 with hreset | hopening
      · rw [(h.young hlive₀ hpos₀ c hc).reset] at hreset
        cases hreset
      · exact hopening.2
    have hnone : ∀ {hand : Hand} {P : Prop}, a.hand = hand → hand ≠ .free →
        hand ≠ .stopped → P := by
      intro hand P heq hfree hstopped
      rcases hhand with hh | hh
      · exact absurd (heq.symm.trans hh) hfree
      · exact absurd (heq.symm.trans hh) hstopped
    intro c hc
    cases hstep with
    | create payload hopens hcell hdone =>
        cases hc
        exact ⟨rfl, rfl, rfl, rfl⟩
    | start hheld hcell hop =>
        rcases hheld with hop' | hop'
        · exact absurd (hopening _ hcell _ hop') (by simp [Op.Opening])
        · exact absurd (hopening _ hcell _ hop') (by simp [Op.Opening])
    | @advance op others c₀ turn hcell hops hturn =>
        have hop := hopening _ hcell op (by simp [hops])
        rw [perform_cell] at hc
        cases hc
        have hsame : turn.cell = c₀ := by
          cases hturn <;> first | rfl | exact hop.elim
        rw [hsame]
        exact h.young hlive₀ hpos₀ c₀ hcell
    | deliver hserving hcell hdeliver => exact hnone hserving (by simp) (by simp)
    | grant hserving hcell => exact hnone hserving (by simp) (by simp)
    | close hserving hcell => exact hnone hserving (by simp) (by simp)
    | kill hl hdoomed hcell =>
        rw [hl] at hlive₀
        cases hlive₀
    | _ => exact h.young hlive₀ hpos₀ c hc
  · intro c hc
    rw [hstep.born hnone hc]
    exact ⟨rfl, rfl, rfl, rfl⟩

theorem Standing.send (h : Standing a) (hbond : Bond o a b) (hstep : EndStep lim o id a l a') :
    Standing a' := by
  refine ⟨hstep.admitted h.admitted, ?_, ?_, hstep.refuses hbond.sound h.admitted h.refuses,
    h.young_step hbond hstep⟩
  · intro hdone
    cases hlive : a'.live with
    | false => rfl
    | true =>
        have hlive₀ := (hstep.live_of hlive).1
        rw [h.done (hstep.done_of hlive hdone)] at hlive₀
        cases hlive₀
  · intro hlive
    exact hstep.spare hlive (h.spare (hstep.live_of hlive).1)

theorem Standing.arrive (h : Standing a) (hout : a.out = m :: rest) :
    Standing { a with out := rest } := by
  refine ⟨?_, h.done, h.spare, ?_, ?_⟩
  · obtain ⟨hvacant, honce, hresets, hleaves⟩ := h.admitted
    refine ⟨?_, honce, hresets, ?_⟩
    · intro hcell
      exact { hvacant hcell with }
    · intro c hc
      exact (hleaves c hc).imp_right fun h => h.imp_right fun h => h.imp_right fun h => { h with }
  · intro hhand
    exact (h.refuses hhand).imp_right fun h => { h with }
  · intro hlive hpos
    have hpop := openings_pop hout
    exact h.young hlive (by omega)

theorem Standing.return (h : Standing a) (hbond : Bond o a b) (hback : Bond (!o) b a)
    (hout : b.out = m :: rest) (hhand : a.hand = .free) (hreceive : Receive lim id a m a') :
    Standing a' := by
  obtain ⟨hops, hsame, -⟩ := hreceive.frame
  have hopenings : a'.openings = a.openings := by rw [End.openings, End.openings, hops, hsame]
  have hcontrol : a'.done = a.done ∧ a'.live = a.live ∧ a'.doomed = a.doomed := by
    cases hreceive <;> exact ⟨rfl, rfl, rfl⟩
  refine ⟨hreceive.admitted hhand h.admitted, ?_, ?_, ?_, ?_⟩
  · rw [hcontrol.1, hcontrol.2.1]
    exact h.done
  · rw [hcontrol.2.1, hcontrol.2.2]
    exact h.spare
  · intro hrefusing
    cases hreceive with
    | openRefused =>
        have hpos : 0 < b.openings := by
          rw [openings_pop hout, if_pos rfl]
          omega
        exact .inl (hback.before hpos).1.cell
    | streamOK => exact absurd (hhand.symm.trans hrefusing) (by simp)
    | dropped hregistered hm => exact absurd (hhand.symm.trans hrefusing) (by simp)
    | _ => exact absurd hrefusing (by simp)
  · intro _ hpos
    rw [hopenings] at hpos
    rw [(hbond.before hpos).1.out] at hout
    cases hout

end Standing

/-- The two ends agree on the stream while both sessions are up and it has not been given up
before it was opened and accepted. -/
def Agreed (_ : Bool) (a b : End) : Prop :=
  a.live = true → b.live = true → a.hand ≠ .stopped → b.hand ≠ .stopped → ¬ a.Abandoned →
    ¬ b.Abandoned → ∀ c d, a.cell = some c → b.cell = some d → Agrees a b c d

section Agreed

variable {lim : Limits} {id : UInt32} {o : Bool} {a b a' b' : End} {l : Label} {m : Msg}
  {rest : List Msg}

theorem agrees_fresh {c d : Cell} (hc : c.Fresh) (hd : d.Fresh) (hway : ∀ g, ¬ OnTheWay a b g) :
    Agrees a b c d := by
  have hnot : c.stream.finished ≠ true := by
    simp [Stream.finished, hc.reset, hc.localClosed]
  refine ⟨?_, fun hf => absurd hf hnot, ?_, ?_, fun g hg => absurd hg (hway g), ?_,
    fun hg => absurd hg (hway _), fun hf => absurd hf hnot⟩
  · simp [hc.reset]
  · simp [hc.aborted]
  · simp [hc.localClosed]
  · simp [hd.remoteClosed]

/-- An end that has dropped its stream is finished with it. -/
theorem Standing.left (h : Standing a) (hlive : a.live = true) (hab : ¬ a.Abandoned) {c : Cell}
    (hc : a.cell = some c) (hregistered : a.registered = false) : c.stream.finished = true := by
  rcases h.admitted.leaves c hc with hf | hr | hd | hab'
  · exact hf
  · rw [hregistered] at hr
    cases hr
  · rw [h.spare hlive] at hd
    cases hd
  · exact absurd hab' hab

theorem Standing.not_refusing (h : Standing a) (hab : ¬ a.Abandoned) {c : Cell}
    (hc : a.cell = some c) : a.hand ≠ .refusing := by
  intro hhand
  rcases h.refuses hhand with hnone | hab'
  · rw [hc] at hnone
    cases hnone
  · exact hab hab'

theorem Agreed.send (h : Agreed o a b) (h' : Agreed (!o) b a) (hbond : Bond o a b)
    (hs : Standing a) (hstep : EndStep lim o id a l a') (horder : a.InOrder l) :
    Agreed o a' b := by
  intro hlive hlive' hhand hhand' hab hab' c' d hc' hd
  cases hc : a.cell with
  | none =>
      -- Nothing has happened at the other end before the stream was created.
      have hopens := (hstep.cell_none hc).resolve_left (by simp [hc'])
      rw [(hbond.first hopens hc).2.cell] at hd
      cases hd
  | some c =>
      have hlive₀ := (hstep.live_of hlive).1
      have hhand₀ : a.hand ≠ .stopped := fun heq => hhand (hstep.hand_stopped heq)
      have hab₀ : ¬ a.Abandoned := fun heq => hab (hstep.abandoned hc heq)
      have hagrees := h hlive₀ hlive' hhand₀ hhand' hab₀ hab' c d hc hd
      have hagrees' := h' hlive' hlive₀ hhand' hhand₀ hab' hab₀ d c hd hc
      have hchange := hstep.change hc hc' hlive hs.done (hs.not_refusing hab₀ hc) horder
      exact hagrees.send hagrees' hchange (hstep.leaving hc hc' hlive hhand hagrees.leaving)

theorem Agreed.recv (h : Agreed o a b) (h' : Agreed (!o) b a) (hback : Bond (!o) b a)
    (hs : Standing b) (hstep : EndStep lim (!o) id b l b') (horder : b.InOrder l) :
    Agreed o a b' := by
  intro hlive hlive' hhand hhand' hab hab' c d' hc hd'
  cases hd : b.cell with
  | none =>
      have hopens := (hstep.cell_none hd).resolve_left (by simp [hd'])
      rw [(hback.first hopens hd).2.cell] at hc
      cases hc
  | some d =>
      have hlive₀ := (hstep.live_of hlive').1
      have hhand₀ : b.hand ≠ .stopped := fun heq => hhand' (hstep.hand_stopped heq)
      have hab₀ : ¬ b.Abandoned := fun heq => hab' (hstep.abandoned hd heq)
      have hagrees := h hlive hlive₀ hhand hhand₀ hab hab₀ c d hc hd
      have hagrees' := h' hlive₀ hlive hhand₀ hhand hab₀ hab d c hd hc
      have hchange := hstep.change hd hd' hlive' hs.done (hs.not_refusing hab₀ hd) horder
      exact hagrees.recv hagrees' hchange (hs.left hlive₀ hab₀ hd)

/-- An end that reads a message of an existing stream takes its close in hand, and does nothing
else to the stream. -/
theorem Receive.takes {e e' : End} (h : Receive lim id e m e') (hhand : e.hand = .free)
    (hm : m ≠ .openStream) (hstopped : e'.hand ≠ .stopped) :
    e'.cell = e.cell ∧ e'.registered = e.registered ∧ e'.queued = e.queued ∧ e'.live = e.live ∧
      e'.hand.admissions = 0 ∧ e'.hand.closes = m.closes := by
  cases h with
  | tooLarge hsize => exact absurd rfl hstopped
  | openFailed => exact absurd rfl hm
  | openRefused => exact absurd rfl hm
  | opened payload hcell => exact absurd rfl hm
  | streamOK =>
      refine ⟨rfl, rfl, rfl, rfl, ?_, ?_⟩
      · show e.hand.admissions = 0
        rw [hhand]
        rfl
      · show e.hand.closes = none
        rw [hhand]
        rfl
  | dropped hregistered hd =>
      refine ⟨rfl, rfl, rfl, rfl, ?_, ?_⟩
      · rw [hhand]
        rfl
      · rw [hhand]
        rcases hd with ⟨b, rfl⟩ | ⟨credit, rfl⟩ <;> rfl
  | _ => exact ⟨rfl, rfl, rfl, rfl, rfl, rfl⟩

/-- Reading such a message does not give the stream up. -/
theorem Receive.abandoned {e e' : End} (h : Receive lim id e m e') (hhand : e.hand = .free)
    (hm : m ≠ .openStream) (hstopped : e'.hand ≠ .stopped) (hab : e.Abandoned) : e'.Abandoned := by
  obtain ⟨-, -, hqueued, -, hzero, -⟩ := h.takes hhand hm hstopped
  refine ⟨h.frame.1 ▸ hab.ops, hqueued.trans hab.queued, ?_, ?_⟩
  · intro heq
    rw [heq] at hzero
    cases hzero
  · intro heq
    rw [heq] at hzero
    cases hzero

theorem Agreed.arrive (h : Agreed o a b) (hbond : Bond o a b) (hs : Standing a)
    (hout : a.out = m :: rest) (hhand : b.hand = .free) (hreceive : Receive lim id b m b') :
    Agreed o { a with out := rest } b' := by
  intro hlive hlive' hrunning hrunning' hab hab' c d hc hd
  by_cases hm : m = .openStream
  · -- The stream has been announced, and nothing else has happened to it.
    subst hm
    have hpos : 0 < a.openings := by
      rw [openings_pop hout, if_pos rfl]
      omega
    obtain ⟨hblank, -⟩ := hbond.before hpos
    have hmute := hbond.mute hblank.cell
    cases hreceive with
    | opened payload hcell =>
        cases hd
        refine agrees_fresh (hs.young hlive hpos c hc) ⟨rfl, rfl, rfl, rfl⟩ ?_
        rintro g ((⟨op, hop, hcloses⟩ | ⟨m, hm, hcloses⟩) | hcloses)
        · have hsends := hmute.ops op hop
          cases op with
          | sendClose r => exact hsends trivial
          | sendReset r => exact hsends trivial
          | _ => cases hcloses
        · rw [hmute.out m (hout ▸ List.mem_cons_of_mem _ hm)] at hcloses
          cases hcloses
        · cases hcloses
    | tooLarge hsize => exact absurd rfl hrunning'
    | openFailed => exact absurd rfl hrunning'
    | openRefused =>
        rw [show b.cell = none from hblank.cell] at hd
        cases hd
    | dropped hregistered hm => simp at hm
  · obtain ⟨hcell, -, -, hl, -, hcloses⟩ := hreceive.takes hhand hm hrunning'
    have hab₀ : ¬ b.Abandoned := fun heq => hab' (hreceive.abandoned hhand hm hrunning' heq)
    have hagrees := h hlive (hl ▸ hlive') hrunning (by simp [hhand])
      (fun heq => hab { heq with }) hab₀ c d hc (hcell ▸ hd)
    have hfree : b.hand.closes = none := by
      rw [hhand]
      rfl
    refine hagrees.same hagrees.leaving fun g => ?_
    simp only [OnTheWay, End.Tells, hcloses, hfree, hout, List.mem_cons, exists_eq_or_imp,
      reduceCtorEq, false_or, or_assoc, or_comm]

theorem Agreed.return (h : Agreed o a b) (hbond : Bond o a b) (hback : Bond (!o) b a)
    (hs : Standing b) (hout : b.out = m :: rest) (hhand : a.hand = .free)
    (hreceive : Receive lim id a m a') :
    Agreed o a' { b with out := rest } := by
  intro hlive hlive' hrunning hrunning' hab hab' c d hc hd
  by_cases hm : m = .openStream
  · subst hm
    have hpos : 0 < b.openings := by
      rw [openings_pop hout, if_pos rfl]
      omega
    obtain ⟨hblank, hidle⟩ := hback.before hpos
    cases hreceive with
    | opened payload hcell =>
        cases hc
        refine agrees_fresh ⟨rfl, rfl, rfl, rfl⟩ (hs.young hlive' hpos d hd) ?_
        rintro g ((⟨op, hop, hcloses⟩ | ⟨m, hm, hcloses⟩) | hcloses)
        · rw [show a.ops = 0 from (hbond.sound.unborn hcell).ops] at hop
          exact absurd hop (Multiset.notMem_zero op)
        · rw [show a.out = [] from hblank.out] at hm
          exact absurd hm List.not_mem_nil
        · rw [show b.hand.closes = none by rcases hidle with hh | hh <;> rw [hh] <;> rfl] at hcloses
          cases hcloses
    | tooLarge hsize => exact absurd rfl hrunning
    | openFailed => exact absurd rfl hrunning
    | openRefused =>
        rw [show a.cell = none from hblank.cell] at hc
        cases hc
    | dropped hregistered hm => simp at hm
  · obtain ⟨hcell, hregistered, -, hl, -, -⟩ := hreceive.takes hhand hm hrunning
    obtain ⟨hops, hsame, -⟩ := hreceive.frame
    have hab₀ : ¬ a.Abandoned := fun heq => hab (hreceive.abandoned hhand hm hrunning heq)
    have hagrees := h (hl ▸ hlive) hlive' (by simp [hhand]) hrunning' hab₀
      (fun heq => hab' { heq with }) c d (hcell ▸ hc) hd
    refine hagrees.same ?_ fun g => ?_
    · intro hf hr
      rcases hagrees.leaving hf (hregistered ▸ hr) with hop | hh
      · exact .inl (hops ▸ hop)
      · rw [hhand] at hh
        cases hh
    · simp only [OnTheWay, End.Tells, hops, hsame]

end Agreed

/-- The step of a call on stream `id` closes it in order. -/
def closesInOrder (id : UInt32) (sys : System) : SystemAction → Bool
  | .act x (.advance index _) =>
      match (sys x).calls[index]? with
      | some (.stream h op) => h.id ≠ id || ((sys x).cell h).all op.inOrder
      | _ => true
  | _ => true

/-- No close of stream `id` is in flight and no call that closes it is in progress, at both ends of
a connection that is up. -/
def Settled (id : UInt32) (sys : System) : Prop :=
  ∀ x, (sys x).ending = .live ∧ (∀ f ∈ (sys x).out, f.streamID ≠ id) ∧
    handOf id (sys x).reader = .free ∧
    ∀ h op, .stream h op ∈ (sys x).calls → h.id = id → ¬ op.Closing

/-- Stream `id` is in the stream map. -/
def Session.lists (s : Session) (id : UInt32) : Prop := ∃ h ∈ s.streams, h.id = id

/-- The application has aborted stream `id`. -/
def Session.aborted (s : Session) (id : UInt32) : Prop :=
  ∃ c ∈ s.cells id, c.history.aborted = true

/-- What every run of the two sessions keeps about the closes of a stream. -/
structure Closing (lim : Limits) (id : UInt32) (sys : System) : Prop where
  joint : Joint lim sys
  rooted : ∀ x, (sys x).Rooted
  standing : ∀ x, Standing (link id sys x)
  agreed : Directed.Both Agreed (openerOf id) (link id sys)

section Closing

variable {lim : Limits} {id : UInt32} {sys sys' : System} {a : SystemAction}

theorem in_order_label (h : closesInOrder id sys a = true) :
    (link id sys a.side).InOrder (labelAt id sys a) := by
  cases a with
  | deliver x => trivial
  | act x b =>
      cases b with
      | advance index choice =>
          show End.InOrder _ (labelOf id (sys x) (.advance index choice))
          rw [labelOf]
          split
          next i op hcall =>
            split_ifs with hi
            · intro c hc
              simp only [closesInOrder, hcall, hi, ne_eq, not_true_eq_false, decide_false,
                Bool.false_or] at h
              have hcell : (sys x).cell ⟨id, 0⟩ = some c := hc
              rw [hcell] at h
              exact h
            · trivial
          next => trivial
      | start call =>
          cases call with
          | stream i op =>
              show End.InOrder _ (labelOf id (sys x) (.start (.stream i op)))
              rw [labelOf]
              split_ifs <;> trivial
          | _ => trivial
      | _ => trivial

theorem standing_step {opener : Side} {ends ends' : Side → End} {x : Side} {l : Label}
    (hB : Directed.Both Bond opener ends) (hS : ∀ x, Standing (ends x))
    (h : LinkStep lim id opener ends x l ends') : ∀ x, Standing (ends' x) := by
  refine link_step_directed (C := Bond) (P := fun _ a _ => Standing a) (G := fun _ _ => True)
    ?_ ?_ ?_ ?_ hB hS trivial h
  · exact fun hab _ ha _ _ hstep => ha.send hab hstep
  · exact fun _ _ ha _ _ _ => ha
  · exact fun _ _ ha _ hout _ _ => ha.arrive hout
  · exact fun hab hba ha _ hout hhand hreceive => ha.return hab hba hout hhand hreceive

theorem agreed_step {opener : Side} {ends ends' : Side → End} {x : Side} {l : Label}
    (hB : Directed.Both Bond opener ends) (hS : ∀ x, Standing (ends x))
    (hA : Directed.Both Agreed opener ends) (horder : (ends x).InOrder l)
    (h : LinkStep lim id opener ends x l ends') : Directed.Both Agreed opener ends' := by
  refine link_step_directed (C := fun o a b => Bond o a b ∧ Standing a) (G := End.InOrder)
    ?_ ?_ ?_ ?_ (fun y => ⟨hB y, hS y⟩) hA horder h
  · exact fun hab _ ha hb hG hstep => ha.send hb hab.1 hab.2 hstep hG
  · exact fun _ hba ha hb hG hstep => ha.recv hb hba.1 hba.2 hstep hG
  · exact fun hab _ ha _ hout hhand hreceive => ha.arrive hab.1 hab.2 hout hhand hreceive
  · exact fun hab hba ha _ hout hhand hreceive =>
      ha.return hab.1 hba.1 hba.2 hout hhand hreceive

theorem closing_step (h : Closing lim id sys)
    (hstep : restrict (fun sys a => withinBounds sys a && closesInOrder id sys a) systemStep
      sys a = some sys') : Closing lim id sys' := by
  obtain ⟨hguard, hstep⟩ := restrict_eq_some.mp hstep
  rw [Bool.and_eq_true] at hguard
  have hlink := system_step_link h.joint hstep id
  exact ⟨joint_step h.joint hstep hguard.1, rooted_step h.rooted hstep,
    standing_step (h.joint.bond id) h.standing hlink,
    agreed_step (h.joint.bond id) h.standing h.agreed (in_order_label hguard.2) hlink⟩

theorem closing_establish {cfg : Config} (h : establish cfg = some sys) :
    Closing (limitsOf cfg.ack) id sys := by
  refine ⟨joint_establish h, rooted_establish h, ?_, ?_⟩
  · obtain ⟨rfl, -⟩ := establish_limits h
    intro x
    have hvacant : newEnd.Vacant := ⟨rfl, rfl, rfl, rfl, by simp [newEnd]⟩
    have hnew : Standing newEnd := by
      refine ⟨⟨fun _ => hvacant, hvacant.admissions.le.trans (Nat.zero_le 1), ?_, ?_⟩, ?_, ?_, ?_,
        ?_⟩
      all_goals simp [newEnd]
    exact hnew
  · obtain ⟨rfl, -⟩ := establish_limits h
    intro x _ _ _ _ _ _ c d hc
    cases hc

/-- The operation of a call is one on the end of its stream. -/
theorem Closing.op_mem (h : Closing lim id sys) {x : Side} {i : Handle} {op : Op}
    (hcall : .stream i op ∈ (sys x).calls) (hid : i.id = id) : op ∈ (link id sys x).ops := by
  obtain ⟨c, hcell⟩ := cell_of_has ((h.rooted x).calls i _ hcall)
  have hi := handle_eq (h.joint.tidy x) hcell
  rw [hid] at hi
  refine Multiset.mem_coe.mpr (List.mem_filterMap.mpr ⟨_, hcall, ?_⟩)
  rw [opOf, if_pos hi]

theorem Closing.lists_iff (h : Closing lim id sys) (x : Side) :
    (sys x).lists id ↔ (link id sys x).registered = true := by
  have hview : (link id sys x).registered = true ↔ (⟨id, 0⟩ : Handle) ∈ (sys x).streams := by
    simp [link, view]
  rw [hview]
  constructor
  · rintro ⟨⟨i, n⟩, hi, rfl⟩
    obtain rfl : n = 0 := (h.joint.tidy x).streams _ hi
    exact hi
  · exact fun hi => ⟨_, hi, rfl⟩

/-- An end with a settled stream that the application holds. -/
theorem Settled.end (hsettled : Settled id sys) (x : Side) :
    (link id sys x).live = true ∧ (link id sys x).hand = .free ∧ (link id sys x).out = [] ∧
      ∀ op ∈ (link id sys x).ops, ¬ op.Closing := by
  obtain ⟨hlive, hout, hhand, hcalls⟩ := hsettled x
  refine ⟨by simp [link, view, hlive], hhand, ?_, ?_⟩
  · refine List.filterMap_eq_nil_iff.mpr fun f hf => ?_
    rw [msgOf, if_neg (hout f hf)]
  · intro op hop
    obtain ⟨call, hcall, hop⟩ := List.mem_filterMap.mp (Multiset.mem_coe.mp hop)
    cases call with
    | stream i op' =>
        rw [opOf] at hop
        split_ifs at hop with hi
        cases hop
        exact hcalls i op hcall (by rw [hi])
    | _ => cases hop

/-- A settled stream is in the table of an end if and only if it is not finished there, and the
other end is finished with what this one is finished with. -/
theorem Agrees.settled {a b : End} {c d : Cell} (h : Agrees a b c d) (hs : Standing a)
    (hlive : a.live = true) (hab : ¬ a.Abandoned) (hc : a.cell = some c) (hout : a.out = [])
    (hhand : a.hand = .free) (hhand' : b.hand = .free) (hops : ∀ op ∈ a.ops, ¬ op.Closing) :
    (a.registered = true ↔ c.stream.finished = false) ∧
      (c.stream.finished = true → d.stream.finished = true) := by
  have hway : ∀ g, ¬ OnTheWay a b g := by
    rintro g ((⟨op, hop, hcloses⟩ | ⟨m, hm, -⟩) | hcloses)
    · have hclosing := hops op hop
      cases op with
      | sendClose r => exact hclosing trivial
      | sendReset r => exact hclosing trivial
      | _ => cases hcloses
    · rw [hout] at hm
      exact absurd hm List.not_mem_nil
    · rw [hhand'] at hcloses
      cases hcloses
  have hstays : ¬ a.Leaving := by
    rintro (⟨op, hop, hretires⟩ | hh)
    · have hclosing := hops op hop
      cases op with
      | sendClose r => exact hclosing trivial
      | retireIfDone failed => exact hclosing trivial
      | sendReset r => exact hclosing trivial
      | retire failed => exact hclosing trivial
      | _ => exact hretires
    · rw [hhand] at hh
      cases hh
  refine ⟨⟨?_, ?_⟩, ?_⟩
  · intro hr
    rw [← Bool.not_eq_true]
    exact fun hf => hstays (h.leaving hf hr)
  · intro hf
    cases hr : a.registered with
    | true => rfl
    | false =>
        rw [hs.left hlive hab hc hr] at hf
        cases hf
  · intro hf
    rcases h.follows hf with hd | ⟨-, g, hg⟩ | ⟨hg, -⟩
    · exact hd
    · exact absurd hg (hway g)
    · exact absurd hg (hway false)

end Closing

/-- If every close is in order, then the two ends of a stream that was opened and accepted agree
whenever it is settled: it is in both stream maps or in neither, and in neither if one of the ends
has aborted it. -/
theorem close_agreement {cfg : Config} {sys sys' : System} {actions : List SystemAction}
    (hestablish : establish cfg = some sys) (id : UInt32)
    (hrun : run (restrict (fun sys a => withinBounds sys a && closesInOrder id sys a) systemStep)
      sys actions = some sys') :
    ∀ x h i, .stream h .opened ∈ (sys' x).calls → .stream i .accepted ∈ (sys' x.other).calls →
      h.id = id → i.id = id → Settled id sys' →
      ((sys' x).lists id ↔ (sys' x.other).lists id) ∧
        ((∃ y, (sys' y).aborted id) → ∀ y, ¬ (sys' y).lists id) := by
  have hinv : Closing (limitsOf cfg.ack) id sys' :=
    run_invariant (fun h hstep => closing_step h hstep) (closing_establish hestablish) hrun
  intro x h i hopened haccepted hh hi hsettled
  have hadmits : ∀ y, ∃ op ∈ (link id sys' y).ops, op.Admits := by
    intro y
    rcases (by cases x <;> cases y <;> simp [Side.other] : y = x ∨ y = x.other) with rfl | rfl
    · exact ⟨.opened, hinv.op_mem hopened hh, trivial⟩
    · exact ⟨.accepted, hinv.op_mem haccepted hi, trivial⟩
  have hkept : ∀ y, ¬ (link id sys' y).Abandoned := by
    intro y hab
    obtain ⟨op, hop, hop'⟩ := hadmits y
    exact hab.ops op hop hop'
  have hcell : ∀ y, ∃ c, (link id sys' y).cell = some c := by
    intro y
    cases hc : (link id sys' y).cell with
    | some c => exact ⟨c, rfl⟩
    | none =>
        obtain ⟨op, hop, -⟩ := hadmits y
        rw [((hinv.joint.bond id y).sound.unborn hc).ops] at hop
        exact absurd hop (Multiset.notMem_zero op)
  choose c hc using hcell
  have hagrees : ∀ y, Agrees (link id sys' y) (link id sys' y.other) (c y) (c y.other) := by
    intro y
    obtain ⟨hlive, hhand, -⟩ := hsettled.end y
    obtain ⟨hlive', hhand', -⟩ := hsettled.end y.other
    exact hinv.agreed y hlive hlive' (by simp [hhand]) (by simp [hhand']) (hkept y)
      (hkept y.other) _ _ (hc y) (hc y.other)
  have hend : ∀ y, ((sys' y).lists id ↔ (c y).stream.finished = false) ∧
      ((c y).stream.finished = true → (c y.other).stream.finished = true) := by
    intro y
    obtain ⟨hlive, hhand, hout, hops⟩ := hsettled.end y
    rw [hinv.lists_iff]
    exact (hagrees y).settled (hinv.standing y) hlive (hkept y) (hc y) hout hhand
      (hsettled.end y.other).2.1 hops
  have hboth : ∀ y, (c y).stream.finished = (c y.other).stream.finished := by
    intro y
    have hback := (hend y.other).2
    rw [Side.other_other] at hback
    rw [Bool.eq_iff_iff]
    exact ⟨(hend y).2, hback⟩
  refine ⟨by rw [(hend x).1, (hend x.other).1, hboth x], ?_⟩
  rintro ⟨y, d, hd, haborted⟩ z
  have hdc : d = c y := by
    have hfirst : ((sys' y).cells id)[0]? = some (c y) := hc y
    obtain ⟨n, hn⟩ := List.mem_iff_getElem?.mp hd
    obtain ⟨hlt, -⟩ := List.getElem?_eq_some_iff.mp hn
    have hone := (hinv.joint.tidy y).single id
    obtain rfl : n = 0 := by omega
    exact Option.some.inj (hn.symm.trans hfirst)
  have hfinished : (c y).stream.finished = true := (hagrees y).aborted (hdc ▸ haborted)
  rw [(hend z).1, Bool.not_eq_false]
  rcases (by cases y <;> cases z <;> simp [Side.other] : z = y ∨ z = y.other) with rfl | rfl
  · exact hfinished
  · exact (hend y).2 hfinished

/-- The client opens a stream and the server accepts it. -/
def openAccept : List SystemAction :=
  [.act .client (.start (.openStream [])), .act .client (.advance 0 .value),
    .act .client (.advance 0 .value), .deliver .server, .act .server .dispatch,
    .act .server .dispatch, .act .server (.start .acceptStream), .act .server (.advance 0 .value),
    .deliver .client, .act .client (.advance 0 .value)]

/-- An end makes a call on the stream that closes it, as its call number `index`, and the other
end reads what it sends. -/
def closeCall (x : Side) (index : Nat) (op : Op) : List SystemAction :=
  [.act x (.start (.stream ⟨1, 0⟩ op)), .act x (.advance index .value),
    .act x (.advance index .value), .act x (.advance index .value), .deliver x.other,
    .act x.other .dispatch, .act x.other .dispatch, .act x.other .dispatch]

/-- The calls on the stream that are over. -/
def overCalls : List Call :=
  [.stream ⟨1, 0⟩ .opened, .stream ⟨1, 0⟩ .accepted, .stream ⟨1, 0⟩ (.closeDone false)]

theorem settled_of_over {sys : System} (h : ∀ y, (sys y).ending = .live ∧ (sys y).out = [] ∧
    (sys y).reader = .idle ∧ ∀ call ∈ (sys y).calls, call ∈ overCalls) : Settled 1 sys := by
  intro y
  obtain ⟨hlive, hout, hreader, hcalls⟩ := h y
  refine ⟨hlive, by simp [hout], by simp [hreader, handOf], ?_⟩
  intro i op hcall _
  have hover := hcalls _ hcall
  simp only [overCalls, List.mem_cons, Call.stream.injEq, List.not_mem_nil, or_false] at hover
  rcases hover with ⟨-, rfl⟩ | ⟨-, rfl⟩ | ⟨-, rfl⟩ <;> exact fun hclosing => hclosing

/-- Both ends close the stream, the second one with a reason. -/
def bothClose : List SystemAction :=
  openAccept ++ closeCall .client 1 (.closeWith reasonOK) ++
    closeCall .server 1 (.closeWith reasonPolicyDenied)

/-- Then it is in neither map. -/
theorem both_close_agree : ∃ sys sys', establish ⟨0, 0, 0⟩ = some sys ∧
    run (restrict (fun sys a => withinBounds sys a && closesInOrder 1 sys a) systemStep) sys
      bothClose = some sys' ∧
    Settled 1 sys' ∧ (∃ y, (sys' y).aborted 1) ∧ ∀ y, ¬ (sys' y).lists 1 := by
  have hview : ((establish ⟨0, 0, 0⟩).bind fun sys =>
      (run (restrict (fun sys a => withinBounds sys a && closesInOrder 1 sys a) systemStep) sys
        bothClose).map fun sys' =>
        ([Side.client, Side.server].map fun y => ((sys' y).calls, decide
            ((sys' y).ending = .live ∧ (sys' y).out = [] ∧ (sys' y).reader = .idle)),
          ((sys' .server).cells 1).any fun c => c.history.aborted)) =
      some ([([.stream ⟨1, 0⟩ .opened, .stream ⟨1, 0⟩ (.closeDone false)], true),
          ([.stream ⟨1, 0⟩ .accepted, .stream ⟨1, 0⟩ (.closeDone false)], true)], true) := by
    decide +kernel
  obtain ⟨sys, hestablish, hfinal⟩ := Option.bind_eq_some_iff.mp hview
  obtain ⟨sys', hrun, hs⟩ := Option.map_eq_some_iff.mp hfinal
  simp only [List.map_cons, List.map_nil, List.cons.injEq, Prod.mk.injEq, and_true,
    decide_eq_true_eq, List.any_eq_true] at hs
  obtain ⟨⟨⟨hclient, hup⟩, hserver, hup'⟩, haborted⟩ := hs
  have hsettled : Settled 1 sys' := by
    refine settled_of_over fun y => ?_
    cases y with
    | client => exact ⟨hup.1, hup.2.1, hup.2.2, by simp [hclient, overCalls]⟩
    | server => exact ⟨hup'.1, hup'.2.1, hup'.2.2, by simp [hserver, overCalls]⟩
  have hagree := close_agreement hestablish 1 hrun .client ⟨1, 0⟩ ⟨1, 0⟩ (by simp [hclient])
    (by simp [Side.other, hserver]) rfl rfl hsettled
  exact ⟨sys, sys', hestablish, hrun, hsettled, ⟨.server, haborted⟩,
    hagree.2 ⟨.server, haborted⟩⟩

/-- Closes that are not in order: the client closes with a reason while the server has not closed,
resets the stream after it has closed it, or resets it with an empty reason. -/
def disorderly : List (List SystemAction) :=
  [openAccept ++ closeCall .client 1 (.closeWith reasonPolicyDenied),
    openAccept ++ closeCall .client 1 (.closeWith reasonOK) ++
      closeCall .client 2 (.reset reasonPolicyDenied),
    openAccept ++ closeCall .client 1 (.reset [])]

/-- The run ends with stream 1 opened, accepted and settled, and one of the ends has it while the
other has not. -/
def Disagrees (actions : List SystemAction) : Prop :=
  ∃ sys sys', establish ⟨0, 0, 0⟩ = some sys ∧
    run (restrict withinBounds systemStep) sys actions = some sys' ∧
    .stream ⟨1, 0⟩ .opened ∈ (sys' .client).calls ∧
    .stream ⟨1, 0⟩ .accepted ∈ (sys' .server).calls ∧ Settled 1 sys' ∧
    ¬ ((sys' .client).lists 1 ↔ (sys' .server).lists 1)

/-- The two ends disagree after each of them. -/
theorem disorderly_close_disagree : disorderly.Forall Disagrees := by
  have hview : ∀ actions ∈ disorderly, ((establish ⟨0, 0, 0⟩).bind fun sys =>
      (run (restrict withinBounds systemStep) sys actions).map fun sys' =>
        ([Side.client, Side.server].map fun y => decide
            ((sys' y).ending = .live ∧ (sys' y).out = [] ∧ (sys' y).reader = .idle ∧
              ∀ call ∈ (sys' y).calls, call ∈ overCalls),
          decide (.stream ⟨1, 0⟩ .opened ∈ (sys' .client).calls ∧
            .stream ⟨1, 0⟩ .accepted ∈ (sys' .server).calls ∧
            (sys' .client).streams.any (fun h => h.id = 1) ≠
              (sys' .server).streams.any fun h => h.id = 1))) =
      some ([true, true], true) := by
    decide +kernel
  refine List.forall_iff_forall_mem.mpr fun actions hactions => ?_
  obtain ⟨sys, hestablish, hfinal⟩ := Option.bind_eq_some_iff.mp (hview actions hactions)
  obtain ⟨sys', hrun, hs⟩ := Option.map_eq_some_iff.mp hfinal
  simp only [List.map_cons, List.map_nil, List.cons.injEq, Prod.mk.injEq, and_true,
    decide_eq_true_eq] at hs
  obtain ⟨⟨hclient, hserver⟩, hopened, haccepted, hne⟩ := hs
  have hsettled : Settled 1 sys' := by
    refine settled_of_over fun y => ?_
    cases y with
    | client => exact hclient
    | server => exact hserver
  have hlists : ∀ y, (sys' y).lists 1 ↔ (sys' y).streams.any (fun h => h.id = 1) = true := by
    intro y
    simp [Session.lists]
  refine ⟨sys, sys', hestablish, hrun, hopened, haccepted, hsettled, ?_⟩
  rw [hlists, hlists, ← Bool.eq_iff_iff]
  exact hne

end AccessRelay.Mux
