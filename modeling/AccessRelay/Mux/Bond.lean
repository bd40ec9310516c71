import AccessRelay.Mux.Endpoint
import AccessRelay.Mux.Projection

/-!
# The two ends of a stream

What holds between the two ends of every stream of a connection, whatever the application does:
an identifier is opened once and by the end that numbers it, a stream object exists only if it
was announced, and an end that the other has not answered has nothing to send but its
OPEN_STREAM.

`link_step_directed` is the induction rule for properties of the two ends in one direction, and
`system_step_link` turns a step of the two sessions into a step of the ends of every stream.
-/

namespace AccessRelay.Mux

open Encoding Proto

/-- A step of the two ends of a stream: one end moves by itself, or reads a message of the
other. -/
inductive LinkStep (lim : Limits) (id : UInt32) (opener : Side) :
    (Side → End) → Side → Label → (Side → End) → Prop where
  | act {ends : Side → End} {x : Side} {l : Label} {e' : End}
      (hstep : EndStep lim (x = opener) id (ends x) l e') :
      LinkStep lim id opener ends x l (Function.update ends x e')
  | deliver {ends : Side → End} {x : Side} {m : Msg} {rest : List Msg} {e' : End}
      (hout : (ends x.other).out = m :: rest) (hhand : (ends x).hand = .free)
      (hreceive : Receive lim id (ends x) m e') :
      LinkStep lim id opener ends x .quiet
        (Function.update (Function.update ends x e') x.other { ends x.other with out := rest })

/-- A property of the two ends, in the direction from the first to the second. The flag says
that the first end numbers the stream. -/
abbrev Directed := Bool → End → End → Prop

/-- The property holds in both directions. -/
def Directed.Both (P : Directed) (opener : Side) (ends : Side → End) : Prop :=
  ∀ x, P (x = opener) (ends x) (ends x.other)

/-- A directed property is kept if it is kept when the sending end moves, when the receiving end
moves, when the receiving end reads a message and when the sending end reads one. `C` is what is
already known of the two ends, and `G` what is known of the operation that moves. -/
theorem link_step_directed {lim : Limits} {id : UInt32} {opener : Side} {C P : Directed}
    {G : End → Label → Prop} {ends ends' : Side → End} {x : Side} {l : Label}
    (hsend : ∀ {o a b l a'}, C o a b → C (!o) b a → P o a b → P (!o) b a → G a l →
      EndStep lim o id a l a' → P o a' b)
    (hrecv : ∀ {o a b l b'}, C o a b → C (!o) b a → P o a b → P (!o) b a → G b l →
      EndStep lim (!o) id b l b' → P o a b')
    (harrive : ∀ {o a b m rest b'}, C o a b → C (!o) b a → P o a b → P (!o) b a →
      a.out = m :: rest → b.hand = .free → Receive lim id b m b' →
      P o { a with out := rest } b')
    (hreturn : ∀ {o a b m rest a'}, C o a b → C (!o) b a → P o a b → P (!o) b a →
      b.out = m :: rest → a.hand = .free → Receive lim id a m a' →
      P o a' { b with out := rest })
    (hC : C.Both opener ends) (hP : P.Both opener ends) (hG : G (ends x) l)
    (h : LinkStep lim id opener ends x l ends') : P.Both opener ends' := by
  have hflip : ∀ y : Side, (decide (y.other = opener)) = !decide (y = opener) := by
    intro y
    cases y <;> cases opener <;> decide
  have hback : ∀ {Q : Directed}, Q.Both opener ends → ∀ y,
      Q (!decide (y = opener)) (ends y.other) (ends y) := by
    intro Q hQ y
    have hy := hQ y.other
    rw [hflip, Side.other_other] at hy
    exact hy
  intro y
  have hside : y = x ∨ y = x.other := by cases x <;> cases y <;> simp [Side.other]
  cases h with
  | act hstep =>
      rcases hside with rfl | rfl
      · rw [Function.update_self, Function.update_of_ne (Side.other_ne y)]
        exact hsend (hC y) (hback hC y) (hP y) (hback hP y) hG hstep
      · rw [Side.other_other, Function.update_self, Function.update_of_ne (Side.other_ne x),
          hflip]
        have hstep' := hstep
        rw [← Bool.not_not (decide (x = opener))] at hstep'
        exact hrecv (hback hC x) (Bool.not_not _ ▸ hC x) (hback hP x) (Bool.not_not _ ▸ hP x) hG
          hstep'
  | deliver hout hhand hreceive =>
      rcases hside with rfl | rfl
      · rw [Function.update_self, Function.update_of_ne (Side.ne_other y), Function.update_self]
        exact hreturn (hC y) (hback hC y) (hP y) (hback hP y) hout hhand hreceive
      · rw [Side.other_other, Function.update_self, Function.update_of_ne (Side.ne_other x),
          Function.update_self, hflip]
        exact harrive (hback hC x) (Bool.not_not _ ▸ hC x) (hback hP x) (Bool.not_not _ ▸ hP x)
          hout hhand hreceive

/-- What the two ends of a stream always know of each other, in one direction. -/
structure Bond (o : Bool) (a b : End) : Prop where
  sound : a.Sound o
  /-- Nothing happens before the end that numbers the stream has created it. -/
  first : o = true → a.cell = none → a.Blank ∧ b.Blank
  once : a.openings ≤ 1
  before : 0 < a.openings → b.Blank ∧ (a.hand = .free ∨ a.hand = .stopped)
  mute : b.cell = none → a.Mute

section Bond

variable {lim : Limits} {id : UInt32} {o : Bool} {a b a' b' : End} {l : Label} {m : Msg}
  {rest : List Msg}

theorem openings_pop (hout : a.out = m :: rest) :
    a.openings = End.openings { a with out := rest } + (if m = .openStream then 1 else 0) := by
  simp only [End.openings, hout, List.count_cons, beq_iff_eq]
  omega

/-- The end that moves is not about to accept the stream while the other end has no object. -/
theorem Bond.quiet (h : Bond o a b) (h' : Bond (!o) b a) (hcell : b.cell = none) :
    a.queued = 0 ∧ a.hand ≠ .serving .acking ∧ a.hand ≠ .serving .queueing ∧
      a.hand ≠ .serving .dropping ∧ a.hand ≠ .refusing := by
  cases o with
  | true => exact h.sound.opener rfl
  | false =>
      obtain ⟨-, hblank⟩ := h'.first rfl hcell
      have hu := h.sound.unborn hblank.cell
      refine ⟨hu.queued, hu.hand _, hu.hand _, hu.hand _, ?_⟩
      rcases hblank.hand with hhand | hhand <;> simp [hhand]

theorem Bond.send (h : Bond o a b) (h' : Bond (!o) b a) (hstep : EndStep lim o id a l a') :
    Bond o a' b := by
  refine ⟨hstep.sound h.sound, ?_, ?_, ?_, ?_⟩
  · intro ho hcell
    obtain ⟨hblank, hother⟩ := h.first ho (hstep.cell_none_of hcell)
    exact ⟨hstep.blank h.sound hblank hcell, hother⟩
  · rcases hstep.openings_le h.sound with hle | ⟨-, -, hone⟩
    · exact hle.trans h.once
    · exact hone.le
  · intro hpos
    rcases hstep.openings_le h.sound with hle | ⟨ho, hcell, -⟩
    · obtain ⟨hblank, hhand⟩ := h.before (hpos.trans_le hle)
      exact ⟨hblank, hstep.hand_idle hhand⟩
    · obtain ⟨hblank, hother⟩ := h.first ho hcell
      exact ⟨hother, hstep.hand_idle hblank.hand⟩
  · intro hcell
    exact hstep.mute h.sound (h.mute hcell) (h.quiet h' hcell)

theorem Bond.recv (h : Bond o a b) (h' : Bond (!o) b a) (hstep : EndStep lim (!o) id b l b') :
    Bond o a b' := by
  have hkept : o = true → b.Blank → b'.Blank := by
    intro ho hblank
    subst ho
    rcases hstep.cell_none hblank.cell with hcell | hopens
    · exact hstep.blank h'.sound hblank hcell
    · cases hopens
  refine ⟨h.sound, ?_, h.once, ?_, fun hcell => h.mute (hstep.cell_none_of hcell)⟩
  · intro ho hcell
    obtain ⟨hblank, hother⟩ := h.first ho hcell
    exact ⟨hblank, hkept ho hother⟩
  · intro hpos
    obtain ⟨hblank, hhand⟩ := h.before hpos
    cases o with
    | true => exact ⟨hkept rfl hblank, hhand⟩
    | false =>
        rw [(h.sound.acceptor rfl).2] at hpos
        cases hpos

theorem Bond.arrive (h : Bond o a b) (hout : a.out = m :: rest) (hreceive : Receive lim id b m b') :
    Bond o { a with out := rest } b' := by
  have hpop := openings_pop hout
  have honce := h.once
  refine ⟨h.sound.pop hout, ?_, Nat.le_trans (Nat.le_of_add_right_le hpop.ge) honce, ?_, ?_⟩
  · intro ho hcell
    obtain ⟨hblank, -⟩ := h.first ho hcell
    rw [hblank.out] at hout
    cases hout
  · intro hpos
    obtain ⟨hblank, -⟩ := h.before (by omega)
    have hm : m = .openStream := (h.mute hblank.cell).out m (by simp [hout])
    rw [if_pos hm] at hpop
    omega
  · intro hcell
    have hmute := h.mute (hreceive.frame.2.2 hcell)
    exact ⟨fun m' hm' => hmute.out m' (by simp [hout, hm']), hmute.ops, hmute.hand, hmute.cell⟩

theorem Bond.return (h : Bond o a b) (h' : Bond (!o) b a) (hout : b.out = m :: rest)
    (hreceive : Receive lim id a m a') : Bond o a' { b with out := rest } := by
  obtain ⟨hops, hout', hcells⟩ := hreceive.frame
  have hopenings : a'.openings = a.openings := by rw [End.openings, End.openings, hops, hout']
  have hnone : ∀ {P : Prop}, b.Blank → P := by
    intro P hblank
    rw [hblank.out] at hout
    cases hout
  refine ⟨hreceive.sound h.sound ?_, ?_, hopenings ▸ h.once, ?_, ?_⟩
  · intro hm
    cases o with
    | false => rfl
    | true =>
        have hzero := (h'.sound.acceptor rfl).2
        rw [openings_pop hout, if_pos hm] at hzero
        omega
  · intro ho hcell
    exact hnone (h.first ho (hcells hcell)).2
  · intro hpos
    exact hnone (h.before (hopenings ▸ hpos)).1
  · intro hcell
    -- Before it has an object, the other end can only have refused the stream.
    have hm : m = .close reasonLimitStreamsExceeded :=
      (h'.sound.unborn hcell).out m (by simp [hout])
    have hmute := h.mute hcell
    subst hm
    cases hreceive with
    | tooLarge hsize => exact ⟨hmute.out, hmute.ops, by simp, hmute.cell⟩
    | dropped hregistered hm => simp at hm
    | close =>
        refine ⟨hmute.out, hmute.ops, by simp, ?_⟩
        intro c hc
        obtain ⟨hbuf, hdead⟩ := hmute.cell c hc
        refine ⟨hbuf, hdead.imp_right fun hopening => ⟨?_, hopening.2⟩⟩
        have hreason : reasonLimitStreamsExceeded ≠ reasonOK := by decide
        have hack := hopening.1
        cases hacked : a.acked with
        | none => cases ha : a.awaiting <;> simp [End.complete, hacked, ha, hreason]
        | some reason =>
            rw [hacked] at hack
            cases ha : a.awaiting <;> simpa [End.complete, hacked, ha] using hack

/-- The bond between the two ends of a stream is never broken. -/
theorem bond_step {opener : Side} {ends ends' : Side → End} {x : Side}
    (hB : Directed.Both Bond opener ends) (h : LinkStep lim id opener ends x l ends') :
    Directed.Both Bond opener ends' := by
  refine link_step_directed (C := fun _ _ _ => True) (G := fun _ _ => True) ?_ ?_ ?_ ?_
    (fun _ => trivial) hB trivial h
  · exact fun _ _ hab hba _ hstep => hab.send hba hstep
  · exact fun _ _ hab hba _ hstep => hab.recv hba hstep
  · exact fun _ _ hab _ hout _ hreceive => hab.arrive hout hreceive
  · exact fun _ _ hab hba hout _ hreceive => hab.return hba hout hreceive

end Bond

/-- The two ends of stream `id`. -/
def link (id : UInt32) (sys : System) (x : Side) : End := view id (sys x)

/-- The end that numbers the stream: the client has the odd identifiers. -/
def openerOf (id : UInt32) : Side := if id % 2 = 1 then .client else .server

/-- The end that moves. -/
def SystemAction.side : SystemAction → Side
  | .act x _ | .deliver x => x

/-- The operation on stream `id` that an action belongs to. -/
def labelAt (id : UInt32) (sys : System) : SystemAction → Label
  | .act x a => labelOf id (sys x) a
  | .deliver _ => .quiet

/-- What holds of the two sessions of a connection as long as the counters do not wrap. -/
structure Joint (lim : Limits) (sys : System) : Prop where
  tidy : ∀ x, (sys x).Tidy
  limits : ∀ x, (sys x).limits = lim
  isClient : ∀ x, (sys x).isClient = decide (x = .client)
  bond : ∀ id, Directed.Both Bond (openerOf id) (link id sys)

section Joint

variable {lim : Limits} {sys sys' : System} {a : SystemAction}

theorem Joint.owns (h : Joint lim sys) (x : Side) (id : UInt32) :
    (sys x).owns id = decide (x = openerOf id) := by
  rw [Session.owns, h.isClient x, openerOf]
  cases x <;> by_cases hid : id % 2 = 1 <;> simp [hid]

/-- An identifier that is announced has not been used at the other end. -/
theorem Joint.unused (h : Joint lim sys) {x : Side} {f : Frame} {rest : List Frame}
    (hout : (sys x.other).out = f :: rest) (htype : f.type = .openStream) :
    (sys x).cells f.streamID = [] := by
  have hmem : Msg.openStream ∈ (link f.streamID sys x.other).out := by
    refine List.mem_filterMap.mpr ⟨f, by simp [hout], ?_⟩
    simp [msgOf, htype]
  have hpos : 0 < (link f.streamID sys x.other).openings :=
    Nat.add_pos_right _ (List.count_pos_iff.mpr hmem)
  obtain ⟨hblank, -⟩ := (h.bond f.streamID x.other).before hpos
  rw [Side.other_other] at hblank
  have hcell : (sys x).cells f.streamID = [] := by
    simpa [link, view, Session.cell] using hblank.cell
  exact hcell

/-- A step of the two sessions is a step of the two ends of every stream. -/
theorem system_step_link (h : Joint lim sys) (hstep : systemStep sys a = some sys')
    (id : UInt32) :
    LinkStep lim id (openerOf id) (link id sys) a.side (labelAt id sys a) (link id sys') := by
  have hupdate : ∀ (x : Side) (s : Session) (t : System), link id (Function.update t x s) =
      Function.update (link id t) x (view id s) := by
    intro x s t
    funext y
    by_cases hy : y = x
    · subst hy
      simp [link]
    · simp [link, Function.update_of_ne hy]
  cases a with
  | act x a =>
      obtain ⟨s, hs, rfl⟩ := Option.map_eq_some_iff.mp hstep
      have hview := session_step_view (h.tidy x) hs id
      rw [h.limits x, h.owns x] at hview
      rw [hupdate]
      exact .act hview
  | deliver x =>
      cases hout : (sys x.other).out with
      | nil => simp [systemStep, hout] at hstep
      | cons f rest =>
          simp only [systemStep, hout, Option.map_eq_some_iff] at hstep
          obtain ⟨s, hs, rfl⟩ := hstep
          have hopen : f.type = .openStream → f.streamID = id → (sys x).cells id = [] := by
            intro htype hid
            rw [← hid]
            exact h.unused hout htype
          obtain ⟨hhand, hread⟩ := session_read_view (h.tidy x) hs hopen
          rw [h.limits x, h.owns x] at hread
          rw [hupdate, hupdate]
          have hpop : view id { sys x.other with out := rest } =
              { link id sys x.other with out := rest.filterMap (msgOf id) } := rfl
          rw [hpop]
          rcases hread with ⟨m, hmsg, hreceive⟩ | ⟨hmsg, hquiet⟩
          · refine .deliver ?_ hhand hreceive
            show (sys x.other).out.filterMap (msgOf id) = m :: rest.filterMap (msgOf id)
            simp [hout, hmsg]
          · -- The frame is about something else, so the other end has lost nothing.
            have hsame : rest.filterMap (msgOf id) = (link id sys x.other).out := by
              simp [link, view, hout, hmsg]
            have hother : Function.update (link id sys) x (view id s) x.other =
                link id sys x.other := Function.update_of_ne (Side.other_ne x) _ _
            rw [hsame, ← hother, Function.update_eq_self]
            exact .act hquiet

/-- The two sessions stay joined. -/
theorem joint_step (h : Joint lim sys) (hstep : systemStep sys a = some sys')
    (hbound : withinBounds sys a = true) : Joint lim sys' := by
  have hbond := fun id => bond_step (h.bond id) (system_step_link h hstep id)
  have hlocal : ∀ x, (sys' x).Tidy ∧ (sys' x).limits = (sys x).limits ∧
      (sys' x).isClient = (sys x).isClient := by
    intro x
    rcases system_step_side hstep x with ⟨b, rfl, hs⟩ | ⟨f, rest, rfl, hout, hs⟩ |
      ⟨f, rest, rfl, hout, hs⟩ | hs
    · refine ⟨tidy_step (h.tidy x) hs ?_, ?_⟩
      · rintro index choice payload rfl hcall
        simpa [withinBounds, hcall] using hbound
      · rcases step_books hs with hkeeps | ⟨-, hreg, -⟩
        · exact ⟨hkeeps.limits, hkeeps.isClient⟩
        · exact ⟨hreg.limits, hreg.isClient⟩
    · refine ⟨tidy_read (h.tidy x) hs (h.unused hout), ?_⟩
      rcases read_books hs with hkeeps | ⟨-, -, hreg, -⟩
      · exact ⟨hkeeps.limits, hkeeps.isClient⟩
      · exact ⟨hreg.limits, hreg.isClient⟩
    · rw [hs]
      have htidy := h.tidy x
      exact ⟨⟨htidy.single, htidy.fresh, htidy.parity, htidy.streams, htidy.pending⟩, rfl, rfl⟩
    · rw [hs]
      exact ⟨h.tidy x, rfl, rfl⟩
  exact ⟨fun x => (hlocal x).1, fun x => (hlocal x).2.1.trans (h.limits x),
    fun x => (hlocal x).2.2.trans (h.isClient x), hbond⟩

/-- The limits that both ends of an established connection hold. -/
def limitsOf (ack : HelloAck) : Limits := (newSession true ack).limits

/-- The end of a stream of a new session. -/
def newEnd : End := ⟨none, false, false, none, 0, 0, .free, false, false, false, true, []⟩

theorem bond_new_end (o : Bool) : Bond o newEnd newEnd := by
  have hblank : newEnd.Blank := ⟨rfl, rfl, .inl rfl⟩
  have hunborn : newEnd.Unborn := by constructor <;> simp [newEnd]
  have hmute : newEnd.Mute := by constructor <;> simp [newEnd]
  refine ⟨⟨fun _ => hunborn, ?_, ?_, ?_, ?_⟩, fun _ _ => ⟨hblank, hblank⟩, ?_, ?_,
    fun _ => hmute⟩
  all_goals simp [newEnd, End.openings]

/-- Both sessions of an established connection are joined. -/
theorem joint_establish {cfg : Config} (h : establish cfg = some sys) :
    Joint (limitsOf cfg.ack) sys := by
  obtain ⟨rfl, -⟩ := establish_limits h
  exact ⟨fun x => tidy_new_session _ _, fun x => rfl, fun x => rfl,
    fun id x => bond_new_end (decide (x = openerOf id))⟩

/-- Every call and every entry of the queues is about an object that exists. -/
theorem rooted_step (h : ∀ x, (sys x).Rooted) (hstep : systemStep sys a = some sys') :
    ∀ x, (sys' x).Rooted := by
  intro x
  rcases system_step_side hstep x with ⟨b, rfl, hs⟩ | ⟨f, rest, rfl, hout, hs⟩ |
    ⟨f, rest, rfl, hout, hs⟩ | hs
  · refine rooted_kept (h x) ?_ (.inl ⟨b, step_moves hs⟩)
    exact (step_books hs).imp_right fun h => ⟨_, h.2.1⟩
  · refine rooted_kept (h x) ?_ (.inr ⟨f, (read_reads hs).2⟩)
    exact (read_books hs).imp_right fun h => ⟨_, h.2.2.1⟩
  · rw [hs]
    exact ⟨(h x).calls, (h x).queue⟩
  · rw [hs]
    exact h x

theorem rooted_establish {cfg : Config} (h : establish cfg = some sys) : ∀ x, (sys x).Rooted := by
  obtain ⟨rfl, -⟩ := establish_limits h
  intro x
  exact ⟨by simp [newSession], by simp [newSession]⟩

end Joint

end AccessRelay.Mux
