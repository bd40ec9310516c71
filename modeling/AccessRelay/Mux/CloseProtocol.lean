import AccessRelay.Mux.Admission
import AccessRelay.Mux.Bond

/-!
# Half-close and abort

Half-close and abort share the CLOSE_STREAM frame; the reason tells them apart. Seen from the
close protocol, an end is the three flags of its stream, the closes that it has sent or is about
to send, and the one that its read loop has in hand. `Change` lists what a step can do to these,
and `EndStep.change` reads it off the steps of an end.

`Agrees` is what the protocol keeps between the two ends: an end that is finished has a peer that
is finished, or that will be when the closes on the way to it have arrived. It holds as long as an
abort is not lost on the way. The receiver of a close takes no notice of it if it had one before,
and a close that is meant as an abort does not end the stream at the end that sends it; `inOrder`
is the condition that rules both out.
-/

namespace AccessRelay.Mux

open Encoding Proto

namespace Op

/-- Whether the close that the operation is about to send is a graceful one. -/
def closes : Op → Option Bool
  | .sendClose r | .sendReset r => some (Stream.graceful r)
  | _ => none

/-- The operation is about to drop the stream from the table, if it is finished. -/
def Retires : Op → Prop
  | .sendClose _ | .retireIfDone _ | .sendReset _ | .retire _ => True
  | _ => False

/-- The operation is a close or a reset in progress. -/
def Closing : Op → Prop
  | .closeWith _ | .sendClose _ | .retireIfDone _ | .reset _ | .sendReset _ | .retire _ => True
  | _ => False

/-- The next step of the operation closes the stream in a way that the peer can follow: a close
with another reason than ok comes after the peer's own close, a reset comes after it or before any
close of this end and with a reason that the peer takes for an abort, and a reason fits into a
frame. -/
def inOrder (c : Cell) : Op → Bool
  | .closeWith r => r = reasonOK ∨ c.stream.remoteClosed ∨ c.stream.reset
  | .reset r => c.stream.remoteClosed ∨ c.stream.reset ∨
      (c.stream.localClosed = false ∧ Stream.graceful r = false)
  | .sendClose r | .sendReset r => r.length ≤ maxFramePayload.toNat
  | _ => true

end Op

/-- The close that the message carries. -/
def Msg.closes : Msg → Option Bool
  | .close r => some (Stream.graceful r)
  | _ => none

/-- The close that the read loop has in hand. -/
def Hand.closes : Hand → Option Bool
  | .lookingUp r | .serving (.closing r) => some (Stream.graceful r)
  | _ => none

/-- A close has been written or is about to be. -/
def End.Tells (e : End) (g : Bool) : Prop :=
  (∃ op ∈ e.ops, op.closes = some g) ∨ ∃ m ∈ e.out, m.closes = some g

/-- Someone is about to drop the stream from the table. -/
def End.Leaving (e : End) : Prop := (∃ op ∈ e.ops, op.Retires) ∨ e.hand = .serving .retiring

/-- A close is on the way from `a` to `b`. -/
def OnTheWay (a b : End) (g : Bool) : Prop := a.Tells g ∨ b.hand.closes = some g

/-- The flags of the two streams are the same. -/
def Stream.Same (st st' : Stream) : Prop :=
  st'.localClosed = st.localClosed ∧ st'.remoteClosed = st.remoteClosed ∧ st'.reset = st.reset

/-- What a step of an end can do to the flags of its stream and to the closes on the way. -/
inductive End.Change (e e' : End) (c c' : Cell) : Prop where
  | stay (hsame : c.stream.Same c'.stream)
      (haborted : c'.history.aborted = true →
        c.history.aborted = true ∨ c.stream.finished = true)
      (htells : ∀ g, e'.Tells g ↔ e.Tells g) (hhand : e'.hand.closes = e.hand.closes)
  | shut (r : Reason) (hopen : c.stream.localClosed = false) (hreset : c.stream.reset = false)
      (hstream : c'.stream = { c.stream with localClosed := true })
      (haborted : c'.history.aborted = (c.history.aborted || r ≠ reasonOK))
      (horder : r = reasonOK ∨ c.stream.remoteClosed = true)
      (htells : ∀ g, e'.Tells g ↔ e.Tells g ∨ g = Stream.graceful r)
      (hhand : e'.hand.closes = e.hand.closes)
  | abort (r : Reason) (hreset : c.stream.reset = false) (hlocal : c'.stream.localClosed = true)
      (hremote : c'.stream.remoteClosed = true) (hreset' : c'.stream.reset = true)
      (horder : c.stream.remoteClosed = true ∨
        (c.stream.localClosed = false ∧ Stream.graceful r = false))
      (htells : ∀ g, e'.Tells g ↔ e.Tells g ∨ g = Stream.graceful r)
      (hhand : e'.hand.closes = e.hand.closes)
  | hear (r : Reason) (hhand : e.hand.closes = some (Stream.graceful r))
      (hhand' : e'.hand.closes = none) (hstream : c'.stream = c.stream.remoteClose r)
      (hhistory : c'.history = c.history) (htells : ∀ g, e'.Tells g ↔ e.Tells g)
  | miss (hregistered : e.registered = false) (hhand' : e'.hand.closes = none)
      (hcell : c' = c) (htells : ∀ g, e'.Tells g ↔ e.Tells g)

/-- What the end `a` of a stream, with its object `c`, has to do with the other end. -/
structure Agrees (a b : End) (c d : Cell) : Prop where
  remote : c.stream.reset = true → c.stream.remoteClosed = true
  leaving : c.stream.finished = true → a.registered = true → a.Leaving
  aborted : c.history.aborted = true → c.stream.finished = true
  /-- What is closed here has been heard there, or is on the way. -/
  told : c.stream.localClosed = true → d.stream.remoteClosed = true ∨ ∃ g, OnTheWay a b g
  tells : ∀ g, OnTheWay a b g → c.stream.localClosed = true
  heard : d.stream.remoteClosed = true → d.stream.reset = false → c.stream.localClosed = true
  abrupt : OnTheWay a b false → c.stream.finished = true
  /-- The peer of a finished stream is finished, or will be by the next close that it hears. -/
  follows : c.stream.finished = true → d.stream.finished = true ∨
    (d.stream.localClosed = true ∧ ∃ g, OnTheWay a b g) ∨
    (OnTheWay a b false ∧ ¬ OnTheWay a b true ∧ d.stream.remoteClosed = false)

section Flags

variable {st st' : Stream} {r : Reason}

theorem finished_iff : st.finished = true ↔
    st.reset = true ∨ (st.localClosed = true ∧ st.remoteClosed = true) := by
  simp [Stream.finished]

theorem Stream.Same.finished (h : st.Same st') : st'.finished = st.finished := by
  simp only [Stream.finished, h.1, h.2.1, h.2.2]

/-- The first close that an end hears ends the direction; an abort ends the stream. -/
theorem remote_close_first (hremote : st.remoteClosed = false) (hreset : st.reset = false) :
    (st.remoteClose r).localClosed = st.localClosed ∧ (st.remoteClose r).remoteClosed = true ∧
      (st.remoteClose r).reset = !Stream.graceful r := by
  unfold Stream.remoteClose
  rw [if_neg (by simp [hremote, hreset])]
  split_ifs with hgraceful
  · exact ⟨rfl, rfl, by simp [hgraceful, hreset]⟩
  · exact ⟨rfl, rfl, by simp [hgraceful]⟩

/-- Any later one is ignored. -/
theorem remote_close_later (h : st.remoteClosed = true ∨ st.reset = true) :
    st.remoteClose r = st := by
  unfold Stream.remoteClose
  rw [if_pos h]

end Flags

section Agrees

variable {a b a' b' : End} {c d c' d' : Cell}

/-- An end that is finished has heard the other. -/
theorem Agrees.remote_of_finished (h : Agrees a b c d) (hf : c.stream.finished = true) :
    c.stream.remoteClosed = true := by
  rcases finished_iff.mp hf with hreset | ⟨-, hremote⟩
  · exact h.remote hreset
  · exact hremote

/-- Nothing depends on where the closes are on their way. -/
theorem Agrees.same (h : Agrees a b c d)
    (hleaving : c.stream.finished = true → a'.registered = true → a'.Leaving)
    (hway : ∀ g, OnTheWay a' b' g ↔ OnTheWay a b g) : Agrees a' b' c d := by
  refine ⟨h.remote, hleaving, h.aborted, ?_, ?_, h.heard, ?_, ?_⟩
  · simp only [hway]
    exact h.told
  · simp only [hway]
    exact h.tells
  · rw [hway]
    exact h.abrupt
  · simp only [hway]
    exact h.follows

/-- A close that an end announces is on the way. -/
theorem on_the_way_new {new : Bool} (htells : ∀ g, a'.Tells g ↔ a.Tells g ∨ g = new) :
    ∀ g, OnTheWay a' b g ↔ OnTheWay a b g ∨ g = new := by
  intro g
  rw [OnTheWay, OnTheWay, htells, or_right_comm]

/-- An end whose flags stay as they are. -/
theorem Agrees.send_kept (h : Agrees a b c d)
    (hleaving : c'.stream.finished = true → a'.registered = true → a'.Leaving)
    (hsame : c.stream.Same c'.stream)
    (haborted : c'.history.aborted = true → c.history.aborted = true ∨ c.stream.finished = true)
    (htells : ∀ g, a'.Tells g ↔ a.Tells g) : Agrees a' b c' d := by
  obtain ⟨hlocal, hremote, hreset⟩ := hsame
  have hway : ∀ g, OnTheWay a' b g ↔ OnTheWay a b g := fun g => or_congr_left (htells g)
  have hfinished := Stream.Same.finished ⟨hlocal, hremote, hreset⟩
  refine ⟨?_, hleaving, ?_, ?_, ?_, ?_, ?_, ?_⟩
  · rw [hreset, hremote]
    exact h.remote
  · intro hab
    rw [hfinished]
    exact (haborted hab).elim h.aborted fun hf => hf
  · simp only [hway, hlocal]
    exact h.told
  · simp only [hway, hlocal]
    exact h.tells
  · rw [hlocal]
    exact h.heard
  · rw [hway, hfinished]
    exact h.abrupt
  · simp only [hway, hfinished]
    exact h.follows

/-- An end that closes its side. If the reason is an abort, the peer has closed before. -/
theorem Agrees.send_shut {r : Reason} (h : Agrees a b c d) (h' : Agrees b a d c)
    (hleaving : c'.stream.finished = true → a'.registered = true → a'.Leaving)
    (hopen : c.stream.localClosed = false) (hreset : c.stream.reset = false)
    (hstream : c'.stream = { c.stream with localClosed := true })
    (haborted : c'.history.aborted = (c.history.aborted || r ≠ reasonOK))
    (horder : r = reasonOK ∨ c.stream.remoteClosed = true)
    (htells : ∀ g, a'.Tells g ↔ a.Tells g ∨ g = Stream.graceful r) : Agrees a' b c' d := by
  have hway := on_the_way_new (b := b) htells
  have hnew : ∃ g, OnTheWay a' b g := ⟨_, (hway _).mpr (.inr rfl)⟩
  have hlocal : c'.stream.localClosed = true := by rw [hstream]
  have hboth : c.stream.remoteClosed = true → c'.stream.finished = true := by
    intro hremote
    refine finished_iff.mpr (.inr ⟨hlocal, ?_⟩)
    rw [hstream]
    exact hremote
  have hnot : c.stream.finished = false := by simp [Stream.finished, hopen, hreset]
  refine ⟨?_, hleaving, ?_, fun _ => .inr hnew, fun _ _ => hlocal, fun _ _ => hlocal, ?_, ?_⟩
  · intro hr
    rw [hstream] at hr
    rw [show c.stream.reset = true from hr] at hreset
    cases hreset
  · intro hab
    rw [haborted, Bool.or_eq_true, decide_eq_true_iff] at hab
    rcases hab with hab | hne
    · rw [h.aborted hab] at hnot
      cases hnot
    · exact hboth (horder.resolve_left hne)
  · intro hpending
    rcases (hway false).mp hpending with hold | hgraceful
    · rw [h.abrupt hold] at hnot
      cases hnot
    · refine hboth (horder.resolve_left ?_)
      rintro rfl
      simp [Stream.graceful] at hgraceful
  · intro hf
    have hremote : c.stream.remoteClosed = true := by
      rcases finished_iff.mp hf with hr | ⟨-, hr⟩
      · rw [hstream] at hr
        rw [show c.stream.reset = true from hr] at hreset
        cases hreset
      · rw [hstream] at hr
        exact hr
    exact .inr (.inl ⟨h'.heard hremote hreset, hnew⟩)

/-- An end that aborts the stream. -/
theorem Agrees.send_abort {r : Reason} (h : Agrees a b c d) (h' : Agrees b a d c)
    (hleaving : c'.stream.finished = true → a'.registered = true → a'.Leaving)
    (hreset : c.stream.reset = false) (hlocal : c'.stream.localClosed = true)
    (hremote : c'.stream.remoteClosed = true) (hreset' : c'.stream.reset = true)
    (horder : c.stream.remoteClosed = true ∨
      (c.stream.localClosed = false ∧ Stream.graceful r = false))
    (htells : ∀ g, a'.Tells g ↔ a.Tells g ∨ g = Stream.graceful r) : Agrees a' b c' d := by
  have hway := on_the_way_new (b := b) htells
  have hnew : ∃ g, OnTheWay a' b g := ⟨_, (hway _).mpr (.inr rfl)⟩
  have hfinished : c'.stream.finished = true := finished_iff.mpr (.inl hreset')
  refine ⟨fun _ => hremote, hleaving, fun _ => hfinished, fun _ => .inr hnew,
    fun _ _ => hlocal, fun _ _ => hlocal, fun _ => hfinished, fun _ => ?_⟩
  rcases horder with hheard | ⟨hopen, hgraceful⟩
  · exact .inr (.inl ⟨h'.heard hheard hreset, hnew⟩)
  · -- Nothing was on the way before, so the abort is the first close that the peer hears.
    have hnone : ∀ g, ¬ OnTheWay a b g := by
      intro g hg
      rw [h.tells g hg] at hopen
      cases hopen
    cases hd : d.stream.remoteClosed with
    | false =>
        refine .inr (.inr ⟨(hway _).mpr (.inr hgraceful.symm), ?_, rfl⟩)
        intro htrue
        rcases (hway true).mp htrue with hold | heq
        · exact hnone true hold
        · rw [hgraceful] at heq
          cases heq
    | true =>
        cases hx : d.stream.reset with
        | true => exact .inl (finished_iff.mpr (.inl hx))
        | false =>
            rw [h.heard hd hx] at hopen
            cases hopen

/-- An end that hears a close. -/
theorem Agrees.send_hear {r : Reason} (h : Agrees a b c d) (h' : Agrees b a d c)
    (hleaving : c'.stream.finished = true → a'.registered = true → a'.Leaving)
    (hhand : a.hand.closes = some (Stream.graceful r))
    (hstream : c'.stream = c.stream.remoteClose r) (hhistory : c'.history = c.history)
    (htells : ∀ g, a'.Tells g ↔ a.Tells g) : Agrees a' b c' d := by
  have hway : ∀ g, OnTheWay a' b g ↔ OnTheWay a b g := fun g => or_congr_left (htells g)
  by_cases hlater : c.stream.remoteClosed = true ∨ c.stream.reset = true
  · rw [remote_close_later hlater] at hstream
    have hsame : c.stream.Same c'.stream := by
      rw [hstream]
      exact ⟨rfl, rfl, rfl⟩
    exact h.send_kept hleaving hsame (fun hab => .inl (hhistory ▸ hab)) htells
  · rw [not_or, Bool.not_eq_true, Bool.not_eq_true] at hlater
    obtain ⟨hremote, hreset⟩ := hlater
    obtain ⟨hlocal', hremote', hreset'⟩ := remote_close_first (r := r) hremote hreset
    rw [← hstream] at hlocal' hremote' hreset'
    have hnot : c.stream.finished = false := by simp [Stream.finished, hremote, hreset]
    have hback : OnTheWay b a (Stream.graceful r) := .inr hhand
    refine ⟨fun _ => hremote', hleaving, ?_, ?_, ?_, ?_, ?_, ?_⟩
    · intro hab
      rw [hhistory] at hab
      rw [h.aborted hab] at hnot
      cases hnot
    · simp only [hway, hlocal']
      exact h.told
    · simp only [hway, hlocal']
      exact h.tells
    · rw [hlocal']
      exact h.heard
    · rw [hway]
      intro hpending
      rw [h.abrupt hpending] at hnot
      cases hnot
    · simp only [hway]
      intro hf
      have hpeer := h'.tells _ hback
      rcases finished_iff.mp hf with hr | ⟨hl, -⟩
      · -- The peer has aborted the stream, and is finished with it.
        rw [hreset', Bool.not_eq_true'] at hr
        exact .inl (h'.abrupt (hr ▸ hback))
      · rw [hlocal'] at hl
        rcases h.told hl with hheard | hpending
        · exact .inl (finished_iff.mpr (.inr ⟨hpeer, hheard⟩))
        · exact .inr (.inl ⟨hpeer, hpending⟩)

/-- The end that moves keeps what it knows of the other. -/
theorem Agrees.send (h : Agrees a b c d) (h' : Agrees b a d c) (hchange : a.Change a' c c')
    (hleaving : c'.stream.finished = true → a'.registered = true → a'.Leaving) :
    Agrees a' b c' d := by
  cases hchange with
  | stay hsame haborted htells hhand => exact h.send_kept hleaving hsame haborted htells
  | shut r hopen hreset hstream haborted horder htells hhand =>
      exact h.send_shut h' hleaving hopen hreset hstream haborted horder htells
  | abort r hreset hlocal hremote hreset' horder htells hhand =>
      exact h.send_abort h' hleaving hreset hlocal hremote hreset' horder htells
  | hear r hhand hhand' hstream hhistory htells =>
      exact h.send_hear h' hleaving hhand hstream hhistory htells
  | miss hregistered hhand' hcell htells =>
      subst hcell
      exact h.send_kept hleaving ⟨rfl, rfl, rfl⟩ .inl htells

/-- An end keeps what it knows of the other when the other moves. An end that has dropped the
stream is finished with it. -/
theorem Agrees.recv (h : Agrees a b c d) (h' : Agrees b a d c) (hchange : b.Change b' d d')
    (hleft : b.registered = false → d.stream.finished = true) : Agrees a b' c d' := by
  -- Before the other end has heard or missed a close, the same closes are on the way.
  have hkept : b'.hand.closes = b.hand.closes →
      (d.stream.localClosed = true → d'.stream.localClosed = true) →
      d'.stream.remoteClosed = d.stream.remoteClosed → d'.stream.reset = d.stream.reset →
      Agrees a b' c d' := by
    intro hhand hlocal hremote hreset
    have hway : ∀ g, OnTheWay a b' g ↔ OnTheWay a b g := by
      intro g
      rw [OnTheWay, hhand]
      exact Iff.rfl
    refine ⟨h.remote, h.leaving, h.aborted, ?_, ?_, ?_, ?_, ?_⟩
    · simp only [hway, hremote]
      exact h.told
    · simp only [hway]
      exact h.tells
    · rw [hremote, hreset]
      exact h.heard
    · rw [hway]
      exact h.abrupt
    · simp only [hway, hremote]
      intro hf
      rcases h.follows hf with hd | ⟨hl, hpending⟩ | hfirst
      · left
        rw [finished_iff, hremote, hreset]
        exact (finished_iff.mp hd).imp_right fun hboth => ⟨hlocal hboth.1, hboth.2⟩
      · exact .inr (.inl ⟨hlocal hl, hpending⟩)
      · exact .inr (.inr hfirst)
  -- Afterwards there are fewer, but then the other end is closed.
  have hheard : (∀ g, OnTheWay a b' g → OnTheWay a b g) → d'.stream.remoteClosed = true →
      (d'.stream.reset = false → c.stream.localClosed = true) →
      (c.stream.finished = true → d'.stream.finished = true) → Agrees a b' c d' := by
    intro hway hremote hclosed hfollows
    exact ⟨h.remote, h.leaving, h.aborted, fun _ => .inl hremote,
      fun g hg => h.tells g (hway g hg), fun _ => hclosed, fun hg => h.abrupt (hway false hg),
      fun hf => .inl (hfollows hf)⟩
  cases hchange with
  | stay hsame haborted htells hhand =>
      exact hkept hhand (fun hl => hsame.1.trans hl) hsame.2.1 hsame.2.2
  | shut r hopen hreset hstream haborted horder htells hhand =>
      refine hkept hhand ?_ ?_ ?_ <;> simp [hstream]
  | abort r hreset hlocal hremote hreset' horder htells hhand =>
      refine hheard ?_ hremote ?_ fun _ => finished_iff.mpr (.inl hreset')
      · intro g
        rw [OnTheWay, hhand]
        exact fun hg => hg
      · intro hfalse
        rw [hreset'] at hfalse
        cases hfalse
  | hear r hhand hhand' hstream hhistory htells =>
      have hway : ∀ g, OnTheWay a b' g → OnTheWay a b g := by
        intro g
        rw [OnTheWay, hhand']
        exact fun hg => .inl (hg.resolve_right (by simp))
      have hpending : OnTheWay a b (Stream.graceful r) := .inr hhand
      by_cases hlater : d.stream.remoteClosed = true ∨ d.stream.reset = true
      · rw [remote_close_later hlater] at hstream
        have hremote : d.stream.remoteClosed = true := hlater.elim (fun hr => hr) h'.remote
        rw [← hstream] at hremote
        refine hheard hway hremote ?_ ?_
        · rw [hstream] at hremote ⊢
          exact h.heard hremote
        · intro hf
          rw [hstream] at hremote ⊢
          rcases h.follows hf with hd | ⟨hl, -⟩ | ⟨-, -, hr⟩
          · exact hd
          · exact finished_iff.mpr (.inr ⟨hl, hremote⟩)
          · rw [hremote] at hr
            cases hr
      · rw [not_or, Bool.not_eq_true, Bool.not_eq_true] at hlater
        obtain ⟨hremote, hreset⟩ := hlater
        obtain ⟨hlocal', hremote', hreset'⟩ := remote_close_first (r := r) hremote hreset
        rw [← hstream] at hlocal' hremote' hreset'
        refine hheard hway hremote' (fun _ => h.tells _ hpending) ?_
        intro hf
        have hnot : d.stream.finished = false := by simp [Stream.finished, hremote, hreset]
        rcases h.follows hf with hd | ⟨hl, -⟩ | ⟨-, htrue, -⟩
        · rw [hd] at hnot
          cases hnot
        · exact finished_iff.mpr (.inr ⟨hlocal'.trans hl, hremote'⟩)
        · -- Only aborts were on the way.
          have hgraceful : Stream.graceful r = false := by
            rw [← Bool.not_eq_true]
            intro hg
            exact htrue (hg ▸ hpending)
          refine finished_iff.mpr (.inl ?_)
          rw [hreset', hgraceful]
          rfl
  | miss hregistered hhand' hcell htells =>
      subst hcell
      have hfinished := hleft hregistered
      refine hheard ?_ (h'.remote_of_finished hfinished) (h.heard (h'.remote_of_finished hfinished))
        fun _ => hfinished
      intro g
      rw [OnTheWay, hhand']
      exact fun hg => .inl (hg.resolve_right (by simp))

end Agrees

/-- The operation that moves does so in order. -/
def End.InOrder (e : End) : Label → Prop
  | .advance op => ∀ c, e.cell = some c → op.inOrder c = true
  | _ => True

section Steps

variable {lim : Limits} {opens : Bool} {id : UInt32} {e e' : End} {l : Label}

theorem tells_cons {op : Op} {rest : Multiset Op} (hops : e.ops = op ::ₘ rest) (g : Bool) :
    e.Tells g ↔ op.closes = some g ∨ (∃ op ∈ rest, op.closes = some g) ∨
      ∃ m ∈ e.out, m.closes = some g := by
  simp only [End.Tells, hops, Multiset.mem_cons, exists_eq_or_imp, or_assoc]

/-- What an operation says of closes: the one it is about to send, and those it sends. -/
def Turn.Says (id : UInt32) (turn : Turn) (g : Bool) : Prop :=
  turn.op.closes = some g ∨ ∃ m ∈ turn.effect.msgs id, m.closes = some g

theorem tells_advance {rest : Multiset Op} {turn : Turn} (g : Bool) :
    ({ e with cell := some turn.cell, ops := turn.op ::ₘ rest }.perform id turn.effect).Tells g ↔
      turn.Says id g ∨ (∃ op ∈ rest, op.closes = some g) ∨ ∃ m ∈ e.out, m.closes = some g := by
  rw [tells_cons (perform_ops _ _ _)]
  simp only [perform_out, List.mem_append, or_and_right, exists_or, Turn.Says, or_assoc,
    or_left_comm, or_comm]

/-- The frame of a close says what the operation was about to say. -/
theorem close_says (r : Reason) (g : Bool) :
    (∃ m ∈ Effect.msgs id (.send .closeStream r), m.closes = some g) ↔
      some (Stream.graceful r) = some g := by
  have hreason : Stream.graceful (if r = [] then reasonOK else r) = Stream.graceful r := by
    by_cases hr : r = []
    · simp [hr, Stream.graceful]
    · rw [if_neg hr]
  simp [Effect.msgs, msgOf, Msg.closes, hreason]

/-- What an operation can do to the flags of its stream and to the closes on the way. -/
theorem EndStep.change_advance {op : Op} {rest : Multiset Op} {turn : Turn} {c : Cell}
    (hops : e.ops = op ::ₘ rest) (hturn : OpStep lim e.done e.acked c op turn)
    (hdone : e.done = false) (horder : op.inOrder c = true) :
    e.Change ({ e with cell := some turn.cell, ops := turn.op ::ₘ rest }.perform id turn.effect)
      c turn.cell := by
  have hhand : ({ e with cell := some turn.cell, ops := turn.op ::ₘ rest }.perform id
      turn.effect).hand.closes = e.hand.closes := by rw [perform_hand]
  have hsame : (∀ g, turn.Says id g ↔ op.closes = some g) →
      ∀ g, ({ e with cell := some turn.cell, ops := turn.op ::ₘ rest }.perform id
        turn.effect).Tells g ↔ e.Tells g := by
    intro hsays g
    rw [tells_advance, tells_cons hops, hsays]
  have hnew : ∀ r, op.closes = none → (∀ g, turn.Says id g ↔ g = Stream.graceful r) →
      ∀ g, ({ e with cell := some turn.cell, ops := turn.op ::ₘ rest }.perform id
        turn.effect).Tells g ↔ e.Tells g ∨ g = Stream.graceful r := by
    intro r hnone hsays g
    rw [tells_advance, tells_cons hops, hsays, hnone]
    simp only [reduceCtorEq, false_or]
    exact or_comm
  -- Most operations have nothing to do with closing.
  have hquiet : c.stream.Same turn.cell.stream → turn.cell.history.aborted = c.history.aborted →
      op.closes = none → turn.op.closes = none →
      (∀ m ∈ turn.effect.msgs id, m.closes = none) →
      e.Change ({ e with cell := some turn.cell, ops := turn.op ::ₘ rest }.perform id turn.effect)
        c turn.cell := by
    intro hstream haborted hop hop' hmsgs
    refine .stay hstream (fun h => .inl (haborted ▸ h)) (hsame fun g => ?_) hhand
    rw [Turn.Says, hop, hop']
    constructor
    · rintro (h | ⟨m, hm, h⟩)
      · exact h
      · rw [hmsgs m hm] at h
        exact h
    · exact .inl
  have hnever : ∀ r : Reason, op.inOrder c = decide (r.length ≤ maxFramePayload.toNat) →
      e.done = true ∨ maxFramePayload.toNat < r.length → False := by
    rintro r hfits (hd | hlong)
    · rw [hdone] at hd
      cases hd
    · rw [hfits, decide_eq_true_iff] at horder
      omega
  cases hturn with
  | readBytes length hread =>
      obtain ⟨-, -, -, hafter, -⟩ := Stream.read_bytes hread
      refine hquiet ?_ rfl rfl ?_ (by simp [Effect.msgs])
      · rw [hafter]
        exact ⟨rfl, rfl, rfl⟩
      · dsimp only
        split_ifs <;> rfl
  | took p written hlength hwrite =>
      refine hquiet ?_ rfl rfl rfl (by simp [Effect.msgs])
      rw [Stream.write_after hwrite]
      exact ⟨rfl, rfl, rfl⟩
  | closeIdle r hclosed =>
      refine .stay ⟨rfl, rfl, rfl⟩ ?_ (hsame fun g => by simp [Turn.Says, Op.closes, Effect.msgs])
        hhand
      intro haborted
      simp only [Bool.or_eq_true, decide_eq_true_iff] at haborted
      refine haborted.imp_right fun hne => finished_iff.mpr ?_
      simp only [Op.inOrder, decide_eq_true_iff] at horder
      rcases horder.resolve_left hne with hremote | hreset
      · rcases hclosed with hlocal | hreset
        · exact .inr ⟨hlocal, hremote⟩
        · exact .inl hreset
      · exact .inl hreset
  | closeLocal r hclosed hreset =>
      refine .shut r hclosed hreset rfl rfl ?_ (hnew r rfl fun g => ?_) hhand
      · simp only [Op.inOrder, decide_eq_true_iff, hreset, Bool.false_eq_true, or_false] at horder
        exact horder
      · simp [Turn.Says, Op.closes, Effect.msgs, eq_comm]
  | closeSent r hd =>
      refine .stay ⟨rfl, rfl, rfl⟩ .inl (hsame fun g => ?_) hhand
      rw [Turn.Says, close_says]
      simp [Op.closes]
  | closeLost r hlost => exact (hnever r rfl hlost).elim
  | resetIdle r hreset =>
      refine .stay ⟨rfl, rfl, rfl⟩ (fun _ => .inr (finished_iff.mpr (.inl hreset)))
        (hsame fun g => by simp [Turn.Says, Op.closes, Effect.msgs]) hhand
  | resetAbort r hreset =>
      refine .abort r hreset rfl rfl rfl ?_ (hnew r rfl fun g => ?_) hhand
      · simp only [Op.inOrder, decide_eq_true_iff, hreset, Bool.false_eq_true, false_or] at horder
        exact horder
      · simp [Turn.Says, Op.closes, Effect.msgs, eq_comm]
  | resetSent r hd =>
      refine .stay ⟨rfl, rfl, rfl⟩ .inl (hsame fun g => ?_) hhand
      rw [Turn.Says, close_says]
      simp [Op.closes]
  | resetLost r hlost => exact (hnever r rfl hlost).elim
  | creditSent credit data hd =>
      refine hquiet ⟨rfl, rfl, rfl⟩ rfl rfl rfl ?_
      cases hdecode : decodeWindow (encodeWindow credit) <;>
        simp [Effect.msgs, msgOf, Msg.closes, hdecode]
  | _ =>
      exact hquiet ⟨rfl, rfl, rfl⟩ rfl rfl rfl (by simp [Effect.msgs, msgOf, Msg.closes])

/-- What a step of an end can do to the flags of its stream and to the closes on the way, while
its session is up and its read loop does not refuse the stream. -/
theorem EndStep.change (h : EndStep lim opens id e l e') {c c' : Cell} (hc : e.cell = some c)
    (hc' : e'.cell = some c') (hlive : e'.live = true) (hdone : e.done = true → e.live = false)
    (hrefusing : e.hand ≠ .refusing) (horder : e.InOrder l) : e.Change e' c c' := by
  have hlive₀ := (h.live_of hlive).1
  have hup : e.done = false := by
    rw [← Bool.not_eq_true]
    intro hd
    rw [hdone hd] at hlive₀
    cases hlive₀
  have hended : ∀ {P : Prop}, e.live = false → P := by
    intro P hl
    rw [hl] at hlive₀
    cases hlive₀
  -- Steps that leave the object alone.
  have hidle : e'.cell = e.cell → e'.ops = e.ops → (∀ g, (∃ m ∈ e'.out, m.closes = some g) ↔
      ∃ m ∈ e.out, m.closes = some g) → e'.hand.closes = e.hand.closes → e.Change e' c c' := by
    intro hcell hops hout hhand
    rw [hcell, hc] at hc'
    cases hc'
    refine .stay ⟨rfl, rfl, rfl⟩ .inl (fun g => ?_) hhand
    rw [End.Tells, hops]
    exact or_congr_right (hout g)
  cases h with
  | halt hhand =>
      refine hidle rfl rfl (fun _ => Iff.rfl) ?_
      rcases hhand with hh | hh | hh | ⟨b, hh⟩ <;> rw [hh] <;> rfl
  | create payload hopens hcell hd =>
      rw [hcell] at hc
      cases hc
  | @start op c₀ c₁ hheld hcell hop =>
      rw [hc] at hcell
      cases hcell
      cases hc'
      have hspec : c'.stream = c.stream ∧ c'.history.aborted = c.history.aborted ∧
          op.closes = none := by
        unfold Op.start at hop
        split at hop <;> cases hop <;> exact ⟨rfl, rfl, rfl⟩
      obtain ⟨hstream, haborted, hcloses⟩ := hspec
      refine .stay (by rw [hstream]; exact ⟨rfl, rfl, rfl⟩) (fun h => .inl (haborted ▸ h))
        (fun g => ?_) rfl
      simp [End.Tells, hcloses]
  | advance hcell hops hturn =>
      rw [hc] at hcell
      cases hcell
      rw [perform_cell] at hc'
      cases hc'
      exact EndStep.change_advance hops hturn hup (horder c hc)
  | accept hqueued =>
      rw [show e.cell = some c' from hc'] at hc
      cases hc
      refine .stay ⟨rfl, rfl, rfl⟩ .inl (fun g => ?_) rfl
      simp [End.Tells, Op.closes]
  | ack hhand hcell hd =>
      refine hidle rfl rfl (fun g => ?_) (by rw [hhand]; rfl)
      simp [Msg.closes]
  | queue hhand hcell => exact hidle rfl rfl (fun _ => Iff.rfl) (by rw [hhand]; rfl)
  | full hhand hcell => exact hidle rfl rfl (fun _ => Iff.rfl) (by rw [hhand]; rfl)
  | drop hhand hcell => exact hidle rfl rfl (fun _ => Iff.rfl) (by rw [hhand]; rfl)
  | refuse hhand hd => exact absurd hhand hrefusing
  | deliver hhand hcell hdeliver =>
      rw [hc] at hcell
      cases hcell
      cases hc'
      refine .stay ?_ .inl (fun _ => Iff.rfl) (by rw [hhand]; rfl)
      unfold Stream.deliver at hdeliver
      split_ifs at hdeliver <;> cases hdeliver <;> exact ⟨rfl, rfl, rfl⟩
  | grant hhand hcell =>
      rw [hc] at hcell
      cases hcell
      cases hc'
      refine .stay ?_ .inl (fun _ => Iff.rfl) (by rw [hhand]; rfl)
      unfold Stream.grantCredit
      split_ifs <;> exact ⟨rfl, rfl, rfl⟩
  | found hhand hregistered => exact hidle rfl rfl (fun _ => Iff.rfl) (by rw [hhand]; rfl)
  | missing hhand hregistered =>
      rw [show e.cell = some c' from hc'] at hc
      cases hc
      exact .miss hregistered rfl rfl fun _ => Iff.rfl
  | @close c₀ reason hhand hcell =>
      rw [hc] at hcell
      cases hcell
      cases hc'
      exact .hear reason (by rw [hhand]; rfl) rfl rfl rfl fun _ => Iff.rfl
  | retired hhand hcell hfinished => exact hidle rfl rfl (fun _ => Iff.rfl) (by rw [hhand]; rfl)
  | kept hhand hcell hfinished => exact hidle rfl rfl (fun _ => Iff.rfl) (by rw [hhand]; rfl)
  | collect hl hdoomed hunanswered => exact hended hl
  | kill hl hdoomed hcell => exact hended hl
  | notify hl hdoomed hunanswered => exact hended hl
  | idle hd hend hl => exact hidle rfl rfl (fun _ => Iff.rfl) rfl

/-- An operation on a finished stream goes on to drop it, and one that finishes it will do so. -/
theorem turn_leaving {done : Bool} {ack : Option Reason} {c : Cell} {op : Op} {turn : Turn}
    (hturn : OpStep lim done ack c op turn) (hfinished : turn.cell.stream.finished = true)
    (hkept : turn.effect ≠ .retire) :
    turn.op.Retires ∨ (c.stream.finished = true ∧ ¬ op.Retires) := by
  cases hturn with
  | readBytes length hread =>
      obtain ⟨-, -, -, hafter, -⟩ := Stream.read_bytes hread
      refine .inr ⟨?_, fun h => h⟩
      rw [hafter] at hfinished
      exact hfinished
  | took p written hlength hwrite =>
      refine .inr ⟨?_, fun h => h⟩
      rw [Stream.write_after hwrite] at hfinished
      exact hfinished
  | closeLocal r hclosed hreset => exact .inl trivial
  | closeSent r hd => exact .inl trivial
  | closeLost r hlost => exact .inl trivial
  | resetAbort r hreset => exact .inl trivial
  | resetSent r hd => exact .inl trivial
  | resetLost r hlost => exact .inl trivial
  | openRetired error => exact absurd rfl hkept
  | closeRetired failed hf => exact absurd rfl hkept
  | resetRetired failed => exact absurd rfl hkept
  | closeKept failed hf =>
      rw [show c.stream.finished = true from hfinished] at hf
      cases hf
  | _ => exact .inr ⟨hfinished, fun h => h⟩

/-- A finished stream that is still in the table is about to leave it. -/
theorem EndStep.leaving (h : EndStep lim opens id e l e') {c c' : Cell} (hc : e.cell = some c)
    (hc' : e'.cell = some c') (hlive : e'.live = true) (hstopped : e'.hand ≠ .stopped)
    (hleaving : c.stream.finished = true → e.registered = true → e.Leaving) :
    c'.stream.finished = true → e'.registered = true → e'.Leaving := by
  have hlive₀ := (h.live_of hlive).1
  have hended : ∀ {P : Prop}, e.live = false → P := by
    intro P hl
    rw [hl] at hlive₀
    cases hlive₀
  -- The read loop was not about to drop the stream, so an operation is.
  have hops : e.hand ≠ .serving .retiring → ∀ {e' : End}, e'.ops = e.ops →
      c.stream.finished = true → e.registered = true → e'.Leaving := by
    intro hhand e' hsame hf hr
    rcases hleaving hf hr with hop | hh
    · exact .inl (hsame ▸ hop)
    · exact absurd hh hhand
  have hloop : e.cell = some c' → e.hand ≠ .serving .retiring → ∀ {e' : End}, e'.ops = e.ops →
      c'.stream.finished = true → e.registered = true → e'.Leaving := by
    intro hcell hhand
    rw [hc] at hcell
    cases hcell
    exact hops hhand
  cases h with
  | halt hhand => exact absurd rfl hstopped
  | create payload hopens hcell hd =>
      rw [hcell] at hc
      cases hc
  | start hheld hcell hop =>
      rw [hc] at hcell
      cases hcell
      cases hc'
      rw [(start_spec hop).1]
      intro hf hr
      rcases hleaving hf hr with ⟨op, hmem, hretires⟩ | hh
      · exact .inl ⟨op, Multiset.mem_cons_of_mem hmem, hretires⟩
      · exact .inr hh
  | @advance op rest c₀ turn hcell hrest hturn =>
      rw [hc] at hcell
      cases hcell
      rw [perform_cell] at hc'
      cases hc'
      intro hf hr
      rw [perform_registered, Bool.and_eq_true, decide_eq_true_iff] at hr
      rcases turn_leaving hturn hf hr.2 with hretires | ⟨hf₀, hnot⟩
      · exact .inl ⟨turn.op, by simp, hretires⟩
      · rcases hleaving hf₀ hr.1 with ⟨op', hmem, hretires⟩ | hh
        · rw [hrest] at hmem
          rcases Multiset.mem_cons.mp hmem with rfl | hmem
          · exact absurd hretires hnot
          · exact .inl ⟨op', by simp [hmem], hretires⟩
        · exact .inr (by rw [perform_hand]; exact hh)
  | accept hqueued =>
      rw [show e.cell = some c' from hc'] at hc
      cases hc
      intro hf hr
      rcases hleaving hf hr with ⟨op, hmem, hretires⟩ | hh
      · exact .inl ⟨op, Multiset.mem_cons_of_mem hmem, hretires⟩
      · exact .inr hh
  | close hhand hcell => exact fun _ _ => .inr rfl
  | drop hhand hcell => exact fun _ hr => absurd hr (by simp)
  | retired hhand hcell hfinished => exact fun _ hr => absurd hr (by simp)
  | kept hhand hcell hfinished =>
      rw [hc] at hcell
      cases hcell
      rw [show e.cell = some c' from hc'] at hc
      cases hc
      intro hf
      rw [hf] at hfinished
      cases hfinished
  | deliver hhand hcell hdeliver =>
      rw [hc] at hcell
      cases hcell
      cases hc'
      intro hf
      refine hops (by simp [hhand]) rfl ?_
      unfold Stream.deliver at hdeliver
      split_ifs at hdeliver <;> cases hdeliver <;> exact hf
  | grant hhand hcell =>
      rw [hc] at hcell
      cases hcell
      cases hc'
      intro hf
      refine hops (by simp [hhand]) rfl ?_
      unfold Stream.grantCredit at hf
      split_ifs at hf <;> exact hf
  | collect hl hdoomed hunanswered => exact hended hl
  | kill hl hdoomed hcell => exact hended hl
  | notify hl hdoomed hunanswered => exact hended hl
  | idle hd hend hl =>
      rw [show e.cell = some c' from hc'] at hc
      cases hc
      exact hleaving
  | ack hhand hcell hd => exact hloop hc' (by simp [hhand]) rfl
  | queue hhand hcell => exact hloop hc' (by simp [hhand]) rfl
  | full hhand hcell => exact hloop hc' (by simp [hhand]) rfl
  | refuse hhand hd => exact hloop hc' (by simp [hhand]) rfl
  | found hhand hregistered => exact hloop hc' (by simp [hhand]) rfl
  | missing hhand hregistered => exact hloop hc' (by simp [hhand]) rfl

/-- The object that a step creates is a new one. -/
theorem EndStep.born (h : EndStep lim opens id e l e') (hnone : e.cell = none) {c : Cell}
    (hc : e'.cell = some c) : c = newCell (newStream id lim.window) := by
  have hborn : ∀ {c₀ : Cell} {P : Prop}, e.cell = some c₀ → P := by
    intro c₀ P hcell
    rw [hnone] at hcell
    cases hcell
  cases h with
  | create payload hopens hcell hdone => exact (Option.some.inj hc).symm
  | start hheld hcell hop => exact hborn hcell
  | advance hcell hops hturn => exact hborn hcell
  | deliver hserving hcell hdeliver => exact hborn hcell
  | grant hserving hcell => exact hborn hcell
  | close hserving hcell => exact hborn hcell
  | kill hl hdoomed hcell => exact hborn hcell
  | _ => exact hborn hc

/-- While its session lives, no stream is about to be killed. -/
theorem EndStep.spare (h : EndStep lim opens id e l e') (hlive : e'.live = true)
    (hdoomed : e.doomed = false) : e'.doomed = false := by
  have hlive₀ := (h.live_of hlive).1
  cases h with
  | advance hcell hops hturn => simpa using hdoomed
  | collect hl _ _ =>
      rw [hl] at hlive₀
      cases hlive₀
  | kill hl _ _ =>
      rw [hl] at hlive₀
      cases hlive₀
  | _ => exact hdoomed

/-- The read loop refuses a stream that has no object, or one that it has just dropped. -/
theorem EndStep.refuses (h : EndStep lim opens id e l e') (hs : e.Sound opens) (ha : e.Admitted)
    (hrefuses : e.hand = .refusing → e.cell = none ∨ e.Abandoned) :
    e'.hand = .refusing → e'.cell = none ∨ e'.Abandoned := by
  have hkept : e.hand = .refusing → opens = false → e'.cell = none ∨ e'.Abandoned := by
    intro hhand hopens
    rcases hrefuses hhand with hnone | hab
    · exact .inl ((h.cell_none hnone).resolve_right (by simp [hopens]))
    · cases hc : e.cell with
      | none => exact .inl ((h.cell_none hc).resolve_right (by simp [hopens]))
      | some c => exact .inr (h.abandoned hc hab)
  have hacceptor : e.hand = .refusing → opens = false := by
    intro hhand
    rw [← Bool.not_eq_true]
    exact fun hopens => (hs.opener hopens).2.2.2.2 hhand
  have hold : e.hand = .refusing → e'.cell = none ∨ e'.Abandoned :=
    fun hhand => hkept hhand (hacceptor hhand)
  cases h with
  | advance hcell hops hturn =>
      rw [perform_hand]
      exact hold
  | drop hhand hcell =>
      intro _
      have honce := ha.once
      rw [End.admissions, hhand] at honce
      simp only [Hand.admissions] at honce
      exact .inr (abandoned_of_admissions (show (e.ops.map Op.admissions).sum = 0 by omega)
        (show e.queued = 0 by omega) rfl)
  | idle _ _ _ => exact hold
  | create _ _ _ _ => exact hold
  | start _ _ _ => exact hold
  | accept _ => exact hold
  | collect _ _ _ => exact hold
  | kill _ _ _ => exact hold
  | notify _ _ _ => exact hold
  | _ => exact fun hhand => absurd hhand (by simp)

end Steps

end AccessRelay.Mux
