import AccessRelay.Mux.Link

/-!
# What one end of a stream keeps

Invariants of a single end, under its own steps and under any message the other end may send:
`Sound` says what the end that numbers the stream and the end that accepts it never do, and
`Mute` what an end that has not been answered can have done.
-/

namespace AccessRelay.Mux

open Encoding Proto

/-- The messages of an effect. -/
def Effect.msgs (id : UInt32) : Effect → List Msg
  | .send type payload => (msgOf id ⟨type, id, payload⟩).toList
  | .silent | .retire => []

section Perform

variable (e : End) (id : UInt32) (effect : Effect)

@[simp] theorem perform_cell : (e.perform id effect).cell = e.cell := by cases effect <;> rfl
@[simp] theorem perform_acked : (e.perform id effect).acked = e.acked := by cases effect <;> rfl
@[simp] theorem perform_queued : (e.perform id effect).queued = e.queued := by
  cases effect <;> rfl
@[simp] theorem perform_ops : (e.perform id effect).ops = e.ops := by cases effect <;> rfl
@[simp] theorem perform_hand : (e.perform id effect).hand = e.hand := by cases effect <;> rfl
@[simp] theorem perform_doomed : (e.perform id effect).doomed = e.doomed := by
  cases effect <;> rfl
@[simp] theorem perform_unanswered : (e.perform id effect).unanswered = e.unanswered := by
  cases effect <;> rfl
@[simp] theorem perform_done : (e.perform id effect).done = e.done := by cases effect <;> rfl
@[simp] theorem perform_live : (e.perform id effect).live = e.live := by cases effect <;> rfl

@[simp] theorem perform_out : (e.perform id effect).out = e.out ++ effect.msgs id := by
  cases effect <;> simp [End.perform, End.retire, Effect.msgs]

@[simp] theorem perform_registered :
    (e.perform id effect).registered = (e.registered && effect ≠ .retire) := by
  cases effect <;> simp [End.perform, End.retire]

@[simp] theorem perform_awaiting :
    (e.perform id effect).awaiting = (e.awaiting && effect ≠ .retire) := by
  cases effect <;> simp [End.perform, End.retire]

end Perform

namespace Op

/-- The operation is about to write a frame of the stream other than its OPEN_STREAM. -/
def Sends : Op → Prop
  | .sendWindowUpdate _ _ | .sendData _ _ _ | .sendClose _ | .sendReset _ => True
  | _ => False

/-- The operation is an `Open` that has not returned the stream. -/
def Opening : Op → Prop
  | .sendOpen _ | .awaitAck | .retireOpen _ | .openFailed _ => True
  | _ => False

/-- The operation still has an OPEN_STREAM to send. -/
def openings : Op → Nat
  | .sendOpen _ => 1
  | _ => 0

end Op

/-- The OPEN_STREAM frames that are still to be read. -/
def End.openings (e : End) : Nat := (e.ops.map Op.openings).sum + e.out.count .openStream

/-- What has been closed or reset stays so. -/
structure Stream.Grows (st st' : Stream) : Prop where
  reset : st.reset = true → st'.reset = true
  remoteClosed : st.remoteClosed = true → st'.remoteClosed = true
  localClosed : st.localClosed = true → st'.localClosed = true

theorem Stream.Grows.rfl {st : Stream} : st.Grows st := ⟨fun h => h, fun h => h, fun h => h⟩

section Turns

variable {lim : Limits} {done : Bool} {ack : Option Reason} {c : Cell} {op : Op} {turn : Turn}

/-- No operation revives a stream. -/
theorem turn_grows (hturn : OpStep lim done ack c op turn) : c.stream.Grows turn.cell.stream := by
  cases hturn with
  | readBytes length hread =>
      obtain ⟨-, -, -, hafter, -⟩ := Stream.read_bytes hread
      rw [hafter]
      exact ⟨fun h => h, fun h => h, fun h => h⟩
  | took p written hlength hwrite =>
      rw [Stream.write_after hwrite]
      exact ⟨fun h => h, fun h => h, fun h => h⟩
  | closeLocal r hclosed hlive => exact ⟨fun h => h, fun h => h, fun _ => rfl⟩
  | resetAbort r hlive => exact ⟨fun _ => rfl, fun _ => rfl, fun _ => rfl⟩
  | _ => exact .rfl

/-- Only an `Open` sends OPEN_STREAM, and once. -/
theorem turn_openings (id : UInt32) (hturn : OpStep lim done ack c op turn) :
    turn.op.openings + (turn.effect.msgs id).count .openStream ≤ op.openings := by
  cases hturn with
  | readBytes length hread => split_ifs <;> simp [Op.openings, Effect.msgs]
  | creditSent credit data hdone =>
      cases hdecode : decodeWindow (encodeWindow credit) <;>
        simp [Op.openings, Effect.msgs, msgOf, hdecode]
  | _ => simp [Op.openings, Effect.msgs, msgOf]

/-- An operation that is not about to send, on a stream that is reset or has not been opened,
sends nothing but OPEN_STREAM. -/
theorem turn_mute (id : UInt32) (hturn : OpStep lim done ack c op turn) (hsends : ¬ op.Sends)
    (hbuf : c.stream.buf = [])
    (hcell : c.stream.reset = true ∨ (ack ≠ some reasonOK ∧ op.Opening)) :
    (∀ m ∈ turn.effect.msgs id, m = .openStream) ∧ ¬ turn.op.Sends ∧
      turn.cell.stream.buf = [] ∧ (turn.cell.stream.reset = true ∨ turn.op.Opening) := by
  cases hturn with
  | readBytes length hread =>
      obtain ⟨-, -, hne, -⟩ := Stream.read_bytes hread
      exact absurd hbuf hne
  | took p written hlength hwrite =>
      rcases hcell with hreset | ⟨-, hopening⟩
      · unfold Stream.write at hwrite
        rw [if_pos hreset] at hwrite
        cases hwrite
      · exact absurd hopening (by simp [Op.Opening])
  | acked hack =>
      rcases hcell with hreset | ⟨hne, -⟩
      · exact ⟨by simp [Effect.msgs], by simp [Op.Sends], hbuf, .inl hreset⟩
      · exact absurd hack hne
  | closeLocal r hclosed hlive =>
      rcases hcell with hreset | ⟨-, hopening⟩
      · rw [hlive] at hreset
        cases hreset
      · exact absurd hopening (by simp [Op.Opening])
  | resetAbort r hlive =>
      rcases hcell with hreset | ⟨-, hopening⟩
      · rw [hlive] at hreset
        cases hreset
      · exact absurd hopening (by simp [Op.Opening])
  | _ => simp_all [Effect.msgs, msgOf, Op.Sends, Op.Opening]

end Turns

/-- Nothing has happened at this end yet, except perhaps that its read loop has stopped. -/
structure End.Blank (e : End) : Prop where
  cell : e.cell = none
  out : e.out = []
  hand : e.hand = .free ∨ e.hand = .stopped

/-- Before it has an object, an end knows nothing of the stream, but it may have refused it. -/
structure End.Unborn (e : End) : Prop where
  registered : e.registered = false
  awaiting : e.awaiting = false
  acked : e.acked = none
  queued : e.queued = 0
  ops : e.ops = 0
  hand : ∀ task, e.hand ≠ .serving task
  doomed : e.doomed = false
  unanswered : e.unanswered = false
  out : ∀ m ∈ e.out, m = .close reasonLimitStreamsExceeded

/-- What holds at one end of a stream by itself. -/
structure End.Sound (opens : Bool) (e : End) : Prop where
  unborn : e.cell = none → e.Unborn
  awaits : e.awaiting = true → e.registered = true
  /-- `closeOnce` answers an `Open` after it has killed its stream. -/
  answers : e.unanswered = true → e.doomed = true ∨ ∀ c, e.cell = some c → c.stream.reset = true
  /-- The end that numbers a stream accepts nothing. -/
  opener : opens = true → e.queued = 0 ∧ e.hand ≠ .serving .acking ∧
    e.hand ≠ .serving .queueing ∧ e.hand ≠ .serving .dropping ∧ e.hand ≠ .refusing
  /-- The other end opens nothing. -/
  acceptor : opens = false → e.awaiting = false ∧ e.openings = 0

section Sound

variable {lim : Limits} {opens : Bool} {id : UInt32} {e e' : End} {l : Label}

/-- A started operation has no OPEN_STREAM to send, and leaves the stream as it is. -/
theorem start_spec {op : Op} {c c' : Cell} (h : op.start c = some c') :
    c'.stream = c.stream ∧ op.openings = 0 ∧ ¬ op.Sends := by
  unfold Op.start at h
  split at h <;> cases h <;> exact ⟨rfl, rfl, by simp [Op.Sends]⟩

theorem deliver_grows {st st' : Stream} {b : Bytes} (h : st.deliver b = some st') :
    st.Grows st' := by
  unfold Stream.deliver at h
  split_ifs at h <;> cases h <;> exact ⟨fun h => h, fun h => h, fun h => h⟩

theorem grant_credit_grows (st : Stream) (n : UInt32) : st.Grows (st.grantCredit n) := by
  unfold Stream.grantCredit
  split_ifs <;> exact ⟨fun h => h, fun h => h, fun h => h⟩

theorem remote_close_grows (st : Stream) (r : Reason) : st.Grows (st.remoteClose r) := by
  unfold Stream.remoteClose
  split_ifs
  · exact .rfl
  · exact ⟨fun h => h, fun _ => rfl, fun h => h⟩
  · exact ⟨fun _ => rfl, fun _ => rfl, fun h => h⟩

theorem kill_grows (st : Stream) (r : Reason) : st.Grows (st.kill r) := by
  unfold Stream.kill
  split_ifs
  · exact .rfl
  · exact ⟨fun _ => rfl, fun _ => rfl, fun _ => rfl⟩

theorem kill_reset (st : Stream) (r : Reason) : (st.kill r).reset = true := by
  unfold Stream.kill
  split_ifs with h
  · exact h
  · rfl

/-- An end that has an object keeps one, and what has ended stays so. -/
theorem EndStep.cell_mono (h : EndStep lim opens id e l e') {c : Cell} (hc : e.cell = some c) :
    ∃ c', e'.cell = some c' ∧ c.stream.Grows c'.stream := by
  cases h with
  | create payload hopens hcell hdone =>
      rw [hcell] at hc
      cases hc
  | start hheld hcell hop =>
      rw [hcell] at hc
      cases hc
      exact ⟨_, rfl, (start_spec hop).1 ▸ .rfl⟩
  | advance hcell hops hturn =>
      rw [hcell] at hc
      cases hc
      exact ⟨_, by simp, turn_grows hturn⟩
  | deliver hhand hcell hdeliver =>
      rw [hcell] at hc
      cases hc
      exact ⟨_, rfl, deliver_grows hdeliver⟩
  | grant hhand hcell =>
      rw [hcell] at hc
      cases hc
      exact ⟨_, rfl, grant_credit_grows _ _⟩
  | close hhand hcell =>
      rw [hcell] at hc
      cases hc
      exact ⟨_, rfl, remote_close_grows _ _⟩
  | kill hlive hdoomed hcell =>
      rw [hcell] at hc
      cases hc
      exact ⟨_, rfl, kill_grows _ _⟩
  | _ => exact ⟨c, hc, .rfl⟩

/-- A step of one end keeps it sound. -/
theorem EndStep.sound (h : EndStep lim opens id e l e') (hs : e.Sound opens) :
    e'.Sound opens := by
  have hborn : ∀ {c}, e.cell = some c → ∀ {P : Prop}, e.cell = none → P := by
    intro c hc P hnone
    rw [hc] at hnone
    cases hnone
  have hkeep : ∀ {c}, e.cell = some c → (∀ c, e.cell = some c → c.stream.reset = true) →
      ∀ c', e'.cell = some c' → c'.stream.reset = true := by
    intro c hc hreset c' hc'
    obtain ⟨d, hd, hmono⟩ := h.cell_mono hc
    rw [hd] at hc'
    cases hc'
    exact hmono.reset (hreset c hc)
  obtain ⟨hunborn, hawaits, hanswers, hopener, hacceptor⟩ := hs
  cases h with
  | idle hdone hended hlive =>
      refine ⟨?_, hawaits, hanswers, hopener, hacceptor⟩
      intro hcell
      exact { hunborn hcell with }
  | halt hhand =>
      refine ⟨?_, hawaits, hanswers, ?_, hacceptor⟩
      · intro hcell
        exact { hunborn hcell with hand := by simp }
      · intro hopens
        exact ⟨(hopener hopens).1, by simp, by simp, by simp, by simp⟩
  | create payload hopens hcell hdone =>
      refine ⟨by simp, by simp, ?_, hopener, by simp [hopens]⟩
      intro hunanswered
      rw [(hunborn hcell).unanswered] at hunanswered
      cases hunanswered
  | start hheld hcell hop =>
      refine ⟨by simp, hawaits, fun h => (hanswers h).imp_right (hkeep hcell), hopener, ?_⟩
      intro hopens
      simpa [End.openings, (start_spec hop).2.1] using hacceptor hopens
  | advance hcell hops hturn =>
      refine ⟨by simp, ?_, ?_, by simpa using hopener, ?_⟩
      · simp only [perform_awaiting, perform_registered, Bool.and_eq_true]
        exact fun h => ⟨hawaits h.1, h.2⟩
      · rw [perform_unanswered, perform_doomed]
        exact fun h => (hanswers h).imp_right (hkeep hcell)
      · intro hopens
        obtain ⟨hawaiting, hzero⟩ := hacceptor hopens
        have hopenings := turn_openings id hturn
        simp only [End.openings, hops, Multiset.map_cons, Multiset.sum_cons] at hzero
        refine ⟨by simp [hawaiting], ?_⟩
        simp only [End.openings, perform_ops, perform_out, Multiset.map_cons, Multiset.sum_cons,
          List.count_append]
        omega
  | accept hqueued =>
      refine ⟨?_, hawaits, hanswers, ?_, ?_⟩
      · intro hcell
        have hzero := (hunborn hcell).queued
        omega
      · intro hopens
        have hzero := (hopener hopens).1
        omega
      · intro hopens
        simpa [End.openings, Op.openings] using hacceptor hopens
  | ack hhand hcell hdone =>
      refine ⟨hborn hcell, hawaits, hanswers, ?_, ?_⟩
      · intro hopens
        exact absurd hhand (hopener hopens).2.1
      · intro hopens
        simpa [End.openings] using hacceptor hopens
  | queue hhand hcell =>
      refine ⟨hborn hcell, hawaits, hanswers, ?_, hacceptor⟩
      intro hopens
      exact absurd hhand (hopener hopens).2.2.1
  | full hhand hcell =>
      refine ⟨hborn hcell, hawaits, hanswers, ?_, hacceptor⟩
      intro hopens
      exact absurd hhand (hopener hopens).2.2.1
  | drop hhand hcell =>
      refine ⟨hborn hcell, by simp, hanswers, ?_, ?_⟩
      · intro hopens
        exact absurd hhand (hopener hopens).2.2.2.1
      · intro hopens
        exact ⟨rfl, (hacceptor hopens).2⟩
  | refuse hhand hdone =>
      refine ⟨?_, hawaits, hanswers, ?_, ?_⟩
      · intro hcell
        refine { hunborn hcell with hand := by simp, out := ?_ }
        intro m hm
        rcases List.mem_append.mp hm with hm | hm
        · exact (hunborn hcell).out m hm
        · exact List.mem_singleton.mp hm
      · intro hopens
        exact absurd hhand (hopener hopens).2.2.2.2
      · intro hopens
        simpa [End.openings] using hacceptor hopens
  | deliver hhand hcell hdeliver =>
      refine ⟨by simp, hawaits, fun h => (hanswers h).imp_right (hkeep hcell), ?_, hacceptor⟩
      intro hopens
      exact ⟨(hopener hopens).1, by simp, by simp, by simp, by simp⟩
  | grant hhand hcell =>
      refine ⟨by simp, hawaits, fun h => (hanswers h).imp_right (hkeep hcell), ?_, hacceptor⟩
      intro hopens
      exact ⟨(hopener hopens).1, by simp, by simp, by simp, by simp⟩
  | found hhand hregistered =>
      refine ⟨?_, hawaits, hanswers, ?_, hacceptor⟩
      · intro hcell
        rw [(hunborn hcell).registered] at hregistered
        cases hregistered
      · intro hopens
        exact ⟨(hopener hopens).1, by simp, by simp, by simp, by simp⟩
  | missing hhand hregistered =>
      refine ⟨?_, hawaits, hanswers, ?_, hacceptor⟩
      · intro hcell
        exact { hunborn hcell with hand := by simp }
      · intro hopens
        exact ⟨(hopener hopens).1, by simp, by simp, by simp, by simp⟩
  | close hhand hcell =>
      refine ⟨by simp, hawaits, fun h => (hanswers h).imp_right (hkeep hcell), ?_, hacceptor⟩
      intro hopens
      exact ⟨(hopener hopens).1, by simp, by simp, by simp, by simp⟩
  | retired hhand hcell hfinished =>
      refine ⟨hborn hcell, by simp, hanswers, ?_, ?_⟩
      · intro hopens
        exact ⟨(hopener hopens).1, by simp, by simp, by simp, by simp⟩
      · intro hopens
        exact ⟨rfl, (hacceptor hopens).2⟩
  | kept hhand hcell hfinished =>
      refine ⟨hborn hcell, hawaits, hanswers, ?_, hacceptor⟩
      intro hopens
      exact ⟨(hopener hopens).1, by simp, by simp, by simp, by simp⟩
  | collect hlive hdoomed hunanswered =>
      refine ⟨?_, by simp, ?_, hopener, ?_⟩
      · intro hcell
        exact { hunborn hcell with
          registered := rfl, awaiting := rfl
          doomed := (hunborn hcell).registered, unanswered := (hunborn hcell).awaiting }
      · intro hawaiting
        exact .inl (hawaits hawaiting)
      · intro hopens
        exact ⟨rfl, (hacceptor hopens).2⟩
  | kill hlive hdoomed hcell =>
      refine ⟨by simp, hawaits, ?_, hopener, hacceptor⟩
      intro hunanswered
      right
      intro c hc
      cases hc
      exact kill_reset _ _
  | notify hlive hdoomed hunanswered =>
      refine ⟨?_, hawaits, ?_, hopener, hacceptor⟩
      · intro hcell
        rw [(hunborn hcell).unanswered] at hunanswered
        cases hunanswered
      · intro _
        rcases hanswers hunanswered with hdoomed' | hreset
        · rw [hdoomed] at hdoomed'
          cases hdoomed'
        · exact .inr hreset

/-- A message keeps an end sound; only the end that does not number the stream may be asked to
open it. -/
theorem Receive.sound {m : Msg} (h : Receive lim id e m e') (hs : e.Sound opens)
    (hopen : m = .openStream → opens = false) : e'.Sound opens := by
  obtain ⟨hunborn, hawaits, hanswers, hopener, hacceptor⟩ := hs
  have hidle : ∀ hand : Hand, (∀ task, hand ≠ .serving task) → hand ≠ .refusing →
      { e with hand := hand }.Sound opens := by
    intro hand hserving hrefusing
    refine ⟨?_, hawaits, hanswers, ?_, hacceptor⟩
    · intro hcell
      exact { hunborn hcell with hand := hserving }
    · intro hopens
      exact ⟨(hopener hopens).1, hserving _, hserving _, hserving _, hrefusing⟩
  have hcomplete : ∀ (reason : Reason) (hand : Hand), (∀ task, hand ≠ .serving task) →
      hand ≠ .refusing → { e.complete reason with hand := hand }.Sound opens := by
    intro reason hand hserving hrefusing
    refine ⟨?_, by simp [End.complete], hanswers, ?_, ?_⟩
    · intro hcell
      refine { hunborn hcell with hand := hserving, awaiting := rfl, acked := ?_ }
      simp [End.complete, (hunborn hcell).awaiting, (hunborn hcell).acked]
    · intro hopens
      exact ⟨(hopener hopens).1, hserving _, hserving _, hserving _, hrefusing⟩
    · intro hopens
      exact ⟨rfl, (hacceptor hopens).2⟩
  have hserving : ∀ task : Task, e.registered = true → task ≠ .acking → task ≠ .queueing →
      task ≠ .dropping → { e with hand := .serving task }.Sound opens := by
    intro task hregistered hacking hqueueing hdropping
    refine ⟨?_, hawaits, hanswers, ?_, hacceptor⟩
    · intro hcell
      rw [(hunborn hcell).registered] at hregistered
      cases hregistered
    · intro hopens
      exact ⟨(hopener hopens).1, by simpa using hacking, by simpa using hqueueing,
        by simpa using hdropping, by simp⟩
  cases h with
  | tooLarge hsize => exact hidle .stopped (by simp) (by simp)
  | openFailed => exact hidle .stopped (by simp) (by simp)
  | openRefused =>
      have hopens := hopen rfl
      refine ⟨?_, hawaits, hanswers, by simp [hopens], hacceptor⟩
      intro hcell
      exact { hunborn hcell with hand := by simp }
  | opened payload hcell =>
      have hopens := hopen rfl
      refine ⟨by simp, by simp, ?_, by simp [hopens], hacceptor⟩
      intro hunanswered
      rw [(hunborn hcell).unanswered] at hunanswered
      cases hunanswered
  | streamOK =>
      refine ⟨?_, by simp [End.complete], hanswers, hopener, ?_⟩
      · intro hcell
        refine { hunborn hcell with awaiting := rfl, acked := ?_ }
        simp [End.complete, (hunborn hcell).awaiting, (hunborn hcell).acked]
      · intro hopens
        exact ⟨rfl, (hacceptor hopens).2⟩
  | data hregistered => exact hserving _ hregistered (by simp) (by simp) (by simp)
  | window hregistered => exact hserving _ hregistered (by simp) (by simp) (by simp)
  | dropped hregistered hm => exact ⟨hunborn, hawaits, hanswers, hopener, hacceptor⟩
  | close => exact hcomplete _ _ (by simp) (by simp)

/-- The other end has read a message. -/
theorem End.Sound.pop {m : Msg} {rest : List Msg} (hs : e.Sound opens)
    (hout : e.out = m :: rest) : { e with out := rest }.Sound opens := by
  refine ⟨?_, hs.awaits, hs.answers, hs.opener, ?_⟩
  · intro hcell
    refine { hs.unborn hcell with out := ?_ }
    intro m' hm'
    exact (hs.unborn hcell).out m' (hout ▸ List.mem_cons_of_mem m hm')
  · intro hopens
    obtain ⟨hawaiting, hzero⟩ := hs.acceptor hopens
    refine ⟨hawaiting, ?_⟩
    simp only [End.openings, hout, List.count_cons] at hzero ⊢
    omega

/-- An end that creates an object numbers the stream. -/
theorem EndStep.cell_none (h : EndStep lim opens id e l e') (hcell : e.cell = none) :
    e'.cell = none ∨ opens = true := by
  cases h with
  | create payload hopens hcell hdone => exact .inr hopens
  | start hheld hborn hop =>
      rw [hcell] at hborn
      cases hborn
  | advance hborn hops hturn =>
      rw [hcell] at hborn
      cases hborn
  | deliver hhand hborn hdeliver =>
      rw [hcell] at hborn
      cases hborn
  | grant hhand hborn =>
      rw [hcell] at hborn
      cases hborn
  | close hhand hborn =>
      rw [hcell] at hborn
      cases hborn
  | kill hlive hdoomed hborn =>
      rw [hcell] at hborn
      cases hborn
  | _ => exact .inl hcell

theorem EndStep.cell_none_of (h : EndStep lim opens id e l e') (hcell : e'.cell = none) :
    e.cell = none := by
  cases hborn : e.cell with
  | none => rfl
  | some c =>
      obtain ⟨c', hc', -⟩ := h.cell_mono hborn
      rw [hcell] at hc'
      cases hc'

/-- A read loop without a message of the stream gets none by itself. -/
theorem EndStep.hand_idle (h : EndStep lim opens id e l e')
    (hhand : e.hand = .free ∨ e.hand = .stopped) : e'.hand = .free ∨ e'.hand = .stopped := by
  cases h with
  | halt _ => exact .inr rfl
  | advance hcell hops hturn => simpa using hhand
  | queue _ _ => exact .inl rfl
  | deliver _ _ _ => exact .inl rfl
  | grant _ _ => exact .inl rfl
  | refuse _ _ => exact .inl rfl
  | missing _ _ => exact .inl rfl
  | retired _ _ _ => exact .inl rfl
  | kept _ _ _ => exact .inl rfl
  | ack hserving _ _ => simp [hserving] at hhand
  | full hserving _ => simp [hserving] at hhand
  | drop hserving _ => simp [hserving] at hhand
  | found hlooking _ => simp [hlooking] at hhand
  | close hserving _ => simp [hserving] at hhand
  | _ => exact hhand

/-- A blank end stays blank until it creates an object. -/
theorem EndStep.blank (h : EndStep lim opens id e l e') (hs : e.Sound opens) (hb : e.Blank)
    (hcell : e'.cell = none) : e'.Blank := by
  refine ⟨hcell, ?_, h.hand_idle hb.hand⟩
  have hu := hs.unborn hb.cell
  cases h with
  | advance hborn hops hturn =>
      rw [hb.cell] at hborn
      cases hborn
  | ack hhand hborn hdone => exact absurd hhand (hu.hand _)
  | refuse hhand hdone => rcases hb.hand with hidle | hidle <;> simp [hhand] at hidle
  | _ => exact hb.out

/-- An OPEN_STREAM is added only by the end that creates the object. -/
theorem EndStep.openings_le (h : EndStep lim opens id e l e') (hs : e.Sound opens) :
    e'.openings ≤ e.openings ∨ (opens = true ∧ e.cell = none ∧ e'.openings = 1) := by
  cases h with
  | create payload hopens hcell hdone =>
      have hu := hs.unborn hcell
      have hout : e.out.count .openStream = 0 := by
        rw [List.count_eq_zero]
        intro hmem
        exact absurd (hu.out _ hmem) (by simp)
      exact .inr ⟨hopens, hcell, by simp [End.openings, hu.ops, hout, Op.openings]⟩
  | start hheld hcell hop =>
      exact .inl (by simp [End.openings, (start_spec hop).2.1])
  | advance hcell hops hturn =>
      left
      have hopenings := turn_openings id hturn
      simp only [End.openings, hops, perform_ops, perform_out, Multiset.map_cons,
        Multiset.sum_cons, List.count_append]
      omega
  | accept hqueued => exact .inl (by simp [End.openings, Op.openings])
  | ack hhand hcell hdone => exact .inl (by simp [End.openings])
  | refuse hhand hdone => exact .inl (by simp [End.openings])
  | _ => exact .inl (Nat.le_refl _)

/-- Messages are only added. -/
theorem EndStep.out_append (h : EndStep lim opens id e l e') : ∃ new, e'.out = e.out ++ new := by
  cases h with
  | advance hcell hops hturn => exact ⟨_, perform_out _ _ _⟩
  | ack hhand hcell hdone => exact ⟨_, rfl⟩
  | refuse hhand hdone => exact ⟨_, rfl⟩
  | _ => exact ⟨[], (List.append_nil _).symm⟩

/-- A session that is ending does not come back to life, and while it lives no answer comes from
`closeOnce`. -/
theorem EndStep.live_of (h : EndStep lim opens id e l e') (hlive : e'.live = true) :
    e.live = true ∧ e'.acked = e.acked := by
  cases h with
  | idle hdone hended hl => exact ⟨hl hlive, rfl⟩
  | advance hcell hops hturn => exact ⟨by simpa using hlive, by simp⟩
  | notify hl hdoomed hunanswered =>
      rw [show e.live = true from hlive] at hl
      cases hl
  | _ => exact ⟨hlive, rfl⟩

theorem EndStep.done_of (h : EndStep lim opens id e l e') (hlive : e'.live = true)
    (hdone : e'.done = true) : e.done = true := by
  cases h with
  | idle hd hended hl => exact (hended hdone).resolve_right (by simp [hl hlive])
  | advance hcell hops hturn => simpa using hdone
  | _ => exact hdone

/-- A read loop that has stopped does not go on. -/
theorem EndStep.hand_stopped (h : EndStep lim opens id e l e') (hhand : e.hand = .stopped) :
    e'.hand = .stopped := by
  cases h with
  | advance hcell hops hturn => simpa using hhand
  | halt _ => rfl
  | ack hserving _ _ => simp [hhand] at hserving
  | queue hserving _ => simp [hhand] at hserving
  | full hserving _ => simp [hhand] at hserving
  | drop hserving _ => simp [hhand] at hserving
  | refuse hserving _ => simp [hhand] at hserving
  | deliver hserving _ _ => simp [hhand] at hserving
  | grant hserving _ => simp [hhand] at hserving
  | found hserving _ => simp [hhand] at hserving
  | missing hserving _ => simp [hhand] at hserving
  | close hserving _ => simp [hhand] at hserving
  | retired hserving _ _ => simp [hhand] at hserving
  | kept hserving _ _ => simp [hhand] at hserving
  | _ => exact hhand

/-- A map gets an entry only with a new object. -/
theorem EndStep.entries_of (h : EndStep lim opens id e l e') :
    (e'.registered = true → e.registered = true ∨ e.cell = none) ∧
      (e'.awaiting = true → e.awaiting = true ∨ e.cell = none) := by
  cases h with
  | create payload hopens hcell hdone => exact ⟨fun _ => .inr hcell, fun _ => .inr hcell⟩
  | advance hcell hops hturn =>
      simp only [perform_registered, perform_awaiting, Bool.and_eq_true]
      exact ⟨fun h => .inl h.1, fun h => .inl h.1⟩
  | drop hhand hcell => exact ⟨fun h => absurd h (by simp), fun h => absurd h (by simp)⟩
  | retired hhand hcell hfinished =>
      exact ⟨fun h => absurd h (by simp), fun h => absurd h (by simp)⟩
  | collect hlive hdoomed hunanswered =>
      exact ⟨fun h => absurd h (by simp), fun h => absurd h (by simp)⟩
  | _ => exact ⟨.inl, .inl⟩

/-- A message adds no operation and sends nothing. -/
theorem Receive.frame {m : Msg} (h : Receive lim id e m e') :
    e'.ops = e.ops ∧ e'.out = e.out ∧ (e'.cell = none → e.cell = none) := by
  cases h with
  | opened payload hcell => exact ⟨rfl, rfl, fun _ => hcell⟩
  | _ => exact ⟨rfl, rfl, fun h => h⟩

end Sound

/-- An end that the other end has not answered: it has nothing to send but its OPEN_STREAM, and
the application does not hold the stream, or holds one that is dead. -/
structure End.Mute (e : End) : Prop where
  out : ∀ m ∈ e.out, m = .openStream
  ops : ∀ op ∈ e.ops, ¬ op.Sends
  hand : ∀ b, e.hand ≠ .serving (.delivering b)
  cell : ∀ c, e.cell = some c → c.stream.buf = [] ∧
    (c.stream.reset = true ∨ (e.acked ≠ some reasonOK ∧ ∀ op ∈ e.ops, op.Opening))

section Mute

variable {lim : Limits} {opens : Bool} {id : UInt32} {e e' : End} {l : Label}

theorem remote_close_buf {st : Stream} {r : Reason} (h : st.buf = []) :
    (st.remoteClose r).buf = [] := by
  unfold Stream.remoteClose
  split_ifs
  · exact h
  · exact h
  · rfl

theorem EndStep.mute (h : EndStep lim opens id e l e') (hs : e.Sound opens) (hm : e.Mute)
    (hquiet : e.queued = 0 ∧ e.hand ≠ .serving .acking ∧ e.hand ≠ .serving .queueing ∧
      e.hand ≠ .serving .dropping ∧ e.hand ≠ .refusing) : e'.Mute := by
  obtain ⟨hqueued, hacking, hqueueing, hdropping, hrefusing⟩ := hquiet
  have hcell' : ∀ {c c' : Cell}, e.cell = some c → c'.stream.buf = [] →
      (c.stream.reset = true → c'.stream.reset = true) →
      ∀ d : Cell, some c' = some d → d.stream.buf = [] ∧
        (d.stream.reset = true ∨ (e.acked ≠ some reasonOK ∧ ∀ op ∈ e.ops, op.Opening)) := by
    intro c c' hc hbuf hreset d hd
    cases hd
    exact ⟨hbuf, (hm.cell c hc).2.imp_left hreset⟩
  cases h with
  | idle hdone hended hlive => exact ⟨hm.out, hm.ops, hm.hand, hm.cell⟩
  | halt hhand => exact ⟨hm.out, hm.ops, by simp, hm.cell⟩
  | create payload hopens hcell hdone =>
      have hu := hs.unborn hcell
      refine ⟨hm.out, ?_, hm.hand, ?_⟩
      · simp [hu.ops, Op.Sends]
      · intro c hc
        cases hc
        exact ⟨rfl, .inr ⟨by simp [hu.acked], by simp [hu.ops, Op.Opening]⟩⟩
  | start hheld hcell hop =>
      obtain ⟨hbuf, hdead⟩ := hm.cell _ hcell
      obtain ⟨hstream, -, hsends⟩ := start_spec hop
      have hheld' : ¬ (e.acked ≠ some reasonOK ∧ ∀ op ∈ e.ops, op.Opening) := by
        intro hopening
        rcases hheld with hopened | haccepted
        · exact absurd (hopening.2 _ hopened) (by simp [Op.Opening])
        · exact absurd (hopening.2 _ haccepted) (by simp [Op.Opening])
      have hreset := hdead.resolve_right hheld'
      refine ⟨hm.out, ?_, hm.hand, ?_⟩
      · intro op hmem
        rcases Multiset.mem_cons.mp hmem with rfl | hmem
        · exact hsends
        · exact hm.ops op hmem
      · intro c hc
        cases hc
        rw [hstream]
        exact ⟨hbuf, .inl hreset⟩
  | advance hcell hops hturn =>
      obtain ⟨hbuf, hdead⟩ := hm.cell _ hcell
      obtain ⟨hmsgs, hsends, hbuf', hdead'⟩ := turn_mute id hturn
        (hm.ops _ (by simp [hops])) hbuf
        (hdead.imp_right fun h => ⟨h.1, h.2 _ (by simp [hops])⟩)
      refine ⟨?_, ?_, by simpa using hm.hand, ?_⟩
      · intro m hmem
        rw [perform_out] at hmem
        rcases List.mem_append.mp hmem with hmem | hmem
        · exact hm.out m hmem
        · exact hmsgs m hmem
      · intro op hmem
        rw [perform_ops] at hmem
        rcases Multiset.mem_cons.mp hmem with rfl | hmem
        · exact hsends
        · exact hm.ops op (by simp [hops, hmem])
      · intro c hc
        rw [perform_cell] at hc
        cases hc
        refine ⟨hbuf', ?_⟩
        rcases hdead with hreset | ⟨hack, hopening⟩
        · exact .inl ((turn_grows hturn).reset hreset)
        · rcases hdead' with hreset | hopen
          · exact .inl hreset
          · refine .inr ⟨by simpa using hack, ?_⟩
            intro op hmem
            rw [perform_ops] at hmem
            rcases Multiset.mem_cons.mp hmem with rfl | hmem
            · exact hopen
            · exact hopening op (by simp [hops, hmem])
  | accept hq =>
      rw [hqueued] at hq
      cases hq
  | ack hhand hcell hdone => exact absurd hhand hacking
  | queue hhand hcell => exact absurd hhand hqueueing
  | full hhand hcell => exact absurd hhand hqueueing
  | drop hhand hcell => exact absurd hhand hdropping
  | refuse hhand hdone => exact absurd hhand hrefusing
  | deliver hhand hcell hdeliver => exact absurd hhand (hm.hand _)
  | grant hhand hcell =>
      refine ⟨hm.out, hm.ops, by simp, hcell' hcell ?_ ?_⟩
      · have hbuf := (hm.cell _ hcell).1
        unfold Stream.grantCredit
        split_ifs <;> exact hbuf
      · exact (grant_credit_grows _ _).reset
  | found hhand hregistered => exact ⟨hm.out, hm.ops, by simp, hm.cell⟩
  | missing hhand hregistered => exact ⟨hm.out, hm.ops, by simp, hm.cell⟩
  | close hhand hcell =>
      exact ⟨hm.out, hm.ops, by simp,
        hcell' hcell (remote_close_buf (hm.cell _ hcell).1) (remote_close_grows _ _).reset⟩
  | retired hhand hcell hfinished => exact ⟨hm.out, hm.ops, by simp, hm.cell⟩
  | kept hhand hcell hfinished => exact ⟨hm.out, hm.ops, by simp, hm.cell⟩
  | collect hlive hdoomed hunanswered => exact ⟨hm.out, hm.ops, hm.hand, hm.cell⟩
  | kill hlive hdoomed hcell =>
      refine ⟨hm.out, hm.ops, hm.hand, hcell' hcell ?_ fun _ => kill_reset _ _⟩
      have hbuf := (hm.cell _ hcell).1
      unfold Stream.kill
      split_ifs <;> exact hbuf
  | notify hlive hdoomed hunanswered =>
      refine ⟨hm.out, hm.ops, hm.hand, ?_⟩
      intro c hc
      refine ⟨(hm.cell c hc).1, .inl ?_⟩
      rcases hs.answers hunanswered with hdoomed' | hreset
      · rw [hdoomed] at hdoomed'
        cases hdoomed'
      · exact hreset c hc

end Mute

end AccessRelay.Mux
