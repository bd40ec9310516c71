import AccessRelay.Mux.FlowControl
import AccessRelay.Mux.Moves

/-!
# One session against any peer

What a session keeps whatever frames it is sent: no stream buffers more than its window, and the
counters of the receive window never wrap. A peer that sends more than the window it was granted
ends the session, and `EndsWith` says what that means: no further frame is read, the reason is
the one given unless the session was already being ended for another, and a finite number of the
session's own steps completes the ending.

Nothing is assumed of the identifiers here: a hostile peer may open an identifier again, and the
session then has several objects for it.
-/

namespace AccessRelay.Mux

open Encoding Proto Machine

/-- Every object that the maps, the read loop and `closeOnce` refer to exists; what the read loop
holds is no larger than a frame, and a session whose end is complete is done. -/
structure Session.Grounded (s : Session) : Prop where
  streams : ∀ h ∈ s.streams, s.Has h
  doomed : ∀ h ∈ s.ending.toKill, s.Has h
  serving : ∀ h task, s.reader = .serving h task → s.Has h
  size : ∀ h b, s.reader = .serving h (.delivering b) → b.length ≤ maxFramePayload.toNat
  done : ∀ reason, s.ending = .ended reason → s.done = true

section Objects

variable {s s' : Session} {α : Type*} {P : α → Prop} {l : List α} {x : α}

theorem forall_mem_set (hall : ∀ y ∈ l, P y) {i : Nat} (hx : P x) : ∀ y ∈ l.set i x, P y := by
  intro y hy
  rcases List.mem_or_eq_of_mem_set hy with hy | rfl
  · exact hall y hy
  · exact hx

theorem forall_mem_concat (hall : ∀ y ∈ l, P y) (hx : P x) : ∀ y ∈ l ++ [x], P y :=
  List.forall_mem_append.mpr ⟨hall, List.forall_mem_singleton.mpr hx⟩

/-- A property of every object holds after one of them is replaced. -/
theorem forall_set_cell {P : Cell → Prop} {h : Handle} {c : Cell}
    (hall : ∀ id, ∀ d ∈ s.cells id, P d) (hc : P c) :
    ∀ id, ∀ d ∈ (s.setCell h c).cells id, P d := by
  intro id d hd
  by_cases hid : id = h.id
  · subst hid
    simp only [Session.setCell, Function.update_self] at hd
    exact forall_mem_set (hall _) hc d hd
  · simp only [Session.setCell, Function.update_of_ne hid] at hd
    exact hall id d hd

/-- A property of every object holds after a new one is added. -/
theorem forall_register {P : Cell → Prop} {st : Stream} (hall : ∀ id, ∀ d ∈ s.cells id, P d)
    (hst : P (newCell st)) : ∀ id, ∀ d ∈ (s.register st).cells id, P d := by
  intro id d hd
  by_cases hid : id = st.id
  · subst hid
    simp only [Session.register, Function.update_self] at hd
    exact forall_mem_concat (hall _) hst d hd
  · simp only [Session.register, Function.update_of_ne hid] at hd
    exact hall id d hd

theorem perform_cells (id : UInt32) (effect : Effect) : (s.perform id effect).cells = s.cells := by
  cases effect <;> rfl

theorem reply_cells (type : Typ) (id : UInt32) (payload : Bytes) (next : Reader) :
    (s.reply type id payload next).cells = s.cells := by
  unfold Session.reply
  split_ifs <;> rfl

theorem complete_open_cells (id : UInt32) (reason : Reason) :
    (s.completeOpen id reason).cells = s.cells := by
  unfold Session.completeOpen
  split <;> rfl

end Objects

section Metered

variable {s s' : Session}

/-- The counters of every stream object are what they stand for. -/
def Session.Metered (s : Session) : Prop := ∀ id, ∀ c ∈ s.cells id, c.stream.Metered s.limits

theorem metered_serve_step {h : Handle} {c : Cell} {task : Task} (hm : s.Metered)
    (hcell : s.cell h = some c)
    (hsize : ∀ b, task = .delivering b → b.length ≤ maxFramePayload.toNat) :
    ∀ id, ∀ d ∈ (s.serveStep h c task).cells id, d.stream.Metered s.limits := by
  have hc : c.stream.Metered s.limits := hm h.id c (List.mem_of_getElem? hcell)
  cases task with
  | acking =>
      rw [Session.serveStep, reply_cells]
      exact hm
  | queueing =>
      simp only [Session.serveStep]
      split_ifs <;> exact hm
  | dropping => exact hm
  | delivering b =>
      have hb : b.length < 2 ^ 32 := Nat.lt_of_le_of_lt (hsize b rfl) (by decide)
      simp only [Session.serveStep]
      cases hst : c.stream.deliver b with
      | none => exact hm
      | some st => exact forall_set_cell hm (metered_deliver hc hb hst)
  | granting credit => exact forall_set_cell hm (metered_grant_credit credit hc)
  | closing reason => exact forall_set_cell hm (metered_remote_close reason hc)
  | retiring =>
      simp only [Session.serveStep]
      split_ifs <;> exact hm

/-- The counters stay what they stand for, whatever the peer sends. -/
theorem metered_react {e : Event} (hg : s.Grounded) (hcredit : 0 < s.limits.creditThreshold)
    (hm : s.Metered) (hreact : s.react e = some s') : s'.Metered := by
  rw [Session.Metered, react_limits hreact]
  rcases react_cases hreact with ⟨a, rfl, hmoves⟩ | ⟨f, rfl, hsize, hreader, hreads⟩
  · cases hmoves with
    | started hholds hcell hop =>
        refine forall_set_cell hm ?_
        rw [(start_spec hop).1]
        exact hm _ _ (List.mem_of_getElem? hcell)
    | opened index choice payload hcall hdone =>
        exact forall_register hm (metered_new_stream hcredit _ [])
    | turned index choice hcall hcell hturn =>
        simp only [perform_cells]
        exact forall_set_cell hm (metered_turn hturn hcredit (hm _ _ (List.mem_of_getElem? hcell)))
    | served hreader hcell =>
        refine metered_serve_step hm hcell ?_
        rintro b rfl
        exact hg.size _ b hreader
    | refused hreader =>
        rw [reply_cells]
        exact hm
    | lookedUp hreader =>
        unfold Session.serve
        split <;> exact hm
    | ponged hreader =>
        rw [reply_cells]
        exact hm
    | killed choice hending hh hcell =>
        exact forall_set_cell hm (metered_kill _ (hm _ _ (List.mem_of_getElem? hcell)))
    | _ => exact hm
  · cases hreads with
    | registered htype hparity =>
        exact forall_register hm (metered_new_stream hcredit _ f.payload)
    | answered htype =>
        rw [complete_open_cells]
        exact hm
    | close htype hreason =>
        simp only [complete_open_cells]
        exact hm
    | _ => exact hm

end Metered

section Grounded

variable {s s' : Session}

theorem mem_of_lookup {id : UInt32} {h : Handle} (hlookup : s.lookup id = some h) :
    h ∈ s.streams := List.mem_of_find?_eq_some hlookup

theorem perform_control (id : UInt32) (effect : Effect) :
    (s.perform id effect).reader = s.reader ∧ (s.perform id effect).ending = s.ending ∧
      (s.perform id effect).done = s.done := by
  cases effect <;> exact ⟨rfl, rfl, rfl⟩

theorem complete_open_control (id : UInt32) (reason : Reason) :
    (s.completeOpen id reason).reader = s.reader ∧
      (s.completeOpen id reason).ending = s.ending ∧
      (s.completeOpen id reason).done = s.done := by
  unfold Session.completeOpen
  split <;> exact ⟨rfl, rfl, rfl⟩

theorem reply_control (type : Typ) (id : UInt32) (payload : Bytes) (next : Reader) :
    ((s.reply type id payload next).reader = next ∨
        (s.reply type id payload next).reader = .failing reasonProtocolMalformedFrame) ∧
      (s.reply type id payload next).ending = s.ending ∧
      (s.reply type id payload next).done = s.done := by
  unfold Session.reply
  split_ifs
  · exact ⟨.inl rfl, rfl, rfl⟩
  · exact ⟨.inr rfl, rfl, rfl⟩

theorem serve_control (id : UInt32) (task : Task) :
    (s.serve id task).ending = s.ending ∧ (s.serve id task).done = s.done ∧
      ∀ h task', (s.serve id task).reader = .serving h task' → h ∈ s.streams ∧ task' = task := by
  unfold Session.serve
  split
  · exact ⟨rfl, rfl, by simp⟩
  next i hlookup =>
    refine ⟨rfl, rfl, ?_⟩
    intro h task' heq
    cases heq
    exact ⟨mem_of_lookup hlookup, rfl⟩

/-- The read loop has finished with a stream, or goes on with the same one. -/
theorem serve_step_reader (h : Handle) (c : Cell) (task : Task) :
    ((s.serveStep h c task).ending = s.ending ∧ (s.serveStep h c task).done = s.done) ∧
      ∀ i task', (s.serveStep h c task).reader = .serving i task' →
        i = h ∧ ∀ b, task' ≠ .delivering b := by
  cases task with
  | acking =>
      obtain ⟨hreply, hcontrol⟩ :=
        reply_control (s := s) .streamOK h.id [] (.serving h .queueing)
      refine ⟨hcontrol, ?_⟩
      intro i task' hreader
      rcases hreply with hnext | hnext
      · rw [Session.serveStep, hnext] at hreader
        cases hreader
        exact ⟨rfl, by simp⟩
      · rw [Session.serveStep, hnext] at hreader
        cases hreader
  | queueing =>
      simp only [Session.serveStep]
      split_ifs <;> simp +contextual [eq_comm]
  | dropping => simp [Session.serveStep, Session.retire]
  | delivering b =>
      simp only [Session.serveStep]
      cases c.stream.deliver b <;> simp [Session.setCell]
  | granting credit => simp [Session.serveStep, Session.setCell]
  | closing reason => simp +contextual [Session.serveStep, Session.setCell, eq_comm]
  | retiring =>
      simp only [Session.serveStep]
      split_ifs <;> simp [Session.retire]

theorem grounded_react {e : Event} (hg : s.Grounded) (hreact : s.react e = some s') :
    s'.Grounded := by
  obtain ⟨hmono, hentries⟩ := has_books (react_books hreact)
  have hstreams : ∀ h ∈ s'.streams, s'.Has h := by
    intro h hh
    rcases hentries h hh with hh | hhas
    · exact hmono h (hg.streams h hh)
    · exact hhas
  have hdoomed : s'.ending = s.ending → ∀ h ∈ s'.ending.toKill, s'.Has h := by
    intro hending h hh
    rw [hending] at hh
    exact hmono h (hg.doomed h hh)
  have hended : s'.ending = s.ending → s'.done = s.done → ∀ reason, s'.ending = .ended reason →
      s'.done = true := by
    intro hending hdone reason heq
    rw [hdone]
    exact hg.done reason (hending.symm.trans heq)
  -- Who does not touch the read loop: what it serves is still there.
  have hsame : s'.reader = s.reader → (∀ h ∈ s'.ending.toKill, s'.Has h) →
      (∀ reason, s'.ending = .ended reason → s'.done = true) → s'.Grounded := by
    intro hreader hkill hdone
    refine ⟨hstreams, hkill, ?_, ?_, hdone⟩
    · intro h task heq
      exact hmono h (hg.serving h task (hreader.symm.trans heq))
    · intro h b heq
      exact hg.size h b (hreader.symm.trans heq)
  -- The read loop itself: what it serves next, if anything, is there and fits.
  have hnext : s'.ending = s.ending → s'.done = s.done →
      (∀ h task, s'.reader = .serving h task → s'.Has h ∧
        ∀ b, task = .delivering b → b.length ≤ maxFramePayload.toNat) → s'.Grounded := by
    intro hending hdone hserving
    refine ⟨hstreams, hdoomed hending, fun h task heq => (hserving h task heq).1, ?_,
      hended hending hdone⟩
    intro h b heq
    exact (hserving h _ heq).2 b rfl
  have hfree : s'.ending = s.ending → s'.done = s.done →
      (∀ h task, s'.reader ≠ .serving h task) → s'.Grounded :=
    fun hending hdone hidle => hnext hending hdone fun h task heq => absurd heq (hidle h task)
  have hreply : ∀ {type : Typ} {id : UInt32} {payload : Bytes},
      s' = s.reply type id payload .idle → s'.Grounded := by
    rintro type id payload rfl
    obtain ⟨hreader, hending, hdone⟩ := reply_control (s := s) type id payload .idle
    refine hfree hending hdone ?_
    intro h task heq
    rcases hreader with hreader | hreader <;> rw [hreader] at heq <;> cases heq
  have hshutdown : ∀ {reason : Reason} {next : Reader}, (∀ h task, next ≠ .serving h task) →
      s' = s.shutdown reason next → s'.Grounded := by
    rintro reason next hidle rfl
    refine ⟨hstreams, ?_, fun h task heq => absurd heq (hidle h task),
      fun h b heq => absurd heq (hidle h _), ?_⟩
    · simp only [Session.shutdown]
      split_ifs
      · simp [Ending.toKill]
      · exact hg.doomed
    · simp only [Session.shutdown]
      split_ifs
      · simp
      · exact hg.done
  rcases react_cases hreact with ⟨a, rfl, hmoves⟩ | ⟨f, rfl, hsize, hreader, hreads⟩
  · cases hmoves with
    | @turned index choice h op c turn hcall hcell hturn =>
        obtain ⟨hreader, hending, hdone⟩ :=
          perform_control (s := s.setCell h turn.cell) h.id turn.effect
        exact hsame hreader (hdoomed hending) (hended hending hdone)
    | @served h task c hreader hcell =>
        obtain ⟨⟨hending, hdone⟩, hserving⟩ := serve_step_reader (s := s) h c task
        refine hnext hending hdone ?_
        intro i task' heq
        obtain ⟨rfl, hdata⟩ := hserving i task' heq
        exact ⟨hmono _ (has_of_cell hcell), fun b hb => absurd hb (hdata b)⟩
    | refused hreader => exact hreply rfl
    | ponged hreader => exact hreply rfl
    | @lookedUp id reason hreader =>
        obtain ⟨hending, hdone, hserving⟩ := serve_control (s := s) id (.closing reason)
        refine hnext hending hdone ?_
        intro i task heq
        obtain ⟨hmem, rfl⟩ := hserving i task heq
        exact ⟨hmono _ (hg.streams _ hmem), by simp⟩
    | quit hreader => exact hshutdown (by simp) rfl
    | told hreader => exact hshutdown (by simp) rfl
    | woken hreader hdone => exact hfree rfl rfl (by simp)
    | broken err hreader => exact hfree rfl rfl (by simp)
    | closed reason hending => exact hsame rfl (by simp [Ending.toKill]) (by simp)
    | announced choice hending out hout => exact hsame rfl (by simp [Ending.toKill]) (by simp)
    | collected choice hending => exact hsame rfl hg.streams (by simp)
    | killed choice hending hh hcell =>
        refine hsame rfl ?_ (by simp)
        intro i hi
        refine hmono i (hg.doomed i ?_)
        rw [hending]
        exact List.mem_of_mem_eraseIdx hi
    | killedAll choice hending => exact hsame rfl (by simp [Ending.toKill]) (by simp)
    | notified choice hending => exact hsame rfl (by simp [Ending.toKill]) (by simp)
    | ended choice hending => exact hsame rfl (by simp [Ending.toKill]) (by simp)
    | _ => exact hsame rfl (hdoomed rfl) (hended rfl rfl)
  · cases hreads with
    | registered htype hparity =>
        refine hnext rfl rfl ?_
        intro h task heq
        cases heq
        refine ⟨?_, by simp⟩
        exact (registers_register (s := s)
          { newStream f.streamID s.limits.window with openPayload := f.payload }).has (.inr rfl)
    | answered htype =>
        obtain ⟨hreader, hending, hdone⟩ :=
          complete_open_control (s := s) f.streamID reasonOK
        exact hsame hreader (hdoomed hending) (hended hending hdone)
    | data htype hlookup =>
        refine hnext rfl rfl ?_
        intro h task heq
        cases heq
        refine ⟨hg.streams _ (mem_of_lookup hlookup), ?_⟩
        rintro b hb
        cases hb
        exact hsize
    | window htype hlookup =>
        refine hnext rfl rfl ?_
        intro h task heq
        cases heq
        exact ⟨hg.streams _ (mem_of_lookup hlookup), by simp⟩
    | @close htype reason hreason =>
        obtain ⟨-, hending, hdone⟩ := complete_open_control (s := s) f.streamID reason
        exact hfree hending hdone (by simp)
    | pong htype => exact hg
    | _ => exact hfree rfl rfl (by simp)

end Grounded

section Ending

variable {s s' : Session}

/-- The reason for which a session ends is the first that is given, by `Close` or by the read
loop. -/
theorem ending_moves {a : Action} (hmoves : s.Moves a s') :
    s'.ending.reason = s.ending.reason ∨
      (s.ending = .live ∧ ((∃ r, a = .close r ∧ s'.ending.reason = some r) ∨
        (a = .dispatch ∧ s'.ending.reason = s.reader.reason))) := by
  have hshutdown : ∀ {reason : Reason} {next : Reader}, s.reader.reason = some reason →
      (s.shutdown reason next).ending.reason = s.ending.reason ∨
        (s.ending = .live ∧ (s.shutdown reason next).ending.reason = s.reader.reason) := by
    intro reason next hreader
    simp only [Session.shutdown]
    split_ifs with hlive
    · exact .inr ⟨hlive, hreader.symm⟩
    · exact .inl rfl
  cases hmoves with
  | @turned index choice h op c turn hcall hcell hturn =>
      left
      rw [(perform_control (s := s.setCell h turn.cell) h.id turn.effect).2.1]
      rfl
  | @served h task c hreader hcell =>
      rw [(serve_step_reader (s := s) h c task).1.1]
      exact .inl rfl
  | refused hreader =>
      rw [(reply_control (s := s) _ _ _ _).2.1]
      exact .inl rfl
  | ponged hreader =>
      rw [(reply_control (s := s) _ _ _ _).2.1]
      exact .inl rfl
  | lookedUp hreader =>
      rw [(serve_control (s := s) _ _).1]
      exact .inl rfl
  | quit hreader =>
      exact (hshutdown (by rw [hreader]; rfl)).imp_right fun h => ⟨h.1, .inr ⟨rfl, h.2⟩⟩
  | told hreader =>
      exact (hshutdown (by rw [hreader]; rfl)).imp_right fun h => ⟨h.1, .inr ⟨rfl, h.2⟩⟩
  | closed reason hlive => exact .inr ⟨hlive, .inl ⟨reason, rfl, rfl⟩⟩
  | announced choice heq out hout => exact .inl (by rw [heq]; rfl)
  | collected choice heq => exact .inl (by rw [heq]; rfl)
  | killed choice heq hh hcell => exact .inl (by rw [heq]; rfl)
  | killedAll choice heq => exact .inl (by rw [heq]; rfl)
  | notified choice heq => exact .inl (by rw [heq]; rfl)
  | ended choice heq => exact .inl (by rw [heq]; rfl)
  | _ => exact .inl rfl

/-- The read loop has given up for this reason: it is about to end the session, or has done so. -/
def Session.Quitting (reason : Reason) (s : Session) : Prop :=
  s.reader = .failing reason ∨ (s.reader = .ended ∧ s.ending.reason ≠ none)

theorem Session.Quitting.deaf {reason : Reason} (hq : s.Quitting reason) (f : Frame) :
    s.react (.frame f) = none := by
  have hbusy : s.reader ≠ .idle := by
    rcases hq with hreader | ⟨hreader, -⟩ <;> simp [hreader]
  simp [Session.react, Session.read, hbusy]

/-- A read loop that has given up reads no more, and the session it ends stays ended. Unless
`Close` comes first, the session ends for the reason of the read loop. -/
theorem quitting_react {reason : Reason} {e : Event} (hq : s.Quitting reason)
    (hreact : s.react e = some s') :
    s'.Quitting reason ∧ (∀ r, s.ending.reason = some r → s'.ending.reason = some r) ∧
      ((∀ r, e ≠ .act (.close r)) → s.ending.reason = none →
        s'.ending.reason = none ∨ s'.ending.reason = some reason) := by
  rcases react_cases hreact with ⟨a, rfl, hmoves⟩ | ⟨f, rfl, -, -, -⟩
  · have hreason := ending_moves hmoves
    have hkept : ∀ r, s.ending.reason = some r → s'.ending.reason = some r := by
      intro r hr
      rcases hreason with hsame | ⟨hlive, -⟩
      · exact hsame.trans hr
      · rw [hlive] at hr
        cases hr
    refine ⟨?_, hkept, ?_⟩
    · rcases hq with hreader | ⟨hreader, hending⟩
      · cases hmoves with
        | @turned index choice h op c turn hcall hcell hturn =>
            exact .inl ((perform_control (s := s.setCell h turn.cell) _ _).1.trans hreader)
        | @quit r hr =>
            right
            refine ⟨rfl, ?_⟩
            simp only [Session.shutdown]
            split_ifs with hlive
            · simp [Ending.reason]
            · intro hnone
              apply hlive
              cases hs : s.ending <;> simp_all [Ending.reason]
        | served hr hcell => simp [hreader] at hr
        | refused hr => simp [hreader] at hr
        | lookedUp hr => simp [hreader] at hr
        | ponged hr => simp [hreader] at hr
        | told hr => simp [hreader] at hr
        | woken hr hdone => simp [hreader] at hr
        | broken err hr => simp [hreader] at hr
        | _ => exact .inl hreader
      · have hending' : s'.ending.reason ≠ none := by
          obtain ⟨r, hr⟩ := Option.ne_none_iff_exists'.mp hending
          rw [hkept r hr]
          simp
        cases hmoves with
        | @turned index choice h op c turn hcall hcell hturn =>
            exact .inr ⟨(perform_control (s := s.setCell h turn.cell) _ _).1.trans hreader,
              hending'⟩
        | served hr hcell => simp [hreader] at hr
        | refused hr => simp [hreader] at hr
        | lookedUp hr => simp [hreader] at hr
        | ponged hr => simp [hreader] at hr
        | quit hr => simp [hreader] at hr
        | told hr => simp [hreader] at hr
        | woken hr hdone => simp [hreader] at hr
        | broken err hr => simp [hreader] at hr
        | _ => exact .inr ⟨hreader, hending'⟩
    · intro hclose hnone
      rcases hreason with hsame | ⟨hlive, ⟨r, rfl, -⟩ | ⟨rfl, hr⟩⟩
      · exact .inl (hsame.trans hnone)
      · exact absurd rfl (hclose r)
      · rcases hq with hreader | ⟨hreader, hending⟩
        · rw [hreader] at hr
          exact .inr hr
        · exact absurd hnone hending
  · rw [hq.deaf f] at hreact
    cases hreact

/-- How much of its ending a session still has to do. -/
def Session.remaining (s : Session) : Nat :=
  match s.ending with
  | .live | .ended _ => 0
  | .announcing _ => s.streams.length + s.pending.length + 4
  | .collecting _ => s.streams.length + s.pending.length + 3
  | .killing _ streams pending => streams.length + pending.length + 2
  | .notifying _ pending => pending.length + 1

theorem remaining_lt {choice : Nat} (hmoves : s.Moves (.endStep choice) s') :
    s'.remaining < s.remaining := by
  cases hmoves with
  | announced choice heq out hout => simp [Session.remaining, heq]
  | collected choice heq => simp [Session.remaining, heq]
  | @killed choice reason streams pending h c heq hh hcell =>
      obtain ⟨hlt, -⟩ := List.getElem?_eq_some_iff.mp hh
      simp only [Session.remaining, heq, List.length_eraseIdx_of_lt hlt]
      omega
  | killedAll choice heq => simp [Session.remaining, heq]
  | notified choice heq => simp [Session.remaining, heq]
  | ended choice heq => simp [Session.remaining, heq]

/-- The body of `closeOnce` never blocks. -/
theorem end_step_enabled (hg : s.Grounded) {reason : Reason}
    (hreason : s.ending.reason = some reason) :
    s.ending = .ended reason ∨ ∃ s', s.step (.endStep 0) = some s' := by
  cases hending : s.ending with
  | live =>
      rw [hending] at hreason
      cases hreason
  | ended r =>
      rw [hending] at hreason
      cases hreason
      exact .inl rfl
  | announcing r => exact .inr (by simp [Session.step, Session.endStep, hending])
  | collecting r => exact .inr (by simp [Session.step, Session.endStep, hending])
  | killing r streams pending =>
      right
      cases streams with
      | nil => simp [Session.step, Session.endStep, hending]
      | cons h rest =>
          obtain ⟨c, hcell⟩ := cell_of_has (hg.doomed h (by simp [hending, Ending.toKill]))
          simp [Session.step, Session.endStep, hending, hcell]
  | notifying r pending =>
      right
      cases pending <;> simp [Session.step, Session.endStep, hending]

/-- A session that is ending completes its end by its own steps. -/
theorem ending_completes (hg : s.Grounded) {reason : Reason}
    (hreason : s.ending.reason = some reason) :
    ∃ n s', run Session.react s (List.replicate n (.act (.endStep 0))) = some s' ∧
      s'.done = true ∧ s'.ending = .ended reason := by
  induction hn : s.remaining using Nat.strong_induction_on generalizing s with
  | _ left ih =>
      rcases end_step_enabled hg hreason with hended | ⟨s₁, hstep⟩
      · exact ⟨0, s, rfl, hg.done reason hended, hended⟩
      · have hlt := remaining_lt (step_moves hstep)
        have hreact : s.react (.act (.endStep 0)) = some s₁ := hstep
        have hreason₁ : s₁.ending.reason = some reason := by
          rcases ending_moves (step_moves hstep) with hsame | ⟨hlive, -⟩
          · exact hsame.trans hreason
          · rw [hlive] at hreason
            cases hreason
        obtain ⟨n, s', hrun, hdone, hended⟩ :=
          ih _ (hn ▸ hlt) (grounded_react hg hreact) hreason₁ rfl
        refine ⟨n + 1, s', ?_, hdone, hended⟩
        rw [List.replicate_succ, run_cons, hreact]
        exact hrun

/-- From here on the session is ended, and for this reason unless it was being ended already. -/
structure Session.EndsWith (s : Session) (reason : Reason) : Prop where
  /-- No further frame is read. -/
  deaf : ∀ {events s'}, run Session.react s events = some s' → ∀ f, s'.react (.frame f) = none
  /-- The session ends for this reason, unless `Close` is called first. -/
  first : ∀ {events s'}, run Session.react s events = some s' → s.ending = .live →
    (∀ r, .act (.close r) ∉ events) →
    s'.ending.reason = none ∨ s'.ending.reason = some reason
  /-- Whatever happens meanwhile, the session's own steps complete the ending. -/
  completes : ∀ {events s'}, run Session.react s events = some s' →
    ∃ own s'', run Session.react s' own = some s'' ∧
      (∀ e ∈ own, e = .act .dispatch ∨ e = .act (.endStep 0)) ∧ s''.done = true ∧
      s''.ending = .ended (s'.ending.reason.getD reason)

theorem quitting_run {reason : Reason} {events : List Event} (hg : s.Grounded)
    (hq : s.Quitting reason) (hrun : run Session.react s events = some s') :
    s'.Grounded ∧ s'.Quitting reason :=
  ⟨run_invariant (fun h hreact => grounded_react h hreact) hg hrun,
    run_invariant (fun h hreact => (quitting_react h hreact).1) hq hrun⟩

/-- As long as `Close` is not called, the only reason is that of the read loop. -/
theorem quitting_reason {reason : Reason} {events : List Event} (hq : s.Quitting reason)
    (hclose : ∀ r, .act (.close r) ∉ events)
    (hreason : s.ending.reason = none ∨ s.ending.reason = some reason)
    (hrun : run Session.react s events = some s') :
    s'.ending.reason = none ∨ s'.ending.reason = some reason := by
  induction events generalizing s with
  | nil =>
      cases hrun
      exact hreason
  | cons e rest ih =>
      rw [run_cons, Option.bind_eq_some_iff] at hrun
      obtain ⟨s₁, hreact, hrest⟩ := hrun
      obtain ⟨hq₁, hkept, hfirst⟩ := quitting_react hq hreact
      have hother : ∀ r, e ≠ .act (.close r) := by
        rintro r rfl
        exact hclose r List.mem_cons_self
      refine ih hq₁ (fun r hr => hclose r (List.mem_cons_of_mem e hr)) ?_ hrest
      rcases hreason with hnone | hsome
      · exact hfirst hother hnone
      · exact .inr (hkept reason hsome)

/-- A session whose read loop has given up ends. -/
theorem Session.Quitting.ends {reason : Reason} (hg : s.Grounded) (hq : s.Quitting reason) :
    s.EndsWith reason := by
  refine ⟨?_, ?_, ?_⟩
  · intro events s' hrun f
    exact (quitting_run hg hq hrun).2.deaf f
  · intro events s' hrun hlive hclose
    exact quitting_reason hq hclose (.inl (by rw [hlive]; rfl)) hrun
  · intro events s' hrun
    obtain ⟨hg', hq'⟩ := quitting_run hg hq hrun
    rcases hq' with hreader | ⟨hreader, hending⟩
    · -- The read loop calls `shutdown`, and then the body of `closeOnce` runs to its end.
      have hreact : s'.react (.act .dispatch) = some (s'.shutdown reason .ended) := by
        simp [Session.react, Session.step, Session.dispatch, hreader]
      have hreason : (s'.shutdown reason .ended).ending.reason =
          some (s'.ending.reason.getD reason) := by
        cases hs : s'.ending <;> simp [Session.shutdown, hs, Ending.reason]
      obtain ⟨n, s'', hrest, hdone, hended⟩ :=
        ending_completes (grounded_react hg' hreact) hreason
      refine ⟨.act .dispatch :: List.replicate n (.act (.endStep 0)), s'', ?_, ?_, hdone, hended⟩
      · rw [run_cons, hreact]
        exact hrest
      · intro e he
        rcases List.mem_cons.mp he with rfl | he
        · exact .inl rfl
        · exact .inr (List.eq_of_mem_replicate he)
    · obtain ⟨r, hr⟩ := Option.ne_none_iff_exists'.mp hending
      obtain ⟨n, s'', hrest, hdone, hended⟩ := ending_completes hg' hr
      refine ⟨List.replicate n (.act (.endStep 0)), s'', hrest, ?_, hdone, ?_⟩
      · exact fun e he => .inr (List.eq_of_mem_replicate he)
      · rw [hr]
        exact hended

end Ending

section Bounded

variable {isClient : Bool} {ack : HelloAck} {events : List Event} {s : Session}

theorem credit_threshold_pos (isClient : Bool) (ack : HelloAck) :
    0 < (newSession isClient ack).limits.creditThreshold := by
  simp only [newSession]
  split_ifs with hzero
  · decide
  · rw [UInt32.lt_iff_toNat_lt, UInt32.toNat_zero]
    exact Nat.pos_of_ne_zero fun h => hzero (UInt32.toNat_inj.mp h)

/-- What every run of a session keeps, whatever its peer sends. -/
theorem session_run (hrun : run Session.react (newSession isClient ack) events = some s) :
    s.Grounded ∧ s.Metered ∧ s.limits = (newSession isClient ack).limits := by
  have hkept : ∀ {t t' : Session} {e : Event},
      (t.Grounded ∧ t.Metered ∧ t.limits = (newSession isClient ack).limits) →
      t.react e = some t' →
      t'.Grounded ∧ t'.Metered ∧ t'.limits = (newSession isClient ack).limits := by
    rintro t t' e ⟨hg, hm, hlimits⟩ hreact
    have hcredit := credit_threshold_pos isClient ack
    rw [← hlimits] at hcredit
    exact ⟨grounded_react hg hreact, metered_react hg hcredit hm hreact,
      (react_limits hreact).trans hlimits⟩
  refine @run_invariant _ _ _ (fun t => t.Grounded ∧ t.Metered ∧ t.limits = _) hkept _ _ _ ?_ hrun
  refine ⟨⟨?_, ?_, ?_, ?_, ?_⟩, ?_, rfl⟩ <;> simp [newSession, Ending.toKill, Session.Metered]

end Bounded

/-- Receive buffering against any peer, in every state of every run: no stream holds more than the
window, the receive window and the buffer make up the window of every stream that has not been
reset, and neither `Read` nor `deliver` wraps it. A STREAM_DATA frame for a registered stream is
taken up for delivery if it is within the frame limit, and ends the session if it is not; one that
exceeds the receive window of a stream that is neither reset nor closed by the peer ends the
session for the flow-control violation. No byte of a frame that ends the session is buffered. -/
theorem receive_bounded {isClient : Bool} {ack : HelloAck} {events : List Event} {s : Session}
    (hrun : run Session.react (newSession isClient ack) events = some s) :
    (∀ id, ∀ c ∈ s.cells id,
      c.stream.buf.length ≤ ack.initialWindow.toNat ∧
      (c.stream.reset = false →
        c.stream.recvWindow.toNat + c.stream.buf.length = ack.initialWindow.toNat) ∧
      (∀ length data credit after,
        c.stream.read s.limits.creditThreshold length = .bytes data credit after →
        after.recvWindow.toNat = c.stream.recvWindow.toNat + data.length) ∧
      ∀ b after, b.length ≤ maxFramePayload.toNat → c.stream.deliver b = some after →
        after.recvWindow.toNat + (after.buf.length - c.stream.buf.length) =
          c.stream.recvWindow.toNat) ∧
    (∀ f h, s.reader = .idle → f.type = .streamData →
      f.payload.length ≤ maxFramePayload.toNat → s.lookup f.streamID = some h →
      ∃ reader, s.react (.frame f) = some { s with reader := reader } ∧
        (f.payload.length ≤ ack.maxFramePayload.toNat →
          reader = .serving h (.delivering f.payload)) ∧
        (ack.maxFramePayload.toNat < f.payload.length →
          { s with reader := reader }.EndsWith reasonLimitFrameTooLarge)) ∧
    ∀ h payload c, s.reader = .serving h (.delivering payload) → s.cell h = some c →
      c.stream.reset = false → c.stream.remoteClosed = false →
      c.stream.recvWindow.toNat < payload.length →
      s.react (.act .dispatch) = some { s with reader := .failing reasonFlowControlViolation } ∧
        { s with reader := .failing reasonFlowControlViolation }.EndsWith
          reasonFlowControlViolation := by
  obtain ⟨hg, hm, hlimits⟩ := session_run hrun
  have hwindow : s.limits.window = ack.initialWindow := by rw [hlimits]; rfl
  have hframe : s.limits.maxFrame = ack.maxFramePayload := by rw [hlimits]; rfl
  refine ⟨?_, ?_, ?_⟩
  · intro id c hc
    obtain ⟨hroom, hexact, -⟩ := hm id c hc
    rw [hwindow] at hroom hexact
    refine ⟨by omega, hexact, ?_, ?_⟩
    · intro length data credit after hread
      have hfits := ack.initialWindow.toNat_lt
      exact read_recv_window hread (by omega)
    · intro b after hb hdeliver
      have hsize : b.length < 2 ^ 32 := Nat.lt_of_le_of_lt hb (by decide)
      exact deliver_recv_window hdeliver hsize
  · intro f h hidle htype hsize hlookup
    have hlength : (UInt32.ofNat f.payload.length).toNat = f.payload.length := by
      rw [UInt32.toNat_ofNat']
      exact Nat.mod_eq_of_lt (Nat.lt_of_le_of_lt hsize (by decide))
    by_cases hlarge : s.limits.maxFrame < UInt32.ofNat f.payload.length
    · have hreact : s.react (.frame f) =
          some { s with reader := .failing reasonLimitFrameTooLarge } := by
        simp [Session.react, Session.read, Session.receive, hsize, hidle, hlarge]
      refine ⟨_, hreact, ?_, ?_⟩
      · intro hle
        rw [UInt32.lt_iff_toNat_lt, hlength, hframe] at hlarge
        omega
      · intro _
        exact Session.Quitting.ends (grounded_react hg hreact) (.inl rfl)
    · have hreact : s.react (.frame f) =
          some { s with reader := .serving h (.delivering f.payload) } := by
        simp [Session.react, Session.read, Session.receive, Session.serve, hsize, hidle, hlarge,
          htype, hlookup]
      refine ⟨_, hreact, fun _ => rfl, ?_⟩
      intro hlt
      rw [UInt32.lt_iff_toNat_lt, hlength, hframe] at hlarge
      omega
  · intro h payload c hreader hcell hreset hclosed hlt
    have hlength : (UInt32.ofNat payload.length).toNat = payload.length := by
      rw [UInt32.toNat_ofNat']
      exact Nat.mod_eq_of_lt (Nat.lt_of_le_of_lt (hg.size h payload hreader) (by decide))
    have hdeliver : c.stream.deliver payload = none := by
      have hviolation : c.stream.recvWindow < UInt32.ofNat payload.length := by
        rw [UInt32.lt_iff_toNat_lt, hlength]
        exact hlt
      simp [Stream.deliver, hreset, hclosed, hviolation]
    have hreact : s.react (.act .dispatch) =
        some { s with reader := .failing reasonFlowControlViolation } := by
      simp [Session.react, Session.step, Session.dispatch, Session.serveStep, hreader, hcell,
        hdeliver]
    exact ⟨hreact, Session.Quitting.ends (grounded_react hg hreact) (.inl rfl)⟩

/-- A server with a window of four bytes and frames of up to eight, and a client that opens a
stream. -/
def smallAck : HelloAck := ⟨version, 8, 4, 16⟩

/-- The client's stream is registered, acknowledged and queued. -/
def openEvents : List Event :=
  [.frame ⟨.openStream, 1, []⟩, .act .dispatch, .act .dispatch]

/-- After two frames of three bytes, of which the second exceeds the window, the buffer holds the
first and the session ends. -/
theorem second_frame_exceeds : ∃ s c,
    run Session.react (newSession false smallAck) (openEvents ++ [.frame ⟨.streamData, 1, [1, 2, 3]⟩,
      .act .dispatch, .frame ⟨.streamData, 1, [4, 5, 6]⟩]) = some s ∧
    s.cell ⟨1, 0⟩ = some c ∧ c.stream.buf = [1, 2, 3] ∧
    s.react (.act .dispatch) = some { s with reader := .failing reasonFlowControlViolation } ∧
    { s with reader := .failing reasonFlowControlViolation }.EndsWith
      reasonFlowControlViolation := by
  have hview : (run Session.react (newSession false smallAck)
      (openEvents ++ [.frame ⟨.streamData, 1, [1, 2, 3]⟩, .act .dispatch,
        .frame ⟨.streamData, 1, [4, 5, 6]⟩])).map (fun s => (s.reader, s.cell ⟨1, 0⟩)) =
      some (.serving ⟨1, 0⟩ (.delivering [4, 5, 6]),
        some (newCell { newStream 1 4 with buf := [1, 2, 3], recvWindow := 1 })) := by
    decide +kernel
  obtain ⟨s, hrun, hs⟩ := Option.map_eq_some_iff.mp hview
  obtain ⟨hreader, hcell⟩ := Prod.mk.inj hs
  obtain ⟨hreact, hends⟩ :=
    (receive_bounded hrun).2.2 _ _ _ hreader hcell rfl rfl (by decide)
  exact ⟨s, _, hrun, hcell, rfl, hreact, hends⟩

/-- A frame that exceeds the frame limit as well as the window ends the session too, but not for
the flow-control violation: the read loop checks the size of a frame before it looks at the
stream. -/
theorem large_frame_ends_otherwise : ∃ s s' c,
    run Session.react (newSession false smallAck) openEvents = some s ∧
    s.lookup 1 = some ⟨1, 0⟩ ∧ s.cell ⟨1, 0⟩ = some c ∧ c.stream.reset = false ∧
    c.stream.remoteClosed = false ∧ c.stream.recvWindow.toNat < (List.replicate 9 0 : Bytes).length ∧
    run Session.react s (.frame ⟨.streamData, 1, List.replicate 9 0⟩ :: .act .dispatch ::
      List.replicate 4 (.act (.endStep 0))) = some s' ∧
    s'.done = true ∧ s'.ending = .ended reasonLimitFrameTooLarge ∧
    reasonLimitFrameTooLarge ≠ reasonFlowControlViolation := by
  have hview : ((run Session.react (newSession false smallAck) openEvents).bind fun s =>
      (run Session.react s (.frame ⟨.streamData, 1, List.replicate 9 0⟩ :: .act .dispatch ::
        List.replicate 4 (.act (.endStep 0)))).map fun s' =>
          ((s.lookup 1, s.cell ⟨1, 0⟩), s'.done, s'.ending)) =
      some ((some ⟨1, 0⟩, some (newCell (newStream 1 4))), true,
        .ended reasonLimitFrameTooLarge) := by
    decide +kernel
  obtain ⟨s, hrun, hrest⟩ := Option.bind_eq_some_iff.mp hview
  obtain ⟨s', hrun', hs'⟩ := Option.map_eq_some_iff.mp hrest
  simp only [Prod.mk.injEq] at hs'
  obtain ⟨⟨hlookup, hcell⟩, hdone, hended⟩ := hs'
  exact ⟨s, s', _, hrun, hlookup, hcell, rfl, rfl, by decide, hrun', hdone, hended, by decide⟩

end AccessRelay.Mux
