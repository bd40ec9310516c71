import AccessRelay.Mux.OpenAck
import AccessRelay.Mux.Shutdown

/-!
# Why an `Open` failed

The error of an `Open` says which of its exits it took, and not why. `ErrTooManyStreams` is the
session's own limit, `ErrStreamRefused` any reason that came over the channel: a refusal of the
peer, or the reason for which the session ended. `refusals_run` is about runs in which an `Open`
takes nothing off its channel but ok and limit_streams_exceeded, and in which the session does not
end for one of these while an `Open` is pending. There `ErrStreamRefused` means that the peer has
answered with limit_streams_exceeded, and an `Open` that the end of the session finds pending is
neither refused nor successful. By the steps of `closeOnce` and its own it fails
(`taken_open_fails`).
-/

namespace AccessRelay.Mux

open Encoding Proto Machine

/-- Answers come in turn; an `Open` takes no reason off its channel but ok and
limit_streams_exceeded; and the session does not end with the latter while an `Open` is pending. -/
def refusesForLimit (s : Session) (e : Event) : Bool :=
  answersInTurn s e &&
    match e with
    | .act (.advance index .value) =>
        match s.calls[index]? with
        | some (.stream h .awaitAck) =>
            (s.ackFor h).all fun reason =>
              reason = reasonOK ∨ reason = reasonLimitStreamsExceeded
        | _ => true
    | .act (.endStep _) =>
        match s.ending with
        | .collecting reason => reason ≠ reasonLimitStreamsExceeded ∨ s.pending = []
        | _ => true
    | _ => true

/-- The error of an `Open`, given what its channel holds. -/
def OpenError.Agrees (ack : Option Reason) : OpenError → Prop
  | .refused reason => ack = some reason ∧ reason = reasonLimitStreamsExceeded
  | .tooManyStreams _ => False
  | .sessionClosed | .send | .cancelled => True

/-- What an `Open` has come to, given what its channel holds. -/
def Op.Agrees (ack : Option Reason) : Op → Prop
  | .opened => ack = some reasonOK
  | .retireOpen error | .openFailed error => error.Agrees ack
  | _ => True

/-- `Open` is called at this index while the stream table is full. -/
def Session.AtLimit (index : Nat) (s : Session) (e : Event) : Prop :=
  ∃ choice payload, e = .act (.advance index choice) ∧
    s.calls[index]? = some (.openStream payload) ∧
    s.limits.maxStreams ≤ UInt32.ofNat s.streams.length

/-- A frame that answers this identifier with this reason is dispatched, after its OPEN_STREAM was
sent. -/
def Session.AnsweredWith (id : UInt32) (reason : Reason) (s : Session) (e : Event) : Prop :=
  s.sent id = true ∧ s.answers id reason e

/-- `closeOnce` takes the pending map with this `Open` in it. -/
def Session.EndsPending (h : Handle) (s : Session) (e : Event) : Prop :=
  ∃ choice reason, e = .act (.endStep choice) ∧ s.ending = .collecting reason ∧ h ∈ s.pending

/-- An `Open` in the pending map has no answer, neither in its channel nor on the way from
`closeOnce`; and answers are for streams that exist. -/
structure Session.Unheard (s : Session) : Prop where
  known : ∀ h, s.ackFor h ≠ none ∨ h ∈ s.ending.toAnswer → s.Has h
  free : ∀ h ∈ s.pending, s.ackFor h = none ∧ h ∉ s.ending.toAnswer

/-- Steps of `closeOnce`, and then steps of one call in which a `select` takes the end of the
session. -/
def closingSteps (n m index : Nat) : List Event :=
  List.replicate n (.act (.endStep 0)) ++ List.replicate m (.act (.advance index .sessionDone))

/-- The operation is a part of `Open`. -/
def Op.opens : Op → Bool
  | .sendOpen _ | .awaitAck | .retireOpen _ | .opened | .openFailed _ => true
  | _ => false

/-- The call is one of `Open`. -/
def Call.opens : Call → Bool
  | .openStream _ | .openFailed _ => true
  | .stream _ op => op.opens
  | .acceptStream | .acceptFailed => false

/-- What the state of a session says about the causes: its own limit, a refusal of the peer, and the
end of the session. -/
structure Recalls (start : Session) (events : List Event) (s : Session) : Prop where
  limited : ∀ index error, s.calls[index]? = some (.openFailed error) →
    error = .sessionClosed ∨ happened Session.react start (Session.AtLimit index) events
  refused : ∀ h, s.ackFor h = some reasonLimitStreamsExceeded →
    happened Session.react start (Session.AnsweredWith h.id reasonLimitStreamsExceeded) events
  ended : ∀ h, happened Session.react start (Session.EndsPending h) events →
    s.Has h ∧ h ∉ s.pending ∧ s.ackFor h ≠ some reasonOK ∧
      s.ackFor h ≠ some reasonLimitStreamsExceeded ∧ s.ending.taken = true

section Guard

variable {s s' : Session} {e : Event} {h : Handle}

theorem in_turn (hguard : refusesForLimit s e = true) : answersInTurn s e = true :=
  (Bool.and_eq_true_iff.mp hguard).1

theorem collecting_not_limit {choice : Nat} {reason : Reason}
    (hguard : refusesForLimit s (.act (.endStep choice)) = true)
    (hending : s.ending = .collecting reason) (hmem : h ∈ s.pending) :
    reason ≠ reasonLimitStreamsExceeded := by
  have hlimit := (Bool.and_eq_true_iff.mp hguard).2
  simp only [hending, decide_eq_true_eq] at hlimit
  rcases hlimit with hne | hnone
  · exact hne
  · rw [hnone] at hmem
    exact absurd hmem List.not_mem_nil

theorem received_limit {index : Nat} {reason : Reason}
    (hguard : refusesForLimit s (.act (.advance index .value)) = true)
    (hcall : s.calls[index]? = some (.stream h .awaitAck)) (hack : s.ackFor h = some reason)
    (hne : reason ≠ reasonOK) : reason = reasonLimitStreamsExceeded := by
  have hreason := (Bool.and_eq_true_iff.mp hguard).2
  simp only [hcall, hack, Option.all_some, decide_eq_true_eq] at hreason
  exact hreason.resolve_left hne

/-- An answer in the channel stays, so what fits it goes on to. -/
theorem Op.Agrees.kept {op : Op} (hreact : s.react e = some s') (hfits : op.Agrees (s.ackFor h)) :
    op.Agrees (s'.ackFor h) := by
  have herror : ∀ {error : OpenError}, error.Agrees (s.ackFor h) → error.Agrees (s'.ackFor h) := by
    intro error hfits
    cases error with
    | refused reason => exact ⟨ack_kept hreact hfits.1, hfits.2⟩
    | tooManyStreams n => exact hfits
    | _ => trivial
  cases op with
  | opened => exact ack_kept hreact hfits
  | retireOpen error => exact herror hfits
  | openFailed error => exact herror hfits
  | _ => trivial

theorem fits_react (hs : ∀ h op, .stream h op ∈ s.calls → op.Agrees (s.ackFor h))
    (hguard : refusesForLimit s e = true) (hreact : s.react e = some s') :
    ∀ h op, .stream h op ∈ s'.calls → op.Agrees (s'.ackFor h) := by
  intro h op hmem
  obtain ⟨index, hcall⟩ := List.mem_iff_getElem?.mp hmem
  refine Op.Agrees.kept hreact ?_
  cases call_origin hreact hcall with
  | kept hcall₀ => exact hs h op (List.mem_of_getElem? hcall₀)
  | started hholds hop =>
      unfold Op.start at hop
      split at hop <;> trivial
  | opened => trivial
  | accepted => trivial
  | @turned op₀ c turn choice hevent hcall₀ hop =>
      have hold := hs h op₀ (List.mem_of_getElem? hcall₀)
      subst hevent
      cases op_step_cases hop with
      | acked hack => exact hack
      | refused reason hack hne =>
          -- Only the receive of the channel ends so.
          cases choice with
          | value => exact ⟨hack, received_limit hguard hcall₀ hack hne⟩
          | cancelled => simp [Op.step] at hop
          | sessionDone => simp [Op.step] at hop
      | openRetired error => exact hold
      | readBytes length hread => split_ifs <;> trivial
      | _ => trivial

end Guard

section Unheard

variable {s s' : Session} {e : Event} {h : Handle}

theorem collecting_pending {choice : Nat} {reason : Reason}
    (hreact : s.react (.act (.endStep choice)) = some s')
    (hending : s.ending = .collecting reason) : s'.pending = [] := by
  simp only [Session.react, Session.step, Session.endStep, hending, Option.some.injEq] at hreact
  subst hreact
  rfl

theorem unheard_react (hu : s.Unheard) (hb : s.OwnBooks) (hreact : s.react e = some s') :
    s'.Unheard := by
  obtain ⟨hhas, -⟩ := has_books (react_books hreact)
  -- Whoever is answered in this event exists, and is not pending any more.
  have hanswered : ∀ {h : Handle} {reason : Reason}, s.AnswerFor h reason e →
      s.Has h ∧ (h ∈ s.pending → h ∉ s'.pending) := by
    intro h reason hanswer
    rcases hanswer with ⟨hpending, hanswers⟩ | ⟨choice, rest, rfl, hending⟩
    · refine ⟨(hb.pending h hpending).2, fun _ hmem => ?_⟩
      cases e with
      | act a => exact hanswers.elim
      | frame f =>
          simp only [Session.react, Option.ite_none_right_eq_some] at hreact
          rw [(read_answered hreact.2 hanswers).1] at hmem
          exact complete_open_clears hmem rfl
    · have hmem : h ∈ s.ending.toAnswer := by
        rw [hending]
        exact List.mem_cons_self
      exact ⟨hu.known h (.inr hmem), fun hpending _ => (hu.free h hpending).2 hmem⟩
  have hnew : ∀ {h : Handle}, s.ackFor h = none → (∀ reason, ¬ s.AnswerFor h reason e) →
      s'.ackFor h = none := by
    intro h hnone hnobody
    cases hack : s'.ackFor h with
    | none => rfl
    | some reason => exact absurd (ack_new hreact hnone hack) (hnobody reason)
  refine ⟨?_, ?_⟩
  · intro h hknown
    by_cases hold : s.Has h
    · exact hhas h hold
    · exfalso
      have hnone : s.ackFor h = none := by
        by_contra hack
        exact hold (hu.known h (.inl hack))
      rcases hknown with hack | hmem
      · exact hack (hnew hnone fun reason hanswer => hold (hanswered hanswer).1)
      · rcases to_answer_from hreact hmem with hmem | ⟨choice, reason, -, -, hpending⟩
        · exact hold (hu.known h (.inr hmem))
        · exact hold (hb.pending h hpending).2
  · intro h hmem
    rcases pending_react hreact hmem with hold | ⟨rfl, -, -⟩
    · obtain ⟨hnone, hnot⟩ := hu.free h hold
      refine ⟨hnew hnone fun reason hanswer => (hanswered hanswer).2 hold hmem, ?_⟩
      intro hto
      rcases to_answer_from hreact hto with hbefore | ⟨choice, reason, rfl, hending, -⟩
      · exact hnot hbefore
      · rw [collecting_pending hreact hending] at hmem
        exact absurd hmem List.not_mem_nil
    · have hfresh := not_has_next_handle (s := s) s.nextID
      have hnone : s.ackFor (s.nextHandle s.nextID) = none := by
        by_contra hack
        exact hfresh (hu.known _ (.inl hack))
      refine ⟨hnew hnone fun reason hanswer => hfresh (hanswered hanswer).1, ?_⟩
      intro hto
      rcases to_answer_from hreact hto with hbefore | ⟨choice, reason, -, -, hpending⟩
      · exact hfresh (hu.known _ (.inr hbefore))
      · exact hfresh (hb.pending _ hpending).2

end Unheard

section Causes

variable {s s' : Session} {e : Event} {h : Handle}

/-- The next step of a call, as the call it leaves behind. -/
theorem advance_call {index : Nat} {choice : Choice}
    (hreact : s.react (.act (.advance index choice)) = some s') :
    ∃ call s₁ call', s.calls[index]? = some call ∧ s.callStep choice call = some (s₁, call') ∧
      s'.calls = s.calls.set index call' := by
  simp only [Session.react, Session.step, Option.bind_eq_some_iff, Option.map_eq_some_iff]
    at hreact
  obtain ⟨call, hcall, ⟨s₁, call'⟩, hnext, rfl⟩ := hreact
  exact ⟨call, s₁, call', hcall, hnext, rfl⟩

/-- `Open` fails at once if the session is closed or its table is full. -/
theorem call_step_fails {choice : Choice} {call : Call} {s₁ : Session} {error : OpenError}
    (hnext : s.callStep choice call = some (s₁, .openFailed error)) :
    ∃ payload, call = .openStream payload ∧
      (error = .sessionClosed ∨ s.limits.maxStreams ≤ UInt32.ofNat s.streams.length) := by
  cases call with
  | openStream payload =>
      simp only [Session.callStep, Session.openStream, Option.some.injEq] at hnext
      split_ifs at hnext with hdone hlimit
      · cases hnext
        exact ⟨payload, rfl, .inl rfl⟩
      · exact ⟨payload, rfl, .inr hlimit⟩
      · cases hnext
  | acceptStream =>
      cases choice with
      | value =>
          simp only [Session.callStep] at hnext
          split at hnext <;> cases hnext
      | cancelled => cases hnext
      | sessionDone =>
          simp only [Session.callStep] at hnext
          split_ifs at hnext
          cases hnext
  | stream i op =>
      simp only [Session.callStep, Option.bind_eq_some_iff, Option.map_eq_some_iff] at hnext
      obtain ⟨c, -, turn, -, heq⟩ := hnext
      cases heq
  | openFailed error => cases hnext
  | acceptFailed => cases hnext

/-- What an event does to the calls: nothing, a new one, or the next step of one. -/
theorem react_calls (hreact : s.react e = some s') :
    s'.calls = s.calls ∨
    (∃ call, e = .act (.start call) ∧ s'.calls = s.calls ++ [call]) ∨
    ∃ index choice call s₁ call', e = .act (.advance index choice) ∧
      s.calls[index]? = some call ∧ s.callStep choice call = some (s₁, call') ∧
      s'.calls = s.calls.set index call' := by
  rcases react_cases hreact with ⟨a, rfl, hmoves⟩ | ⟨f, rfl, -, -, hreads⟩
  · cases a with
    | advance i choice =>
        obtain ⟨call, s₁, call', hcall, hnext, hcalls⟩ := advance_call hreact
        exact .inr (.inr ⟨i, choice, call, s₁, call', rfl, hcall, hnext, hcalls⟩)
    | start call => cases hmoves <;> exact .inr (.inl ⟨_, rfl, rfl⟩)
    | dispatch =>
        cases hmoves with
        | served => exact .inl (serve_step_calls ..).1
        | refused => exact .inl (reply_calls ..).1
        | ponged => exact .inl (reply_calls ..).1
        | lookedUp => exact .inl (serve_calls ..).1
        | _ => exact .inl rfl
    | _ => cases hmoves <;> exact .inl rfl
  · exact .inl (reads_calls hreads).2

/-- An `Open` that has failed without a stream failed before, or does in this event. -/
theorem open_failed_origin {index : Nat} {error : OpenError} (hreact : s.react e = some s')
    (hcall : s'.calls[index]? = some (.openFailed error)) :
    s.calls[index]? = some (.openFailed error) ∨ error = .sessionClosed ∨ s.AtLimit index e := by
  rcases react_calls hreact with hcalls | ⟨call, rfl, hcalls⟩ |
    ⟨i, choice, call, s₁, call', rfl, hold, hnext, hcalls⟩ <;> rw [hcalls] at hcall
  · exact .inl hcall
  · rcases get_append_cases hcall with hold | rfl
    · exact .inl hold
    · cases hreact
  · rcases get_set_cases hcall with ⟨rfl, rfl⟩ | ⟨-, hkept⟩
    · obtain ⟨payload, rfl, hcause⟩ := call_step_fails hnext
      exact .inr (hcause.imp_right fun hlimit => ⟨choice, payload, rfl, hold, hlimit⟩)
    · exact .inl hkept

/-- `closeOnce` runs once. -/
theorem taken_kept (hreact : s.react e = some s') (htaken : s.ending.taken = true) :
    s'.ending.taken = true := by
  rcases ending_react hreact with hsame | ⟨hlive, -⟩ | ⟨choice, rfl⟩
  · rw [hsame]
    exact htaken
  · rw [hlive] at htaken
    cases htaken
  · have hstep : s.step (.endStep choice) = some s' := hreact
    cases step_moves hstep with
    | announced choice hending =>
        rw [hending] at htaken
        cases htaken
    | _ => rfl

/-- A call of `Open` stays one. -/
theorem opens_react {index : Nat} {call : Call} (hreact : s.react e = some s')
    (hcall : s.calls[index]? = some call) (hopens : call.opens = true) :
    ∃ call', s'.calls[index]? = some call' ∧ call'.opens = true := by
  have hlt : index < s.calls.length := (List.getElem?_eq_some_iff.mp hcall).1
  rcases react_calls hreact with hcalls | ⟨added, -, hcalls⟩ |
    ⟨i, choice, moved, s₁, call', -, hold, hnext, hcalls⟩ <;> rw [hcalls]
  · exact ⟨call, hcall, hopens⟩
  · exact ⟨call, (List.getElem?_append_left hlt).trans hcall, hopens⟩
  · by_cases heq : i = index
    · subst heq
      cases hcall.symm.trans hold
      refine ⟨call', List.getElem?_set_self hlt, ?_⟩
      cases call with
      | openStream payload =>
          simp only [Session.callStep, Session.openStream, Option.some.injEq] at hnext
          split_ifs at hnext <;> cases hnext <;> rfl
      | stream h op =>
          simp only [Session.callStep, Option.bind_eq_some_iff, Option.map_eq_some_iff] at hnext
          obtain ⟨c, -, turn, hop, hturn⟩ := hnext
          cases hturn
          cases op_step_cases hop <;> first | rfl | cases hopens
      | openFailed => cases hnext
      | acceptStream | acceptFailed => cases hopens
    · exact ⟨call, (List.getElem?_set_ne heq).trans hcall, hopens⟩

/-- A call that is over stays as it is. -/
theorem call_stays {index : Nat} {call : Call} (hreact : s.react e = some s')
    (hcall : s.calls[index]? = some call) (hover : ∀ choice, s.callStep choice call = none) :
    s'.calls[index]? = some call := by
  rcases react_calls hreact with hcalls | ⟨added, -, hcalls⟩ |
    ⟨i, choice, moved, s₁, call', -, hold, hnext, hcalls⟩ <;> rw [hcalls]
  · exact hcall
  · rw [List.getElem?_append_left (List.getElem?_eq_some_iff.mp hcall).1]
    exact hcall
  · have hne : i ≠ index := by
      intro heq
      subst heq
      cases hcall.symm.trans hold
      rw [hover choice] at hnext
      cases hnext
    rw [List.getElem?_set_ne hne]
    exact hcall

end Causes

section Run

variable {isClient : Bool} {ack : HelloAck} {events : List Event} {s s' : Session} {e : Event}

/-- What such a run keeps: the books, the channels, what each `Open` has come to, and that
`closeOnce` has neither of the two reasons to send. -/
structure Session.Plain (s : Session) : Prop where
  books : s.OwnBooks
  unheard : s.Unheard
  fits : ∀ h op, .stream h op ∈ s.calls → op.Agrees (s.ackFor h)
  notOK : ∀ h ∈ s.ending.toAnswer, s.ending.reason ≠ some reasonOK
  notLimit : ∀ h ∈ s.ending.toAnswer, s.ending.reason ≠ some reasonLimitStreamsExceeded

theorem plain_react (hp : s.Plain)
    (hstep : restrict refusesForLimit Session.react s e = some s') : s'.Plain := by
  obtain ⟨hguard, hreact⟩ := restrict_eq_some.mp hstep
  have hturn := restrict_eq_some.mpr ⟨in_turn hguard, hreact⟩
  refine ⟨own_books_react hp.books hturn, unheard_react hp.unheard hp.books hreact,
    fits_react hp.fits hguard hreact, to_answer_other hp.notOK hreact ?_,
    to_answer_other hp.notLimit hreact ?_⟩
  · intro choice r h hevent hending hpending
    subst hevent
    exact collecting_not_ok (in_turn hguard) hending hpending
  · intro choice r h hevent hending hpending
    subst hevent
    exact collecting_not_limit hguard hending hpending

theorem plain_run
    (hrun : run (restrict refusesForLimit Session.react) (newSession isClient ack) events =
      some s) : s.Plain := by
  have hnone : ∀ {h : Handle} {p : Prop}, h ∈ ([] : List Handle) → p :=
    fun hmem => absurd hmem List.not_mem_nil
  refine run_invariant plain_react ⟨own_books_new_session isClient ack, ⟨?_, fun _ => hnone⟩, ?_,
    fun _ => hnone, fun _ => hnone⟩ hrun
  · intro h hknown
    rcases hknown with hack | hmem
    · exact absurd rfl hack
    · exact hnone hmem
  · intro h op hmem
    exact absurd hmem List.not_mem_nil

/-- A pending `Open` that the end of the session has taken is told neither ok nor
limit_streams_exceeded. -/
theorem ended_react {reason : Reason} {h : Handle} (hreact : s.react e = some s')
    (hother : ∀ h ∈ s.ending.toAnswer, s.ending.reason ≠ some reason) (hpending : h ∉ s.pending)
    (hack : s.ackFor h ≠ some reason) : s'.ackFor h ≠ some reason := by
  intro hack'
  cases hold : s.ackFor h with
  | some r =>
      rw [ack_kept hreact hold] at hack'
      exact hack (hold.trans hack')
  | none =>
      rcases ack_new hreact hold hack' with ⟨hmem, -⟩ | ⟨choice, rest, rfl, hending⟩
      · exact hpending hmem
      · rw [hending] at hother
        exact hother h List.mem_cons_self rfl

theorem recalls_react
    (hrun : run (restrict refusesForLimit Session.react) (newSession isClient ack) events = some s)
    (hr : Recalls (newSession isClient ack) events s)
    (hstep : restrict refusesForLimit Session.react s e = some s') :
    Recalls (newSession isClient ack) (events ++ [e]) s' := by
  obtain ⟨hguard, hreact⟩ := restrict_eq_some.mp hstep
  have hp := plain_run hrun
  have hconcat : ∀ {p : Session → Event → Prop},
      happened Session.react (newSession isClient ack) p (events ++ [e]) ↔
        happened Session.react (newSession isClient ack) p events ∨ p s e :=
    happened_concat (run_of_restrict hrun)
  refine ⟨?_, ?_, ?_⟩
  · intro index error hcall
    rcases open_failed_origin hreact hcall with hold | hclosed | hlimit
    · exact (hr.limited index error hold).imp_right fun hbefore => hconcat.mpr (.inl hbefore)
    · exact .inl hclosed
    · exact .inr (hconcat.mpr (.inr hlimit))
  · intro h hack
    refine hconcat.mpr ?_
    exact (answer_from_peer hp.books (in_turn hguard) hreact hp.notLimit hack).imp_left
      (hr.refused h)
  · intro h hended
    obtain ⟨hhas, -⟩ := has_books (react_books hreact)
    rcases hconcat.mp hended with hbefore | ⟨choice, reason, rfl, hending, hmem⟩
    · obtain ⟨hold, hpending, hok, hlimit, htaken⟩ := hr.ended h hbefore
      refine ⟨hhas h hold, ?_, ended_react hreact hp.notOK hpending hok,
        ended_react hreact hp.notLimit hpending hlimit, taken_kept hreact htaken⟩
      intro hmem
      rcases pending_react hreact hmem with hmem | ⟨rfl, -, -⟩
      · exact hpending hmem
      · exact not_has_next_handle _ hold
    · -- `closeOnce` has just taken the map; it sends nothing in the same step.
      have hnone : s'.ackFor h = none := by
        cases hack : s'.ackFor h with
        | none => rfl
        | some r =>
            rcases ack_new hreact (hp.unheard.free h hmem).1 hack with
              ⟨-, hanswers⟩ | ⟨other, rest, -, hnotifying⟩
            · exact hanswers.elim
            · rw [hending] at hnotifying
              cases hnotifying
      have htaken : s'.ending.taken = true := by
        simp only [Session.react, Session.step, Session.endStep, hending,
          Option.some.injEq] at hreact
        subst hreact
        rfl
      rw [hnone, collecting_pending hreact hending]
      exact ⟨hhas h (hp.books.pending h hmem).2, List.not_mem_nil, by simp, by simp, htaken⟩

/-- In every run in which an `Open` takes nothing off its channel but ok and
limit_streams_exceeded, and the session does not end for one of these while an `Open` is pending,
the error of an `Open` has the cause that its name says. -/
theorem refusals_run
    (hrun : run (restrict refusesForLimit Session.react) (newSession isClient ack) events =
      some s) : Recalls (newSession isClient ack) events s := by
  refine run_history ⟨?_, ?_, ?_⟩ recalls_react hrun
  · intro index error hcall
    cases hcall
  · intro h hack
    cases hack
  · intro h hended
    exact absurd hended not_happened_nil

end Run

section Completion

variable {s s' : Session} {h : Handle} {index : Nat} {op : Op}

/-- The steps of `closeOnce` after it has taken the maps meet the condition. -/
theorem end_steps_refuse {n : Nat} (htaken : s.ending.taken = true)
    (hrun : run Session.react s (List.replicate n (.act (.endStep 0))) = some s') :
    run (restrict refusesForLimit Session.react) s (List.replicate n (.act (.endStep 0))) =
      some s' := by
  induction n generalizing s with
  | zero => exact hrun
  | succ n ih =>
      rw [List.replicate_succ, run_cons, Option.bind_eq_some_iff] at hrun
      obtain ⟨s₁, hreact, hrest⟩ := hrun
      have hguard : refusesForLimit s (.act (.endStep 0)) = true := by
        unfold refusesForLimit answersInTurn
        cases hending : s.ending with
        | collecting reason =>
            rw [hending] at htaken
            cases htaken
        | _ => rfl
      rw [List.replicate_succ, run_cons, restrict_eq_some.mpr ⟨hguard, hreact⟩]
      exact ih (taken_kept hreact htaken) hrest

/-- One step of an operation, in a session that is done. -/
theorem done_step (hhas : s.Has h) (hcall : s.calls[index]? = some (.stream h op))
    (hdone : s.done = true) {op' : Op} {effect : Effect}
    (hop : ∀ c, op.step s.limits s.done (s.ackFor h) c .sessionDone = some ⟨c, op', effect⟩) :
    ∃ s₁, restrict refusesForLimit Session.react s (.act (.advance index .sessionDone)) =
        some s₁ ∧
      s₁.calls[index]? = some (.stream h op') ∧ s₁.Has h ∧ s₁.done = true := by
  have hlt : index < s.calls.length := (List.getElem?_eq_some_iff.mp hcall).1
  obtain ⟨c, hcell⟩ := cell_of_has hhas
  have hguard : refusesForLimit s (.act (.advance index .sessionDone)) = true := by
    simp [refusesForLimit, answersInTurn, Session.opening, hcall]
  have hreact : s.react (.act (.advance index .sessionDone)) =
      some { (s.setCell h c).perform h.id effect with
        calls := s.calls.set index (.stream h op') } := by
    simp [Session.react, Session.step, hcall, Session.callStep, hcell, hop c]
  exact ⟨_, restrict_eq_some.mpr ⟨hguard, hreact⟩, List.getElem?_set_self hlt,
    (has_books (react_books hreact)).1 h hhas, done_react hreact hdone⟩

/-- In a session that is done, an `Open` that has not succeeded fails by its own steps. -/
theorem done_open_fails (hhas : s.Has h) (hcall : s.calls[index]? = some (.stream h op))
    (hdone : s.done = true) (hopens : op.opens = true) (hnot : op ≠ .opened) :
    ∃ n s' error, run (restrict refusesForLimit Session.react) s
        (List.replicate n (.act (.advance index .sessionDone))) = some s' ∧
      s'.calls[index]? = some (.stream h (.openFailed error)) := by
  -- `retire` is the last step of an `Open` that has failed.
  have hretire : ∀ {t : Session} {error : OpenError}, t.Has h →
      t.calls[index]? = some (.stream h (.retireOpen error)) → t.done = true →
      ∃ t', restrict refusesForLimit Session.react t (.act (.advance index .sessionDone)) =
        some t' ∧ t'.calls[index]? = some (.stream h (.openFailed error)) := by
    intro t error hhas hcall hdone
    obtain ⟨t', hstep, hnext, -⟩ := done_step hhas hcall hdone fun c => rfl
    exact ⟨t', hstep, hnext⟩
  cases op with
  | sendOpen payload =>
      have hop : ∀ c, Op.step s.limits s.done (s.ackFor h) c .sessionDone (.sendOpen payload) =
          some ⟨c, .retireOpen .send, .silent⟩ := by
        intro c
        simp [Op.step, writable, hdone]
      obtain ⟨s₁, hstep, hcall₁, hhas₁, hdone₁⟩ := done_step hhas hcall hdone hop
      obtain ⟨s₂, hstep₂, hcall₂⟩ := hretire hhas₁ hcall₁ hdone₁
      refine ⟨2, s₂, .send, ?_, hcall₂⟩
      simp [List.replicate, run_cons, hstep, hstep₂]
  | awaitAck =>
      have hop : ∀ c, Op.step s.limits s.done (s.ackFor h) c .sessionDone .awaitAck =
          some ⟨c, .openFailed .sessionClosed, .silent⟩ := by
        intro c
        simp [Op.step, hdone]
      obtain ⟨s₁, hstep, hcall₁, -⟩ := done_step hhas hcall hdone hop
      refine ⟨1, s₁, .sessionClosed, ?_, hcall₁⟩
      simp [List.replicate, run_cons, hstep]
  | retireOpen error =>
      obtain ⟨s₁, hstep, hcall₁⟩ := hretire hhas hcall hdone
      refine ⟨1, s₁, error, ?_, hcall₁⟩
      simp [List.replicate, run_cons, hstep]
  | openFailed error => exact ⟨0, s, error, rfl, hcall⟩
  | opened => exact absurd rfl hnot
  | _ => cases hopens

/-- After `closeOnce` has taken the maps, an `Open` that was not acknowledged fails by the steps of
`closeOnce` and its own. -/
theorem taken_open_fails (hp : s.Plain) (hg : s.Grounded) (htaken : s.ending.taken = true)
    (hcall : s.calls[index]? = some (.stream h op)) (hopens : op.opens = true)
    (hack : s.ackFor h ≠ some reasonOK) :
    ∃ n m s' error, run (restrict refusesForLimit Session.react) s (closingSteps n m index) =
        some s' ∧
      s'.calls[index]? = some (.stream h (.openFailed error)) := by
  have hmem := List.mem_of_getElem? hcall
  obtain ⟨reason, hreason⟩ : ∃ reason, s.ending.reason = some reason := by
    cases hending : s.ending with
    | killing reason | notifying reason | ended reason => exact ⟨reason, rfl⟩
    | _ =>
        rw [hending] at htaken
        cases htaken
  obtain ⟨n, s₁, hrun, hdone, -⟩ := ending_completes hg hreason
  have hhas₁ : s₁.Has h := run_invariant (fun ht hreact => (has_books (react_books hreact)).1 h ht)
    (hp.books.rooted.calls h op hmem) hrun
  have hnot : op ≠ .opened := by
    intro heq
    subst heq
    exact hack (hp.fits h _ hmem)
  obtain ⟨m, s', error, hfails, hcall'⟩ :=
    done_open_fails hhas₁ ((end_steps_calls hrun).symm ▸ hcall) hdone hopens hnot
  refine ⟨n, m, s', error, ?_, hcall'⟩
  rw [closingSteps, run_append, end_steps_refuse htaken hrun]
  exact hfails

end Completion

end AccessRelay.Mux
