import AccessRelay.Mux.Refusal
import AccessRelay.Relay.Join

/-!
# The reason an operator is given

`joinStream` opens a stream on the agent's session and, if that fails, resets the operator's stream
with limit_streams_exceeded or no_agent, by the error that `Open` returned. `Joining` is the relay
of `Relay.Join` together with the sessions of its agents: a join that has come to `agentSess.Open`
starts a call on the session, and goes on with what the call has come to.

`ErrStreamRefused` is taken for the agent's limit, but it stands for any reason that came over the
channel of the `Open`, those for which a session ends included: an operator whose agent is replaced
is told that there are too many streams (`replaced_told_limit`). `open_reasons_apart` says that the
reasons are kept apart as long as an `Open` receives no other reason than ok and
limit_streams_exceeded, and that an operator whose agent's session has ended is not left waiting.
-/

namespace AccessRelay.Relay

open Encoding Go Proto Storage Machine

/-- The error of `Open` as `errors.Is` sees it in `joinStream`. Its text is not part of the model
of a session. -/
def joinError (text : Bytes) : Mux.OpenError → OpenError
  | .tooManyStreams _ => .tooManyStreams text
  | .refused _ => .streamRefused text
  | .sessionClosed | .send | .cancelled => .other text

/-- What a call of `Open` has returned. -/
def openResult (text : Bytes) : Mux.Call → Option (Except OpenError UInt32)
  | .stream h .opened => some (.ok h.id)
  | .openFailed error | .stream _ (.openFailed error) => some (.error (joinError text error))
  | _ => none

/-- A call of `Open`: the session, and the place among its calls. -/
structure OpenRef where
  session : Nat
  index : Nat
  deriving DecidableEq

/-- The relay and the sessions of its agents. `opens` has the call for each join that has called
`Open`. -/
structure Joining where
  relay : Pool RelayState RelayCall
  agents : Nat → Mux.Session
  opens : List (Nat × OpenRef)

/-- A relay that carries no stream yet, and its agents as they connect. -/
def newJoining (tables : Tables) (isClient : Nat → Bool) (acks : Nat → HelloAck) : Joining :=
  ⟨newRelay tables, fun session => Mux.newSession (isClient session) (acks session), []⟩

/-- A step of the relay or of a session by itself; a join calls `Open`, or goes on with what it
returned. -/
inductive JoiningAction where
  | relay (a : PoolAction RelayCall RelayInput)
  | agent (session : Nat) (e : Mux.Event)
  | callOpen (join : Nat)
  | openReturned (join : Nat) (input : RelayInput) (text : Bytes)

/-- The join is at its call of `Open`. -/
def RelayCall.opensAgent : RelayCall → Bool
  | .openAgent _ _ _ => true
  | _ => false

/-- The action is the step of a join that is at its call of `Open`. -/
def Joining.atOpen (st : Joining) : PoolAction RelayCall RelayInput → Bool
  | .start _ => false
  | .advance index _ => (st.relay.calls[index]?).any RelayCall.opensAgent

/-- The event of an agent's session in an action. -/
def Joining.event (st : Joining) : JoiningAction → Option (Nat × Mux.Event)
  | .agent session e => some (session, e)
  | .callOpen join =>
      match st.relay.calls[join]? with
      | some (.openAgent req _ _) =>
          some (req.agentSession, .act (.start (.openStream req.payload)))
      | _ => none
  | .relay _ | .openReturned _ _ _ => none

/-- A session takes an event. -/
def Joining.react (st : Joining) (session : Nat) (e : Mux.Event) : Option Joining :=
  ((st.agents session).react e).map fun s =>
    { st with agents := Function.update st.agents session s }

/-- One action of the relay and the sessions of its agents. -/
def joiningStep (cfg : Config) (st : Joining) : JoiningAction → Option Joining
  | .relay a =>
      if st.atOpen a then none else (relayStep cfg st.relay a).map fun relay => { st with relay }
  | .agent session e => st.react session e
  | .callOpen join =>
      match st.relay.calls[join]?, st.opens.lookup join with
      | some (.openAgent req _ _), none =>
          (st.react req.agentSession (.act (.start (.openStream req.payload)))).map fun next =>
            { next with
              opens := (join, ⟨req.agentSession, (st.agents req.agentSession).calls.length⟩) ::
                st.opens }
      | _, _ => none
  | .openReturned join input text =>
      if (st.relay.calls[join]?).any RelayCall.opensAgent then
        (st.opens.lookup join).bind fun ref =>
          ((st.agents ref.session).calls[ref.index]?).bind fun call =>
            (openResult text call).bind fun opened =>
              (relayStep cfg st.relay (.advance join { input with opened })).map fun relay =>
                { st with relay }
      else none

/-- The reason with which `joinStream` resets the operator's stream, once it is decided. -/
def RelayCall.told : RelayCall → Option Reason
  | .deny _ _ reason _ | .refuse _ reason => some reason
  | .returned refused => refused
  | _ => none

/-- The join has its stream to the agent. -/
def RelayCall.carries : RelayCall → Bool
  | .register _ _ _ _ | .recordOpened _ | .copying _ | .recordClosed _ _ | .release _
  | .returned none => true
  | _ => false

/-- What a join makes of the result of `Open`. -/
def RelayCall.Follows (call : RelayCall) : Except OpenError UInt32 → Prop
  | .error e => call.told = some e.reason
  | .ok _ => call.carries = true

/-- An event of this session of which `p` holds was part of the run. -/
def agentHappened (cfg : Config) (start : Joining) (session : Nat)
    (p : Mux.Session → Mux.Event → Prop) (actions : List JoiningAction) : Prop :=
  happened (joiningStep cfg) start
    (fun st a => ∃ e, st.event a = some (session, e) ∧ p (st.agents session) e) actions

/-- The condition, on the events of the agents' sessions. -/
def agentsRefuseForLimit (st : Joining) (a : JoiningAction) : Bool :=
  (st.event a).all fun event => Mux.refusesForLimit (st.agents event.1) event.2

/-- By the steps of `closeOnce` and of its `Open`, this join comes to tell the operator no_agent. -/
def Joining.TellsNoAgent (cfg : Config) (st : Joining) (join : Nat) (ref : OpenRef) : Prop :=
  ∃ n m, ∀ input text, ∃ st' call,
    run (restrict agentsRefuseForLimit (joiningStep cfg)) st
      ((Mux.closingSteps n m ref.index).map (.agent ref.session) ++
        [.openReturned join input text]) = some st' ∧
    st'.relay.calls[join]? = some call ∧ call.told = some reasonNoAgent

/-- The `Open` of a join has returned, and the join has taken its result. -/
def Joining.Returned (st : Joining) (ref : OpenRef) (call : RelayCall) : Prop :=
  ∃ c text result, (st.agents ref.session).calls[ref.index]? = some c ∧
    openResult text c = some result ∧ call.Follows result

/-- A join that has called `Open` waits for it or has taken its result; one that has not is not
told about limits. -/
structure Joining.Linked (st : Joining) : Prop where
  unopened : ∀ join call, st.relay.calls[join]? = some call → st.opens.lookup join = none →
    call.told ≠ some reasonLimitStreamsExceeded
  opened : ∀ join ref, st.opens.lookup join = some ref →
    ∃ call, st.relay.calls[join]? = some call ∧ (call.opensAgent = true ∨ st.Returned ref call)
  calls : ∀ join ref, st.opens.lookup join = some ref →
    ∃ c, (st.agents ref.session).calls[ref.index]? = some c ∧ c.opens = true

section Calls

variable {cfg : Config} {s s' : RelayState} {call call' : RelayCall} {input : RelayInput}

theorem reason_for_grant_not_limit (e : GrantError) :
    reasonForGrant e ≠ reasonLimitStreamsExceeded := by
  unfold reasonForGrant
  split <;> decide

/-- The checks that `joinStream` makes by itself do not refuse for limits. -/
theorem authorize_not_limit {req : JoinRequest} {now : Time} {reason : Reason}
    (h : req.authorize cfg now = .error reason) : reason ≠ reasonLimitStreamsExceeded := by
  unfold JoinRequest.authorize at h
  split_ifs at h
  · cases h
    decide
  · split at h
    next e _ =>
      cases h
      exact reason_for_grant_not_limit e
    next signed _ =>
      split at h
      next e _ =>
        cases h
        exact reason_for_grant_not_limit e
      · split_ifs at h <;> cases h <;> decide

/-- Only `Open` makes a join tell the operator about limits. -/
theorem next_told (hnext : call.next cfg s input = some (s', call'))
    (hother : call.opensAgent = false) (htold : call'.told = some reasonLimitStreamsExceeded) :
    call.told = some reasonLimitStreamsExceeded := by
  cases call with
  | join req =>
      simp only [RelayCall.next] at hnext
      split at hnext
      next reason hauthorize =>
        cases hnext
        exact absurd (Option.some.inj htold) (authorize_not_limit hauthorize)
      · cases hnext
        cases htold
  | checkGrant req grant =>
      simp only [RelayCall.next, Option.some.injEq, Prod.mk.injEq] at hnext
      obtain ⟨-, rfl⟩ := hnext
      unfold checkGrantStep at htold
      dsimp only at htold
      split_ifs at htold
      · cases htold
      · exact absurd (Option.some.inj htold) (by decide)
      · cases htold
      · cases htold
  | openAgent => cases hother
  | deny | refuse =>
      cases hnext
      exact htold
  | revoke revocation reason actor =>
      simp only [RelayCall.next] at hnext
      split at hnext
      · cases hnext
        cases htold
      · split at hnext <;> cases hnext
        · cases htold
        · split_ifs at htold <;> cases htold
  | resetting grantIDs rest agent =>
      cases agent with
      | some agent =>
          cases hnext
          cases htold
      | none =>
          cases rest with
          | nil =>
              cases hnext
              cases htold
          | cons pair rest =>
              obtain ⟨chosen, -, heq⟩ := Option.map_eq_some_iff.mp hnext
              cases heq
              cases htold
  | returned | revoked | revokeFailed => cases hnext
  | _ =>
      cases hnext
      cases htold

/-- A join goes on as it has begun to. -/
theorem next_follows {result : Except OpenError UInt32}
    (hnext : call.next cfg s input = some (s', call')) (hfollows : call.Follows result) :
    call'.Follows result := by
  cases result with
  | error e =>
      cases call with
      | deny | refuse =>
          cases hnext
          exact hfollows
      | returned => cases hnext
      | _ => cases hfollows
  | ok id =>
      cases call with
      | register | recordOpened | copying | recordClosed | release =>
          cases hnext
          rfl
      | returned => cases hnext
      | _ => cases hfollows

/-- A join follows what its `Open` returned. -/
theorem open_agent_follows (hopens : call.opensAgent = true)
    (hnext : call.next cfg s input = some (s', call')) : call'.Follows input.opened := by
  cases call with
  | openAgent req grant sessionID =>
      simp only [RelayCall.next] at hnext
      split at hnext
      next e hopened =>
        cases hnext
        rw [hopened]
        rfl
      next id hopened =>
        cases hnext
        rw [hopened]
        rfl
  | _ => cases hopens

/-- An `Open` that has returned is over. -/
theorem result_over {agent : Mux.Session} {c : Mux.Call} {text : Bytes}
    {result : Except OpenError UInt32} (hresult : openResult text c = some result)
    (choice : Mux.Choice) : agent.callStep choice c = none := by
  cases c with
  | openStream | acceptStream | acceptFailed => cases hresult
  | openFailed error => rfl
  | stream h op =>
      cases op with
      | opened | openFailed => simp [Mux.Session.callStep, Mux.Op.step]
      | _ => cases hresult

end Calls

section Steps

variable {cfg : Config} {st st' : Joining} {a : JoiningAction} {session : Nat} {e : Mux.Event}

/-- What an action can do. -/
inductive Joining.Moves (cfg : Config) (st : Joining) : JoiningAction → Joining → Prop where
  | relay {a : PoolAction RelayCall RelayInput} {relay : Pool RelayState RelayCall}
      (hother : st.atOpen a = false) (hstep : relayStep cfg st.relay a = some relay) :
      Moves cfg st (.relay a) { st with relay }
  | agent {session : Nat} {e : Mux.Event} {s : Mux.Session}
      (hreact : (st.agents session).react e = some s) :
      Moves cfg st (.agent session e) { st with agents := Function.update st.agents session s }
  | callOpen {join : Nat} {req : JoinRequest} {grant : Grant} {sessionID : Bytes}
      {s : Mux.Session} (hcall : st.relay.calls[join]? = some (.openAgent req grant sessionID))
      (hnew : st.opens.lookup join = none)
      (hreact : (st.agents req.agentSession).react (.act (.start (.openStream req.payload))) =
        some s) :
      Moves cfg st (.callOpen join)
        { st with
          agents := Function.update st.agents req.agentSession s
          opens := (join, ⟨req.agentSession, (st.agents req.agentSession).calls.length⟩) ::
            st.opens }
  | openReturned {join : Nat} {input : RelayInput} {text : Bytes} {ref : OpenRef}
      {call call' : RelayCall} {c : Mux.Call} {opened : Except OpenError UInt32}
      {s : RelayState} (hcall : st.relay.calls[join]? = some call)
      (hopens : call.opensAgent = true) (hlookup : st.opens.lookup join = some ref)
      (hc : (st.agents ref.session).calls[ref.index]? = some c)
      (hresult : openResult text c = some opened)
      (hnext : call.next cfg st.relay.shared { input with opened } = some (s, call')) :
      Moves cfg st (.openReturned join input text)
        { st with relay := ⟨s, st.relay.calls.set join call'⟩ }

theorem joining_step_moves (hstep : joiningStep cfg st a = some st') : st.Moves cfg a st' := by
  cases a with
  | relay a =>
      simp only [joiningStep, Option.ite_none_left_eq_some, Bool.not_eq_true,
        Option.map_eq_some_iff] at hstep
      obtain ⟨hother, relay, hrelay, rfl⟩ := hstep
      exact .relay hother hrelay
  | agent session e =>
      obtain ⟨s, hreact, rfl⟩ := Option.map_eq_some_iff.mp hstep
      exact .agent hreact
  | callOpen join =>
      simp only [joiningStep] at hstep
      split at hstep
      next req grant sessionID hcall hnew =>
        obtain ⟨next, hnext, rfl⟩ := Option.map_eq_some_iff.mp hstep
        obtain ⟨s, hreact, rfl⟩ := Option.map_eq_some_iff.mp hnext
        exact .callOpen hcall hnew hreact
      · cases hstep
  | openReturned join input text =>
      simp only [joiningStep, Option.ite_none_right_eq_some, Option.any_eq_true,
        Option.bind_eq_some_iff, Option.map_eq_some_iff] at hstep
      obtain ⟨⟨call, hcall, hopens⟩, ref, hlookup, c, hc, opened, hresult, relay, hrelay, rfl⟩ :=
        hstep
      rcases pool_step_cases hrelay with ⟨_, heq, -⟩ |
        ⟨index, input', moved, s, call', heq, hmoved, hnext, rfl⟩
      · cases heq
      · cases heq
        cases hcall.symm.trans hmoved
        exact .openReturned hcall hopens hlookup hc hresult hnext

/-- A result stays when a session takes an event. -/
theorem Joining.Returned.react {s : Mux.Session} {ref : OpenRef} {call : RelayCall}
    {opens : List (Nat × OpenRef)} (hreact : (st.agents session).react e = some s)
    (hreturned : st.Returned ref call) :
    ({ st with agents := Function.update st.agents session s, opens := opens } :
      Joining).Returned ref call := by
  obtain ⟨c, text, result, hc, hresult, hfollows⟩ := hreturned
  refine ⟨c, text, result, ?_, hresult, hfollows⟩
  by_cases hsession : ref.session = session
  · subst hsession
    simp only [Function.update_self]
    exact Mux.call_stays hreact hc (result_over hresult)
  · simp only [Function.update_of_ne hsession]
    exact hc

/-- A step of one join keeps the links, if it keeps those of this join. -/
theorem Joining.Linked.advance {index : Nat} {call call' : RelayCall} {s : RelayState}
    (hl : st.Linked) (hcall : st.relay.calls[index]? = some call)
    (hunopened : st.opens.lookup index = none → call'.told ≠ some reasonLimitStreamsExceeded)
    (hopened : ∀ ref, st.opens.lookup index = some ref → st.Returned ref call') :
    ({ st with relay := ⟨s, st.relay.calls.set index call'⟩ } : Joining).Linked := by
  have hlt : index < st.relay.calls.length := (List.getElem?_eq_some_iff.mp hcall).1
  refine ⟨?_, ?_, ?_⟩
  · intro join other hother hnone
    rcases get_set_cases hother with ⟨rfl, rfl⟩ | ⟨-, hold⟩
    · exact hunopened hnone
    · exact hl.unopened join other hold hnone
  · intro join ref hlookup
    by_cases heq : index = join
    · subst heq
      exact ⟨call', List.getElem?_set_self hlt, .inr (hopened ref hlookup)⟩
    · obtain ⟨other, hother, hstate⟩ := hl.opened join ref hlookup
      exact ⟨other, (List.getElem?_set_ne heq).trans hother, hstate⟩
  · exact hl.calls

/-- A call of `Open` stays one when a session takes an event. -/
theorem opens_update {s : Mux.Session} {ref : OpenRef}
    (hreact : (st.agents session).react e = some s)
    (hcalls : ∃ c, (st.agents ref.session).calls[ref.index]? = some c ∧ c.opens = true) :
    ∃ c, (Function.update st.agents session s ref.session).calls[ref.index]? = some c ∧
      c.opens = true := by
  obtain ⟨c, hc, hopens⟩ := hcalls
  by_cases hsession : ref.session = session
  · subst hsession
    rw [Function.update_self]
    exact Mux.opens_react hreact hc hopens
  · rw [Function.update_of_ne hsession]
    exact ⟨c, hc, hopens⟩

theorem linked_step (hl : st.Linked) (hstep : joiningStep cfg st a = some st') : st'.Linked := by
  cases joining_step_moves hstep with
  | @relay a relay hother hrelay =>
      rcases pool_step_cases hrelay with ⟨call, -, hmay, rfl⟩ |
        ⟨index, input, call, s, call', rfl, hcall, hnext, rfl⟩
      · refine ⟨?_, ?_, hl.calls⟩
        · intro join other hget hnone
          rcases Mux.get_append_cases hget with hold | rfl
          · exact hl.unopened join other hold hnone
          · cases other with
            | join | revoke => exact fun htold => by cases htold
            | _ => cases hmay
        · intro join ref hlookup
          obtain ⟨other, hget, hstate⟩ := hl.opened join ref hlookup
          refine ⟨other, ?_, hstate⟩
          rw [List.getElem?_append_left (List.getElem?_eq_some_iff.mp hget).1]
          exact hget
      · have hnot : call.opensAgent = false := by
          simpa [Joining.atOpen, hcall] using hother
        refine hl.advance hcall ?_ ?_
        · intro hnone htold
          exact hl.unopened index call hcall hnone (next_told hnext hnot htold)
        · intro ref hlookup
          obtain ⟨other, hget, hstate⟩ := hl.opened index ref hlookup
          cases hcall.symm.trans hget
          rcases hstate with hopens | ⟨c, text, result, hc, hresult, hfollows⟩
          · rw [hnot] at hopens
            cases hopens
          · exact ⟨c, text, result, hc, hresult, next_follows hnext hfollows⟩
  | agent hreact =>
      refine ⟨hl.unopened, ?_, fun join ref hlookup => opens_update hreact
        (hl.calls join ref hlookup)⟩
      intro join ref hlookup
      obtain ⟨call, hcall, hstate⟩ := hl.opened join ref hlookup
      exact ⟨call, hcall, hstate.imp_right (Joining.Returned.react hreact)⟩
  | @callOpen join req grant sessionID s hcall hnew hreact =>
      refine ⟨?_, ?_, ?_⟩
      · intro other call hget hnone
        simp only [List.lookup_cons] at hnone
        split at hnone
        · cases hnone
        · exact hl.unopened other call hget hnone
      · intro other ref hlookup
        simp only [List.lookup_cons] at hlookup
        split at hlookup
        next heq =>
          obtain rfl : other = join := beq_iff_eq.mp heq
          exact ⟨_, hcall, .inl rfl⟩
        · obtain ⟨call, hget, hstate⟩ := hl.opened other ref hlookup
          exact ⟨call, hget, hstate.imp_right (Joining.Returned.react hreact)⟩
      · intro other ref hlookup
        simp only [List.lookup_cons] at hlookup
        split at hlookup
        · -- The call has just been started, at the end of the list.
          cases hlookup
          cases hreact
          refine ⟨.openStream req.payload, ?_, rfl⟩
          simp
        · exact opens_update hreact (hl.calls other ref hlookup)
  | openReturned hcall hopens hlookup hc hresult hnext =>
      refine hl.advance hcall ?_ ?_
      · intro hnone
        rw [hlookup] at hnone
        cases hnone
      · intro ref href
        cases hlookup.symm.trans href
        exact ⟨_, _, _, hc, hresult, open_agent_follows hopens hnext⟩

/-- The event of one session in an action. -/
def Joining.label (session : Nat) (st : Joining) (a : JoiningAction) : Option Mux.Event :=
  (st.event a).bind fun event => if event.1 = session then some event.2 else none

theorem label_eq_some : st.label session a = some e ↔ st.event a = some (session, e) := by
  unfold Joining.label
  cases hevent : st.event a with
  | none => simp
  | some event => simp [Prod.ext_iff]

/-- An action that meets the condition is an event of a session that meets it, or leaves the session
alone. -/
theorem joining_step_agent (session : Nat)
    (hstep : restrict agentsRefuseForLimit (joiningStep cfg) st a = some st') :
    (st.label session a = none ∧ st'.agents session = st.agents session) ∨
      ∃ e, st.label session a = some e ∧
        restrict Mux.refusesForLimit Mux.Session.react (st.agents session) e =
          some (st'.agents session) := by
  obtain ⟨hguard, hstep⟩ := restrict_eq_some.mp hstep
  -- The session that takes the event of an action, and the others.
  have hupdate : ∀ {m : Nat} {e : Mux.Event} {s : Mux.Session}, st.event a = some (m, e) →
      (st.agents m).react e = some s →
      (st.label session a = none ∧
          Function.update st.agents m s session = st.agents session) ∨
        ∃ e, st.label session a = some e ∧
          restrict Mux.refusesForLimit Mux.Session.react (st.agents session) e =
            some (Function.update st.agents m s session) := by
    intro m e s hevent hreact
    by_cases hm : m = session
    · subst hm
      have hmeets : Mux.refusesForLimit (st.agents m) e = true := by
        simpa [agentsRefuseForLimit, hevent] using hguard
      refine .inr ⟨e, label_eq_some.mpr hevent, ?_⟩
      rw [Function.update_self]
      exact restrict_eq_some.mpr ⟨hmeets, hreact⟩
    · refine .inl ⟨?_, Function.update_of_ne (Ne.symm hm) _ _⟩
      simp [Joining.label, hevent, hm]
  cases joining_step_moves hstep with
  | relay => exact .inl ⟨rfl, rfl⟩
  | agent hreact => exact hupdate rfl hreact
  | callOpen hcall hnew hreact => exact hupdate (by simp [Joining.event, hcall]) hreact
  | openReturned => exact .inl ⟨rfl, rfl⟩

end Steps

section Run

variable {cfg : Config} {tables : Tables} {isClient : Nat → Bool} {acks : Nat → HelloAck}
  {actions : List JoiningAction} {st : Joining}

/-- What each session of such a run remembers. -/
theorem agents_run
    (hrun : run (restrict agentsRefuseForLimit (joiningStep cfg)) (newJoining tables isClient acks)
      actions = some st) (session : Nat) :
    ∃ events, (st.agents session).Plain ∧ (st.agents session).Grounded ∧
      Mux.Recalls (Mux.newSession (isClient session) (acks session)) events
        (st.agents session) ∧
      ∀ p, happened Mux.Session.react (Mux.newSession (isClient session) (acks session)) p
          events ↔
        agentHappened cfg (newJoining tables isClient acks) session p actions := by
  obtain ⟨events, hevents, hiff⟩ := run_project (joining_step_agent session) hrun
  refine ⟨events, Mux.plain_run hevents, (Mux.session_run (run_of_restrict hevents)).1,
    Mux.refusals_run hevents, fun p => ?_⟩
  refine (happened_restrict_iff hevents).symm.trans ((hiff p).trans ?_)
  rw [happened_restrict_iff hrun]
  simp only [agentHappened, label_eq_some]

theorem linked_run
    (hrun : run (joiningStep cfg) (newJoining tables isClient acks) actions = some st) :
    st.Linked := by
  refine run_invariant linked_step ⟨?_, ?_, ?_⟩ hrun
  · intro join call hcall
    cases hcall
  · intro join ref hlookup
    cases hlookup
  · intro join ref hlookup
    cases hlookup

/-- An `Open` that makes a join tell about limits failed for the session's own limit, or was refused
with limit_streams_exceeded. -/
theorem limit_result {agent : Mux.Session} {c : Mux.Call} {text : Bytes} {index : Nat}
    {result : Except OpenError UInt32} {call : RelayCall} (hplain : agent.Plain)
    (hc : agent.calls[index]? = some c) (hresult : openResult text c = some result)
    (hfollows : call.Follows result) (htold : call.told = some reasonLimitStreamsExceeded) :
    (∃ error, c = .openFailed error ∧ error ≠ .sessionClosed) ∨
      ∃ h, c = .stream h (.openFailed (.refused reasonLimitStreamsExceeded)) ∧
        agent.ackFor h = some reasonLimitStreamsExceeded := by
  have hother : reasonNoAgent ≠ reasonLimitStreamsExceeded := by decide
  -- The reason of the error is the one the operator is told.
  have hreason : ∀ {error : Mux.OpenError},
      call.Follows (.error (joinError text error)) →
      (joinError text error).reason = reasonLimitStreamsExceeded := by
    intro error hfollows
    exact Option.some.inj (hfollows.symm.trans htold)
  cases c with
  | openStream | acceptStream | acceptFailed => cases hresult
  | openFailed error =>
      cases hresult
      refine .inl ⟨error, rfl, ?_⟩
      intro hclosed
      subst hclosed
      exact absurd (hreason hfollows) hother
  | stream h op =>
      cases op with
      | opened =>
          cases hresult
          cases call with
          | returned refused =>
              cases htold
              cases hfollows
          | deny | refuse => cases hfollows
          | _ => cases htold
      | openFailed error =>
          cases hresult
          have hagrees := hplain.fits h _ (List.mem_of_getElem? hc)
          cases error with
          | refused reason =>
              obtain ⟨hack, rfl⟩ := hagrees
              exact .inr ⟨h, rfl, hack⟩
          | tooManyStreams n => exact hagrees.elim
          | sessionClosed | send | cancelled => exact absurd (hreason hfollows) hother
      | _ => cases hresult

/-- An `Open` that was pending when its session ended makes a join tell no_agent. -/
theorem ended_result {agent : Mux.Session} {h : Mux.Handle} {op : Mux.Op} {text : Bytes}
    {index : Nat} {result : Except OpenError UInt32} {call : RelayCall} (hplain : agent.Plain)
    (hc : agent.calls[index]? = some (.stream h op))
    (hok : agent.ackFor h ≠ some reasonOK)
    (hlimit : agent.ackFor h ≠ some reasonLimitStreamsExceeded)
    (hresult : openResult text (.stream h op) = some result) (hfollows : call.Follows result) :
    call.told = some reasonNoAgent := by
  have hagrees := hplain.fits h op (List.mem_of_getElem? hc)
  cases op with
  | opened => exact absurd hagrees hok
  | openFailed error =>
      cases hresult
      cases error with
      | refused reason =>
          obtain ⟨hack, rfl⟩ := hagrees
          exact absurd hack hlimit
      | tooManyStreams n => exact hagrees.elim
      | sessionClosed | send | cancelled => exact hfollows
  | _ => cases hresult

/-- If the session ends while the `Open` of a join is pending, the join waits or tells no_agent. -/
theorem ended_told
    (hrun : run (restrict agentsRefuseForLimit (joiningStep cfg)) (newJoining tables isClient acks)
      actions = some st)
    {join : Nat} {call : RelayCall} {ref : OpenRef} {h : Mux.Handle} {op : Mux.Op}
    (hcall : st.relay.calls[join]? = some call) (hlookup : st.opens.lookup join = some ref)
    (hc : (st.agents ref.session).calls[ref.index]? = some (.stream h op))
    (hended : agentHappened cfg (newJoining tables isClient acks) ref.session
      (Mux.Session.EndsPending h) actions) :
    call.opensAgent = true ∨ call.told = some reasonNoAgent := by
  obtain ⟨events, hplain, -, hrecalls, hiff⟩ := agents_run hrun ref.session
  obtain ⟨-, -, hok, hlimit, -⟩ := hrecalls.ended h ((hiff _).mpr hended)
  obtain ⟨other, hother, hstate⟩ := (linked_run (run_of_restrict hrun)).opened join ref hlookup
  cases hcall.symm.trans hother
  rcases hstate with hopens | ⟨c, text, result, hc', hresult, hfollows⟩
  · exact .inl hopens
  · cases hc.symm.trans hc'
    exact .inr (ended_result hplain hc hok hlimit hresult hfollows)

/-- Events of one session that meet the condition, as actions. -/
theorem agent_events_run {session : Nat} {events : List Mux.Event} {s : Mux.Session}
    (hrun : run (restrict Mux.refusesForLimit Mux.Session.react) (st.agents session) events =
      some s) :
    run (restrict agentsRefuseForLimit (joiningStep cfg)) st (events.map (.agent session)) =
      some { st with agents := Function.update st.agents session s } := by
  induction events generalizing st with
  | nil =>
      cases hrun
      rw [Function.update_eq_self]
      rfl
  | cons e rest ih =>
      rw [run_cons, Option.bind_eq_some_iff] at hrun
      obtain ⟨s₁, hstep, hrest⟩ := hrun
      obtain ⟨hguard, hreact⟩ := restrict_eq_some.mp hstep
      have hfirst : restrict agentsRefuseForLimit (joiningStep cfg) st (.agent session e) =
          some { st with agents := Function.update st.agents session s₁ } := by
        refine restrict_eq_some.mpr ⟨hguard, ?_⟩
        simp [joiningStep, Joining.react, hreact]
      rw [List.map_cons, run_cons, hfirst, Option.bind_some, ih (by simpa using hrest)]
      simp

/-- A join goes on with an `Open` that has failed. -/
theorem failed_open_taken (cfg : Config) {join : Nat} {call : RelayCall} {ref : OpenRef}
    {h : Mux.Handle} {error : Mux.OpenError} (hcall : st.relay.calls[join]? = some call)
    (hopens : call.opensAgent = true) (hlookup : st.opens.lookup join = some ref)
    (hc : (st.agents ref.session).calls[ref.index]? = some (.stream h (.openFailed error)))
    (input : RelayInput) (text : Bytes) :
    ∃ st' call', restrict agentsRefuseForLimit (joiningStep cfg) st
        (.openReturned join input text) = some st' ∧
      st'.relay.calls[join]? = some call' ∧ call'.opensAgent = false ∧
      st'.agents = st.agents ∧ st'.opens = st.opens := by
  have hlt : join < st.relay.calls.length := (List.getElem?_eq_some_iff.mp hcall).1
  cases call with
  | openAgent req grant sessionID =>
      let result := joinError text error
      refine ⟨{ st with relay := ⟨st.relay.shared,
        st.relay.calls.set join (.deny req grant result.reason result.text)⟩ }, _,
        restrict_eq_some.mpr ⟨rfl, ?_⟩, List.getElem?_set_self hlt, rfl, rfl, rfl⟩
      simp [joiningStep, hcall, RelayCall.opensAgent, hlookup, hc, openResult, relayStep, poolStep,
        RelayCall.next, result]
  | _ => cases hopens

/-- A join that waits for an `Open` which the end of the session found pending can go on, and then
tells no_agent. -/
theorem ended_tells
    (hrun : run (restrict agentsRefuseForLimit (joiningStep cfg)) (newJoining tables isClient acks)
      actions = some st)
    {join : Nat} {call : RelayCall} {ref : OpenRef} {h : Mux.Handle} {op : Mux.Op}
    (hcall : st.relay.calls[join]? = some call) (hopens : call.opensAgent = true)
    (hlookup : st.opens.lookup join = some ref)
    (hc : (st.agents ref.session).calls[ref.index]? = some (.stream h op))
    (hended : agentHappened cfg (newJoining tables isClient acks) ref.session
      (Mux.Session.EndsPending h) actions) : st.TellsNoAgent cfg join ref := by
  obtain ⟨events, hplain, hgrounded, hrecalls, hiff⟩ := agents_run hrun ref.session
  obtain ⟨-, -, hok, -, htaken⟩ := hrecalls.ended h ((hiff _).mpr hended)
  obtain ⟨c, hc', hopen⟩ := (linked_run (run_of_restrict hrun)).calls join ref hlookup
  cases hc.symm.trans hc'
  obtain ⟨n, m, s, error, hfails, hfailed⟩ :=
    Mux.taken_open_fails hplain hgrounded htaken hc hopen hok
  refine ⟨n, m, fun input text => ?_⟩
  let st₁ : Joining := { st with agents := Function.update st.agents ref.session s }
  have hagent : run (restrict agentsRefuseForLimit (joiningStep cfg)) st
      ((Mux.closingSteps n m ref.index).map (.agent ref.session)) = some st₁ :=
    agent_events_run hfails
  have hcall₁ : st₁.relay.calls[join]? = some call := hcall
  have hfailed₁ : (st₁.agents ref.session).calls[ref.index]? =
      some (.stream h (.openFailed error)) := by
    simpa [st₁] using hfailed
  obtain ⟨st₂, call₂, hstep, hcall₂, hnot, hagents, hopens₂⟩ :=
    failed_open_taken cfg hcall₁ hopens hlookup hfailed₁ input text
  have hmore : run (restrict agentsRefuseForLimit (joiningStep cfg)) st
      ((Mux.closingSteps n m ref.index).map (.agent ref.session) ++
        [.openReturned join input text]) = some st₂ := by
    rw [run_append, hagent, Option.bind_some, run_cons, hstep]
    rfl
  refine ⟨st₂, call₂, hmore, hcall₂, ?_⟩
  have hall := (run_append _ _ actions _).trans ((congrArg (Option.bind · _) hrun).trans hmore)
  have htold := ended_told hall hcall₂ (hopens₂ ▸ hlookup) (hagents ▸ hfailed₁)
    (happened_append _ hended)
  rw [hnot] at htold
  exact htold.resolve_left Bool.false_ne_true

end Run

/-- In every run in which an `Open` on an agent's session takes nothing off its channel but ok and
limit_streams_exceeded, and no session ends for one of these while an `Open` is pending: an operator
is told limit_streams_exceeded only if the agent's session was at its own limit when `Open` was
called, or the agent has answered the OPEN_STREAM so; and if the session ends while the `Open` is
pending, the operator is told no_agent, or the `Open` has not returned yet, can return by its own
steps and those of `closeOnce`, and the operator is told no_agent then. -/
theorem open_reasons_apart (cfg : Config) {tables : Tables} {isClient : Nat → Bool}
    {acks : Nat → HelloAck} {actions : List JoiningAction} {st : Joining}
    (hrun : run (restrict agentsRefuseForLimit (joiningStep cfg)) (newJoining tables isClient acks)
      actions = some st) :
    (∀ join call, st.relay.calls[join]? = some call →
      call.told = some reasonLimitStreamsExceeded →
      ∃ ref, st.opens.lookup join = some ref ∧
        (agentHappened cfg (newJoining tables isClient acks) ref.session
            (Mux.Session.AtLimit ref.index) actions ∨
          ∃ h, (st.agents ref.session).calls[ref.index]? =
              some (.stream h (.openFailed (.refused reasonLimitStreamsExceeded))) ∧
            agentHappened cfg (newJoining tables isClient acks) ref.session
              (Mux.Session.AnsweredWith h.id reasonLimitStreamsExceeded) actions)) ∧
    ∀ join call ref h op, st.relay.calls[join]? = some call →
      st.opens.lookup join = some ref →
      (st.agents ref.session).calls[ref.index]? = some (.stream h op) →
      agentHappened cfg (newJoining tables isClient acks) ref.session
        (Mux.Session.EndsPending h) actions →
      call.told = some reasonNoAgent ∨
        (call.opensAgent = true ∧ st.TellsNoAgent cfg join ref) := by
  have hlinked := linked_run (run_of_restrict hrun)
  refine ⟨?_, ?_⟩
  · intro join call hcall htold
    cases hlookup : st.opens.lookup join with
    | none => exact absurd htold (hlinked.unopened join call hcall hlookup)
    | some ref =>
        obtain ⟨events, hplain, -, hrecalls, hiff⟩ := agents_run hrun ref.session
        obtain ⟨other, hother, hstate⟩ := hlinked.opened join ref hlookup
        cases hcall.symm.trans hother
        refine ⟨ref, rfl, ?_⟩
        rcases hstate with hopens | ⟨c, text, result, hc, hresult, hfollows⟩
        · cases call with
          | openAgent => cases htold
          | _ => cases hopens
        · rcases limit_result hplain hc hresult hfollows htold with
            ⟨error, rfl, hne⟩ | ⟨h, rfl, hack⟩
          · have hcause := hrecalls.limited ref.index error hc
            exact .inl ((hiff _).mp (hcause.resolve_left hne))
          · exact .inr ⟨h, hc, (hiff _).mp (hrecalls.refused h hack)⟩
  · intro join call ref h op hcall hlookup hc hended
    rcases ended_told hrun hcall hlookup hc hended with hopens | htold
    · exact .inr ⟨hopens, ended_tells hrun hcall hopens hlookup hc hended⟩
    · exact .inl htold

section Samples

/-- The relay, and agents that allow one stream each. -/
def sampleAgents : Joining :=
  newJoining sampleTables (fun _ => false) fun _ => Mux.oneStream

/-- The join passes its checks, calls `Open`, and its OPEN_STREAM is sent. -/
def openPending : List JoiningAction :=
  [.relay (.start (.join sampleJoin)), .relay (.advance 0 sampleInput),
    .relay (.advance 0 sampleInput), .callOpen 0, .agent 2 (.act (.advance 0 .value)),
    .agent 2 (.act (.advance 0 .value))]

/-- `Open` receives its answer and returns, and the join goes on with it. -/
def openTaken : List JoiningAction :=
  [.agent 2 (.act (.advance 0 .value)), .agent 2 (.act (.advance 0 .value)),
    .openReturned 0 sampleInput []]

/-- The agent refuses the stream for its limit. -/
def refusedForLimit : List JoiningAction :=
  openPending ++ .agent 2 (.frame ⟨.closeStream, 2, reasonLimitStreamsExceeded⟩) :: openTaken

/-- An operator whose stream the agent refuses for its limit is told so. -/
theorem agent_limit_told : ∃ st call,
    run (restrict agentsRefuseForLimit (joiningStep sampleConfig)) sampleAgents refusedForLimit =
      some st ∧
    st.relay.calls[0]? = some call ∧ call.told = some reasonLimitStreamsExceeded ∧
    ∃ ref, st.opens.lookup 0 = some ref ∧
      (agentHappened sampleConfig sampleAgents ref.session (Mux.Session.AtLimit ref.index)
          refusedForLimit ∨
        ∃ h, (st.agents ref.session).calls[ref.index]? =
            some (.stream h (.openFailed (.refused reasonLimitStreamsExceeded))) ∧
          agentHappened sampleConfig sampleAgents ref.session
            (Mux.Session.AnsweredWith h.id reasonLimitStreamsExceeded) refusedForLimit) := by
  have hview : (run (restrict agentsRefuseForLimit (joiningStep sampleConfig)) sampleAgents
      refusedForLimit).map (fun st => st.relay.calls.map RelayCall.told) =
      some [some reasonLimitStreamsExceeded] := by
    decide +kernel
  obtain ⟨st, hrun, htold⟩ := Option.map_eq_some_iff.mp hview
  obtain ⟨call, hrelay, hcall⟩ := List.map_eq_singleton_iff.mp htold
  have hget : st.relay.calls[0]? = some call := by
    rw [hrelay]
    rfl
  exact ⟨st, call, hrun, hget, hcall,
    (open_reasons_apart sampleConfig hrun).1 0 call hget hcall⟩

/-- The agent's session is replaced while the `Open` is pending. -/
def replacing : List JoiningAction :=
  openPending ++ [.agent 2 (.act (.close reasonSessionReplaced)), .agent 2 (.act (.endStep 0))]

/-- `closeOnce` answers the `Open`. -/
def replacedPending : List JoiningAction :=
  replacing ++ .agent 2 (.act (.endStep 0)) ::
    ([.agent 2 (.act (.endStep 0)), .agent 2 (.act (.endStep 0)), .agent 2 (.act (.endStep 0))] ++
      openTaken)

/-- The session ends while the `Open` is pending, and the operator is told that there are too many
streams. -/
theorem replaced_told_limit : ∃ st call op,
    run (joiningStep sampleConfig) sampleAgents replacedPending = some st ∧
    st.relay.calls[0]? = some call ∧ st.opens.lookup 0 = some ⟨2, 0⟩ ∧
    (st.agents 2).calls[0]? = some (.stream ⟨2, 0⟩ op) ∧
    agentHappened sampleConfig sampleAgents 2 (Mux.Session.EndsPending ⟨2, 0⟩)
      replacedPending ∧
    call.opensAgent = false ∧ call.told = some reasonLimitStreamsExceeded := by
  have hview : (run (joiningStep sampleConfig) sampleAgents replacedPending).map
      (fun st => (st.relay.calls.map fun call => (call.opensAgent, call.told),
        st.opens.lookup 0, (st.agents 2).calls)) =
      some ([(false, some reasonLimitStreamsExceeded)], some ⟨2, 0⟩,
        [.stream ⟨2, 0⟩ (.openFailed (.refused reasonSessionReplaced))]) := by
    decide +kernel
  have hbefore : (run (joiningStep sampleConfig) sampleAgents replacing).map
      (fun st => ((st.agents 2).ending, (st.agents 2).pending)) =
      some (.collecting reasonSessionReplaced, [⟨2, 0⟩]) := by
    decide +kernel
  obtain ⟨st, hrun, heq⟩ := Option.map_eq_some_iff.mp hview
  obtain ⟨hjoins, heq⟩ := Prod.mk.inj heq
  obtain ⟨hlookup, hcalls⟩ := Prod.mk.inj heq
  obtain ⟨call, hrelay, hcall⟩ := List.map_eq_singleton_iff.mp hjoins
  obtain ⟨hopens, htold⟩ := Prod.mk.inj hcall
  obtain ⟨past, hpast, hending⟩ := Option.map_eq_some_iff.mp hbefore
  obtain ⟨hcollecting, hpending⟩ := Prod.mk.inj hending
  refine ⟨st, call, _, hrun, by rw [hrelay]; rfl, hlookup, by rw [hcalls]; rfl, ?_, hopens, htold⟩
  exact ⟨replacing, _, _, past, rfl, hpast, _, rfl, 0, _, rfl, hcollecting, by simp [hpending]⟩

end Samples

end AccessRelay.Relay
