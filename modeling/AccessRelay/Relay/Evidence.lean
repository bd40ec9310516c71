import AccessRelay.Relay.Join

/-!
# The trail of opened and refused streams

What `joinStream` writes to the audit trail. The calls are those of `Relay.Join`, each with the
events that it has recorded itself, and with the context of the server, which may be cancelled at
any moment. A write fails with a cancelled context, or because the store fails, and the recorder
goes on without the event.

The first five checks of `joinStream` refuse a stream and record nothing (`refused_unrecorded`);
`refusals_recorded` says that a refusal is in the trail exactly if it comes after those checks and
its write does not fail. A stream that is open when the server stops has its end recorded with
the context that the stop has cancelled (`closing_lost`); `closings_recorded` says that this is the
only way to lose it.
-/

namespace AccessRelay.Relay

open Encoding Go Proto Storage Machine

/-- The event that a call records next. -/
def RelayCall.event : RelayCall → Option RelayEvent
  | .deny _ grant reason detail => some (.streamDenied grant reason detail)
  | .recordOpened j => some (.streamOpened j.grant j.sessionID)
  | .recordClosed _ event => some event
  | _ => none

/-- A call with the operator's stream it is about, the events it has recorded, the last one first,
and the counts that `bridge.Join` has returned to it. -/
structure Traced where
  call : RelayCall
  operator : StreamRef
  own : List RelayEvent
  counts : Option (UInt64 × UInt64)

/-- The relay, and whether the context of the server is cancelled. -/
structure Evidence where
  relay : RelayState
  cancelled : Bool

/-- What the environment supplies to a step, and whether the context is cancelled before it. -/
structure TracedInput where
  relay : RelayInput
  cancel : Bool

/-- The context of the server at a step. Once cancelled, it stays so. -/
def Evidence.cancelledAt (s : Evidence) (input : TracedInput) : Bool :=
  s.cancelled || input.cancel

/-- The recorder that a step sees: none, if the context is cancelled. -/
def Evidence.config (s : Evidence) (cfg : Config) (input : TracedInput) : Config :=
  { cfg with audit := cfg.audit && !s.cancelledAt input }

/-- The counts after a step: `bridge.Join` returns at the end of the copy loop. -/
def Traced.countsAfter (c : Traced) (input : RelayInput) : Option (UInt64 × UInt64) :=
  match c.call with
  | .copying _ => some (input.aToB, input.bToA)
  | _ => c.counts

/-- One step of a call. -/
def tracedStep (cfg : Config) (s : Evidence) (c : Traced) (input : TracedInput) :
    Option (Evidence × Traced) :=
  (c.call.next (s.config cfg input) s.relay input.relay).map fun result =>
    (⟨result.1, s.cancelledAt input⟩,
      { c with
        call := result.2
        own := (if input.relay.records (s.config cfg input) then c.call.event.toList else []) ++
          c.own
        counts := c.countsAfter input.relay })

/-- A call starts with nothing recorded. -/
def tracedMayStart (s : Evidence) (c : Traced) : Bool :=
  relayMayStart s.relay c.call && c.own = [] && c.counts = none &&
    match c.call with
    | .join req => c.operator = req.operator
    | _ => true

/-- One action of the relay. -/
def evidenceStep (cfg : Config) : Pool Evidence Traced → PoolAction Traced TracedInput →
    Option (Pool Evidence Traced) :=
  poolStep tracedMayStart (tracedStep cfg)

/-- A relay that carries no stream yet, on some database. -/
def newEvidence (tables : Tables) : Pool Evidence Traced :=
  ⟨⟨(newRelay tables).shared, false⟩, []⟩

/-- A refusal is on record: the only event of a join that refuses its stream is a denial with the
reason of the refusal. -/
def Traced.DenialRecorded (c : Traced) : Prop :=
  match c.call with
  | .refuse _ reason | .returned (some reason) =>
      ∃ grant detail, c.own = [.streamDenied grant reason detail]
  | _ => True

/-- The end of a stream is on record: a join whose copy loop has returned, and that has recorded
the opening of its stream, has then recorded one end, for the same grant and with the counts of the
loop. -/
def Traced.ClosingRecorded (c : Traced) : Prop :=
  match c.call with
  | .release _ | .returned none => ∀ grant sessionID, .streamOpened grant sessionID ∈ c.own →
      ∃ aToB bToA elapsed reason, c.counts = some (aToB, bToA) ∧
        c.own = [.streamClosed grant aToB bToA elapsed reason, .streamOpened grant sessionID]
  | _ => True

/-- A write to the store succeeds. -/
def Evidence.writes (s : Evidence) (input : TracedInput) : Bool :=
  !s.cancelledAt input && !input.relay.fault

/-- The first condition: the join passes its own checks, and the write of a denial succeeds. -/
def refusesOnRecord (cfg : Config) (s : Evidence) (c : Traced) (input : TracedInput) : Bool :=
  match c.call with
  | .join req => (req.authorize cfg input.relay.now).isOk
  | .deny _ _ _ _ => s.writes input
  | _ => true

/-- The second condition: for a stream whose opening was recorded, the write of its end succeeds. -/
def closesOnRecord (s : Evidence) (c : Traced) (input : TracedInput) : Bool :=
  match c.call with
  | .recordClosed _ _ => c.own = [] || s.writes input
  | _ => true

/-- What is known of a call without any condition. -/
def Traced.Tells (s : Evidence) (c : Traced) : Prop :=
  match c.call with
  | .join req | .checkGrant req _ | .openAgent req _ _ | .deny req _ _ _ | .register req _ _ _ =>
      c.own = [] ∧ c.operator = req.operator
  | .refuse req _ => c.operator = req.operator
  | .returned (some reason) => (c.operator, reason) ∈ s.relay.resets
  | .recordOpened _ => c.own = []
  | .copying j => c.own = [] ∨ c.own = [.streamOpened j.grant j.sessionID]
  | .recordClosed j event =>
      (c.own = [] ∨ c.own = [.streamOpened j.grant j.sessionID]) ∧
        ∃ aToB bToA elapsed reason, c.counts = some (aToB, bToA) ∧
          event = .streamClosed j.grant aToB bToA elapsed reason
  | _ => True

/-- The call is part of a revocation. -/
def RelayCall.revokes : RelayCall → Bool
  | .revoke _ _ _ | .terminate _ | .resetting _ _ _ | .revoked _ | .revokeFailed => true
  | _ => false

/-- What one step of a call does to the call, the trail and the resets. -/
inductive Move (cfg : Config) (s : RelayState) (input : RelayInput) :
    RelayCall → RelayState → RelayCall → Prop
  | refused (req reason) (h : req.authorize cfg input.now = .error reason) :
      Move cfg s input (.join req) s (.refuse req reason)
  | authorized (req grant) (h : req.authorize cfg input.now = .ok grant) :
      Move cfg s input (.join req) s (.checkGrant req grant)
  | allowed (req grant sessionID) :
      Move cfg s input (.checkGrant req grant) s (.openAgent req grant sessionID)
  | isRevoked (req grant reason detail) :
      Move cfg s input (.checkGrant req grant) s (.deny req grant reason detail)
  | unopened (req grant sessionID reason detail) :
      Move cfg s input (.openAgent req grant sessionID) s (.deny req grant reason detail)
  | opened (req grant sessionID agent) :
      Move cfg s input (.openAgent req grant sessionID) s (.register req grant sessionID agent)
  | denied (req grant reason detail) :
      Move cfg s input (.deny req grant reason detail)
        (s.record cfg input (.streamDenied grant reason detail)) (.refuse req reason)
  | reset (req reason) :
      Move cfg s input (.refuse req reason) (s.reset req.operator reason) (.returned (some reason))
  | registered (req grant sessionID agent live j) :
      Move cfg s input (.register req grant sessionID agent) { s with live } (.recordOpened j)
  | recordedOpened (j) :
      Move cfg s input (.recordOpened j)
        (s.record cfg input (.streamOpened j.grant j.sessionID)) (.copying j)
  | copied (j reason) :
      Move cfg s input (.copying j) s (.recordClosed j
        (.streamClosed j.grant input.aToB input.bToA input.elapsed reason))
  | recordedClosed (j event) :
      Move cfg s input (.recordClosed j event) (s.record cfg input event) (.release j)
  | released (j live) : Move cfg s input (.release j) { s with live } (.returned none)
  | revoking (call s' call') (htrail : s'.trail = s.trail) (hresets : s.resets ⊆ s'.resets)
      (hcall : call.revokes = true) (hcall' : call'.revokes = true) :
      Move cfg s input call s' call'

section Moves

variable {cfg : Config} {s s' : RelayState} {input : RelayInput} {call call' : RelayCall}

theorem next_move (h : call.next cfg s input = some (s', call')) :
    Move cfg s input call s' call' := by
  cases call with
  | join req =>
      simp only [RelayCall.next] at h
      split at h
      next reason hreason =>
        cases h
        exact .refused req reason hreason
      next grant hgrant =>
        cases h
        exact .authorized req grant hgrant
  | checkGrant req grant =>
      cases h
      rcases check_grant_step_cases cfg s req grant input.fault with
        ⟨sessionID, hstep⟩ | ⟨reason, detail, hstep⟩
      · exact hstep ▸ .allowed req grant sessionID
      · exact hstep ▸ .isRevoked req grant reason detail
  | openAgent req grant sessionID =>
      simp only [RelayCall.next] at h
      split at h
      · cases h
        exact .unopened req grant sessionID _ _
      · cases h
        exact .opened req grant sessionID _
  | deny req grant reason detail =>
      cases h
      exact .denied req grant reason detail
  | refuse req reason =>
      cases h
      exact .reset req reason
  | register req grant sessionID agent =>
      cases h
      exact .registered req grant sessionID agent _ _
  | recordOpened j =>
      cases h
      exact .recordedOpened j
  | copying j =>
      cases h
      exact .copied j _
  | recordClosed j event =>
      cases h
      exact .recordedClosed j event
  | release j =>
      cases h
      exact .released j _
  | returned refused => cases h
  | revoke revocation reason actor =>
      simp only [RelayCall.next] at h
      split at h
      · cases h
        exact .revoking _ _ _ rfl (List.Subset.refl _) rfl rfl
      · split at h
        · cases h
          exact .revoking _ _ _ rfl (List.Subset.refl _) rfl rfl
        · cases h
          refine .revoking _ _ _ rfl (List.Subset.refl _) rfl ?_
          split <;> rfl
  | terminate grantIDs =>
      cases h
      exact .revoking _ _ _ rfl (List.Subset.refl _) rfl rfl
  | resetting grantIDs rest agent =>
      cases agent with
      | some agent =>
          cases h
          exact .revoking _ _ _ rfl (List.subset_cons_self _ _) rfl rfl
      | none =>
          cases rest with
          | nil =>
              cases h
              exact .revoking _ _ _ rfl (List.Subset.refl _) rfl rfl
          | cons pair rest =>
              obtain ⟨next, -, hnext⟩ := Option.map_eq_some_iff.1 h
              cases hnext
              exact .revoking _ _ _ rfl (List.subset_cons_self _ _) rfl rfl
  | revoked grantIDs => cases h
  | revokeFailed => cases h

@[simp] theorem record_trail (s : RelayState) (cfg : Config) (input : RelayInput)
    (event : RelayEvent) : (s.record cfg input event).trail =
      (if input.records cfg then [event] else []) ++ s.trail := by
  unfold RelayState.record
  split <;> rfl

/-- A call that revokes records nothing. -/
theorem event_of_revokes (h : call.revokes = true) : call.event = none := by
  cases call <;> first | rfl | cases h

/-- The trail grows by the event that the call has recorded. -/
theorem Move.trail (h : Move cfg s input call s' call') :
    s'.trail = (if input.records cfg then call.event.toList else []) ++ s.trail := by
  cases h with
  | denied | recordedOpened | recordedClosed => exact record_trail s cfg input _
  | revoking call s' call' htrail hresets hcall hcall' =>
      rw [event_of_revokes hcall, htrail]
      split <;> rfl
  | _ => simp [RelayCall.event, RelayState.reset]

/-- A reset that was sent stays sent. -/
theorem Move.resets (h : Move cfg s input call s' call') : s.resets ⊆ s'.resets := by
  cases h with
  | denied | recordedOpened | recordedClosed => simp
  | reset req reason => exact List.subset_cons_self _ _
  | revoking call s' call' htrail hresets hcall hcall' => exact hresets
  | _ => exact List.Subset.refl _

end Moves

section Steps

variable {cfg : Config} {s s' : Evidence} {c c' : Traced} {input : TracedInput}

/-- A step of a traced call is a move of the call, with the event that it records. -/
theorem traced_step_elim {P : Evidence → Traced → Prop}
    (h : tracedStep cfg s c input = some (s', c'))
    (hmoves : ∀ relay call,
      Move (s.config cfg input) s.relay input.relay c.call relay call →
      P ⟨relay, s.cancelledAt input⟩ { c with
        call
        own := (if input.relay.records (s.config cfg input) then c.call.event.toList else []) ++
          c.own
        counts := c.countsAfter input.relay }) : P s' c' := by
  obtain ⟨⟨relay, call⟩, hnext, hresult⟩ := Option.map_eq_some_iff.1 h
  obtain ⟨rfl, rfl⟩ := Prod.mk.inj hresult
  exact hmoves relay call (next_move hnext)

/-- Nothing is claimed of a call that revokes. -/
theorem of_revokes (h : c.call.revokes = true) (s : Evidence) :
    c.Tells s ∧ c.DenialRecorded ∧ c.ClosingRecorded := by
  obtain ⟨call, operator, own, counts⟩ := c
  cases call <;> first | exact ⟨trivial, trivial, trivial⟩ | cases h

/-- A step that records nothing leaves the events of the call. -/
theorem own_of_silent {call : RelayCall} (h : call.event = none) (records : Bool)
    (own : List RelayEvent) : (if records then call.event.toList else []) ++ own = own := by
  rw [h]
  split <;> rfl

/-- With an auditor, an event is recorded exactly if the write succeeds. -/
theorem records_eq (haudit : cfg.audit = true) :
    input.relay.records (s.config cfg input) = s.writes input := by
  rw [RelayInput.records, Evidence.config, haudit, Bool.true_and, Evidence.writes]

/-- A step of a call keeps what is known of it. -/
theorem tells_step (h : c.Tells s) (hstep : tracedStep cfg s c input = some (s', c')) :
    c'.Tells s' := by
  refine traced_step_elim (P := fun s c => c.Tells s) hstep fun relay call' hmove => ?_
  obtain ⟨call, operator, own, counts⟩ := c
  cases hmove with
  | refused req reason hreason => exact h.2
  | authorized req grant hgrant => exact ⟨(own_of_silent rfl _ _).trans h.1, h.2⟩
  | allowed req grant sessionID => exact ⟨(own_of_silent rfl _ _).trans h.1, h.2⟩
  | isRevoked req grant reason detail => exact ⟨(own_of_silent rfl _ _).trans h.1, h.2⟩
  | unopened req grant sessionID reason detail =>
      exact ⟨(own_of_silent rfl _ _).trans h.1, h.2⟩
  | opened req grant sessionID agent => exact ⟨(own_of_silent rfl _ _).trans h.1, h.2⟩
  | denied req grant reason detail => exact h.2
  | reset req reason =>
      -- The stream that is reset is the one that the call was started for.
      obtain rfl : operator = req.operator := h
      exact List.mem_cons_self
  | registered req grant sessionID agent live j => exact (own_of_silent rfl _ _).trans h.1
  | recordedOpened j =>
      have hnone : own = [] := h
      subst hnone
      show _ = [] ∨ _ = [RelayEvent.streamOpened j.grant j.sessionID]
      split
      · exact .inr rfl
      · exact .inl rfl
  | copied j reason =>
      refine ⟨?_, _, _, _, _, rfl, rfl⟩
      rw [own_of_silent rfl]
      exact h
  | recordedClosed j event => trivial
  | released j live => trivial
  | revoking call s' call' htrail hresets hcall hcall' => exact (of_revokes hcall' _).1

/-- A refusal that meets the condition is recorded. -/
theorem denial_step (haudit : cfg.audit = true) (h : c.Tells s) (hd : c.DenialRecorded)
    (hguard : refusesOnRecord cfg s c input = true)
    (hstep : tracedStep cfg s c input = some (s', c')) : c'.DenialRecorded := by
  refine traced_step_elim (P := fun _ c => c.DenialRecorded) hstep fun relay call' hmove => ?_
  obtain ⟨call, operator, own, counts⟩ := c
  cases hmove with
  | refused req reason hreason =>
      -- One of the first five checks failed, which the condition excludes.
      have hok : (req.authorize cfg input.relay.now).isOk = true := hguard
      have herror : req.authorize cfg input.relay.now = .error reason := hreason
      rw [herror] at hok
      cases hok
  | denied req grant reason detail =>
      have hnone : own = [] := h.1
      have hwrites : s.writes input = true := hguard
      refine ⟨grant, detail, ?_⟩
      simp [hnone, records_eq haudit, hwrites, RelayCall.event]
  | reset req reason =>
      obtain ⟨grant, detail, hevents⟩ := hd
      exact ⟨grant, detail, (own_of_silent rfl _ _).trans hevents⟩
  | revoking call s' call' htrail hresets hcall hcall' => exact (of_revokes hcall' s).2.1
  | _ => trivial

/-- A refusal that does not meet the condition is not. -/
theorem denial_lost (haudit : cfg.audit = true) (h : c.Tells s)
    (hguard : refusesOnRecord cfg s c input = false)
    (hstep : tracedStep cfg s c input = some (s', c')) : ¬ c'.DenialRecorded := by
  refine traced_step_elim (P := fun _ c => ¬ c.DenialRecorded) hstep fun relay call' hmove => ?_
  obtain ⟨call, operator, own, counts⟩ := c
  cases hmove with
  | refused req reason hreason =>
      have hnone : own = [] := h.1
      rintro ⟨grant, detail, hevents⟩
      simp [hnone, RelayCall.event] at hevents
  | authorized req grant hgrant =>
      have hok : (req.authorize cfg input.relay.now).isOk = false := hguard
      have hgrant : req.authorize cfg input.relay.now = .ok grant := hgrant
      rw [hgrant] at hok
      cases hok
  | denied req grant reason detail =>
      have hnone : own = [] := h.1
      have hlost : s.writes input = false := hguard
      rintro ⟨grant, detail, hevents⟩
      simp [hnone, records_eq haudit, hlost] at hevents
  | revoking call s' call' htrail hresets hcall hcall' =>
      cases call <;> first | cases hguard | cases hcall
  | _ => cases hguard

/-- The end of a stream that meets the condition is recorded. -/
theorem closing_step (haudit : cfg.audit = true) (h : c.Tells s) (hc : c.ClosingRecorded)
    (hguard : closesOnRecord s c input = true)
    (hstep : tracedStep cfg s c input = some (s', c')) : c'.ClosingRecorded := by
  refine traced_step_elim (P := fun _ c => c.ClosingRecorded) hstep fun relay call' hmove => ?_
  obtain ⟨call, operator, own, counts⟩ := c
  cases hmove with
  | recordedClosed j event =>
      obtain ⟨hopened, aToB, bToA, elapsed, reason, hcounts, rfl⟩ := h
      intro grant sessionID hmem
      rcases hopened with hnone | hopened
      · -- The opening was not recorded, so there is no event to answer for.
        have hnone : own = [] := hnone
        subst hnone
        split at hmem
        · rcases List.mem_cons.1 hmem with hmem | hmem
          · cases hmem
          · cases hmem
        · cases hmem
      · have hopened : own = [.streamOpened j.grant j.sessionID] := hopened
        subst hopened
        have hwrites : s.writes input = true := by simpa [closesOnRecord] using hguard
        rw [if_pos ((records_eq haudit).trans hwrites)] at hmem ⊢
        simp only [RelayCall.event, Option.toList_some, List.cons_append, List.nil_append,
          List.mem_cons, reduceCtorEq, RelayEvent.streamOpened.injEq, List.not_mem_nil, or_false,
          false_or] at hmem
        obtain ⟨rfl, rfl⟩ := hmem
        exact ⟨aToB, bToA, elapsed, reason, hcounts, rfl⟩
  | released j live =>
      intro grant sessionID hmem
      rw [own_of_silent rfl] at hmem ⊢
      exact hc grant sessionID hmem
  | revoking call s' call' htrail hresets hcall hcall' =>
      exact (of_revokes hcall' s).2.2
  | _ => trivial

/-- The end of a stream that does not meet the condition is not. -/
theorem closing_gone (haudit : cfg.audit = true) (h : c.Tells s)
    (hguard : closesOnRecord s c input = false)
    (hstep : tracedStep cfg s c input = some (s', c')) : ¬ c'.ClosingRecorded := by
  refine traced_step_elim (P := fun _ c => ¬ c.ClosingRecorded) hstep fun relay call' hmove => ?_
  obtain ⟨call, operator, own, counts⟩ := c
  cases hmove with
  | recordedClosed j event =>
      have hboth : own ≠ [] ∧ s.writes input = false := by
        simpa [closesOnRecord] using hguard
      obtain ⟨hopened, -⟩ := h
      have hopened : own = [.streamOpened j.grant j.sessionID] := hopened.resolve_left hboth.1
      subst hopened
      intro hc
      obtain ⟨aToB, bToA, elapsed, reason, -, hevents⟩ :=
        hc j.grant j.sessionID (by simp)
      simp [records_eq haudit, hboth.2] at hevents
  | revoking call s' call' htrail hresets hcall hcall' =>
      cases call <;> first | cases hguard | cases hcall
  | _ => cases hguard

/-- What is known of a call stays known when other calls reset streams. -/
theorem Traced.Tells.mono (h : c.Tells s) (hresets : s.relay.resets ⊆ s'.relay.resets) :
    c.Tells s' := by
  obtain ⟨call, operator, own, counts⟩ := c
  cases call with
  | returned refused =>
      cases refused with
      | none => trivial
      | some reason => exact hresets h
  | _ => exact h

/-- A step of a call: the trail and the events of the call grow by the same event, and no reset is
taken back. -/
theorem traced_step_trail (h : tracedStep cfg s c input = some (s', c')) :
    s.relay.resets ⊆ s'.relay.resets ∧
      ∃ new, s'.relay.trail = new ++ s.relay.trail ∧ c'.own = new ++ c.own := by
  refine traced_step_elim (P := fun s' c' => s.relay.resets ⊆ s'.relay.resets ∧
    ∃ new, s'.relay.trail = new ++ s.relay.trail ∧ c'.own = new ++ c.own) h
    fun relay call hmove => ?_
  exact ⟨hmove.resets, _, hmove.trail, rfl⟩

theorem traced_may_start (h : tracedMayStart s c = true) :
    c.own = [] ∧ c.Tells s ∧ c.DenialRecorded ∧ c.ClosingRecorded := by
  obtain ⟨call, operator, own, counts⟩ := c
  simp only [tracedMayStart, Bool.and_eq_true, decide_eq_true_eq] at h
  obtain ⟨⟨⟨hstart, hown⟩, -⟩, hoperator⟩ := h
  refine ⟨hown, ?_⟩
  cases call with
  | join req => exact ⟨⟨hown, of_decide_eq_true hoperator⟩, trivial, trivial⟩
  | revoke revocation reason actor => exact ⟨trivial, trivial, trivial⟩
  | _ => cases hstart

end Steps

section Pools

variable {cfg : Config} {pool next : Pool Evidence Traced}
  {action : PoolAction Traced TracedInput}

/-- The trail is what the calls have recorded, each in its order. -/
structure Accounted (pool : Pool Evidence Traced) : Prop where
  sum : (pool.shared.relay.trail : Multiset RelayEvent) =
    (pool.calls.map fun c => (c.own : Multiset RelayEvent)).sum
  sublist : ∀ c ∈ pool.calls, c.own.Sublist pool.shared.relay.trail

theorem accounted_step (h : Accounted pool) (hstep : evidenceStep cfg pool action = some next) :
    Accounted next := by
  rcases pool_step_cases hstep with ⟨c, -, hmay, rfl⟩ |
    ⟨index, input, c, s', c', -, hcall, hcstep, rfl⟩
  · have hown := (traced_may_start hmay).1
    refine ⟨?_, ?_⟩
    · rw [List.map_append, List.sum_append, ← h.sum]
      simp [hown]
    · intro d hd
      rcases List.mem_append.1 hd with hd | hd
      · exact h.sublist d hd
      · obtain rfl := List.mem_singleton.1 hd
        rw [hown]
        exact List.nil_sublist _
  · obtain ⟨-, new, htrail, hown⟩ := traced_step_trail hcstep
    refine ⟨?_, ?_⟩
    · -- The call's own events and the trail grow by the same.
      have hsum := sum_map_set (fun c : Traced => (c.own : Multiset RelayEvent)) c' hcall
      rw [← h.sum, hown, ← Multiset.coe_add, ← add_assoc, add_left_inj] at hsum
      show (s'.relay.trail : Multiset RelayEvent) = _
      rw [hsum, htrail, ← Multiset.coe_add, add_comm]
    · intro d hd
      show d.own.Sublist s'.relay.trail
      rw [htrail]
      rcases List.mem_or_eq_of_mem_set hd with hd | rfl
      · exact (h.sublist d hd).trans (List.sublist_append_right _ _)
      · rw [hown]
        exact (h.sublist c (List.mem_of_getElem? hcall)).append_left new

theorem accounted_new (tables : Tables) : Accounted (newEvidence tables) where
  sum := rfl
  sublist := fun _ h => absurd h List.not_mem_nil

/-- A property of calls that a guarded step gives and that other calls do not disturb holds of all
calls after a guarded action, together with what is known of them. -/
theorem told_step {property : Traced → Prop}
    {guard : Evidence → Traced → TracedInput → Bool}
    (hstart : ∀ {s c}, tracedMayStart s c = true → property c)
    (hcall : ∀ {s c input s' c'}, c.Tells s → property c → guard s c input = true →
      tracedStep cfg s c input = some (s', c') → property c')
    (h : pool.Holds (fun _ => True) fun s c => c.Tells s ∧ property c)
    (hstep : restrict (poolGuard guard) (evidenceStep cfg) pool action = some next) :
    next.Holds (fun _ => True) fun s c => c.Tells s ∧ property c := by
  unfold evidenceStep at hstep
  rw [restrict_pool_guard] at hstep
  refine pool_step_holds ?_ ?_ ?_ h hstep
  · intro s c _ hmay
    exact ⟨(traced_may_start hmay).2.1, hstart hmay⟩
  · intro s c input s' c' _ htells hcstep
    obtain ⟨hguard, hcstep⟩ := guarded_eq_some.1 hcstep
    exact ⟨trivial, tells_step htells.1 hcstep, hcall htells.1 htells.2 hguard hcstep⟩
  · intro s c input s' c' other _ _ hcstep hother
    obtain ⟨-, hcstep⟩ := guarded_eq_some.1 hcstep
    exact ⟨hother.1.mono (traced_step_trail hcstep).1, hother.2⟩

/-- A step of a call that does not meet the condition shows in the calls after it. -/
theorem told_lost {property : Traced → Prop}
    {guard : Evidence → Traced → TracedInput → Bool}
    (hcall : ∀ {s c input s' c'}, c.Tells s → guard s c input = false →
      tracedStep cfg s c input = some (s', c') → ¬ property c')
    (h : pool.Holds (fun _ => True) fun s c => c.Tells s ∧ property c)
    (hstep : evidenceStep cfg pool action = some next)
    (hguard : poolGuard guard pool action = false) : ¬ ∀ c ∈ next.calls, property c := by
  rcases pool_step_cases hstep with ⟨c, rfl, -, -⟩ |
    ⟨index, input, c, s', c', rfl, hget, hcstep, rfl⟩
  · cases hguard
  · intro hall
    have hguard : guard pool.shared c input = false := by simpa [poolGuard, hget] using hguard
    refine hcall (h.calls c (List.mem_of_getElem? hget)).1 hguard hcstep (hall c' ?_)
    obtain ⟨hlt, -⟩ := List.getElem?_eq_some_iff.1 hget
    exact List.mem_set hlt _

/-- A run keeps a property of its calls in every state exactly if all its steps meet the
condition. -/
theorem told_iff_guarded {property : Traced → Prop}
    {guard : Evidence → Traced → TracedInput → Bool}
    (hstart : ∀ {s c}, tracedMayStart s c = true → property c)
    (hkept : ∀ {s c input s' c'}, c.Tells s → property c → guard s c input = true →
      tracedStep cfg s c input = some (s', c') → property c')
    (hlost : ∀ {s c input s' c'}, c.Tells s → guard s c input = false →
      tracedStep cfg s c input = some (s', c') → ¬ property c')
    {tables : Tables} {actions : List (PoolAction Traced TracedInput)}
    (hrun : run (evidenceStep cfg) (newEvidence tables) actions = some pool) :
    run (restrict (poolGuard guard) (evidenceStep cfg)) (newEvidence tables) actions = some pool ↔
      ∀ k state, run (evidenceStep cfg) (newEvidence tables) (actions.take k) = some state →
        ∀ c ∈ state.calls, property c :=
  run_restrict_iff_always (fun h c hc => (h.calls c hc).2)
    (fun h hstep => told_step hstart hkept h hstep)
    (fun h hstep hguard => told_lost hlost h hstep hguard)
    ⟨trivial, fun _ hc => absurd hc List.not_mem_nil⟩ hrun

/-- What is known of the calls holds after every run. -/
theorem tells_run {tables : Tables} {actions : List (PoolAction Traced TracedInput)}
    (hrun : run (evidenceStep cfg) (newEvidence tables) actions = some pool) :
    ∀ c ∈ pool.calls, c.Tells pool.shared := by
  have hholds : pool.Holds (fun _ => True) fun s c => c.Tells s := by
    refine run_invariant (fun h hstep => pool_step_holds ?_ ?_ ?_ h hstep)
      ⟨trivial, fun _ hc => absurd hc List.not_mem_nil⟩ hrun
    · exact fun _ hmay => (traced_may_start hmay).2.1
    · exact fun _ htells hcstep => ⟨trivial, tells_step htells hcstep⟩
    · exact fun _ _ hcstep hother => hother.mono (traced_step_trail hcstep).1
  exact hholds.calls

end Pools

/-- With an auditor, every refusal is on record in every state of a run if and only if all refusals
come after the checks of the join, and no write of a denial fails. A join that has refused its
stream has reset it with the reason, and what a join has recorded is in the trail. -/
theorem refusals_recorded {cfg : Config} (haudit : cfg.audit = true) {tables : Tables}
    {actions : List (PoolAction Traced TracedInput)} {pool : Pool Evidence Traced}
    (hrun : run (evidenceStep cfg) (newEvidence tables) actions = some pool) :
    (run (restrict (poolGuard (refusesOnRecord cfg)) (evidenceStep cfg)) (newEvidence tables)
        actions = some pool ↔
      ∀ k state, run (evidenceStep cfg) (newEvidence tables) (actions.take k) = some state →
        ∀ c ∈ state.calls, c.DenialRecorded) ∧
    ∀ c ∈ pool.calls, c.own.Sublist pool.shared.relay.trail ∧
      ∀ reason, c.call = .returned (some reason) →
        (c.operator, reason) ∈ pool.shared.relay.resets := by
  have haccounted : Accounted pool :=
    run_invariant (fun h hstep => accounted_step h hstep) (accounted_new tables) hrun
  have htells := tells_run hrun
  refine ⟨told_iff_guarded (fun hmay => (traced_may_start hmay).2.2.1)
    (fun htells hd hguard hstep => denial_step haudit htells hd hguard hstep)
    (fun htells hguard hstep => denial_lost haudit htells hguard hstep) hrun, ?_⟩
  intro c hc
  refine ⟨haccounted.sublist c hc, fun reason hreturned => ?_⟩
  have htold := htells c hc
  rw [Traced.Tells, hreturned] at htold
  exact htold

/-- With an auditor, every end of a recorded stream is on record in every state of a run if and only
if the write of none of them fails. The trail is made of what the joins have
recorded, each in its own order. -/
theorem closings_recorded {cfg : Config} (haudit : cfg.audit = true) {tables : Tables}
    {actions : List (PoolAction Traced TracedInput)} {pool : Pool Evidence Traced}
    (hrun : run (evidenceStep cfg) (newEvidence tables) actions = some pool) :
    (run (restrict (poolGuard closesOnRecord) (evidenceStep cfg)) (newEvidence tables)
        actions = some pool ↔
      ∀ k state, run (evidenceStep cfg) (newEvidence tables) (actions.take k) = some state →
        ∀ c ∈ state.calls, c.ClosingRecorded) ∧
    (pool.shared.relay.trail : Multiset RelayEvent) =
      (pool.calls.map fun c => (c.own : Multiset RelayEvent)).sum ∧
    ∀ c ∈ pool.calls, c.own.Sublist pool.shared.relay.trail := by
  have haccounted : Accounted pool :=
    run_invariant (fun h hstep => accounted_step h hstep) (accounted_new tables) hrun
  refine ⟨told_iff_guarded (fun hmay => (traced_may_start hmay).2.2.2)
    (fun htells hc hguard hstep => closing_step haudit htells hc hguard hstep)
    (fun htells hguard hstep => closing_gone haudit htells hguard hstep) hrun, haccounted.sum,
    haccounted.sublist⟩

section Runs

/-- The stream of a request, before anything is done with it. -/
def traced (req : JoinRequest) : Traced := ⟨.join req, req.operator, [], none⟩

/-- A step of the first call, with the context as it is, or cancelled before it. -/
def advance (cancel : Bool) (input : RelayInput) : PoolAction Traced TracedInput :=
  .advance 0 ⟨input, cancel⟩

/-- The copy loop has carried seven bytes one way and nine the other. -/
def copiedInput : RelayInput := ⟨Time.ofUnix 10, false, .ok 1, 7, 9, 0, false, 0⟩

/-- The agent cannot be reached. -/
def noAgentInput : RelayInput := ⟨Time.ofUnix 10, false, .error (.other []), 0, 0, 0, false, 0⟩

/-- A stream is refused because the agent cannot be reached. -/
def refusedLate : List (PoolAction Traced TracedInput) :=
  .start (traced sampleJoin) :: List.replicate 5 (advance false noAgentInput)

/-- A stream is opened and closed while the server runs. -/
def openedAndClosed : List (PoolAction Traced TracedInput) :=
  .start (traced sampleJoin) :: List.replicate 8 (advance false copiedInput)

/-- The server stops while the stream is open. -/
def openedAndStopped : List (PoolAction Traced TracedInput) :=
  .start (traced sampleJoin) :: List.replicate 6 (advance false copiedInput) ++
    List.replicate 2 (advance true copiedInput)

theorem refused_late_recorded :
    ∃ pool, run (evidenceStep sampleConfig) (newEvidence sampleTables) refusedLate =
        some pool ∧ (∀ c ∈ pool.calls, c.DenialRecorded) ∧
      (pool.calls.map fun c => c.call) = [.returned (some reasonNoAgent)] := by
  have hguarded : (run (restrict (poolGuard (refusesOnRecord sampleConfig))
      (evidenceStep sampleConfig)) (newEvidence sampleTables) refusedLate).map
      (fun pool => pool.calls.map fun c => c.call) = some [.returned (some reasonNoAgent)] := by
    decide +kernel
  obtain ⟨pool, hguarded, hcalls⟩ := Option.map_eq_some_iff.1 hguarded
  have hrun : run (evidenceStep sampleConfig) (newEvidence sampleTables) refusedLate =
      some pool := run_of_restrict hguarded
  refine ⟨pool, hrun, ?_, hcalls⟩
  exact ((refusals_recorded rfl hrun).1.1 hguarded) refusedLate.length pool
    (by rw [List.take_length]; exact hrun)

/-- A stream that the join refuses by itself: the configuration, the request and the clock. -/
structure EarlyRefusal where
  cfg : Config
  req : JoinRequest
  now : Int64

/-- No grant; bytes that are no grant; a signature that does not verify; a grant that has expired,
that is not valid yet, of another user, and for another device. -/
def earlyRefusals : List EarlyRefusal :=
  [⟨sampleConfig, { sampleJoin with payload := [] }, 10⟩,
    ⟨sampleConfig, { sampleJoin with payload := [1] }, 10⟩,
    ⟨{ sampleConfig with ed25519Verify := fun _ _ _ => false }, sampleJoin, 10⟩,
    ⟨sampleConfig, sampleJoin, 1000⟩,
    ⟨sampleConfig, sampleJoin, -1000⟩,
    ⟨sampleConfig, { sampleJoin with userID := ascii "v" }, 10⟩,
    ⟨sampleConfig, { sampleJoin with deviceID := ascii "e" }, 10⟩]

/-- The two steps in which the stream is refused. -/
def EarlyRefusal.actions (x : EarlyRefusal) : List (PoolAction Traced TracedInput) :=
  .start (traced x.req) ::
    List.replicate 2 (advance false { sampleInput with now := Time.ofUnix x.now })

/-- The stream is refused, an auditor is there, and the trail is empty. -/
def EarlyRefusal.Unrecorded (x : EarlyRefusal) : Prop :=
  x.cfg.audit = true ∧ ∃ pool, run (evidenceStep x.cfg) (newEvidence .empty) x.actions = some pool ∧
    pool.shared.relay.trail = [] ∧ ∃ c ∈ pool.calls, ¬ c.DenialRecorded

/-- The call has refused its stream. -/
def RelayCall.hasRefused : RelayCall → Bool
  | .returned (some _) => true
  | _ => false

theorem unrecorded_of_run {x : EarlyRefusal} (haudit : x.cfg.audit = true)
    (h : (run (evidenceStep x.cfg) (newEvidence .empty) x.actions).map (fun pool =>
      (pool.calls.any (fun c => c.call.hasRefused), pool.shared.relay.trail)) = some (true, [])) :
    x.Unrecorded := by
  obtain ⟨pool, hrun, hpool⟩ := Option.map_eq_some_iff.1 h
  obtain ⟨hany, htrail⟩ := Prod.mk.inj hpool
  obtain ⟨c, hc, hrefused⟩ := List.any_eq_true.1 hany
  have haccounted : Accounted pool :=
    run_invariant (fun h hstep => accounted_step h hstep) (accounted_new .empty) hrun
  have hsublist := haccounted.sublist c hc
  have hown : c.own = [] := List.sublist_nil.1 (htrail ▸ hsublist)
  refine ⟨haudit, pool, hrun, htrail, c, hc, ?_⟩
  obtain ⟨call, operator, own, counts⟩ := c
  subst hown
  cases call with
  | returned refused =>
      cases refused with
      | none => cases hrefused
      | some reason =>
          rintro ⟨grant, detail, hevents⟩
          cases hevents
  | _ => cases hrefused

/-- None of the early refusals is in the trail. -/
theorem refused_unrecorded : earlyRefusals.Forall EarlyRefusal.Unrecorded := by
  refine ⟨?_, ?_, ?_, ?_, ?_, ?_, ?_⟩ <;>
    exact unrecorded_of_run rfl (by decide +kernel)

theorem opened_and_closed_recorded :
    ∃ pool, run (evidenceStep sampleConfig) (newEvidence sampleTables) openedAndClosed =
        some pool ∧ (∀ c ∈ pool.calls, c.ClosingRecorded) ∧
      pool.shared.relay.trail = [.streamClosed sampleGrant 7 9 0 reasonOK,
        .streamOpened sampleGrant []] := by
  have hguarded : (run (restrict (poolGuard closesOnRecord) (evidenceStep sampleConfig))
      (newEvidence sampleTables) openedAndClosed).map
      (fun pool => pool.shared.relay.trail) = some [.streamClosed sampleGrant 7 9 0 reasonOK,
        .streamOpened sampleGrant []] := by decide +kernel
  obtain ⟨pool, hguarded, htrail⟩ := Option.map_eq_some_iff.1 hguarded
  have hrun : run (evidenceStep sampleConfig) (newEvidence sampleTables)
      openedAndClosed = some pool := run_of_restrict hguarded
  refine ⟨pool, hrun, ?_, htrail⟩
  exact ((closings_recorded rfl hrun).1.1 hguarded) openedAndClosed.length pool
    (by rw [List.take_length]; exact hrun)

/-- The end of a stream that is open when the server stops is not in the trail. -/
theorem closing_lost :
    ∃ pool, run (evidenceStep sampleConfig) (newEvidence sampleTables) openedAndStopped =
        some pool ∧ (pool.calls.map fun c => c.call) = [.returned none] ∧
      pool.shared.relay.trail = [.streamOpened sampleGrant []] ∧
      ∃ c ∈ pool.calls, ¬ c.ClosingRecorded := by
  have hevaluate : (run (evidenceStep sampleConfig) (newEvidence sampleTables)
      openedAndStopped).map (fun pool => (pool.calls.map (fun c => (c.call, c.own)),
        pool.shared.relay.trail)) =
      some ([(.returned none, [.streamOpened sampleGrant []])],
        [.streamOpened sampleGrant []]) := by decide +kernel
  obtain ⟨pool, hrun, hpool⟩ := Option.map_eq_some_iff.1 hevaluate
  obtain ⟨hcalls, htrail⟩ := Prod.mk.inj hpool
  obtain ⟨c, hc⟩ : ∃ c, pool.calls = [c] := by
    have hlength := congrArg List.length hcalls
    rw [List.length_map] at hlength
    exact List.length_eq_one_iff.1 hlength
  rw [hc] at hcalls
  obtain ⟨call, operator, own, counts⟩ := c
  simp only [List.map_cons, List.map_nil, List.cons.injEq, Prod.mk.injEq, and_true] at hcalls
  obtain ⟨rfl, rfl⟩ := hcalls
  refine ⟨pool, hrun, by rw [hc]; rfl, htrail, _, by rw [hc]; exact List.mem_cons_self, ?_⟩
  intro hclosed
  obtain ⟨aToB, bToA, elapsed, reason, -, hown⟩ :=
    hclosed sampleGrant [] List.mem_cons_self
  cases hown

end Runs

end AccessRelay.Relay
